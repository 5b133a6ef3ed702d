import Mathlib.Data.List.Forall2
import Mathlib.Logic.Function.Basic
import Stm32SecurityLab.Bytes

/-!
# The event log

`log.c` of the research application: a ring of 32 records in RAM. A record goes to the place that
its sequence number selects, and what `log_show` walks over is reconstructed from the next number
and a count. `log_clear` resets the count, not the number. A write after the last number is dropped.

The history of a log is what has been asked of it. It knows nothing of the ring: which writes were
in time for a number, how many of them are behind the last clear, and how many writes there have
been since.

* `platform_millis` is an argument of each write.
* A payload is the memory behind its pointer, or nothing where the pointer is null.
* The walk of `log_show` is the list of the records it prints.

## Main definitions

* `EventLog`, `logInit`, `logWrite`, `logClear`, `shownRecords`
* `LogHistory` — what has been asked of a log
* `Remembers` — a log that is what its history says

## Main results

* `Remembers.step` — one call
* `event_log_keeps_newest` — every sequence of calls
-/

namespace Stm32SecurityLab

/-! ### The log -/

/-- `LOG_CAPACITY`. -/
def logCapacity : ℕ := 32

/-- `LOG_PAYLOAD`. -/
def logPayload : UInt8 := 12

/-- `log_severity_t`. -/
inductive LogSeverity where
  | debug
  | info
  | warning
  | error
  | critical
  deriving DecidableEq, Repr

/-- The number of a severity. -/
def LogSeverity.toUInt8 : LogSeverity → UInt8
  | .debug => 0
  | .info => 1
  | .warning => 2
  | .error => 3
  | .critical => 4

/-- `log_record_t`. -/
structure LogRecord where
  sequence : UInt32
  timestamp : UInt32
  source : UInt16
  event : UInt16
  severity : UInt8
  length : UInt8
  payload : ℕ → UInt8

/-- The static variables of `log.c`. -/
structure EventLog where
  records : ℕ → LogRecord
  nextSequence : UInt32
  count : UInt32
  dropped : UInt32

/-- The arguments of a `log_write`, and the time of the call. -/
structure LogEntry where
  timestamp : UInt32
  severity : LogSeverity
  source : UInt16
  event : UInt16
  payload : Option (ℕ → UInt8)
  length : UInt8

/-- `increment_dropped`. -/
def incrementDropped (log : EventLog) : EventLog :=
  if log.dropped ≠ 0xFFFFFFFF then { log with dropped := log.dropped + 1 } else log

/-- `log_init`. -/
def logInit (log : EventLog) : EventLog := { log with nextSequence := 1, count := 0, dropped := 0 }

/-- The length that is stored. -/
def LogEntry.storedLength (entry : LogEntry) : UInt8 :=
  if entry.length > logPayload then logPayload else entry.length

/-- The record that a write makes of the old contents of its place. -/
def LogEntry.record (entry : LogEntry) (sequence : UInt32) (old : LogRecord) : LogRecord where
  sequence := sequence
  timestamp := entry.timestamp
  source := entry.source
  event := entry.event
  severity := entry.severity.toUInt8
  length := entry.storedLength
  payload :=
    match entry.payload with
    | none => old.payload
    | some payload => fun i => if i < entry.storedLength.toNat then payload i else old.payload i

/-- `log_write`. -/
def logWrite (entry : LogEntry) (log : EventLog) : EventLog :=
  if log.nextSequence = 0 then
    incrementDropped log
  else
    let log := if entry.length > logPayload then incrementDropped log else log
    let slot := (log.nextSequence - 1).toNat % logCapacity
    let log :=
      { log with
        records := Function.update log.records slot
          (entry.record log.nextSequence (log.records slot)) }
    let log :=
      if log.count.toNat < logCapacity then { log with count := log.count + 1 }
      else incrementDropped log
    { log with
      nextSequence := if log.nextSequence = 0xFFFFFFFF then 0 else log.nextSequence + 1 }

/-- `log_clear`. -/
def logClear (log : EventLog) : EventLog := { log with count := 0, dropped := 0 }

/-- `log_last_sequence`. -/
def logLastSequence (log : EventLog) : UInt32 :=
  if log.nextSequence = 0 then 0xFFFFFFFF else log.nextSequence - 1

/-- The first sequence number of `log_show`. -/
def firstShown (log : EventLog) : UInt32 :=
  if log.count = 0 then 0 else logLastSequence log - log.count + 1

/-- The records that `log_show` walks over. -/
def shownRecords (log : EventLog) : List LogRecord :=
  (List.range log.count.toNat).map fun i =>
    log.records ((firstShown log + UInt32.ofNat i - 1).toNat % logCapacity)

/-- A call of the log. -/
inductive LogOp where
  | write (entry : LogEntry)
  | clear

/-- What a call does. -/
def LogOp.run : LogOp → EventLog → EventLog
  | .write entry => logWrite entry
  | .clear => logClear

/-- The place of the record that is written next. -/
def EventLog.nextPlace (log : EventLog) : ℕ := (log.nextSequence - 1).toNat % logCapacity

/-- What a sequence of calls does. -/
def runLog (ops : List LogOp) (log : EventLog) : EventLog := ops.foldl (fun log op => op.run log) log

/-- The numbers under which a sequence of calls stores its records. -/
def assignedNumbers : List LogOp → EventLog → List ℕ
  | [], _ => []
  | .write entry :: ops, log =>
    (if log.nextSequence = 0 then []
      else [((logWrite entry log).records log.nextPlace).sequence.toNat]) ++
      assignedNumbers ops (logWrite entry log)
  | .clear :: ops, log => assignedNumbers ops (logClear log)

/-! ### Histories -/

/-- How many sequence numbers there are. -/
def sequenceNumbers : ℕ := 0xFFFFFFFF

/-- What has been asked of a log since it was initialised. -/
structure LogHistory where
  /-- The writes that were in time for a sequence number, oldest first. -/
  accepted : List LogEntry := []
  /-- How many of them came before the last clear. -/
  cleared : ℕ := 0
  /-- The writes since the last clear, accepted or not. -/
  writes : ℕ := 0
  /-- Whether no payload since then was too long. -/
  short : Bool := true

/-- One more call. -/
def LogHistory.step (history : LogHistory) : LogOp → LogHistory
  | .write entry =>
    { history with
      accepted :=
        if history.accepted.length < sequenceNumbers then history.accepted ++ [entry]
        else history.accepted
      writes := history.writes + 1
      short := history.short && decide (entry.length ≤ logPayload) }
  | .clear => { history with cleared := history.accepted.length, writes := 0, short := true }

/-- The history of a sequence of calls. -/
def historyOf (ops : List LogOp) : LogHistory := ops.foldl LogHistory.step {}

/-- A record that holds what was written under a number. -/
structure Stores (number : ℕ) (entry : LogEntry) (record : LogRecord) : Prop where
  sequence : record.sequence.toNat = number
  timestamp : record.timestamp = entry.timestamp
  source : record.source = entry.source
  event : record.event = entry.event
  severity : record.severity = entry.severity.toUInt8
  length : record.length.toNat = min entry.length.toNat 12
  payload : ∀ payload, entry.payload = some payload → ∀ i < min entry.length.toNat 12,
    record.payload i = payload i

/-- A log that is what its history says. -/
structure Remembers (history : LogHistory) (log : EventLog) : Prop where
  cleared : history.cleared ≤ history.accepted.length
  accepted : history.accepted.length ≤ sequenceNumbers
  next : log.nextSequence = UInt32.ofNat (history.accepted.length + 1)
  count : log.count.toNat = min logCapacity (history.accepted.length - history.cleared)
  stores : ∀ k entry, history.accepted.length - log.count.toNat ≤ k →
    history.accepted[k]? = some entry → Stores (k + 1) entry (log.records (k % logCapacity))
  writes : history.accepted.length - history.cleared ≤ history.writes
  dropped : history.short = true →
    log.dropped.toNat = min (history.writes - log.count.toNat) 0xFFFFFFFF

section Steps

variable {history : LogHistory} {log : EventLog} {entry : LogEntry}

@[simp] theorem incrementDropped_toNat (log : EventLog) :
    (incrementDropped log).dropped.toNat = min (log.dropped.toNat + 1) 0xFFFFFFFF := by
  rw [incrementDropped]
  have hlt := log.dropped.toNat_lt
  by_cases h : log.dropped = 0xFFFFFFFF
  · rw [if_neg (not_not_intro h), h]
    rfl
  · rw [if_pos h]
    have hne : log.dropped.toNat ≠ 0xFFFFFFFF := fun hn => h (UInt32.toNat_inj.mp hn)
    show (log.dropped + 1).toNat = _
    rw [UInt32.toNat_add, show (1 : UInt32).toNat = 1 from rfl]
    omega

@[simp] theorem incrementDropped_records (log : EventLog) :
    (incrementDropped log).records = log.records := by
  rw [incrementDropped]
  split <;> rfl

@[simp] theorem incrementDropped_count (log : EventLog) :
    (incrementDropped log).count = log.count := by
  rw [incrementDropped]
  split <;> rfl

@[simp] theorem incrementDropped_nextSequence (log : EventLog) :
    (incrementDropped log).nextSequence = log.nextSequence := by
  rw [incrementDropped]
  split <;> rfl

theorem storedLength_toNat (entry : LogEntry) :
    entry.storedLength.toNat = min entry.length.toNat 12 := by
  rw [LogEntry.storedLength, logPayload]
  by_cases h : entry.length > 12
  · have hlt : 12 < entry.length.toNat := UInt8.lt_iff_toNat_lt.mp h
    rw [if_pos h, show (12 : UInt8).toNat = 12 from rfl]
    omega
  · have hle : entry.length.toNat ≤ 12 := UInt8.le_iff_toNat_le.mp (UInt8.not_lt.mp h)
    rw [if_neg h]
    omega

/-- A record that has just been written. -/
theorem stores_record {sequence : UInt32} (old : LogRecord) :
    Stores sequence.toNat entry (entry.record sequence old) where
  sequence := rfl
  timestamp := rfl
  source := rfl
  event := rfl
  severity := rfl
  length := storedLength_toNat entry
  payload := by
    intro payload hpayload i hi
    rw [← storedLength_toNat] at hi
    simp only [LogEntry.record, hpayload, if_pos hi]

/-- The next number after `n` accepted writes is zero exactly when they used up the numbers. -/
theorem ofNat_succ_eq_zero_iff {n : ℕ} (hn : n ≤ sequenceNumbers) :
    UInt32.ofNat (n + 1) = 0 ↔ n = sequenceNumbers := by
  rw [← UInt32.toNat_inj, UInt32.toNat_ofNat', show (0 : UInt32).toNat = 0 from rfl]
  rw [sequenceNumbers] at *
  omega

theorem toNat_ofNat_succ {n : ℕ} (hn : n < sequenceNumbers) :
    (UInt32.ofNat (n + 1)).toNat = n + 1 := by
  rw [UInt32.toNat_ofNat']
  rw [sequenceNumbers] at hn
  omega

/-- A write that is too late only counts. -/
theorem logWrite_of_exhausted (h : log.nextSequence = 0) :
    logWrite entry log = incrementDropped log := by
  rw [logWrite, if_pos h]

section InTime

variable (h : log.nextSequence ≠ 0)
include h

theorem logWrite_records :
    (logWrite entry log).records = Function.update log.records log.nextPlace
      (entry.record log.nextSequence (log.records log.nextPlace)) := by
  rw [logWrite, if_neg h, EventLog.nextPlace]
  by_cases hlong : entry.length > logPayload <;>
    by_cases hfull : log.count.toNat < logCapacity <;> simp [hlong, hfull]

theorem logWrite_nextSequence :
    (logWrite entry log).nextSequence = log.nextSequence + 1 := by
  have hwrap : (0 : UInt32) = 0xFFFFFFFF + 1 := rfl
  rw [logWrite, if_neg h]
  by_cases hlong : entry.length > logPayload <;>
    by_cases hfull : log.count.toNat < logCapacity <;>
      by_cases hlast : log.nextSequence = 0xFFFFFFFF <;> simp [hlong, hfull, hlast, hwrap]

theorem logWrite_count :
    (logWrite entry log).count =
      if log.count.toNat < logCapacity then log.count + 1 else log.count := by
  rw [logWrite, if_neg h]
  by_cases hlong : entry.length > logPayload <;>
    by_cases hfull : log.count.toNat < logCapacity <;> simp [hlong, hfull]

theorem logWrite_dropped (hshort : entry.length ≤ logPayload) :
    (logWrite entry log).dropped.toNat =
      if log.count.toNat < logCapacity then log.dropped.toNat
      else min (log.dropped.toNat + 1) 0xFFFFFFFF := by
  rw [logWrite, if_neg h]
  by_cases hfull : log.count.toNat < logCapacity <;> simp [UInt8.not_lt.mpr hshort, hfull]

end InTime

/-- A short write is either counted or dropped. -/
theorem dropped_write {length cleared writes count dropped bound : ℕ}
    (hwrites : length - cleared ≤ writes) (hcleared : cleared ≤ length)
    (hcount : count = min logCapacity (length - cleared))
    (hdropped : dropped = min (writes - count) bound) :
    (if count < logCapacity then dropped else min (dropped + 1) bound) =
      min (writes + 1 - min logCapacity (length + 1 - cleared)) bound := by
  split <;> omega

namespace Remembers

theorem count_le (hlog : Remembers history log) : log.count.toNat ≤ logCapacity := by
  rw [hlog.count]
  exact Nat.min_le_left _ _

theorem exhausted_iff (hlog : Remembers history log) :
    log.nextSequence = 0 ↔ history.accepted.length = sequenceNumbers := by
  rw [hlog.next]
  exact ofNat_succ_eq_zero_iff hlog.accepted

/-- A log that has just been initialised. -/
theorem init (log : EventLog) : Remembers {} (logInit log) where
  cleared := le_rfl
  accepted := Nat.zero_le _
  next := rfl
  count := rfl
  stores := fun _ _ _ hk => nomatch hk
  writes := le_rfl
  dropped := fun _ => rfl

theorem clear (hlog : Remembers history log) :
    Remembers (history.step .clear) (logClear log) where
  cleared := le_rfl
  accepted := hlog.accepted
  next := hlog.next
  count := by
    show 0 = min logCapacity (history.accepted.length - history.accepted.length)
    rw [Nat.sub_self, Nat.min_zero]
  stores := by
    intro k entry hk hget
    have hlt : k < history.accepted.length := (List.getElem?_eq_some_iff.mp hget).1
    exact absurd hk (not_le.mpr hlt)
  writes := (Nat.sub_self _).le
  dropped := fun _ => rfl

/-- A write after the last number. -/
theorem write_of_exhausted (hlog : Remembers history log) (h : log.nextSequence = 0) :
    Remembers (history.step (.write entry)) (logWrite entry log) := by
  have hfull : ¬ history.accepted.length < sequenceNumbers := by
    rw [hlog.exhausted_iff.mp h]
    exact lt_irrefl _
  have hcount : log.count.toNat ≤ history.writes := by
    rw [hlog.count]
    exact (Nat.min_le_right _ _).trans hlog.writes
  rw [logWrite_of_exhausted h]
  simp only [LogHistory.step, if_neg hfull]
  refine
    { cleared := hlog.cleared
      accepted := hlog.accepted
      next := by rw [incrementDropped_nextSequence, hlog.next]
      count := by rw [incrementDropped_count, hlog.count]
      stores := by
        rw [incrementDropped_count, incrementDropped_records]
        exact hlog.stores
      writes := hlog.writes.trans (Nat.le_succ _)
      dropped := ?_ }
  intro hshort
  have hdropped := hlog.dropped (Bool.and_eq_true_iff.mp hshort).1
  rw [incrementDropped_toNat, incrementDropped_count, hdropped]
  show min (min (history.writes - log.count.toNat) _ + 1) _ =
    min (history.writes + 1 - log.count.toNat) _
  omega

/-- The last number is that of the last accepted write. -/
theorem last_toNat (hlog : Remembers history log) :
    (logLastSequence log).toNat = history.accepted.length := by
  rw [logLastSequence]
  by_cases h : log.nextSequence = 0
  · rw [if_pos h, hlog.exhausted_iff.mp h]
    rfl
  · have hlt : history.accepted.length < sequenceNumbers :=
      lt_of_le_of_ne hlog.accepted (fun he => h (hlog.exhausted_iff.mpr he))
    have hone : (1 : UInt32) ≤ log.nextSequence := by
      rw [UInt32.le_iff_toNat_le, hlog.next, toNat_ofNat_succ hlt]
      exact Nat.le_add_left 1 _
    rw [if_neg h, UInt32.toNat_sub_of_le _ _ hone, hlog.next, toNat_ofNat_succ hlt]
    rfl

/-- The place of the next record is that of its index. -/
theorem nextPlace_eq (hlog : Remembers history log) (h : log.nextSequence ≠ 0) :
    log.nextPlace = history.accepted.length % logCapacity := by
  have hlast := hlog.last_toNat
  rw [logLastSequence, if_neg h] at hlast
  rw [EventLog.nextPlace, hlast]

/-- A write under the next number: it takes the place of the record that is `logCapacity` older,
and the records that are still counted stand elsewhere. -/
theorem write_of_ne_zero (hlog : Remembers history log) (h : log.nextSequence ≠ 0) :
    Remembers (history.step (.write entry)) (logWrite entry log) := by
  have hlt : history.accepted.length < sequenceNumbers :=
    lt_of_le_of_ne hlog.accepted (fun he => h (hlog.exhausted_iff.mpr he))
  have hle := hlog.count_le
  have hcleared := hlog.cleared
  have hwrites := hlog.writes
  have hold := hlog.count
  have hcount : (logWrite entry log).count.toNat =
      min logCapacity (history.accepted.length + 1 - history.cleared) := by
    rw [logWrite_count h]
    split
    · rw [UInt32.toNat_add, show (1 : UInt32).toNat = 1 from rfl]
      rw [logCapacity] at *
      omega
    · omega
  simp only [LogHistory.step, if_pos hlt]
  refine
    { cleared := ?_
      accepted := ?_
      next := ?_
      count := ?_
      stores := ?_
      writes := ?_
      dropped := ?_ }
  · rw [List.length_append]
    exact hcleared.trans (Nat.le_add_right _ _)
  · rw [List.length_append]
    exact hlt
  · rw [logWrite_nextSequence h, hlog.next, List.length_append, List.length_singleton,
      UInt32.ofNat_add (_ + 1) 1]
    rfl
  · rw [hcount, List.length_append, List.length_singleton]
  · intro k e hk hget
    rw [logWrite_records h, hlog.nextPlace_eq h]
    rw [hcount, List.length_append, List.length_singleton] at hk
    by_cases hlast : k = history.accepted.length
    · subst hlast
      rw [List.getElem?_concat_length, Option.some.injEq] at hget
      rw [Function.update_self, ← hget, ← toNat_ofNat_succ hlt, ← hlog.next]
      exact stores_record _
    · have hk' : k < history.accepted.length := by
        have hlen := (List.getElem?_eq_some_iff.mp hget).1
        rw [List.length_append, List.length_singleton] at hlen
        omega
      have hplace : k % logCapacity ≠ history.accepted.length % logCapacity := by
        rw [logCapacity] at *
        omega
      rw [List.getElem?_append_left hk'] at hget
      rw [Function.update_of_ne hplace]
      exact hlog.stores k e (by omega) hget
  · rw [List.length_append, List.length_singleton]
    show history.accepted.length + 1 - history.cleared ≤ history.writes + 1
    omega
  · intro hshort
    obtain ⟨hshort, hentry⟩ := Bool.and_eq_true_iff.mp hshort
    have hdropped := hlog.dropped hshort
    rw [logWrite_dropped h (of_decide_eq_true hentry), hcount]
    exact dropped_write hwrites hcleared hold hdropped

/-- One call. -/
theorem step (hlog : Remembers history log) (op : LogOp) :
    Remembers (history.step op) (op.run log) := by
  cases op with
  | clear => exact hlog.clear
  | write entry =>
    by_cases h : log.nextSequence = 0
    · exact hlog.write_of_exhausted h
    · exact hlog.write_of_ne_zero h

/-- Every sequence of calls. -/
theorem run (hlog : Remembers history log) (ops : List LogOp) :
    Remembers (ops.foldl LogHistory.step history) (runLog ops log) := by
  induction ops generalizing history log with
  | nil => exact hlog
  | cons op ops ih => exact ih (hlog.step op)

/-- The records that are walked over start after the older accepted writes. -/
theorem place_shown (hlog : Remembers history log) {i : ℕ} (hi : i < log.count.toNat) :
    (firstShown log + UInt32.ofNat i - 1).toNat =
      history.accepted.length - log.count.toNat + i := by
  have hle := hlog.count
  have haccepted := hlog.accepted
  have hlast := hlog.last_toNat
  rw [sequenceNumbers] at haccepted
  have hcount : log.count ≠ 0 := by
    intro h
    rw [h] at hi
    exact absurd hi (Nat.not_lt_zero i)
  have hback : log.count ≤ logLastSequence log := by
    rw [UInt32.le_iff_toNat_le, hlast]
    omega
  have hmove : firstShown log + UInt32.ofNat i - 1 =
      logLastSequence log - log.count + UInt32.ofNat i := by
    rw [firstShown, if_neg hcount]
    grind
  rw [hmove, UInt32.toNat_add, UInt32.toNat_sub_of_le _ _ hback, hlast, UInt32.toNat_ofNat']
  omega

/-- The records that `log_show` walks over hold the newest accepted writes. -/
theorem shown (hlog : Remembers history log) {i : ℕ} (hi : i < log.count.toNat) :
    ∃ entry record,
      history.accepted[history.accepted.length - log.count.toNat + i]? = some entry ∧
      (shownRecords log)[i]? = some record ∧
      Stores (history.accepted.length - log.count.toNat + i + 1) entry record := by
  have hcount := hlog.count
  have hlt : history.accepted.length - log.count.toNat + i < history.accepted.length := by omega
  refine ⟨_, _, List.getElem?_eq_getElem hlt, ?_,
    hlog.stores _ _ (Nat.le_add_right _ _) (List.getElem?_eq_getElem hlt)⟩
  rw [shownRecords, List.getElem?_map, List.getElem?_range hi, Option.map_some,
    hlog.place_shown hi]

/-- Numbers are given out in increasing order. -/
theorem assignedNumbers_pairwise (hlog : Remembers history log) (ops : List LogOp) :
    (∀ n ∈ assignedNumbers ops log, history.accepted.length < n) ∧
      (assignedNumbers ops log).Pairwise (· < ·) := by
  induction ops generalizing history log with
  | nil => exact ⟨(fun _ hn => nomatch hn), List.Pairwise.nil⟩
  | cons op ops ih =>
    obtain ⟨hmore, hpairwise⟩ := ih (hlog.step op)
    cases op with
    | clear => exact ⟨hmore, hpairwise⟩
    | write entry =>
      rw [assignedNumbers]
      by_cases h : log.nextSequence = 0
      · have hfull : ¬ history.accepted.length < sequenceNumbers := by
          rw [hlog.exhausted_iff.mp h]
          exact lt_irrefl _
        simp only [LogHistory.step, if_neg hfull] at hmore
        rw [if_pos h]
        exact ⟨hmore, hpairwise⟩
      · have hlt : history.accepted.length < sequenceNumbers :=
          lt_of_le_of_ne hlog.accepted (fun he => h (hlog.exhausted_iff.mpr he))
        have hnumber : ((logWrite entry log).records log.nextPlace).sequence.toNat =
            history.accepted.length + 1 := by
          rw [logWrite_records h, Function.update_self]
          show log.nextSequence.toNat = _
          rw [hlog.next, toNat_ofNat_succ hlt]
        simp only [LogHistory.step, if_pos hlt, List.length_append, List.length_singleton] at hmore
        rw [if_neg h, hnumber, List.singleton_append]
        refine ⟨?_, List.Pairwise.cons hmore hpairwise⟩
        intro n hn
        rcases List.mem_cons.mp hn with rfl | hn
        · exact Nat.lt_succ_self _
        · exact Nat.lt_of_succ_lt (hmore n hn)

end Remembers

/-- No call changes a record after the last number. -/
theorem runLog_of_exhausted (ops : List LogOp) (h : log.nextSequence = 0) :
    (runLog ops log).nextSequence = 0 ∧ (runLog ops log).records = log.records := by
  induction ops generalizing log with
  | nil => exact ⟨h, rfl⟩
  | cons op ops ih =>
    have hstep : (op.run log).nextSequence = 0 ∧ (op.run log).records = log.records := by
      cases op with
      | clear => exact ⟨h, rfl⟩
      | write entry =>
        rw [LogOp.run, logWrite_of_exhausted h]
        exact ⟨(incrementDropped_nextSequence log).trans h, incrementDropped_records log⟩
    obtain ⟨hnext, hrecords⟩ := ih hstep.1
    exact ⟨hnext, hrecords.trans hstep.2⟩

@[simp] theorem length_shownRecords (log : EventLog) :
    (shownRecords log).length = log.count.toNat := by
  rw [shownRecords, List.length_map, List.length_range]

/-- The shown records hold the newest accepted writes since the last clear. -/
theorem Remembers.forall₂_shown (hlog : Remembers history log) :
    List.Forall₂ (fun entry record => Stores record.sequence.toNat entry record)
      ((history.accepted.drop history.cleared).drop
        ((history.accepted.drop history.cleared).length - log.count.toNat))
      (shownRecords log) := by
  have hcount := hlog.count
  have hcleared := hlog.cleared
  have hdrop : history.cleared + (history.accepted.length - history.cleared - log.count.toNat) =
      history.accepted.length - log.count.toNat := by
    omega
  rw [List.drop_drop, List.length_drop, hdrop, List.forall₂_iff_get]
  refine ⟨?_, ?_⟩
  · rw [List.length_drop, length_shownRecords]
    omega
  · intro i _ hi
    obtain ⟨entry, record, hentry, hrecord, hstores⟩ :=
      hlog.shown ((length_shownRecords log).symm ▸ hi)
    obtain ⟨_, rfl⟩ := List.getElem?_eq_some_iff.mp hentry
    obtain ⟨_, rfl⟩ := List.getElem?_eq_some_iff.mp hrecord
    rw [← hstores.sequence] at hstores
    simpa using hstores

/-- Their numbers are consecutive and end at the last one. -/
theorem Remembers.sequence_shown (hlog : Remembers history log) :
    (shownRecords log).map (·.sequence.toNat) =
      List.range' ((logLastSequence log).toNat + 1 - log.count.toNat) log.count.toNat := by
  have hcount := hlog.count
  refine List.ext_getElem (by simp) ?_
  intro i hi _
  rw [List.length_map] at hi
  obtain ⟨_, _, _, hrecord, hstores⟩ := hlog.shown ((length_shownRecords log).symm ▸ hi)
  obtain ⟨_, rfl⟩ := List.getElem?_eq_some_iff.mp hrecord
  rw [List.getElem_map, hstores.sequence, List.getElem_range', hlog.last_toNat]
  omega

/-- The history of one short write again and again. -/
theorem historyOf_replicate (hentry : entry.length ≤ logPayload) {n : ℕ}
    (hn : n ≤ sequenceNumbers) :
    historyOf (List.replicate n (.write entry)) =
      { accepted := List.replicate n entry, cleared := 0, writes := n, short := true } := by
  induction n with
  | zero => rfl
  | succ n ih =>
    have hlt : (List.replicate n entry).length < sequenceNumbers := by
      rw [List.length_replicate]
      exact hn
    rw [List.replicate_succ', historyOf, List.foldl_append, ← historyOf, ih (Nat.le_of_succ_le hn)]
    simp only [List.foldl_cons, List.foldl_nil, LogHistory.step, if_pos hlt, decide_eq_true hentry,
      Bool.and_self, List.replicate_succ']

end Steps

/-- Whatever is written and cleared after `log_init`, the log shows the newest accepted writes since
the last clear, and no number is given twice. A write that is neither shown nor counted as dropped
does not exist as long as payloads are short, and an exhausted log keeps its records. -/
theorem event_log_keeps_newest (log₀ : EventLog) (ops : List LogOp) :
    let log := runLog ops (logInit log₀)
    let history := historyOf ops
    let fresh := history.accepted.drop history.cleared
    log.count.toNat ≤ 32 ∧
    log.count.toNat = min 32 fresh.length ∧
    List.Forall₂ (fun entry record => Stores record.sequence.toNat entry record)
      (fresh.drop (fresh.length - log.count.toNat)) (shownRecords log) ∧
    (shownRecords log).map (·.sequence.toNat) =
      List.range' ((logLastSequence log).toNat + 1 - log.count.toNat) log.count.toNat ∧
    (assignedNumbers ops (logInit log₀)).Nodup ∧
    (history.short = true → log.count.toNat ≤ history.writes ∧
      log.dropped.toNat = min (history.writes - log.count.toNat) 0xFFFFFFFF) ∧
    (log.nextSequence = 0 → ∀ more, (runLog more log).records = log.records) := by
  intro log history fresh
  have hlog : Remembers history log := (Remembers.init log₀).run ops
  have hcount := hlog.count
  have hwrites := hlog.writes
  refine ⟨hlog.count_le, ?_, hlog.forall₂_shown, hlog.sequence_shown, ?_, ?_, ?_⟩
  · rw [hcount, List.length_drop]
    rfl
  · exact ((Remembers.init log₀).assignedNumbers_pairwise ops).2.imp Nat.ne_of_lt
  · intro hshort
    exact ⟨by omega, hlog.dropped hshort⟩
  · intro hnext more
    exact (runLog_of_exhausted more hnext).2

/-- A log of zeros. -/
def zeroLog : EventLog where
  records := fun _ => ⟨0, 0, 0, 0, 0, 0, fun _ => 0⟩
  nextSequence := 0
  count := 0
  dropped := 0

/-- An event without a payload. -/
def bareEvent : LogEntry := ⟨7, .info, 3, 9, none, 0⟩

/-- A log whose numbers are used up by one event. -/
theorem event_log_keeps_newest_exhausted :
    let log := runLog (List.replicate sequenceNumbers (.write bareEvent)) (logInit zeroLog)
    log.nextSequence = 0 ∧ log.count.toNat = 32 ∧
    log.dropped.toNat = min (sequenceNumbers - 32) 0xFFFFFFFF ∧
    ∀ more, (runLog more log).records = log.records := by
  -- the number of writes is a variable, so that no list of that length is ever evaluated
  obtain ⟨n, hn⟩ : ∃ n, n = sequenceNumbers := ⟨_, rfl⟩
  rw [← hn]
  have hhistory := historyOf_replicate (show bareEvent.length ≤ logPayload by decide) hn.le
  obtain ⟨-, hcount, -, -, -, hdropped, hfixed⟩ :=
    event_log_keeps_newest zeroLog (List.replicate n (.write bareEvent))
  have hlog := (Remembers.init zeroLog).run (List.replicate n (.write bareEvent))
  rw [← historyOf] at hlog
  rw [hhistory] at hlog hcount hdropped
  have hnext := hlog.exhausted_iff.mpr (List.length_replicate.trans hn)
  rw [List.drop_zero, List.length_replicate] at hcount
  have hshown := hcount.trans (Nat.min_eq_left (hn.symm ▸ by decide))
  refine ⟨hnext, hshown, ?_, hfixed hnext⟩
  rw [← hshown]
  exact (hdropped rfl).2

end Stm32SecurityLab
