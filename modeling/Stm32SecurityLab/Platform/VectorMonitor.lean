import Mathlib.Data.List.Range
import Mathlib.Data.List.TakeWhile
import Mathlib.Order.Interval.Finset.Nat
import Stm32SecurityLab.Platform.RuntimeMonitor

/-!
# Runs of the vector monitor

What the vector monitor has found after a start and any sequence of steps, each with its own vector
table, `VTOR` and budget.

A run is told by its observations: every look at `VTOR`, every look at an entry of the table, and
every cycle that has been completed, in order. A step completes a cycle when it has looked at the
last entry, the start when it has gone through the whole table. A start that stops at a failure
completes none.

The observations determine the monitor: they are what its cursor, its latch and its counters are
about.

## Main definitions

* `VectorView`, `VectorCall`, `monitorAfter` — calls of the monitor
* `Observation`, `observeStart`, `observedAfter` — what a run looks at
* `Tallies`, `Watched` — a monitor that is what has been observed

## Main results

* `Tallies.examine`, `Tallies.complete`, `Watched.run`
* `vector_monitor_sound`
-/

namespace Stm32SecurityLab

/-- What a call of the monitor finds. -/
structure VectorView where
  table : ℕ → UInt32
  currentVtor : UInt32
  eventSequence : UInt32

/-- A call of `rsm_vector_monitor_step`. -/
structure VectorCall extends VectorView where
  entryBudget : ℕ

/-- `rsm_vector_public_status_name`. -/
def rsmVectorPublicStatusName (snapshot : RsmVectorSnapshot) : String :=
  if snapshot.available = false ∨ snapshot.status = .uninitialized ∨
      snapshot.status = .baselineUnavailable then
    "unavailable"
  else if snapshot.latchedFailure = true ∨ snapshot.status ≠ .pass then "fail"
  else "pass"

/-- The monitor after a start. -/
def startMonitor (config : RsmVectorConfig) (view : VectorView) : RsmStatus × RsmVectorMonitor :=
  rsmVectorMonitorInit config view.table view.currentVtor view.eventSequence

/-- The monitor after a step. -/
def VectorCall.run (call : VectorCall) (m : RsmVectorMonitor) : RsmVectorMonitor :=
  (rsmVectorMonitorStep m call.table call.currentVtor call.eventSequence call.entryBudget).2

/-- The monitor after a sequence of steps. -/
def monitorAfter (calls : List VectorCall) (m : RsmVectorMonitor) : RsmVectorMonitor :=
  calls.foldl (fun m call => call.run m) m

/-! ### Observations -/

/-- What the monitor looks at, and the cycles it completes. -/
inductive Observation where
  | vtor (passed : Bool)
  | entry (index : ℕ) (passed : Bool)
  | cycle (eventSequence : UInt32)
  deriving DecidableEq, Repr

namespace Observation

/-- Whether nothing wrong was seen. -/
def passed : Observation → Bool
  | .vtor passed => passed
  | .entry _ passed => passed
  | .cycle _ => true

/-- The entry that was looked at. -/
def index? : Observation → Option ℕ
  | .entry index _ => some index
  | _ => none

/-- The event sequence of a completed cycle. -/
def cycle? : Observation → Option UInt32
  | .cycle eventSequence => some eventSequence
  | _ => none

end Observation

/-- A look at `VTOR`. -/
def observeVtor (config : RsmVectorConfig) (view : VectorView) : Observation :=
  .vtor (decide (validateVtor config view.currentVtor = .pass))

/-- A look at an entry. -/
def observeEntry (config : RsmVectorConfig) (view : VectorView) (index : ℕ) : Observation :=
  .entry index (decide (validateEntry config index (view.table index) = .pass))

/-- What the loop at start looks at: it stops at the first failure. -/
def observeStartEntries (config : RsmVectorConfig) (view : VectorView) : List ℕ → List Observation
  | [] => [.cycle view.eventSequence]
  | index :: rest =>
    observeEntry config view index ::
      if (observeEntry config view index).passed = true then observeStartEntries config view rest
      else []

/-- What a start looks at. -/
def observeStart (config : RsmVectorConfig) (view : VectorView) : List Observation :=
  observeVtor config view ::
    if (observeVtor config view).passed = true then
      observeStartEntries config view (List.range config.entryCount)
    else []

/-- What a step looks at in `fuel` entries, from the entry `index` on. -/
def observeEntries (config : RsmVectorConfig) (view : VectorView) : ℕ → ℕ → List Observation
  | 0, _ => []
  | fuel + 1, index =>
    observeEntry config view index ::
      ((if index + 1 ≥ config.entryCount then [.cycle view.eventSequence] else []) ++
        observeEntries config view fuel (config.advance index))

/-- What a step looks at. -/
def VectorCall.observed (call : VectorCall) (m : RsmVectorMonitor) : List Observation :=
  if call.entryBudget = 0 then []
  else
    observeVtor m.config call.toVectorView ::
      if (observeVtor m.config call.toVectorView).passed = true then
        observeEntries m.config call.toVectorView (min call.entryBudget m.config.entryCount)
          m.nextIndex
      else []

/-- What a sequence of steps looks at. -/
def observedAfter : List VectorCall → RsmVectorMonitor → List Observation
  | [], _ => []
  | call :: calls, m => call.observed m ++ observedAfter calls (call.run m)

/-- The entries that were looked at, in order. -/
def examined (history : List Observation) : List ℕ := history.filterMap Observation.index?

/-- The event sequences of the completed cycles, in order. -/
def cyclesIn (history : List Observation) : List UInt32 := history.filterMap Observation.cycle?

/-- Whether nothing wrong was seen at all. -/
def AllPassed (history : List Observation) : Bool := history.all Observation.passed

/-- The cycles that were completed before anything wrong was seen. -/
def cyclesBeforeFailure (history : List Observation) : List UInt32 :=
  cyclesIn (history.takeWhile Observation.passed)

/-! ### What has been observed -/

/-- The latch and the counters are those of what has been observed. -/
structure Tallies (history : List Observation) (m : RsmVectorMonitor) : Prop where
  latched : m.snapshot.latchedFailure = !AllPassed history
  flag : AllPassed history = true → m.currentCycleFailed = false
  failures : m.snapshot.failureCount = if AllPassed history = true then 0 else 1
  checks : m.snapshot.checkCount.toNat = min (cyclesIn history).length 0xFFFFFFFF
  success : m.snapshot.lastSuccessfulSequence = (cyclesBeforeFailure history).getLast?.getD 0

/-- The entries have been looked at one after the other, round and round. -/
def RoundRobin (count : ℕ) (indices : List ℕ) : Prop :=
  indices = (List.range indices.length).map (· % count)

/-- A monitor between two calls. -/
structure Watched (config : RsmVectorConfig) (history : List Observation) (m : RsmVectorMonitor) :
    Prop extends Tallies history m where
  unchanged : m.config = config
  order : RoundRobin config.entryCount (examined history)
  cursor : m.nextIndex = (examined history).length % config.entryCount
  available : m.snapshot.available = true
  status : AllPassed history = true → m.snapshot.status = .pass

section Histories

variable {history : List Observation} {observation : Observation} {count : ℕ} {indices : List ℕ}

@[simp] theorem examined_append (first second : List Observation) :
    examined (first ++ second) = examined first ++ examined second :=
  List.filterMap_append

@[simp] theorem cyclesIn_append (first second : List Observation) :
    cyclesIn (first ++ second) = cyclesIn first ++ cyclesIn second :=
  List.filterMap_append

@[simp] theorem allPassed_append (first second : List Observation) :
    AllPassed (first ++ second) = (AllPassed first && AllPassed second) :=
  List.all_append

@[simp] theorem allPassed_singleton (observation : Observation) :
    AllPassed [observation] = observation.passed := by
  simp [AllPassed]

/-- Nothing is completed before a failure any more after one. -/
theorem cyclesBeforeFailure_append (first second : List Observation) :
    cyclesBeforeFailure (first ++ second) =
      cyclesBeforeFailure first ++
        if AllPassed first = true then cyclesBeforeFailure second else [] := by
  rw [cyclesBeforeFailure]
  by_cases h : AllPassed first = true
  · rw [if_pos h, List.takeWhile_append_of_pos (List.all_eq_true.mp h), cyclesIn_append,
      cyclesBeforeFailure, cyclesBeforeFailure, List.takeWhile_eq_self_iff.mpr
      (List.all_eq_true.mp h)]
  · rw [if_neg h, List.append_nil, cyclesBeforeFailure]
    congr 1
    rw [List.takeWhile_append, if_neg]
    intro hlength
    refine h (List.all_eq_true.mpr ?_)
    exact List.takeWhile_eq_self_iff.mp
      ((List.takeWhile_prefix _).eq_of_length hlength)

theorem RoundRobin.concat (h : RoundRobin count indices) :
    RoundRobin count (indices ++ [indices.length % count]) := by
  rw [RoundRobin, List.length_append, List.length_singleton, List.range_succ, List.map_append,
    ← h]
  rfl

theorem roundRobin_range {n : ℕ} (hn : n ≤ count) : RoundRobin count (List.range n) := by
  rw [RoundRobin, List.length_range]
  refine (List.map_id' _).symm.trans (List.map_congr_left fun i hi => ?_)
  exact (Nat.mod_eq_of_lt ((List.mem_range.mp hi).trans_le hn)).symm

/-- In one round every index has its turn once, wherever the round begins. -/
theorem RoundRobin.window (h : RoundRobin count indices) {i : ℕ}
    (hi : i + count ≤ indices.length) : ((indices.drop i).take count).Perm (List.range count) := by
  have hwindow : ((List.range indices.length).drop i).take count = List.range' i count := by
    refine List.ext_getElem (by simp; omega) ?_
    intro j _ _
    simp
  rw [h, ← List.map_drop, ← List.map_take, hwindow, ← Multiset.coe_eq_coe, ← Multiset.map_coe]
  have hround : Multiset.map (· % count) (List.range' i (i + count - i) : Multiset ℕ) =
      (List.range count : Multiset ℕ) := Nat.multiset_Ico_map_mod i count
  rw [Nat.add_sub_cancel_left] at hround
  exact hround

/-- The cursor goes round. -/
theorem advance_mod {config : RsmVectorConfig} {n : ℕ} (hcount : config.entryCount ≠ 0) :
    config.advance (n % config.entryCount) = (n + 1) % config.entryCount := by
  have hlt : n % config.entryCount < config.entryCount := Nat.mod_lt n (Nat.pos_of_ne_zero hcount)
  rw [RsmVectorConfig.advance, ← Nat.mod_add_mod n config.entryCount 1]
  by_cases hlast : n % config.entryCount + 1 ≥ config.entryCount
  · have heq : n % config.entryCount + 1 = config.entryCount := by omega
    rw [if_pos hlast, heq, Nat.mod_self]
  · rw [if_neg hlast, Nat.mod_eq_of_lt (not_le.mp hlast)]

end Histories

section Steps

variable {config : RsmVectorConfig} {history : List Observation} {observation : Observation}
  {m : RsmVectorMonitor} {view : VectorView}

namespace Tallies

/-- Something that is as it should be changes no tally. -/
theorem passes (htallies : Tallies history m) (hpassed : observation.passed = true)
    (hcycle : observation.cycle? = none) : Tallies (history ++ [observation]) m := by
  have hall : AllPassed (history ++ [observation]) = AllPassed history := by
    rw [allPassed_append, allPassed_singleton, hpassed, Bool.and_true]
  have hcycles : cyclesIn [observation] = [] := by simp [cyclesIn, hcycle]
  have hbefore : cyclesBeforeFailure [observation] = [] := by
    simp [cyclesBeforeFailure, hpassed, cyclesIn, hcycle]
  refine
    { latched := by rw [hall, htallies.latched]
      flag := by
        rw [hall]
        exact htallies.flag
      failures := by rw [hall, htallies.failures]
      checks := by rw [cyclesIn_append, hcycles, List.append_nil, htallies.checks]
      success := ?_ }
  rw [cyclesBeforeFailure_append, hbefore, ite_self, List.append_nil, htallies.success]

/-- The first failure is counted, every failure is latched. -/
theorem fails (htallies : Tallies history m) (hpassed : observation.passed = false)
    (hcycle : observation.cycle? = none) (status : RsmVectorStatus) (index : ℕ)
    (expected observed : UInt32) :
    Tallies (history ++ [observation]) (m.recordFailure status index expected observed) := by
  have hall : AllPassed (history ++ [observation]) = false := by
    rw [allPassed_append, allPassed_singleton, hpassed, Bool.and_false]
  have hcycles : cyclesIn [observation] = [] := by simp [cyclesIn, hcycle]
  have hbefore : cyclesBeforeFailure [observation] = [] := by
    simp [cyclesBeforeFailure, hpassed, cyclesIn]
  refine
    { latched := by rw [hall]; rfl
      flag := by
        rw [hall]
        exact fun h => nomatch h
      failures := ?_
      checks := by
        rw [cyclesIn_append, hcycles, List.append_nil]
        exact htallies.checks
      success := ?_ }
  · show (if m.snapshot.latchedFailure = false then rsmSaturatingIncrement m.snapshot.failureCount
      else m.snapshot.failureCount) = _
    rw [htallies.failures, htallies.latched, hall]
    by_cases h : AllPassed history = true
    · rw [h]
      rfl
    · rw [Bool.not_eq_true] at h
      rw [h]
      rfl
  · rw [cyclesBeforeFailure_append, hbefore, ite_self, List.append_nil]
    exact htallies.success

theorem toNat_saturatingIncrement (value : UInt32) :
    (rsmSaturatingIncrement value).toNat = min (value.toNat + 1) 0xFFFFFFFF := by
  have hlt := value.toNat_lt
  rw [rsmSaturatingIncrement]
  by_cases h : value ≥ 0xFFFFFFFE
  · have hle : 0xFFFFFFFE ≤ value.toNat := UInt32.le_iff_toNat_le.mp h
    rw [if_pos h, show (0xFFFFFFFF : UInt32).toNat = 0xFFFFFFFF from rfl]
    omega
  · have hnot : value.toNat < 0xFFFFFFFE := UInt32.lt_iff_toNat_lt.mp (UInt32.not_le.mp h)
    rw [if_neg h, UInt32.toNat_add, show (1 : UInt32).toNat = 1 from rfl]
    omega

/-- A completed cycle is counted, and is the last successful one as long as nothing is wrong. -/
theorem succeeds (htallies : Tallies history m) (eventSequence : UInt32) :
    Tallies (history ++ [.cycle eventSequence])
      { m with
        snapshot :=
          { m.snapshot with
            checkCount := rsmSaturatingIncrement m.snapshot.checkCount
            lastSuccessfulSequence :=
              if m.snapshot.latchedFailure = false then eventSequence
              else m.snapshot.lastSuccessfulSequence }
        currentCycleFailed := false } := by
  have hall : AllPassed (history ++ [.cycle eventSequence]) = AllPassed history := by
    rw [allPassed_append, allPassed_singleton, Observation.passed, Bool.and_true]
  refine
    { latched := by
        rw [hall]
        exact htallies.latched
      flag := fun _ => rfl
      failures := by
        rw [hall]
        exact htallies.failures
      checks := ?_
      success := ?_ }
  · show (rsmSaturatingIncrement m.snapshot.checkCount).toNat = _
    rw [toNat_saturatingIncrement, htallies.checks, cyclesIn_append, List.length_append]
    show min (min _ _ + 1) _ = min (_ + 1) _
    omega
  · show (if m.snapshot.latchedFailure = false then eventSequence
      else m.snapshot.lastSuccessfulSequence) = _
    rw [cyclesBeforeFailure_append, htallies.latched, htallies.success]
    by_cases h : AllPassed history = true
    · have hlast : cyclesBeforeFailure [.cycle eventSequence] = [eventSequence] := rfl
      rw [if_pos h, h, hlast, List.getLast?_concat]
      rfl
    · rw [if_neg h, List.append_nil]
      rw [Bool.not_eq_true] at h
      rw [h]
      rfl

end Tallies

theorem observeEntry_passed {index : ℕ} :
    (observeEntry config view index).passed = true ↔
      validateEntry config index (view.table index) = .pass :=
  decide_eq_true_iff

theorem observeVtor_passed :
    (observeVtor config view).passed = true ↔
      validateVtor config view.currentVtor = .pass :=
  decide_eq_true_iff

/-- The monitor with which a step begins. -/
def begun (m : RsmVectorMonitor) : RsmVectorMonitor :=
  { m with
    snapshot :=
      { m.snapshot with available := true, lastCheckComplete := false, checkedEntries := 0 } }

theorem checkVtor_keeps (m : RsmVectorMonitor) (currentVtor : UInt32) :
    (checkVtor m currentVtor).2.nextIndex = m.nextIndex ∧
      (checkVtor m currentVtor).2.config = m.config := by
  rw [checkVtor]
  dsimp only
  split <;> exact ⟨rfl, rfl⟩

theorem checkVtor_snapshot (m : RsmVectorMonitor) (currentVtor : UInt32) :
    (checkVtor m currentVtor).2.snapshot.available = m.snapshot.available ∧
      (validateVtor m.config currentVtor = .pass →
        (checkVtor m currentVtor).2.snapshot.status = m.snapshot.status) := by
  rw [checkVtor]
  dsimp only
  by_cases h : validateVtor m.config currentVtor = .pass
  · rw [if_neg (not_not_intro h)]
    exact ⟨rfl, fun _ => rfl⟩
  · rw [if_pos h]
    exact ⟨rfl, fun hpass => absurd hpass h⟩

/-- One look at `VTOR`. -/
theorem Tallies.look (htallies : Tallies history m) (hm : m.config = config) :
    Tallies (history ++ [observeVtor config view]) (checkVtor m view.currentVtor).2 := by
  have hnoted : Tallies history
      { m with
        snapshot :=
          { m.snapshot with
            currentVtor := view.currentVtor, expectedVtor := m.config.expectedVtor } } :=
    ⟨htallies.latched, htallies.flag, htallies.failures, htallies.checks, htallies.success⟩
  rw [checkVtor]
  dsimp only
  by_cases h : validateVtor m.config view.currentVtor = .pass
  · rw [if_neg (not_not_intro h)]
    exact hnoted.passes (observeVtor_passed.mpr (hm ▸ h)) rfl
  · rw [if_pos h]
    refine hnoted.fails ?_ rfl _ _ _ _
    rw [← Bool.not_eq_true, observeVtor_passed, ← hm]
    exact h

theorem VectorCall.run_of_zero {call : VectorCall} (hconfig : configValid m.config = true)
    (hbudget : call.entryBudget = 0) : call.run m = m := by
  rw [VectorCall.run, rsmVectorMonitorStep, if_neg (by rw [hconfig]; decide), if_pos hbudget]

theorem VectorCall.run_of_pos {call : VectorCall} (hconfig : configValid m.config = true)
    (hbudget : call.entryBudget ≠ 0) :
    call.run m =
      if validateVtor m.config call.currentVtor = .pass then
        (stepLoop call.table call.eventSequence (min call.entryBudget m.config.entryCount) 0 .ok
          (checkVtor (begun m) call.currentVtor).2).2
      else (checkVtor (begun m) call.currentVtor).2 := by
  rw [VectorCall.run, rsmVectorMonitorStep, if_neg (by rw [hconfig]; decide), if_neg hbudget,
    begun, checkVtor]
  by_cases h : validateVtor m.config call.currentVtor = .pass
  · rw [if_neg (not_not_intro h), if_pos h]
  · rw [if_pos h, if_neg h]

/-- One look at an entry. -/
theorem Tallies.examine (htallies : Tallies history m) (hm : m.config = config) (index : ℕ) :
    Tallies (history ++ [observeEntry config view index]) (checkEntry view.table m index).2 := by
  by_cases h : validateEntry m.config index (view.table index) = .pass
  · rw [checkEntry_of_pass h]
    exact htallies.passes (observeEntry_passed.mpr (hm ▸ h)) rfl
  · rw [checkEntry_of_ne h]
    refine htallies.fails ?_ rfl _ _ _ _
    rw [← Bool.not_eq_true, observeEntry_passed, ← hm]
    exact h

/-- A look changes the availability never, and the status only to a failure. -/
theorem checkEntry_snapshot (index : ℕ) :
    (checkEntry view.table m index).2.snapshot.available = m.snapshot.available ∧
      (validateEntry m.config index (view.table index) = .pass →
        (checkEntry view.table m index).2.snapshot.status = m.snapshot.status) := by
  by_cases h : validateEntry m.config index (view.table index) = .pass
  · rw [checkEntry_of_pass h]
    exact ⟨rfl, fun _ => rfl⟩
  · rw [checkEntry_of_ne h]
    exact ⟨rfl, fun hpass => absurd hpass h⟩

namespace Watched

/-- The last entry of the table has been looked at. -/
theorem complete (hwatched : Watched config history m) (eventSequence : UInt32) :
    Watched config (history ++ [.cycle eventSequence]) (completeCycle m eventSequence) := by
  have htallies := hwatched.toTallies.succeeds eventSequence
  have hall : AllPassed (history ++ [.cycle eventSequence]) = AllPassed history := by
    rw [allPassed_append, allPassed_singleton, Observation.passed, Bool.and_true]
  have hexamined : examined (history ++ [.cycle eventSequence]) = examined history := by
    rw [examined_append]
    exact List.append_nil _
  rw [completeCycle]
  by_cases hflag : m.currentCycleFailed = false
  · rw [if_pos hflag]
    refine
      { htallies with
        unchanged := hwatched.unchanged
        order := hexamined ▸ hwatched.order
        cursor := hexamined ▸ hwatched.cursor
        available := hwatched.available
        status := ?_ }
    intro h
    show (if m.snapshot.latchedFailure = false then RsmVectorStatus.pass else m.snapshot.status) = _
    rw [hwatched.latched, if_pos]
    rw [← hall, h]
    rfl
  · have hfailed : AllPassed history = false := by
      by_contra h
      exact hflag (hwatched.flag (Bool.not_eq_false _ ▸ h))
    have hlatched : m.snapshot.latchedFailure = true := by
      rw [hwatched.latched, hfailed]
      rfl
    have hsuccess := htallies.success
    rw [if_neg hflag]
    refine
      { latched := htallies.latched
        flag := fun _ => rfl
        failures := htallies.failures
        checks := htallies.checks
        success := ?_
        unchanged := hwatched.unchanged
        order := hexamined ▸ hwatched.order
        cursor := hexamined ▸ hwatched.cursor
        available := hwatched.available
        status := ?_ }
    · rw [← hsuccess]
      simp [hlatched]
    · rw [hall, hfailed]
      exact fun h => by cases h

/-- One round of the loop of a step. -/
theorem checkNext (hwatched : Watched config history m) (hcount : config.entryCount ≠ 0)
    (checked : ℕ) :
    Watched config
      (history ++ observeEntry config view m.nextIndex ::
        if m.nextIndex + 1 ≥ config.entryCount then [.cycle view.eventSequence] else [])
      (checkNextEntry view.table view.eventSequence checked m).2 := by
  have htallies : Tallies history (m.setCheckedEntries (checked + 1)) :=
    ⟨hwatched.latched, hwatched.flag, hwatched.failures, hwatched.checks, hwatched.success⟩
  have hexamine : Tallies (history ++ [observeEntry config view m.nextIndex])
      (checkEntry view.table (m.setCheckedEntries (checked + 1)) m.nextIndex).2 :=
    htallies.examine hwatched.unchanged m.nextIndex
  obtain ⟨havailable, hstatus⟩ :=
    @checkEntry_snapshot (m.setCheckedEntries (checked + 1)) view m.nextIndex
  have hconfig : (checkEntry view.table (m.setCheckedEntries (checked + 1))
      m.nextIndex).2.config = config := checkEntry_config.trans hwatched.unchanged
  have hexamined : examined (history ++ [observeEntry config view m.nextIndex]) =
      examined history ++ [(examined history).length % config.entryCount] := by
    rw [examined_append, ← hwatched.cursor]
    rfl
  rw [checkNextEntry]
  dsimp only
  generalize (checkEntry view.table (m.setCheckedEntries (checked + 1)) m.nextIndex).2 = seen at *
  have hmoved : Watched config (history ++ [observeEntry config view m.nextIndex])
      { seen with nextIndex := seen.config.advance m.nextIndex } :=
    { latched := hexamine.latched
      flag := hexamine.flag
      failures := hexamine.failures
      checks := hexamine.checks
      success := hexamine.success
      unchanged := hconfig
      order := by
        rw [hexamined]
        exact hwatched.order.concat
      cursor := by
        rw [hexamined, List.length_append]
        show seen.config.advance m.nextIndex = _
        rw [hconfig, hwatched.cursor]
        exact advance_mod hcount
      available := havailable.trans hwatched.available
      status := by
        intro hall
        rw [allPassed_append, Bool.and_eq_true, allPassed_singleton, observeEntry_passed,
          ← hwatched.unchanged] at hall
        exact (hstatus hall.2).trans (hwatched.status hall.1) }
  by_cases hlast : m.nextIndex + 1 ≥ config.entryCount
  · rw [if_pos hlast, if_pos (hconfig.symm ▸ hlast), List.append_cons]
    exact hmoved.complete view.eventSequence
  · rw [if_neg hlast, if_neg (hconfig.symm ▸ hlast)]
    exact hmoved

/-- The loop of a step. -/
theorem loop (hwatched : Watched config history m) (hcount : config.entryCount ≠ 0)
    (fuel checked : ℕ) (result : RsmStatus) :
    Watched config (history ++ observeEntries config view fuel m.nextIndex)
      (stepLoop view.table view.eventSequence fuel checked result m).2 := by
  induction fuel generalizing history m checked result with
  | zero =>
    rw [observeEntries, List.append_nil]
    exact hwatched
  | succ fuel ih =>
    have hnext := @checkNext _ _ _ view hwatched hcount checked
    have hcursor : (checkNextEntry view.table view.eventSequence checked m).2.nextIndex =
        config.advance m.nextIndex := hwatched.unchanged ▸ checkNextEntry_keeps.2
    have hrest := ih hnext (checked + 1)
      (if (checkNextEntry view.table view.eventSequence checked m).1 ≠ .ok then .failed else result)
    rw [hcursor, List.append_assoc, List.cons_append] at hrest
    rw [observeEntries, stepLoop]
    exact hrest

/-- A look at `VTOR` by a step. -/
theorem vtor (hwatched : Watched config history m) (view : VectorView) :
    Watched config (history ++ [observeVtor config view])
      (checkVtor (begun m) view.currentVtor).2 := by
  have hbegun : Tallies history (begun m) :=
    ⟨hwatched.latched, hwatched.flag, hwatched.failures, hwatched.checks, hwatched.success⟩
  have hexamined : examined (history ++ [observeVtor config view]) = examined history := by
    rw [examined_append]
    exact List.append_nil _
  obtain ⟨hnext, hconfig⟩ := checkVtor_keeps (begun m) view.currentVtor
  obtain ⟨havailable, hstatus⟩ := checkVtor_snapshot (begun m) view.currentVtor
  exact
    { hbegun.look hwatched.unchanged with
      unchanged := hconfig.trans hwatched.unchanged
      order := hexamined ▸ hwatched.order
      cursor := hexamined ▸ hnext.trans hwatched.cursor
      available := havailable
      status := by
        intro hall
        rw [allPassed_append, Bool.and_eq_true, allPassed_singleton, observeVtor_passed,
          ← hwatched.unchanged] at hall
        exact (hstatus hall.2).trans (hwatched.status hall.1) }

/-- One step. -/
theorem step (hwatched : Watched config history m) (hconfig : configValid config = true)
    (hcount : config.entryCount ≠ 0) (call : VectorCall) :
    Watched config (history ++ call.observed m) (call.run m) := by
  have hvtor := hwatched.vtor call.toVectorView
  have hvalid : configValid m.config = true := hwatched.unchanged ▸ hconfig
  rw [VectorCall.observed, hwatched.unchanged]
  by_cases hbudget : call.entryBudget = 0
  · rw [if_pos hbudget, List.append_nil, VectorCall.run_of_zero hvalid hbudget]
    exact hwatched
  · rw [if_neg hbudget, VectorCall.run_of_pos hvalid hbudget, hwatched.unchanged]
    by_cases h : validateVtor config call.currentVtor = .pass
    · have hnext : (checkVtor (begun m) call.currentVtor).2.nextIndex = m.nextIndex :=
        (checkVtor_keeps (begun m) call.currentVtor).1
      rw [if_pos (observeVtor_passed.mpr h), if_pos h, List.append_cons, ← hnext]
      exact hvtor.loop hcount _ _ _
    · rw [if_neg (observeVtor_passed.not.mpr h), if_neg h]
      exact hvtor

/-- Every sequence of steps. -/
theorem run (hwatched : Watched config history m) (hconfig : configValid config = true)
    (hcount : config.entryCount ≠ 0) (calls : List VectorCall) :
    Watched config (history ++ observedAfter calls m) (monitorAfter calls m) := by
  induction calls generalizing history m with
  | nil =>
    rw [observedAfter, List.append_nil]
    exact hwatched
  | cons call calls ih =>
    rw [observedAfter, ← List.append_assoc]
    exact ih (hwatched.step hconfig hcount call)

end Watched

/-! ### The start -/

/-- The loop at start, after the first `done` entries have passed. -/
theorem initLoop_watched (hm : m.config = config) (hcount : config.entryCount ≠ 0)
    (htallies : Tallies history m) (hall : AllPassed history = true)
    (havailable : m.snapshot.available = true) {n done : ℕ} (hdone : done + n = config.entryCount)
    (hexamined : examined history = List.range done) :
    Watched config (history ++ observeStartEntries config view (List.range' done n))
      (initLoop view.table view.eventSequence (List.range' done n) m).2 := by
  induction n generalizing history m done with
  | zero =>
    have hcycle := htallies.succeeds view.eventSequence
    have hexamined' : examined (history ++ [.cycle view.eventSequence]) = List.range done := by
      rw [examined_append, hexamined]
      exact List.append_nil _
    have hlatched : m.snapshot.latchedFailure = false := by
      rw [htallies.latched, hall]
      rfl
    rw [List.range'_zero, observeStartEntries, initLoop]
    exact
      { latched := hcycle.latched
        flag := fun _ => rfl
        failures := hcycle.failures
        checks := hcycle.checks
        success := hcycle.success
        unchanged := hm
        order := by
          rw [hexamined', ← hdone]
          exact roundRobin_range (Nat.le_refl _)
        cursor := by
          rw [hexamined', List.length_range, ← hdone, Nat.add_zero, Nat.mod_self]
          rfl
        available := havailable
        status := fun _ => if_pos hlatched }
  | succ n ih =>
    have hlt : done < config.entryCount := by omega
    have hlook : examined (history ++ [observeEntry config view done]) = List.range (done + 1) := by
      rw [examined_append, hexamined, List.range_succ]
      rfl
    rw [List.range'_succ, observeStartEntries]
    by_cases h : validateEntry config done (view.table done) = .pass
    · have hpassed := observeEntry_passed.mpr h
      have hnoted : Tallies history (m.setCheckedEntries (done + 1)) :=
        ⟨htallies.latched, htallies.flag, htallies.failures, htallies.checks, htallies.success⟩
      rw [if_pos hpassed, initLoop_of_pass (hm.symm ▸ h), List.append_cons]
      refine ih (m := m.setCheckedEntries (done + 1)) hm (hnoted.passes hpassed rfl) ?_ havailable
        (by omega) hlook
      rw [allPassed_append, hall, allPassed_singleton, hpassed]
      rfl
    · have hpassed : (observeEntry config view done).passed = false := by
        rw [← Bool.not_eq_true, observeEntry_passed]
        exact h
      have hfails := htallies.fails hpassed rfl
      have hcheck : validateEntry (m.setCheckedEntries (done + 1)).config done (view.table done) ≠
          .pass := hm.symm ▸ h
      rw [if_neg (observeEntry_passed.not.mpr h), initLoop, checkEntry_of_ne hcheck]
      have hfail := hfails (validateEntry m.config done (view.table done)) done
        (m.config.expectedEntries done) (view.table done)
      exact
        { latched := hfail.latched
          flag := hfail.flag
          failures := hfail.failures
          checks := hfail.checks
          success := hfail.success
          unchanged := hm
          order := by
            rw [hlook]
            exact roundRobin_range hlt
          cursor := by
            rw [hlook, List.length_range, ← advance_mod hcount, Nat.mod_eq_of_lt hlt]
            exact congrArg (RsmVectorConfig.advance · done) hm
          available := havailable
          status := by
            rw [allPassed_append, allPassed_singleton, hpassed, Bool.and_false]
            exact fun hpass => by cases hpass }

theorem entryCount_ne_zero (hconfig : configValid config = true) : config.entryCount ≠ 0 := by
  intro h
  rw [configValid, if_pos (Or.inl h)] at hconfig
  exact nomatch hconfig

/-- The monitor with which a start begins. -/
def fresh (config : RsmVectorConfig) (view : VectorView) : RsmVectorMonitor where
  config := config
  snapshot :=
    { currentVtor := view.currentVtor, expectedVtor := config.expectedVtor, available := true }

theorem startMonitor_of_valid (hconfig : configValid config = true) (view : VectorView) :
    startMonitor config view =
      if validateVtor config view.currentVtor = .pass then
        initLoop view.table view.eventSequence (List.range config.entryCount)
          (checkVtor (fresh config view) view.currentVtor).2
      else (.failed, (checkVtor (fresh config view) view.currentVtor).2) := by
  rw [startMonitor, rsmVectorMonitorInit, if_neg (by rw [hconfig]; decide), fresh, checkVtor]
  by_cases h : validateVtor config view.currentVtor = .pass
  · rw [if_neg (not_not_intro h), if_pos h]
  · rw [if_pos h, if_neg h]

/-- The start. -/
theorem startMonitor_watched (hconfig : configValid config = true) (view : VectorView) :
    Watched config (observeStart config view) (startMonitor config view).2 := by
  have hcount := entryCount_ne_zero hconfig
  have htallies : Tallies [] (fresh config view) := ⟨rfl, fun _ => rfl, rfl, rfl, rfl⟩
  have hlook : Tallies ([] ++ [observeVtor config view])
      (checkVtor (fresh config view) view.currentVtor).2 :=
    htallies.look rfl
  obtain ⟨hnext, hkept⟩ := checkVtor_keeps (fresh config view) view.currentVtor
  obtain ⟨havailable, -⟩ := checkVtor_snapshot (fresh config view) view.currentVtor
  rw [List.nil_append] at hlook
  rw [startMonitor_of_valid hconfig, observeStart]
  by_cases h : validateVtor config view.currentVtor = .pass
  · have hpassed : AllPassed [observeVtor config view] = true := by
      rw [allPassed_singleton]
      exact observeVtor_passed.mpr h
    rw [if_pos h, if_pos (observeVtor_passed.mpr h), List.range_eq_range']
    exact initLoop_watched hkept hcount hlook hpassed havailable (Nat.zero_add _) rfl
  · have hpassed : AllPassed [observeVtor config view] = false := by
      rw [allPassed_singleton, ← Bool.not_eq_true, observeVtor_passed]
      exact h
    rw [if_neg h, if_neg (observeVtor_passed.not.mpr h)]
    exact
      { hlook with
        unchanged := hkept
        order := rfl
        cursor := hnext.trans (Nat.zero_mod _).symm
        available := havailable
        status := by
          rw [hpassed]
          exact fun hall => nomatch hall }

theorem initLoop_ok_iff (hm : m.config = config) (indices : List ℕ) :
    (initLoop view.table view.eventSequence indices m).1 = .ok ↔
      AllPassed (observeStartEntries config view indices) = true := by
  induction indices generalizing m with
  | nil => exact ⟨fun _ => rfl, fun _ => rfl⟩
  | cons index rest ih =>
    rw [observeStartEntries]
    by_cases h : validateEntry config index (view.table index) = .pass
    · have hpassed : AllPassed [observeEntry config view index] = true := by
        rw [allPassed_singleton]
        exact observeEntry_passed.mpr h
      rw [initLoop_of_pass (hm.symm ▸ h), if_pos (observeEntry_passed.mpr h),
        ← List.singleton_append, allPassed_append, hpassed, Bool.true_and]
      exact ih hm
    · have hpassed : AllPassed [observeEntry config view index] = false := by
        rw [allPassed_singleton, ← Bool.not_eq_true, observeEntry_passed]
        exact h
      have hcheck : validateEntry (m.setCheckedEntries (index + 1)).config index
          (view.table index) ≠ .pass := hm.symm ▸ h
      rw [if_neg (observeEntry_passed.not.mpr h), hpassed, initLoop, checkEntry_of_ne hcheck]
      exact ⟨(fun hok => by cases hok), (fun hall => by cases hall)⟩

/-- A start reports success exactly when it has found nothing wrong. -/
theorem startMonitor_ok_iff (hconfig : configValid config = true) (view : VectorView) :
    (startMonitor config view).1 = .ok ↔ AllPassed (observeStart config view) = true := by
  obtain ⟨-, hkept⟩ := checkVtor_keeps (fresh config view) view.currentVtor
  rw [startMonitor_of_valid hconfig, observeStart]
  by_cases h : validateVtor config view.currentVtor = .pass
  · have hpassed : AllPassed [observeVtor config view] = true := by
      rw [allPassed_singleton]
      exact observeVtor_passed.mpr h
    rw [if_pos h, if_pos (observeVtor_passed.mpr h), ← List.singleton_append, allPassed_append,
      hpassed, Bool.true_and]
    exact initLoop_ok_iff hkept _
  · have hpassed : AllPassed [observeVtor config view] = false := by
      rw [allPassed_singleton, ← Bool.not_eq_true, observeVtor_passed]
      exact h
    rw [if_neg h, if_neg (observeVtor_passed.not.mpr h), hpassed]
    exact ⟨(fun hok => nomatch hok), (fun hall => nomatch hall)⟩

/-! ### Tables -/

/-- Two views that agree on the first `count` entries. -/
structure VectorView.SameWithin (count : ℕ) (view view' : VectorView) : Prop where
  currentVtor : view'.currentVtor = view.currentVtor
  eventSequence : view'.eventSequence = view.eventSequence
  table : ∀ index < count, view'.table index = view.table index

/-- Two calls that agree on the first `count` entries. -/
structure VectorCall.SameWithin (count : ℕ) (call call' : VectorCall) : Prop where
  view : call.toVectorView.SameWithin count call'.toVectorView
  entryBudget : call'.entryBudget = call.entryBudget

variable {view' : VectorView}

theorem checkEntry_congr {table table' : ℕ → UInt32} {index : ℕ}
    (h : table' index = table index) : checkEntry table' m index = checkEntry table m index := by
  rw [checkEntry, checkEntry, h]

theorem initLoop_congr (hsame : view.SameWithin config.entryCount view') {indices : List ℕ}
    (hindices : ∀ index ∈ indices, index < config.entryCount) (m : RsmVectorMonitor) :
    initLoop view'.table view'.eventSequence indices m =
      initLoop view.table view.eventSequence indices m := by
  induction indices generalizing m with
  | nil => rw [initLoop, initLoop, hsame.eventSequence]
  | cons index rest ih =>
    rw [List.forall_mem_cons] at hindices
    rw [initLoop, initLoop, checkEntry_congr (hsame.table index hindices.1)]
    split
    · exact ih hindices.2 _
    · rfl

theorem stepLoop_congr (hsame : view.SameWithin config.entryCount view')
    (hm : m.config = config) (hnext : m.nextIndex < config.entryCount)
    (fuel checked : ℕ) (result : RsmStatus) :
    stepLoop view'.table view'.eventSequence fuel checked result m =
      stepLoop view.table view.eventSequence fuel checked result m := by
  induction fuel generalizing m checked result with
  | zero => rfl
  | succ fuel ih =>
    have hround : checkNextEntry view'.table view'.eventSequence checked m =
        checkNextEntry view.table view.eventSequence checked m := by
      rw [checkNextEntry, checkNextEntry, checkEntry_congr (hsame.table _ hnext),
        hsame.eventSequence]
    have hkeeps := @checkNextEntry_keeps view.table m view.eventSequence checked
    rw [stepLoop, stepLoop, hround]
    refine ih (hkeeps.1.trans hm) ?_ _ _
    rw [hkeeps.2, hm, RsmVectorConfig.advance]
    split <;> omega

theorem startMonitor_congr (hconfig : configValid config = true)
    (hsame : view.SameWithin config.entryCount view') :
    startMonitor config view' = startMonitor config view := by
  have hloop (m : RsmVectorMonitor) :
      initLoop view'.table view'.eventSequence (List.range config.entryCount) m =
        initLoop view.table view.eventSequence (List.range config.entryCount) m :=
    initLoop_congr hsame (fun index hindex => List.mem_range.mp hindex) m
  rw [startMonitor_of_valid hconfig, startMonitor_of_valid hconfig, fresh, fresh, hloop,
    hsame.currentVtor]

namespace Watched

theorem nextIndex_lt (hwatched : Watched config history m) (hcount : config.entryCount ≠ 0) :
    m.nextIndex < config.entryCount := by
  rw [hwatched.cursor]
  exact Nat.mod_lt _ (Nat.pos_of_ne_zero hcount)

theorem run_congr (hwatched : Watched config history m) (hconfig : configValid config = true)
    {call call' : VectorCall} (hsame : call.SameWithin config.entryCount call') :
    call'.run m = call.run m := by
  have hcount := entryCount_ne_zero hconfig
  have hvalid : configValid m.config = true := hwatched.unchanged ▸ hconfig
  obtain ⟨hview, hbudget⟩ := hsame
  by_cases hzero : call.entryBudget = 0
  · rw [VectorCall.run_of_zero hvalid hzero, VectorCall.run_of_zero hvalid (hbudget.trans hzero)]
  · have hzero' : call'.entryBudget ≠ 0 := fun h => hzero (hbudget.symm.trans h)
    obtain ⟨hnext, hkept⟩ := checkVtor_keeps (begun m) call.currentVtor
    have hloop := stepLoop_congr hview (hkept.trans hwatched.unchanged)
      (hnext.trans_lt (hwatched.nextIndex_lt hcount)) (min call.entryBudget m.config.entryCount) 0 .ok
    rw [VectorCall.run_of_pos hvalid hzero, VectorCall.run_of_pos hvalid hzero', hview.currentVtor,
      hbudget, hloop]

/-- Nothing behind the table is read. -/
theorem monitorAfter_congr (hwatched : Watched config history m) (hconfig : configValid config = true)
    {calls calls' : List VectorCall}
    (hsame : List.Forall₂ (VectorCall.SameWithin config.entryCount) calls calls') :
    monitorAfter calls' m = monitorAfter calls m := by
  induction hsame generalizing history m with
  | nil => rfl
  | cons hhead _ ih =>
    rename_i call call' calls calls' _
    show monitorAfter calls' (call'.run m) = monitorAfter calls (call.run m)
    rw [hwatched.run_congr hconfig hhead]
    exact ih (hwatched.step hconfig (entryCount_ne_zero hconfig) call)

end Watched

/-! ### Runs -/

theorem mem_observeEntries {fuel index : ℕ} {passed : Bool} {start : ℕ}
    (h : Observation.entry index passed ∈ observeEntries config view fuel start) :
    observeEntry config view index = .entry index passed := by
  induction fuel generalizing start with
  | zero => exact nomatch h
  | succ fuel ih =>
    rw [observeEntries, List.mem_cons, List.mem_append] at h
    rcases h with h | h | h
    · rw [observeEntry, Observation.entry.injEq] at h
      obtain ⟨rfl, rfl⟩ := h
      rfl
    · split at h
      · exact nomatch List.mem_singleton.mp h
      · exact nomatch h
    · exact ih h

/-- What a step has seen of an entry is what there was to see. -/
theorem mem_observedAfter (hm : m.config = config) {calls : List VectorCall} {index : ℕ}
    {passed : Bool} (h : Observation.entry index passed ∈ observedAfter calls m) :
    ∃ call ∈ calls, observeEntry config call.toVectorView index = .entry index passed := by
  induction calls generalizing m with
  | nil => exact nomatch h
  | cons call calls ih =>
    rw [observedAfter, List.mem_append] at h
    rcases h with h | h
    · refine ⟨call, List.mem_cons_self, ?_⟩
      rw [VectorCall.observed, hm] at h
      split at h
      · exact nomatch h
      · rw [List.mem_cons] at h
        rcases h with h | h
        · exact nomatch h
        · split at h
          · exact mem_observeEntries h
          · exact nomatch h
    · obtain ⟨later, hlater, hlook⟩ := ih (rsmVectorMonitorStep_config.trans hm) h
      exact ⟨later, List.mem_cons_of_mem call hlater, hlook⟩

namespace Watched

theorem latched_iff (hwatched : Watched config history m) :
    m.snapshot.latchedFailure = true ↔ ∃ observation ∈ history, observation.passed = false := by
  rw [hwatched.latched, Bool.not_eq_true', AllPassed, List.all_eq_false]
  simp only [Bool.not_eq_true]

/-- A failure that has been seen stays. -/
theorem stays (hwatched : Watched config history m) (hconfig : configValid config = true)
    (hfailed : ∃ observation ∈ history, observation.passed = false) (later : List VectorCall) :
    (monitorAfter later m).snapshot.latchedFailure = true ∧
      (monitorAfter later m).snapshot.failureCount = 1 ∧
      rsmVectorPublicStatusName (monitorAfter later m).snapshot ≠ "pass" := by
  have hrun := hwatched.run hconfig (entryCount_ne_zero hconfig) later
  obtain ⟨observation, hmem, hpassed⟩ := hfailed
  have hlatched := hrun.latched_iff.mpr ⟨observation, List.mem_append_left _ hmem, hpassed⟩
  have hall : ¬ AllPassed (history ++ observedAfter later m) = true := by
    have h := hrun.latched
    rw [hlatched] at h
    rw [← Bool.not_eq_false, ← Bool.not_eq_true', not_not, ← h]
  refine ⟨hlatched, hrun.failures.trans (if_neg hall), ?_⟩
  rw [rsmVectorPublicStatusName, hlatched]
  split
  · decide
  · rw [if_pos (Or.inl rfl)]
    decide

/-- An entry that stays wrong is latched in one round. -/
theorem finds (hwatched : Watched config history m) (hconfig : configValid config = true) {index : ℕ}
    (hindex : index < config.entryCount) {later : List VectorCall}
    (hwrong : ∀ call ∈ later, validateEntry config index (call.table index) ≠ .pass)
    (hround : config.entryCount ≤ (examined (observedAfter later m)).length) :
    (monitorAfter later m).snapshot.latchedFailure = true := by
  have hrun := hwatched.run hconfig (entryCount_ne_zero hconfig) later
  have horder := hrun.order
  rw [examined_append] at horder
  have hwindow := horder.window (i := (examined history).length)
    (by rw [List.length_append]; omega)
  rw [List.drop_left] at hwindow
  have hmem : index ∈ examined (observedAfter later m) :=
    List.mem_of_mem_take (hwindow.mem_iff.mpr (List.mem_range.mpr hindex))
  obtain ⟨observation, hobservation, hlook⟩ := List.mem_filterMap.mp hmem
  obtain ⟨passed, rfl⟩ : ∃ passed, observation = .entry index passed := by
    cases observation with
    | entry index' passed => exact ⟨passed, congrArg (Observation.entry · passed) (Option.some.inj hlook)⟩
    | vtor => exact nomatch hlook
    | cycle => exact nomatch hlook
  obtain ⟨call, hcall, hseen⟩ := mem_observedAfter hwatched.unchanged hobservation
  refine hrun.latched_iff.mpr ⟨_, List.mem_append_right _ hobservation, ?_⟩
  rw [← hseen, ← Bool.not_eq_true, observeEntry_passed]
  exact hwrong call hcall

/-- The name is that of the latch. -/
theorem pass_iff (hwatched : Watched config history m) :
    rsmVectorPublicStatusName m.snapshot = "pass" ↔ AllPassed history = true := by
  have hlatched := hwatched.latched
  rw [rsmVectorPublicStatusName]
  by_cases hall : AllPassed history = true
  · rw [hall] at hlatched
    simp [hall, hlatched, hwatched.available, hwatched.status hall]
  · rw [Bool.not_eq_true] at hall
    rw [hall] at hlatched
    simp only [hall, hlatched, Bool.not_false, true_or, if_true]
    split <;> decide

end Watched

end Steps

/-- The vector monitor over any run of steps after a start: its cursor stays in the table and goes
round and round, a failure that has been seen is latched for good and counted once, its public name
is that of the observations, and its counters are those of the completed cycles. -/
theorem vector_monitor_sound (config : RsmVectorConfig) (hconfig : configValid config = true)
    (start : VectorView) (calls : List VectorCall) :
    let m := monitorAfter calls (startMonitor config start).2
    let since := observedAfter calls (startMonitor config start).2
    let history := observeStart config start ++ since
    m.nextIndex < config.entryCount ∧
    (∀ start' calls', start.SameWithin config.entryCount start' →
      List.Forall₂ (VectorCall.SameWithin config.entryCount) calls calls' →
      monitorAfter calls' (startMonitor config start').2 = m) ∧
    (∀ i, i + config.entryCount ≤ (examined history).length →
      (((examined history).drop i).take config.entryCount).Perm (List.range config.entryCount)) ∧
    (∀ index < config.entryCount, ∀ later : List VectorCall,
      (∀ call ∈ later, validateEntry config index (call.table index) ≠ .pass) →
      config.entryCount ≤ (examined (observedAfter later m)).length →
      (monitorAfter later m).snapshot.latchedFailure = true) ∧
    ((∃ observation ∈ history, observation.passed = false) → ∀ later : List VectorCall,
      (monitorAfter later m).snapshot.latchedFailure = true ∧
      (monitorAfter later m).snapshot.failureCount = 1 ∧
      rsmVectorPublicStatusName (monitorAfter later m).snapshot ≠ "pass") ∧
    (rsmVectorPublicStatusName m.snapshot = "pass" ↔
      (startMonitor config start).1 = .ok ∧ ∀ observation ∈ since, observation.passed = true) ∧
    m.snapshot.checkCount.toNat = min (cyclesIn history).length 0xFFFFFFFF ∧
    m.snapshot.lastSuccessfulSequence = (cyclesBeforeFailure history).getLast?.getD 0 := by
  intro m since history
  have hcount := entryCount_ne_zero hconfig
  have hstart := startMonitor_watched hconfig start
  have hwatched : Watched config history m := hstart.run hconfig hcount calls
  refine ⟨hwatched.nextIndex_lt hcount, ?_, fun i hi => hwatched.order.window hi, ?_, ?_, ?_,
    hwatched.checks, hwatched.success⟩
  · intro start' calls' hsame hcalls
    rw [startMonitor_congr hconfig hsame]
    exact hstart.monitorAfter_congr hconfig hcalls
  · intro index hindex later hwrong hround
    exact hwatched.finds hconfig hindex hwrong hround
  · intro hfailed later
    exact hwatched.stays hconfig hfailed later
  · rw [hwatched.pass_iff, startMonitor_ok_iff hconfig, allPassed_append, Bool.and_eq_true]
    exact and_congr_right fun _ => List.all_eq_true

/-- A table of a stack pointer and one handler. -/
def pairConfig : RsmVectorConfig where
  expectedVtor := 0x08020200
  vtorAlignment := 256
  sramBase := 0x20000000
  sramEnd := 0x20030000
  mspAlignment := 8
  executableFlashBase := 0x08020200
  executableFlashEnd := 0x08040000
  entryCount := 2
  expectedEntries := fun index => if index = 0 then 0x20030000 else 0x08020301
  entryKinds := fun index =>
    if index = 0 then rsmVectorEntryInitialMsp else rsmVectorEntryHandler

/-- The table as it was linked. -/
def pairView : VectorView := ⟨pairConfig.expectedEntries, 0x08020200, 1⟩

/-- A step that finds the handler changed. -/
def patchedCall : VectorCall where
  table := fun index => if index = 0 then 0x20030000 else 0x08020401
  currentVtor := 0x08020200
  eventSequence := 2
  entryBudget := 1

/-- A handler that is changed after the start is latched by two steps of one entry each, and the
monitor never passes again. -/
theorem vector_monitor_sound_patched :
    rsmVectorPublicStatusName (startMonitor pairConfig pairView).2.snapshot = "pass" ∧
    (monitorAfter [patchedCall, patchedCall]
      (startMonitor pairConfig pairView).2).snapshot.latchedFailure = true ∧
    (∀ later, rsmVectorPublicStatusName (monitorAfter later
      (monitorAfter [patchedCall, patchedCall]
        (startMonitor pairConfig pairView).2)).snapshot ≠ "pass") ∧
    (startMonitor pairConfig { pairView with
      table := fun index => if index < 2 then pairView.table index else 0 }).2 =
        (startMonitor pairConfig pairView).2 := by
  have hvalid : configValid pairConfig = true := by decide
  obtain ⟨-, hread, -, hfinds, -, hpass, -⟩ := vector_monitor_sound pairConfig hvalid pairView []
  obtain ⟨-, -, -, -, hstays, -⟩ :=
    vector_monitor_sound pairConfig hvalid pairView [patchedCall, patchedCall]
  refine ⟨hpass.mpr ⟨by decide, by decide⟩, ?_, fun later => (hstays ?_ later).2.2,
    hread _ [] ⟨rfl, rfl, fun index hindex => if_pos hindex⟩ .nil⟩
  · exact hfinds 1 (by decide) [patchedCall, patchedCall] (by decide) (by decide)
  · exact ⟨.entry 1 false, by decide, rfl⟩

end Stm32SecurityLab
