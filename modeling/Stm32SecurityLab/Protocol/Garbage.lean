import Stm32SecurityLab.Protocol.Service
import Stm32SecurityLab.System.Safety
import Mathlib.Data.Finset.Card

/-!
# Garbage on the line

How long the update service listens to a line on which no frame is ever completed. The input falls
into windows, one for each call of `update_protocol_session_process_reader`, and how a window ends
depends on the input and the parser alone: in a silence, with one byte too many, with a reader that
fails, or with a damaged frame.

Silences and overruns are counted, and `max_frame_timeouts` of them in a row end the service. But a
damaged frame is answered with a `NACK`, and an answer that has been written is a success: the
count starts again. So the service goes on for as long as damaged frames keep arriving often
enough, however many that are.

## Main definitions

* `Window`, `windowAt`, `endAt` — the windows of an input
* `AbandonedAt` — so many windows in a row without a damaged frame, or a reader that fails
* `Undamaged` — the first of them already

## Main results

* `runUpdateProtocol_spec` — the service leaves at the first window `AbandonedAt` describes
* `polled_windowAt_le` — a window is at most so many polls long
* `garbage_left_iff` — the service leaves in time exactly if no frame of that time is damaged
-/

namespace Stm32SecurityLab

open Crash

/-! ### The windows of an input -/

/-- Where a window begins: the parser, and how often the reader has been polled. -/
structure Window where
  parser : UpdateProtocolParser
  polled : ℕ

/-- How a window ends, and where the next one begins. -/
def Window.next (config : UpdateServiceConfig) (window : Window) : ReaderEnd × Window :=
  let read := readFrameLoop config.getc config.byteTimeout updateProtocolReaderMaxBytes
    window.parser window.polled
  (read.1, ⟨read.1.parserAfter read.2.1, read.2.2⟩)

theorem Window.next_eq {config : UpdateServiceConfig} {window : Window} {readerEnd : ReaderEnd}
    {parser : UpdateProtocolParser} {polled : ℕ}
    (h : readFrameLoop config.getc config.byteTimeout updateProtocolReaderMaxBytes window.parser
      window.polled = (readerEnd, parser, polled)) :
    window.next config = (readerEnd, ⟨readerEnd.parserAfter parser, polled⟩) := by
  rw [Window.next, h]

/-- The windows of an input, from a position on. -/
def windowAt (config : UpdateServiceConfig) (polled : ℕ) : ℕ → Window
  | 0 => ⟨{}, polled⟩
  | n + 1 => ((windowAt config polled n).next config).2

/-- How the windows end. -/
def endAt (config : UpdateServiceConfig) (polled n : ℕ) : ReaderEnd :=
  ((windowAt config polled n).next config).1

/-- A window that counts as a timeout. -/
def ReaderEnd.Idle (readerEnd : ReaderEnd) : Prop := readerEnd = .timeout ∨ readerEnd = .overrun

instance (readerEnd : ReaderEnd) : Decidable readerEnd.Idle := inferInstanceAs (Decidable (_ ∨ _))

/-- A frame that is refused for its CRC or its size. -/
def ReaderEnd.Damaged (readerEnd : ReaderEnd) : Prop :=
  readerEnd = .parsed .errCrc ∨ readerEnd = .parsed .errOversize

/-- The reader fails in this window, or this is the last of `max_frame_timeouts` windows in a row
without a frame, good or damaged. -/
def AbandonedAt (config : UpdateServiceConfig) (polled n : ℕ) : Prop :=
  endAt config polled n = .failed ∨
    ∃ k, k + config.frameTimeouts = n + 1 ∧
      ∀ i < config.frameTimeouts, (endAt config polled (k + i)).Idle

/-- The polls that `max_frame_timeouts` windows can take. -/
def UpdateServiceConfig.pollLimit (config : UpdateServiceConfig) : ℕ :=
  config.frameTimeouts * ((updateProtocolReaderMaxBytes + 1) * config.byteTimeout)

/-! ### How long a window is -/

theorem configOrDefault_pos (value : UInt32) {defaultValue : ℕ} (h : 0 < defaultValue) :
    0 < configOrDefault value defaultValue := by
  rw [configOrDefault]
  split
  · rename_i hvalue
    exact Nat.pos_of_ne_zero fun h0 => hvalue (UInt32.toNat_inj.mp h0)
  · exact h

theorem UpdateServiceConfig.frameTimeouts_pos (config : UpdateServiceConfig) :
    0 < config.frameTimeouts :=
  configOrDefault_pos _ (by decide)

theorem UpdateServiceConfig.byteTimeout_pos (config : UpdateServiceConfig) :
    0 < config.byteTimeout :=
  configOrDefault_pos _ (by decide)

section Polls

variable {getc : ℕ → ByteRead}

theorem byteReaderGetcTimeout_polled (timeoutPolls polled : ℕ) :
    polled ≤ (byteReaderGetcTimeout getc timeoutPolls polled).2 ∧
      (byteReaderGetcTimeout getc timeoutPolls polled).2 ≤ polled + timeoutPolls := by
  induction timeoutPolls generalizing polled with
  | zero =>
    rw [byteReaderGetcTimeout]
    exact ⟨le_rfl, le_rfl⟩
  | succ timeoutPolls ih =>
    rw [byteReaderGetcTimeout]
    have := ih (polled + 1)
    split
    · omega
    · dsimp only
      omega

theorem byteReaderGetcTimeout_ok {timeoutPolls polled : ℕ} {byte : UInt8}
    (h : getc polled = .ok byte) (hpos : 0 < timeoutPolls) :
    byteReaderGetcTimeout getc timeoutPolls polled = (.ok byte, polled + 1) := by
  obtain ⟨n, rfl⟩ := Nat.exists_eq_succ_of_ne_zero (Nat.ne_of_gt hpos)
  rw [byteReaderGetcTimeout, h]

/-- A window polls the reader at most `byte_timeout` times for each byte. -/
theorem readFrameLoop_polled (timeoutPolls remaining : ℕ) (parser : UpdateProtocolParser)
    (polled : ℕ) :
    polled ≤ (readFrameLoop getc timeoutPolls remaining parser polled).2.2 ∧
      (readFrameLoop getc timeoutPolls remaining parser polled).2.2 ≤
        polled + (remaining + 1) * timeoutPolls := by
  induction remaining generalizing parser polled with
  | zero =>
    have hpolled := @byteReaderGetcTimeout_polled getc timeoutPolls polled
    rw [readFrameLoop.eq_def, Nat.zero_add, Nat.one_mul]
    rcases hread : byteReaderGetcTimeout getc timeoutPolls polled with ⟨read, polled'⟩
    rw [hread] at hpolled
    cases read <;> simpa only [hread] using hpolled
  | succ remaining ih =>
    have hpolled := @byteReaderGetcTimeout_polled getc timeoutPolls polled
    rw [readFrameLoop.eq_def, Nat.succ_mul (remaining + 1)]
    rcases hread : byteReaderGetcTimeout getc timeoutPolls polled with ⟨read, polled'⟩
    rw [hread] at hpolled
    dsimp only at hpolled
    cases read with
    | ok byte =>
      rcases hpush : updateProtocolParserPush parser byte with ⟨status, parser'⟩
      have := ih parser' polled'
      cases status <;> simp only [hpush] <;> omega
    | _ =>
      dsimp only
      omega

/-- The loop goes on while the parser asks for more. -/
theorem readFrameLoop_ne_needMore (timeoutPolls remaining : ℕ) (parser : UpdateProtocolParser)
    (polled : ℕ) :
    (readFrameLoop getc timeoutPolls remaining parser polled).1 ≠ .parsed .needMore := by
  induction remaining generalizing parser polled with
  | zero =>
    rw [readFrameLoop.eq_def]
    rcases hread : byteReaderGetcTimeout getc timeoutPolls polled with ⟨read, polled'⟩
    cases read <;> simp
  | succ remaining ih =>
    rw [readFrameLoop.eq_def]
    rcases hread : byteReaderGetcTimeout getc timeoutPolls polled with ⟨read, polled'⟩
    cases read with
    | ok byte =>
      rcases hpush : updateProtocolParserPush parser byte with ⟨status, parser'⟩
      have := ih parser' polled'
      cases status <;> simp_all
    | _ => simp

theorem firstResult_length_lt {parser : UpdateProtocolParser} {bytes rest : List UInt8}
    {result : ParseResult} (h : firstResult parser bytes = some (result, rest)) :
    rest.length < bytes.length := by
  induction bytes generalizing parser with
  | nil => cases h
  | cons byte bytes ih =>
    rw [firstResult] at h
    split at h
    · exact Nat.lt_succ_of_lt (ih h)
    · obtain ⟨-, rfl⟩ := Prod.mk.inj (Option.some.inj h)
      exact Nat.lt_succ_self _

/-- Where the bytes come one after the other, the loop ends with the first result of the parser. -/
theorem readFrameLoop_firstResult {timeoutPolls remaining polled : ℕ}
    {parser : UpdateProtocolParser} {bytes rest : List UInt8} {result : ParseResult}
    (wf : parser.WellFormed) (hpos : 0 < timeoutPolls)
    (hgetc : ∀ i < bytes.length, getc (polled + i) = .ok (byteAt bytes i))
    (hlength : bytes.length ≤ remaining) (hfirst : firstResult parser bytes = some (result, rest)) :
    ∃ status parser', readFrameLoop getc timeoutPolls remaining parser polled =
        (.parsed status, parser', polled + (bytes.length - rest.length)) ∧
      parseResult (status, parser') = some result ∧ parser'.WellFormed ∧ parser'.held = [] := by
  induction bytes generalizing parser polled remaining with
  | nil => cases hfirst
  | cons byte bytes ih =>
    obtain ⟨remaining, rfl⟩ : ∃ r, remaining = r + 1 :=
      Nat.exists_eq_succ_of_ne_zero (by simp only [List.length_cons] at hlength; omega)
    have hread : byteReaderGetcTimeout getc timeoutPolls polled = (.ok byte, polled + 1) :=
      byteReaderGetcTimeout_ok (hgetc 0 (Nat.succ_pos _)) hpos
    have hwf := wf.push byte
    have hheld := @held_of_parseResult parser byte
    rw [firstResult] at hfirst
    rcases hpush : updateProtocolParserPush parser byte with ⟨status, parser'⟩
    rw [hpush] at hfirst hwf hheld
    rw [readFrameLoop.eq_def]
    rcases hresult : parseResult (status, parser') with _ | found
    · rw [hresult] at hfirst
      obtain rfl : status = .needMore := by
        cases status with
        | needMore => rfl
        | _ => cases hresult
      have hgetc' : ∀ i < bytes.length, getc (polled + 1 + i) = .ok (byteAt bytes i) := by
        intro i hi
        rw [Nat.add_assoc, Nat.add_comm 1 i]
        exact hgetc (i + 1) (Nat.succ_lt_succ hi)
      obtain ⟨status, parser'', hloop, hrest⟩ :=
        ih hwf hgetc' (Nat.succ_le_succ_iff.mp hlength) hfirst
      refine ⟨status, parser'', ?_, hrest⟩
      simp only [hread, hpush, hloop, Prod.mk.injEq, true_and, List.length_cons]
      have := firstResult_length_lt hfirst
      omega
    · rw [hresult] at hfirst
      obtain ⟨rfl, rfl⟩ := Prod.mk.inj (Option.some.inj hfirst)
      refine ⟨status, parser', ?_, hresult, hwf, hheld wf hresult⟩
      cases status with
      | needMore => cases hresult
      | _ =>
        simp only [hread, hpush, List.length_cons]
        congr 2
        omega

end Polls

variable {config : UpdateServiceConfig} {start : ℕ}

theorem polled_next (window : Window) :
    window.polled ≤ (window.next config).2.polled ∧
      (window.next config).2.polled ≤
        window.polled + (updateProtocolReaderMaxBytes + 1) * config.byteTimeout :=
  readFrameLoop_polled _ _ _ _

theorem polled_windowAt_mono {n m : ℕ} (h : n ≤ m) :
    (windowAt config start n).polled ≤ (windowAt config start m).polled := by
  induction h with
  | refl => exact le_rfl
  | step _ ih => exact ih.trans (polled_next _).1

/-- **So many windows are at most so many polls long.** -/
theorem polled_windowAt_le (n : ℕ) :
    (windowAt config start n).polled ≤
      start + n * ((updateProtocolReaderMaxBytes + 1) * config.byteTimeout) := by
  induction n with
  | zero => exact Nat.le_add_right _ _
  | succ n ih =>
    have hnext := (@polled_next config (windowAt config start n)).2
    rw [Nat.succ_mul]
    show ((windowAt config start n).next config).2.polled ≤ _
    omega

/-! ### The count of timeouts -/

/-- The timeouts in a row before a window. -/
def idleBefore (config : UpdateServiceConfig) (start : ℕ) : ℕ → ℕ
  | 0 => 0
  | n + 1 => if (endAt config start n).Idle then idleBefore config start n + 1 else 0

theorem le_idleBefore_iff {j n : ℕ} :
    j ≤ idleBefore config start n ↔
      ∃ k, k + j = n ∧ ∀ i < j, (endAt config start (k + i)).Idle := by
  induction n generalizing j with
  | zero =>
    rw [idleBefore]
    constructor
    · intro h
      obtain rfl := Nat.le_zero.mp h
      exact ⟨0, rfl, fun i hi => absurd hi (Nat.not_lt_zero i)⟩
    · rintro ⟨k, hk, -⟩
      omega
  | succ n ih =>
    rcases j with _ | j
    · exact ⟨fun _ => ⟨n + 1, rfl, fun i hi => absurd hi (Nat.not_lt_zero i)⟩,
        fun _ => Nat.zero_le _⟩
    rw [idleBefore]
    constructor
    · intro h
      split at h
      · rename_i hidle
        obtain ⟨k, rfl, hk⟩ := ih.mp (Nat.succ_le_succ_iff.mp h)
        refine ⟨k, rfl, fun i hi => ?_⟩
        rcases Nat.lt_succ_iff_lt_or_eq.mp hi with hlt | rfl
        · exact hk i hlt
        · exact hidle
      · omega
    · rintro ⟨k, hk, hidle⟩
      obtain rfl : n = k + j := by omega
      rw [if_pos (hidle j (Nat.lt_succ_self j))]
      exact Nat.succ_le_succ (ih.mpr ⟨k, rfl, fun i hi => hidle i (Nat.lt_succ_of_lt hi)⟩)

theorem abandonedAt_iff {n : ℕ} :
    AbandonedAt config start n ↔ endAt config start n = .failed ∨
      config.frameTimeouts ≤ idleBefore config start (n + 1) := by
  rw [le_idleBefore_iff]
  rfl

/-! ### A service that hears no frame -/

/-- What `update_protocol_session_process_reader` returns when its answers are written. -/
def ReaderEnd.status : ReaderEnd → UpdateProtocolStatus
  | .timeout | .overrun => .timeout
  | .failed => .ioError
  | .parsed _ => .ok

theorem Answered.heard {ack : Bool} {sequence : UInt16} {command : UInt8}
    {p q p' : UpdateProtocolSession} {parser : UpdateProtocolParser}
    (h : Answered ack sequence command q p') (hq : Heard parser p q) : Heard parser p p' := by
  obtain ⟨_, _, rfl⟩ := hq
  rw [h.same]
  exact ⟨_, _, rfl⟩

theorem handleTimeout_heard {p : UpdateProtocolSession} (hwrite : p.WriterWorks) :
    wp handleTimeout p
      (fun status p' => status = .timeout ∧ Heard (ReaderEnd.timeout.parserAfter p.parser) p p')
      (fun _ _ => False) fun _ => False := by
  rw [handleTimeout, wp_bind, wp_get, wp_ite, ReaderEnd.parserAfter]
  refine ⟨fun hpartial => ?_, fun hpartial => ?_⟩
  · rw [if_pos hpartial, wp_bind, wp_modify]
    split
    · exact ⟨rfl, _, _, rfl⟩
    · rw [wp_bind]
      refine (sendNack_spec _ _ _).mono ?_ (fun _ _ h => h) fun _ h => h
      rintro status p' ⟨hanswer, -, hok⟩
      rw [wp_ite]
      exact ⟨fun h => absurd (hok hwrite) h, fun _ => ⟨rfl, hanswer.heard ⟨_, _, rfl⟩⟩⟩
  · rw [if_neg hpartial]
    exact ⟨rfl, _, _, rfl⟩

/-- A window without a frame leaves the session where it is. -/
theorem handleReaderEnd_heard {crypto : Crypto} {p : UpdateProtocolSession} {readerEnd : ReaderEnd}
    (hwrite : p.WriterWorks) (hframe : readerEnd ≠ .parsed .frameReady) :
    wp (handleReaderEnd crypto readerEnd) p
      (fun status p' => status = readerEnd.status ∧ Heard (readerEnd.parserAfter p.parser) p p')
      (fun _ _ => False) fun _ => False := by
  have herror (status : UpdateProtocolParseStatus) :
      wp (handleParseError status) p
        (fun status p' => status = .ok ∧ Heard p.parser p p') (fun _ _ => False)
        fun _ => False := by
    rw [handleParseError.eq_def, wp_bind, wp_get]
    refine (sendNack_spec _ _ _).mono ?_ (fun _ _ h => h) fun _ h => h
    rintro status p' ⟨hanswer, -, hok⟩
    exact ⟨hok hwrite, hanswer.heard ⟨_, _, rfl⟩⟩
  cases readerEnd with
  | timeout => exact handleTimeout_heard hwrite
  | failed =>
    rw [handleReaderEnd, wp_bind, setLastStatus, wp_modify]
    exact ⟨rfl, _, _, rfl⟩
  | overrun =>
    rw [handleReaderEnd, wp_bind, wp_modify]
    exact ⟨rfl, _, _, rfl⟩
  | parsed status =>
    rw [handleReaderEnd, handleParsed, wp_bind, wp_get]
    cases status with
    | needMore => exact ⟨rfl, _, _, rfl⟩
    | frameReady => exact absurd rfl hframe
    | errOversize => exact herror _
    | errCrc => exact herror _

/-- A service that stands at the beginning of a window and has not heard a frame. -/
structure Listening (config : UpdateServiceConfig) (window : Window) (s : UpdateService) :
    Prop where
  parser : s.protocol.parser = window.parser
  polled : s.polled = window.polled
  write : s.protocol.write = config.write
  state : s.protocol.state = .idle
  fresh : s.protocol.installerStarted = false

variable {crypto : Crypto} {window : Window} {s : UpdateService}

theorem processReader_listening (hwrite : ∀ n data, config.write n data = .ok)
    (hs : Listening config window s) (hframe : (window.next config).1 ≠ .parsed .frameReady) :
    wp (updateProtocolSessionProcessReader crypto config.getc config.byteTimeout) s
      (fun status s' => status = (window.next config).1.status ∧
        Listening config (window.next config).2 s') (fun _ _ => False) fun _ => False := by
  rw [updateProtocolSessionProcessReader, wp_bind, wp_get, wp_bind, wp_modify, wp_onProtocol,
    hs.parser, hs.polled]
  refine (handleReaderEnd_heard ?_ hframe).mono ?_ (fun _ _ h => h) fun _ h => h
  · intro n data
    show s.protocol.write n data = .ok
    rw [hs.write, hwrite]
  · rintro status p' ⟨rfl, lastStatus, written, rfl⟩
    exact ⟨rfl, rfl, rfl, hs.write, hs.state, hs.fresh⟩

theorem leaveService_listening (hs : Listening config window s) :
    wp leaveService s (fun next s' => next = .inl .bootContinue ∧ Listening config window s')
      (fun _ _ => False) fun _ => False := by
  rw [leaveService, wp_bind, wp_onProtocol, abortStartedInstaller, wp_bind, wp_get, wp_ite]
  refine ⟨fun h => ?_, fun _ => ⟨rfl, hs⟩⟩
  rw [hs.fresh] at h
  exact absurd h.1 Bool.false_ne_true

/-- What a round does, for each end of a window. -/
theorem updateServiceRound_listening (hwrite : ∀ n data, config.write n data = .ok)
    (hs : Listening config window s) (hframe : (window.next config).1 ≠ .parsed .frameReady)
    (k : ℕ) :
    wp (updateServiceRound crypto config k) s
      (fun next s' => Listening config (window.next config).2 s' ∧
        next = if (window.next config).1 = .failed ∨
            ((window.next config).1.Idle ∧ config.frameTimeouts ≤ k + 1) then .inl .bootContinue
          else if (window.next config).1.Idle then .inr (k + 1) else .inr 0)
      (fun _ _ => False) fun _ => False := by
  rw [updateServiceRound, wp_bind]
  refine (processReader_listening hwrite hs hframe).mono ?_ (fun _ _ h => h) fun _ h => h
  rintro _ s' ⟨rfl, hs'⟩
  revert hs'
  generalize window.next config = out
  obtain ⟨readerEnd, window'⟩ := out
  intro hs'
  have hleave := leaveService_listening hs'
  -- a timeout and an overrun are the same to the service
  have hidle (hidle : readerEnd.Idle) (hstatus : readerEnd.status = .timeout)
      (hne : readerEnd ≠ .failed) :
      wp (decideRound config k readerEnd.status) s'
        (fun next s' => Listening config window' s' ∧
          next = if readerEnd = .failed ∨ (readerEnd.Idle ∧ config.frameTimeouts ≤ k + 1) then
              .inl .bootContinue
            else if readerEnd.Idle then .inr (k + 1) else .inr 0)
        (fun _ _ => False) fun _ => False := by
    rw [decideRound, if_pos hstatus, wp_ite]
    refine ⟨fun hmax => ?_, fun hmax => ⟨hs', ?_⟩⟩
    · rw [if_pos (Or.inr ⟨hidle, hmax⟩)]
      exact hleave.mono (fun _ _ h => ⟨h.2, h.1⟩) (fun _ _ h => h) fun _ h => h
    · rw [if_neg (by rintro (h | h); exacts [hne h, hmax h.2]), if_pos hidle]
  cases readerEnd with
  | timeout => exact hidle (.inl rfl) rfl fun h => by cases h
  | overrun => exact hidle (.inr rfl) rfl fun h => by cases h
  | failed =>
    show wp (decideRound config k .ioError) s' _ _ _
    rw [decideRound, if_neg (by decide), wp_bind, wp_get, if_pos (by decide), hs'.state,
      if_neg (by decide), if_pos (Or.inl rfl)]
    exact hleave.mono (fun _ _ h => ⟨h.2, h.1⟩) (fun _ _ h => h) fun _ h => h
  | parsed status =>
    show wp (decideRound config k .ok) s' _ _ _
    rw [decideRound, if_neg (by decide), wp_bind, wp_get, if_neg (by decide), hs'.state]
    refine ⟨hs', ?_⟩
    rw [if_neg (by simp [ReaderEnd.Idle]), if_neg (by simp [ReaderEnd.Idle])]

/-! ### Where the service leaves -/

/-- **The service leaves at the first window that `AbandonedAt` describes, and not before.** -/
theorem runUpdateProtocol_spec (hwrite : ∀ n data, config.write n data = .ok)
    (hframe : ∀ n, endAt config start n ≠ .parsed .frameReady) (fuel n : ℕ)
    (hs : Listening config (windowAt config start n) s) :
    wp (runUpdateProtocol crypto config fuel (idleBefore config start n)) s
      (fun result s' =>
        (result = some .bootContinue ∧ ∃ m, n ≤ m ∧ m < n + fuel ∧ AbandonedAt config start m ∧
          (∀ i, n ≤ i → i < m → ¬ AbandonedAt config start i) ∧
          s'.polled = (windowAt config start (m + 1)).polled) ∨
        (result = none ∧ ∀ i, n ≤ i → i < n + fuel → ¬ AbandonedAt config start i))
      (fun _ _ => False) fun _ => False := by
  induction fuel generalizing n s with
  | zero => exact .inr ⟨rfl, fun i hi hlt => absurd hlt (Nat.not_lt.mpr hi)⟩
  | succ fuel ih =>
    rw [runUpdateProtocol, wp_bind]
    refine (updateServiceRound_listening hwrite hs (hframe n) _).mono ?_ (fun _ _ h => h)
      fun _ h => h
    rintro next s' ⟨hs', rfl⟩
    have hcount : idleBefore config start (n + 1) =
        if (endAt config start n).Idle then idleBefore config start n + 1 else 0 := rfl
    have habandoned : AbandonedAt config start n ↔
        ((windowAt config start n).next config).1 = .failed ∨
          (((windowAt config start n).next config).1.Idle ∧
            config.frameTimeouts ≤ idleBefore config start n + 1) := by
      rw [abandonedAt_iff, hcount]
      refine or_congr Iff.rfl ?_
      by_cases hidle : (endAt config start n).Idle
      · rw [if_pos hidle]
        exact ⟨fun h => ⟨hidle, h⟩, fun h => h.2⟩
      · rw [if_neg hidle]
        have hpos := config.frameTimeouts_pos
        exact ⟨fun h => absurd h (Nat.not_le.mpr hpos), fun h => absurd h.1 hidle⟩
    by_cases hleave : AbandonedAt config start n
    · rw [if_pos (habandoned.mp hleave)]
      refine .inl ⟨rfl, n, le_rfl, Nat.lt_add_of_pos_right (Nat.succ_pos fuel), hleave, ?_,
        hs'.polled⟩
      intro i hi hlt
      exact absurd hlt (Nat.not_lt.mpr hi)
    · rw [if_neg (fun h => hleave (habandoned.mpr h))]
      have hnext : (if ((windowAt config start n).next config).1.Idle then
          (.inr (idleBefore config start n + 1) : UpdateServiceResult ⊕ ℕ) else .inr 0) =
          .inr (idleBefore config start (n + 1)) := by
        rw [hcount, apply_ite Sum.inr]
        rfl
      rw [hnext]
      refine (ih (n + 1) hs').mono ?_ (fun _ _ h => h) fun _ h => h
      rintro result s'' (⟨rfl, m, hm, hfuel, hat, hfirst, hpolled⟩ | ⟨rfl, hnone⟩)
      · refine .inl ⟨rfl, m, Nat.le_of_succ_le hm, by omega, hat, fun i hi hlt => ?_, hpolled⟩
        rcases Nat.eq_or_lt_of_le hi with rfl | hi
        · exact hleave
        · exact hfirst i hi hlt
      · refine .inr ⟨rfl, fun i hi hlt => ?_⟩
        rcases Nat.eq_or_lt_of_le hi with rfl | hi
        · exact hleave
        · exact hnone i hi (by omega)

theorem acceptInitialHello_listening (hwrite : ∀ n data, config.write n data = .ok) :
    wp (acceptInitialHello config) s
      (fun status s' => status = .ok ∧ Listening config (windowAt config s.polled 0) s')
      (fun _ _ => False) fun _ => False := by
  rw [acceptInitialHello, wp_bind, wp_modify, wp_onProtocol,
    updateProtocolSessionAcceptInitialHello, wp_bind, wp_get, if_neg (by simp [updateProtocolSessionInit]),
    wp_bind, sendHelloAck, wp_bind, wp_get]
  refine (sendAck_spec (by rw [infoPayload_length]; decide)).mono ?_ (fun _ _ h => h) fun _ h => h
  rintro status p' ⟨hanswer, hok⟩
  obtain rfl := hok hwrite
  rw [if_pos rfl, wp_bind, advanceSequence, wp_modify, hanswer.same]
  exact ⟨rfl, rfl, rfl, rfl, rfl, rfl⟩

/-- The service goes on with the boot before the reader has been polled so many times. -/
def LeavesWithin (crypto : Crypto) (config : UpdateServiceConfig) (s : UpdateService)
    (limit : ℕ) : Prop :=
  ∃ fuel s', updateServiceRunAfterHello crypto config fuel s = .ret (some .bootContinue) s' ∧
    s'.polled ≤ s.polled + limit

/-- The service goes on with the boot within its limits: it reads `max_frame_timeouts` windows, of so
many bytes and polls each. -/
def LeavesInTime (crypto : Crypto) (config : UpdateServiceConfig) (s : UpdateService) : Prop :=
  ∃ s', updateServiceRunAfterHello crypto config config.frameTimeouts s =
    .ret (some .bootContinue) s' ∧ s'.polled ≤ s.polled + config.pollLimit

theorem updateServiceRunAfterHello_spec (hwrite : ∀ n data, config.write n data = .ok)
    (hframe : ∀ n, endAt config s.polled n ≠ .parsed .frameReady) (fuel : ℕ) :
    wp (updateServiceRunAfterHello crypto config fuel) s
      (fun result s' =>
        (result = some .bootContinue ∧ ∃ m < fuel, AbandonedAt config s.polled m ∧
          (∀ i < m, ¬ AbandonedAt config s.polled i) ∧
          s'.polled = (windowAt config s.polled (m + 1)).polled) ∨
        (result = none ∧ ∀ i < fuel, ¬ AbandonedAt config s.polled i))
      (fun _ _ => False) fun _ => False := by
  rw [updateServiceRunAfterHello, wp_bind, updateServiceInit, wp_modify, serveAfterHello, wp_bind]
  refine (acceptInitialHello_listening hwrite).mono ?_ (fun _ _ h => h) fun _ h => h
  rintro _ s' ⟨rfl, hs'⟩
  rw [if_neg fun h => h rfl]
  refine (runUpdateProtocol_spec hwrite hframe fuel 0 hs').mono ?_ (fun _ _ h => h) fun _ h => h
  rintro result s'' (⟨rfl, m, -, hfuel, hat, hfirst, hpolled⟩ | ⟨rfl, hnone⟩)
  · exact .inl ⟨rfl, m, by omega, hat, fun i hi => hfirst i (Nat.zero_le i) hi, hpolled⟩
  · exact .inr ⟨rfl, fun i hi => hnone i (Nat.zero_le i) (by omega)⟩

/-- Where a window abandons the line, as many calls are enough. -/
theorem updateServiceRunAfterHello_leaves (hwrite : ∀ n data, config.write n data = .ok)
    (hframe : ∀ n, endAt config s.polled n ≠ .parsed .frameReady) {n fuel : ℕ} (hn : n < fuel)
    (hat : AbandonedAt config s.polled n) :
    ∃ s', updateServiceRunAfterHello crypto config fuel s = .ret (some .bootContinue) s' ∧
      s'.polled ≤ (windowAt config s.polled (n + 1)).polled := by
  have hspec := @updateServiceRunAfterHello_spec config crypto s hwrite hframe fuel
  have hreturns : Returns (updateServiceRunAfterHello crypto config fuel) s :=
    hspec.mono (fun _ _ _ => trivial) (fun _ _ h => h) fun _ h => h
  obtain ⟨result, s', hrun⟩ := returns_iff.mp hreturns
  rcases hspec.ret hrun with ⟨rfl, m, -, -, hfirst, heq⟩ | ⟨rfl, hnone⟩
  · refine ⟨s', hrun, ?_⟩
    have hle : m ≤ n := Nat.le_of_not_lt fun hlt => hfirst n hlt hat
    rw [heq]
    exact polled_windowAt_mono (Nat.succ_le_succ hle)
  · exact absurd hat (hnone n hn)

theorem leavesWithin_iff (hwrite : ∀ n data, config.write n data = .ok)
    (hframe : ∀ n, endAt config s.polled n ≠ .parsed .frameReady) (limit : ℕ) :
    LeavesWithin crypto config s limit ↔ ∃ n, AbandonedAt config s.polled n ∧
      (windowAt config s.polled (n + 1)).polled ≤ s.polled + limit := by
  constructor
  · rintro ⟨fuel, s', hrun, hpolled⟩
    rcases (updateServiceRunAfterHello_spec hwrite hframe fuel).ret hrun with
      ⟨-, m, -, hat, -, heq⟩ | ⟨hnone, -⟩
    · exact ⟨m, hat, heq ▸ hpolled⟩
    · cases hnone
  · rintro ⟨n, hat, hpolled⟩
    obtain ⟨s', hrun, hle⟩ := @updateServiceRunAfterHello_leaves config crypto s hwrite hframe n
      (n + 1) (Nat.lt_succ_self n) hat
    exact ⟨n + 1, s', hrun, hle.trans hpolled⟩

/-! ### Where no frame is damaged -/

/-- None of the first windows ends in a damaged frame, or the reader fails in one of them. -/
def Undamaged (config : UpdateServiceConfig) (start : ℕ) : Prop :=
  (∃ n < config.frameTimeouts, endAt config start n = .failed) ∨
    ∀ n < config.frameTimeouts, ¬ (endAt config start n).Damaged

/-- A window without a frame of any kind, good or damaged. -/
theorem idle_or_failed {n : ℕ} (hframe : endAt config start n ≠ .parsed .frameReady)
    (hdamaged : ¬ (endAt config start n).Damaged) :
    (endAt config start n).Idle ∨ endAt config start n = .failed := by
  have hneed : endAt config start n ≠ .parsed .needMore := readFrameLoop_ne_needMore _ _ _ _
  cases hend : endAt config start n with
  | timeout => exact .inl (.inl rfl)
  | overrun => exact .inl (.inr rfl)
  | failed => exact .inr rfl
  | parsed status =>
    rw [hend] at hframe hneed hdamaged
    cases status with
    | needMore => exact absurd rfl hneed
    | frameReady => exact absurd rfl hframe
    | errOversize => exact absurd (.inr rfl) hdamaged
    | errCrc => exact absurd (.inl rfl) hdamaged

/-- Where `max_frame_timeouts` windows in a row are undamaged, one of them abandons the line. -/
theorem abandonedAt_of_undamaged (hframe : ∀ n, endAt config start n ≠ .parsed .frameReady) (k : ℕ)
    (hdamaged : ∀ i < config.frameTimeouts, ¬ (endAt config start (k + i)).Damaged) :
    ∃ i < config.frameTimeouts, AbandonedAt config start (k + i) := by
  by_cases hfailed : ∃ i < config.frameTimeouts, endAt config start (k + i) = .failed
  · obtain ⟨i, hlt, hi⟩ := hfailed
    exact ⟨i, hlt, .inl hi⟩
  · have hpos := config.frameTimeouts_pos
    refine ⟨config.frameTimeouts - 1, by omega, .inr ⟨k, by omega, fun i hi => ?_⟩⟩
    exact (idle_or_failed (hframe _) (hdamaged i hi)).resolve_right fun h => hfailed ⟨i, hi, h⟩

theorem ReaderEnd.Idle.not_damaged {readerEnd : ReaderEnd} (h : readerEnd.Idle) : ¬ readerEnd.Damaged := by
  rintro (rfl | rfl) <;> rcases h with h | h <;> cases h

theorem leavesInTime_iff (hwrite : ∀ n data, config.write n data = .ok)
    (hframe : ∀ n, endAt config s.polled n ≠ .parsed .frameReady) :
    LeavesInTime crypto config s ↔ Undamaged config s.polled := by
  constructor
  · rintro ⟨s', hrun, -⟩
    rcases (updateServiceRunAfterHello_spec hwrite hframe _).ret hrun with
      ⟨-, m, hm, hat, -⟩ | ⟨hnone, -⟩
    · rcases hat with hfailed | ⟨k, hk, hidle⟩
      · exact .inl ⟨m, hm, hfailed⟩
      · obtain rfl : k = 0 := by omega
        refine .inr fun n hn => ?_
        rw [← Nat.zero_add n]
        exact (hidle n hn).not_damaged
    · cases hnone
  · intro hundamaged
    obtain ⟨n, hlt, hat⟩ : ∃ n < config.frameTimeouts, AbandonedAt config s.polled n := by
      rcases hundamaged with ⟨n, hlt, hfailed⟩ | hdamaged
      · exact ⟨n, hlt, .inl hfailed⟩
      · obtain ⟨i, hi, hat⟩ := abandonedAt_of_undamaged hframe 0 fun i hi => by
          rw [Nat.zero_add]
          exact hdamaged i hi
        exact ⟨i, hi, by rwa [Nat.zero_add] at hat⟩
    obtain ⟨s', hrun, hle⟩ := updateServiceRunAfterHello_leaves hwrite hframe hlt hat
    refine ⟨s', hrun, hle.trans ((polled_windowAt_le _).trans ?_)⟩
    exact Nat.add_le_add_left (Nat.mul_le_mul_right _ hlt) _

/-- A damaged frame holds the service for at most `max_frame_timeouts` windows more. -/
theorem leavesWithin_of_damaged (hwrite : ∀ n data, config.write n data = .ok)
    (hframe : ∀ n, endAt config s.polled n ≠ .parsed .frameReady) (damaged : Finset ℕ)
    (hdamaged : ∀ n, (endAt config s.polled n).Damaged → n ∈ damaged) :
    LeavesWithin crypto config s ((damaged.card + 1) * config.pollLimit) := by
  -- one of so many stretches of `max_frame_timeouts` windows has no damaged window
  obtain ⟨j, hj, hfree⟩ : ∃ j ≤ damaged.card, j ∉ damaged.image (· / config.frameTimeouts) := by
    by_contra hall
    push Not at hall
    have hsubset : Finset.range (damaged.card + 1) ⊆ damaged.image (· / config.frameTimeouts) :=
      fun j hj => hall j (Nat.lt_succ_iff.mp (Finset.mem_range.mp hj))
    have hcard := (Finset.card_le_card hsubset).trans Finset.card_image_le
    rw [Finset.card_range] at hcard
    omega
  obtain ⟨i, hi, hat⟩ := abandonedAt_of_undamaged hframe (j * config.frameTimeouts)
    fun i hi hbad => hfree (Finset.mem_image.mpr ⟨_, hdamaged _ hbad, by
      show (j * config.frameTimeouts + i) / config.frameTimeouts = j
      rw [Nat.mul_comm, Nat.mul_add_div config.frameTimeouts_pos, Nat.div_eq_of_lt hi,
        Nat.add_zero]⟩)
  refine (leavesWithin_iff hwrite hframe _).mpr ⟨_, hat, (polled_windowAt_le _).trans ?_⟩
  have hwindows : j * config.frameTimeouts + i + 1 ≤ (damaged.card + 1) * config.frameTimeouts := by
    calc j * config.frameTimeouts + i + 1 ≤ j * config.frameTimeouts + config.frameTimeouts := by
          omega
      _ = (j + 1) * config.frameTimeouts := (Nat.succ_mul j _).symm
      _ ≤ _ := Nat.mul_le_mul_right _ (Nat.succ_le_succ hj)
  rw [UpdateServiceConfig.pollLimit, ← Nat.mul_assoc (damaged.card + 1)]
  exact Nat.add_le_add_left (Nat.mul_le_mul_right _ hwindows) _

/-- **How long garbage holds the update path.** On a line on which no frame is ever completed, the
service goes on with the boot within its limits if and only if no window of that time ends in a
damaged frame, or the reader fails. A damaged frame lets it stay for as long again. -/
theorem garbage_left_iff (crypto : Crypto) (config : UpdateServiceConfig) (s : UpdateService)
    (hwrite : ∀ n data, config.write n data = .ok)
    (hframe : ∀ n, endAt config s.polled n ≠ .parsed .frameReady) :
    (LeavesInTime crypto config s ↔ Undamaged config s.polled) ∧
    ∀ damaged : Finset ℕ, (∀ n, (endAt config s.polled n).Damaged → n ∈ damaged) →
      LeavesWithin crypto config s ((damaged.card + 1) * config.pollLimit) :=
  ⟨leavesInTime_iff hwrite hframe, leavesWithin_of_damaged hwrite hframe⟩

/-! ### A line that is silent, and one that is not -/

/-- The configuration of `update_mode_poll_and_process_mode` with the default limits, for a reader
and a writer that works. -/
def defaultConfig (getc : ℕ → ByteRead) : UpdateServiceConfig where
  flash := updateModeFlash
  publicKey := factoryKey
  installOptions := updateModeOptions false
  getc
  write := fun _ _ => .ok

/-- A service that has not been used, on a device with the factory image. -/
def freshService : UpdateService where
  protocol := updateProtocolSessionInit updateModeFlash factoryKey (updateModeOptions false)
    (fun _ _ => .ok) (fun _ => 0) (flashWith factoryRecord)
  polled := 0

theorem byteReaderGetcTimeout_silent {getc : ℕ → ByteRead} {timeoutPolls polled : ℕ}
    (h : ∀ i, polled ≤ i → getc i = .noData) :
    byteReaderGetcTimeout getc timeoutPolls polled = (.timeout, polled + timeoutPolls) := by
  induction timeoutPolls generalizing polled with
  | zero => rw [byteReaderGetcTimeout, Nat.add_zero]
  | succ timeoutPolls ih =>
    rw [byteReaderGetcTimeout, h polled le_rfl]
    dsimp only
    rw [ih fun i hi => h i (Nat.le_of_succ_le hi), Nat.succ_add_eq_add_succ]

/-- On a line that stays silent a window ends with a timeout. -/
theorem readFrameLoop_silent {getc : ℕ → ByteRead} {timeoutPolls remaining polled : ℕ}
    {parser : UpdateProtocolParser} (h : ∀ i, polled ≤ i → getc i = .noData) :
    readFrameLoop getc timeoutPolls remaining parser polled =
      (.timeout, parser, polled + timeoutPolls) := by
  rw [readFrameLoop.eq_def, byteReaderGetcTimeout_silent h]

theorem endAt_silent (n : ℕ) : endAt (defaultConfig fun _ => .noData) 0 n = .timeout := by
  rw [endAt]
  generalize windowAt (defaultConfig fun _ => .noData) 0 n = window
  have hloop : readFrameLoop (fun _ => .noData) (defaultConfig fun _ => .noData).byteTimeout
      updateProtocolReaderMaxBytes window.parser window.polled =
        (.timeout, window.parser, window.polled + (defaultConfig fun _ => .noData).byteTimeout) :=
    readFrameLoop_silent fun _ _ => rfl
  rw [Window.next_eq hloop]

/-- Headers that announce too long a payload, one after the other. -/
def oversizeHeaders : ℕ → ByteRead := fun n => .ok (byteAt (frameHeader 1 1 0 0xFFFF) (n % 10))

theorem readFrameLoop_oversize {parser : UpdateProtocolParser} (wf : parser.WellFormed)
    (hheld : parser.held = []) {timeoutPolls : ℕ} (hpos : 0 < timeoutPolls) (n : ℕ) :
    ∃ parser', readFrameLoop oversizeHeaders timeoutPolls updateProtocolReaderMaxBytes parser
        (10 * n) = (.parsed .errOversize, parser', 10 * (n + 1)) ∧
      parser'.WellFormed ∧ parser'.held = [] := by
  have hfirst : firstResult parser (frameHeader 1 1 0 0xFFFF) = some (.errOversize, []) := by
    rw [firstResult_eq_nextResult wf, hheld]
    decide
  have hgetc : ∀ i < (frameHeader 1 1 0 0xFFFF).length,
      oversizeHeaders (10 * n + i) = .ok (byteAt (frameHeader 1 1 0 0xFFFF) i) := by
    intro i hi
    have hlt : i < 10 := hi
    rw [oversizeHeaders, Nat.mul_add_mod, Nat.mod_eq_of_lt hlt]
  have hlength : (frameHeader 1 1 0 0xFFFF).length ≤ updateProtocolReaderMaxBytes := by decide
  obtain ⟨status, parser', hloop, hresult, hwf, hheld'⟩ :=
    readFrameLoop_firstResult wf hpos hgetc hlength hfirst
  cases status with
  | errOversize => exact ⟨parser', hloop, hwf, hheld'⟩
  | _ => cases hresult

theorem windowAt_oversize (n : ℕ) :
    (windowAt (defaultConfig oversizeHeaders) 0 n).parser.WellFormed ∧
      (windowAt (defaultConfig oversizeHeaders) 0 n).parser.held = [] ∧
      (windowAt (defaultConfig oversizeHeaders) 0 n).polled = 10 * n := by
  induction n with
  | zero => exact ⟨UpdateProtocolParser.wellFormed_init, rfl, rfl⟩
  | succ n ih =>
    obtain ⟨wf, hheld, hpolled⟩ := ih
    obtain ⟨parser', hloop, hwf, hheld'⟩ := readFrameLoop_oversize wf hheld
      (defaultConfig oversizeHeaders).byteTimeout_pos n
    rw [← hpolled] at hloop
    rw [windowAt, Window.next_eq hloop]
    exact ⟨hwf, hheld', rfl⟩

theorem endAt_oversize (n : ℕ) :
    endAt (defaultConfig oversizeHeaders) 0 n = .parsed .errOversize := by
  obtain ⟨wf, hheld, hpolled⟩ := windowAt_oversize n
  obtain ⟨parser', hloop, -⟩ := readFrameLoop_oversize wf hheld
    (defaultConfig oversizeHeaders).byteTimeout_pos n
  rw [← hpolled] at hloop
  rw [endAt, Window.next_eq hloop]

/-- A line that is silent from the start is left in time, and one with a header of this kind in each
window is not. -/
theorem garbage_left_silent :
    LeavesInTime factoryCrypto (defaultConfig fun _ => .noData) freshService ∧
      ¬ LeavesInTime factoryCrypto (defaultConfig oversizeHeaders) freshService := by
  have hsilent : ∀ n, endAt (defaultConfig fun _ => .noData) freshService.polled n = .timeout :=
    endAt_silent
  have hoversize : ∀ n, endAt (defaultConfig oversizeHeaders) freshService.polled n =
      .parsed .errOversize := endAt_oversize
  constructor
  · refine (garbage_left_iff _ _ _ (fun _ _ => rfl) fun n h => ?_).1.mpr (.inr fun n _ h => ?_)
    · rw [hsilent n] at h
      cases h
    · rw [hsilent n] at h
      rcases h with h | h <;> cases h
  · rw [(garbage_left_iff _ _ _ (fun _ _ => rfl) fun n h => ?_).1]
    · rintro (⟨n, -, h⟩ | h)
      · rw [hoversize n] at h
        cases h
      · exact h 0 (defaultConfig oversizeHeaders).frameTimeouts_pos (.inr (hoversize 0))
    · rw [hoversize n] at h
      cases h

/-- Endless headers of this kind hold the update path for ever. -/
theorem garbage_not_left :
    (∀ n data, (defaultConfig oversizeHeaders).write n data = .ok) ∧
      (∀ n, endAt (defaultConfig oversizeHeaders) freshService.polled n ≠ .parsed .frameReady) ∧
      ∀ crypto limit, ¬ LeavesWithin crypto (defaultConfig oversizeHeaders) freshService limit := by
  have hend : ∀ n, endAt (defaultConfig oversizeHeaders) freshService.polled n =
      .parsed .errOversize := endAt_oversize
  have hframe : ∀ n, endAt (defaultConfig oversizeHeaders) freshService.polled n ≠
      .parsed .frameReady := by
    intro n h
    rw [hend n] at h
    cases h
  refine ⟨fun _ _ => rfl, hframe, fun crypto limit hleaves => ?_⟩
  obtain ⟨n, hat, -⟩ := (leavesWithin_iff (fun _ _ => rfl) hframe limit).mp hleaves
  rcases hat with hfailed | ⟨k, -, hidle⟩
  · rw [hend n] at hfailed
    cases hfailed
  · have hzero := hidle 0 (defaultConfig oversizeHeaders).frameTimeouts_pos
    rw [hend] at hzero
    rcases hzero with h | h <;> cases h

end Stm32SecurityLab
