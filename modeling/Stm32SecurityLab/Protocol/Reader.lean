import Stm32SecurityLab.Protocol.Garbage
import Stm32SecurityLab.Protocol.Stream

/-!
# The service on its line

`run_update_protocol` calls the session once for each window of the input and looks at the state of
the session in between. What the session hears does not depend on that: it is read off the reader,
window by window. So a run of the service is a run of the session over the events of so many
windows, and what the service adds is where it stops and whether it aborts the installer then.

## Main definitions

* `serviceEvents` — what a session hears in so many windows
* `Left` — the ways out of `run_update_protocol`
* `polledBytes`, `Delivers` — the bytes a reader has returned, and the events they make

## Main results

* `runUpdateProtocol_refines`, `serveAfterHello_refines` — the service runs a session
* `Delivers.stands_in` — an executed frame was in the stream
-/

namespace Stm32SecurityLab

open Crash

/-! ### What a session hears -/

/-- What the session hears in one call of `update_protocol_session_process_reader`. -/
def readFrameEvents (getc : ℕ → ByteRead) (byteTimeoutPolls remaining : ℕ)
    (parser : UpdateProtocolParser) (polled : ℕ) : List LineEvent :=
  match byteReaderGetcTimeout getc byteTimeoutPolls polled with
  | (.timeout, _) => [.timeout]
  | (.ok byte, polled) =>
    match remaining with
    | 0 => [.overrun]
    | remaining + 1 =>
      match updateProtocolParserPush parser byte with
      | (.needMore, parser) =>
        .byte byte :: readFrameEvents getc byteTimeoutPolls remaining parser polled
      | _ => [.byte byte]
  | _ => [.failed]

/-- What the session hears in a window. -/
def Window.events (config : UpdateServiceConfig) (window : Window) : List LineEvent :=
  readFrameEvents config.getc config.byteTimeout updateProtocolReaderMaxBytes window.parser
    window.polled

/-- What the session hears in so many windows. -/
def serviceEvents (config : UpdateServiceConfig) (start : ℕ) : ℕ → List LineEvent
  | 0 => []
  | n + 1 => serviceEvents config start n ++ (windowAt config start n).events config

section Windows

variable {crypto : Crypto} {p : UpdateProtocolSession} {getc : ℕ → ByteRead}

/-- What is done with the end of the loop is what a session does that hears the events. -/
theorem runLine_readFrameEvents (timeoutPolls remaining polled : ℕ) (p : UpdateProtocolSession) :
    runLine crypto (readFrameEvents getc timeoutPolls remaining p.parser polled) p =
      (do
        let _ ← handleReaderEnd crypto
          (readFrameLoop getc timeoutPolls remaining p.parser polled).1
        pure () : Prog UpdateProtocolSession Empty Unit)
        { p with parser := (readFrameLoop getc timeoutPolls remaining p.parser polled).2.1 } := by
  induction remaining generalizing p polled with
  | zero =>
    rw [readFrameEvents.eq_def, readFrameLoop.eq_def]
    rcases byteReaderGetcTimeout getc timeoutPolls polled with ⟨read, polled'⟩
    cases read <;> rfl
  | succ remaining ih =>
    rw [readFrameEvents.eq_def, readFrameLoop.eq_def]
    rcases byteReaderGetcTimeout getc timeoutPolls polled with ⟨read, polled'⟩
    cases read with
    | ok byte =>
      have hbyte (events : List LineEvent) : runLine crypto (.byte byte :: events) p =
          (do
            let _ ← handleParsed crypto (updateProtocolParserPush p.parser byte).1
            runLine crypto events : Prog UpdateProtocolSession Empty Unit)
            { p with parser := (updateProtocolParserPush p.parser byte).2 } := rfl
      rcases hpush : updateProtocolParserPush p.parser byte with ⟨status, parser'⟩
      rw [hpush] at hbyte
      cases status with
      | needMore =>
        have := ih polled' { p with parser := parser' }
        simp only [hpush]
        rw [hbyte]
        exact this
      | _ =>
        simp only [hpush]
        rw [hbyte]
        rfl
    | _ => rfl

/-- The parser at the end of a window. -/
theorem handleReaderEnd_parserAfter (readerEnd : ReaderEnd) :
    wp (handleReaderEnd crypto readerEnd) p
      (fun _ p' => p'.parser = readerEnd.parserAfter p.parser) (fun _ _ => False)
      fun _ => True := by
  cases readerEnd with
  | timeout =>
    refine handleTimeout_spec.mono ?_ (fun _ _ h => h) fun _ h => h
    rintro _ _ ⟨_, _, rfl⟩
    rfl
  | failed =>
    rw [handleReaderEnd, wp_bind, setLastStatus, wp_modify]
    rfl
  | overrun =>
    rw [handleReaderEnd, wp_bind, wp_modify]
    rfl
  | parsed status =>
    exact (handleParsed_spec status).mono (fun _ _ h => h.parser) (fun _ _ h => h)
      fun _ _ => trivial

end Windows

/-! ### The service runs a session -/

/-- The ways out of `run_update_protocol`: the session `p` as the last round left it, the result,
and the session with which the service returns. -/
inductive Left (p : UpdateProtocolSession) : UpdateServiceResult → UpdateProtocolSession → Prop
  /-- The update has finished, or a reset has been asked for. -/
  | reset (state : p.state = .finished ∨ p.state = .resetRequested) : Left p .resetRequested p
  /-- The update has been aborted. -/
  | aborted (state : p.state = .aborted) : Left p .bootContinue p
  /-- Anything else: the installer is aborted if it has been started. -/
  | cleaned {q : UpdateProtocolSession} (run : abortStartedInstaller p = .ret () q) :
      Left p .bootContinue q

/-- A service that stands before a window, having run the session `p` over the windows before. -/
structure Serving (crypto : Crypto) (config : UpdateServiceConfig) (start n : ℕ)
    (p : UpdateProtocolSession) (s : UpdateService) : Prop where
  run : runLine crypto (serviceEvents config start n) p = .ret () s.protocol
  parser : s.protocol.parser = (windowAt config start n).parser
  polled : s.polled = (windowAt config start n).polled

/-- The session lost power in so many windows, or in the abort behind them. -/
def LostIn (crypto : Crypto) (config : UpdateServiceConfig) (start n : ℕ)
    (p : UpdateProtocolSession) (s : UpdateService) : Prop :=
  s.polled = (windowAt config start n).polled ∧
    (runLine crypto (serviceEvents config start n) p = .cut s.protocol ∨
      ∃ p', runLine crypto (serviceEvents config start n) p = .ret () p' ∧
        abortStartedInstaller p' = .cut s.protocol)

section Service

variable {crypto : Crypto} {config : UpdateServiceConfig} {start n : ℕ}
  {p : UpdateProtocolSession} {s : UpdateService}

/-- One call of `update_protocol_session_process_reader` is one window. -/
theorem processReader_serving (h : Serving crypto config start n p s) :
    wp (updateProtocolSessionProcessReader crypto config.getc config.byteTimeout) s
      (fun _ s' => Serving crypto config start (n + 1) p s') (fun _ _ => False)
      (LostIn crypto config start (n + 1) p) := by
  have hevents := @runLine_readFrameEvents crypto config.getc config.byteTimeout
    updateProtocolReaderMaxBytes s.polled s.protocol
  rw [updateProtocolSessionProcessReader, wp_bind, wp_get, wp_bind, wp_modify, wp_onProtocol]
  have hwindow : readFrameEvents config.getc config.byteTimeout updateProtocolReaderMaxBytes
      s.protocol.parser s.polled = (windowAt config start n).events config := by
    rw [h.parser, h.polled]
    rfl
  have hnext : (windowAt config start n).next config =
      ((readFrameLoop config.getc config.byteTimeout updateProtocolReaderMaxBytes s.protocol.parser
          s.polled).1,
        ⟨(readFrameLoop config.getc config.byteTimeout updateProtocolReaderMaxBytes
            s.protocol.parser s.polled).1.parserAfter
          (readFrameLoop config.getc config.byteTimeout updateProtocolReaderMaxBytes
            s.protocol.parser s.polled).2.1,
          (readFrameLoop config.getc config.byteTimeout updateProtocolReaderMaxBytes
            s.protocol.parser s.polled).2.2⟩) := by
    rw [h.parser, h.polled]
    rfl
  rw [hwindow] at hevents
  revert hevents hnext
  generalize readFrameLoop config.getc config.byteTimeout updateProtocolReaderMaxBytes
    s.protocol.parser s.polled = read
  intro hevents hnext
  have hparser := @handleReaderEnd_parserAfter crypto { s.protocol with parser := read.2.1 } read.1
  refine wp_of_outcome ?_ (fun e => e.elim) ?_
  · intro status p' hrun
    rw [bind_of_ret hrun] at hevents
    refine ⟨?_, ?_, ?_⟩
    · rw [serviceEvents, runLine_append]
      exact (bind_of_ret h.run).trans hevents
    · rw [windowAt, hnext]
      exact hparser.ret hrun
    · rw [windowAt, hnext]
  · intro p' hrun
    rw [bind_of_cut hrun] at hevents
    refine ⟨by rw [windowAt, hnext], .inl ?_⟩
    rw [serviceEvents, runLine_append]
    exact (bind_of_ret h.run).trans hevents

theorem leaveService_left {C : UpdateService → Prop}
    (hcut : ∀ p', abortStartedInstaller s.protocol = .cut p' → C { s with protocol := p' }) :
    wp leaveService s
      (fun next s' => next = .inl .bootContinue ∧ s'.polled = s.polled ∧
        Left s.protocol .bootContinue s'.protocol) (fun _ _ => False) C := by
  rw [leaveService, wp_bind, wp_onProtocol]
  exact wp_of_outcome (fun _ p' hrun => ⟨rfl, rfl, .cleaned hrun⟩) (fun e => e.elim)
    fun p' hrun => hcut p' hrun

/-- What is decided after a round: the service goes on, or it leaves in one of the ways of
`Left`. -/
theorem decideRound_left {C : UpdateService → Prop} (frameTimeouts : ℕ)
    (status : UpdateProtocolStatus)
    (hcut : ∀ p', abortStartedInstaller s.protocol = .cut p' → C { s with protocol := p' }) :
    wp (decideRound config frameTimeouts status) s
      (fun next s' => s'.polled = s.polled ∧
        ((∃ frameTimeouts', next = .inr frameTimeouts' ∧ s' = s) ∨
          ∃ result, next = .inl result ∧ Left s.protocol result s'.protocol))
      (fun _ _ => False) C := by
  have hleave : wp leaveService s
      (fun next s' => s'.polled = s.polled ∧
        ((∃ frameTimeouts', next = .inr frameTimeouts' ∧ s' = s) ∨
          ∃ result, next = .inl result ∧ Left s.protocol result s'.protocol))
      (fun _ _ => False) C :=
    (leaveService_left hcut).mono (fun _ _ h => ⟨h.2.1, .inr ⟨_, h.1, h.2.2⟩⟩) (fun _ _ h => h)
      fun _ h => h
  rw [decideRound, wp_ite]
  refine ⟨fun _ => ?_, fun _ => ?_⟩
  · rw [wp_ite]
    exact ⟨fun _ => hleave, fun _ => ⟨rfl, .inl ⟨_, rfl, rfl⟩⟩⟩
  rw [wp_bind, wp_get, wp_ite]
  refine ⟨fun _ => ?_, fun _ => ?_⟩
  · rw [wp_ite]
    exact ⟨fun hstate => ⟨rfl, .inr ⟨_, rfl, .reset hstate⟩⟩, fun _ => hleave⟩
  cases hstate : s.protocol.state with
  | finished => exact ⟨rfl, .inr ⟨_, rfl, .reset (.inl hstate)⟩⟩
  | resetRequested => exact ⟨rfl, .inr ⟨_, rfl, .reset (.inr hstate)⟩⟩
  | aborted => exact ⟨rfl, .inr ⟨_, rfl, .aborted hstate⟩⟩
  | failed => exact hleave
  | idle => exact ⟨rfl, .inl ⟨_, rfl, rfl⟩⟩
  | updating => exact ⟨rfl, .inl ⟨_, rfl, rfl⟩⟩

/-- How a run of the service ends: the session has been run over so many windows, and the service
has left, or has used up its rounds. -/
def Served (crypto : Crypto) (config : UpdateServiceConfig) (start : ℕ) (p : UpdateProtocolSession)
    (result : Option UpdateServiceResult) (s : UpdateService) : Prop :=
  ∃ n p', runLine crypto (serviceEvents config start n) p = .ret () p' ∧
    s.polled = (windowAt config start n).polled ∧
    match result with
    | none => s.protocol = p'
    | some result => Left p' result s.protocol

/-- **`run_update_protocol` runs the session over the events of so many windows.** -/
theorem runUpdateProtocol_refines (fuel frameTimeouts : ℕ)
    (h : Serving crypto config start n p s) :
    wp (runUpdateProtocol crypto config fuel frameTimeouts) s
      (fun result s' => Served crypto config start p result s') (fun _ _ => False)
      (fun s' => ∃ n, LostIn crypto config start n p s') := by
  induction fuel generalizing n s frameTimeouts with
  | zero => exact ⟨n, s.protocol, h.run, h.polled, rfl⟩
  | succ fuel ih =>
    rw [runUpdateProtocol, wp_bind, updateServiceRound, wp_bind]
    refine (processReader_serving h).mono ?_ (fun _ _ h => h) fun _ h => ⟨_, h⟩
    intro status s₁ h₁
    have hcut (p' : UpdateProtocolSession) (habort : abortStartedInstaller s₁.protocol = .cut p') :
        LostIn crypto config start (n + 1) p { s₁ with protocol := p' } :=
      ⟨h₁.polled, .inr ⟨s₁.protocol, h₁.run, habort⟩⟩
    refine (decideRound_left _ _ hcut).mono ?_ (fun _ _ h => h) fun _ h => ⟨_, h⟩
    rintro next s₂ ⟨hpolled, ⟨frameTimeouts', rfl, rfl⟩ | ⟨result, rfl, hleft⟩⟩
    · exact ih frameTimeouts' h₁
    · exact ⟨n + 1, s₁.protocol, h₁.run, hpolled.trans h₁.polled, hleft⟩

/-- A session that has answered the initial `HELLO`. -/
def Greeted (config : UpdateServiceConfig) (inst : Installer) (p : UpdateProtocolSession) : Prop :=
  ∃ lastStatus written, p =
    { updateProtocolSessionInit config.flash config.publicKey config.installOptions config.write
        inst.programBuffer inst.dev with
      lastStatus, written, expectedSequence := 1 }

theorem acceptInitialHello_greeted :
    wp (acceptInitialHello config) s
      (fun status s' => s'.polled = s.polled ∧ s'.protocol.inst.dev = s.protocol.inst.dev ∧
        (status = .ok → Greeted config s.protocol.inst s'.protocol))
      (fun _ _ => False) fun _ => False := by
  rw [acceptInitialHello, wp_bind, wp_modify, wp_onProtocol,
    updateProtocolSessionAcceptInitialHello, wp_bind, wp_get,
    if_neg (by simp [updateProtocolSessionInit]), wp_bind]
  refine (sendHelloAck_spec _ _).mono ?_ (fun _ _ h => h) fun _ h => h
  rintro status p' ⟨hanswer, -⟩
  rw [hanswer.same, wp_ite]
  refine ⟨fun _ => ?_, fun hstatus => ⟨rfl, rfl, fun hok => absurd hok hstatus⟩⟩
  rw [wp_bind, advanceSequence, wp_modify]
  exact ⟨rfl, rfl, fun _ => ⟨_, _, rfl⟩⟩

/-- **Behind a `HELLO` the service runs a session**, unless the answer could not be written. -/
theorem serveAfterHello_refines (fuel : ℕ) :
    wp (serveAfterHello crypto config fuel) s
      (fun result s' => (s'.polled = s.polled ∧ s'.protocol.inst.dev = s.protocol.inst.dev) ∨
        ∃ p, Greeted config s.protocol.inst p ∧ Served crypto config s.polled p result s')
      (fun _ _ => False)
      (fun s' => ∃ p n, Greeted config s.protocol.inst p ∧
        LostIn crypto config s.polled n p s') := by
  rw [serveAfterHello, wp_bind]
  refine acceptInitialHello_greeted.mono ?_ (fun _ _ h => h) fun _ h => h.elim
  rintro status s₁ ⟨hpolled, hdev, hgreeted⟩
  rw [wp_ite]
  refine ⟨fun _ => .inl ⟨hpolled, hdev⟩, fun hstatus => ?_⟩
  have hgreeted := hgreeted (Decidable.not_not.mp hstatus)
  have hserving : Serving crypto config s.polled 0 s₁.protocol s₁ := by
    refine ⟨rfl, ?_, hpolled⟩
    obtain ⟨_, _, hp⟩ := hgreeted
    rw [hp]
    rfl
  refine (runUpdateProtocol_refines fuel 0 hserving).mono (fun _ _ h => .inr ⟨_, hgreeted, h⟩)
    (fun _ _ h => h) ?_
  rintro _ ⟨n, h⟩
  exact ⟨_, n, hgreeted, h⟩

end Service

/-! ### Bytes and events -/

/-- The byte of a poll. -/
def ByteRead.byte? : ByteRead → Option UInt8
  | .ok byte => some byte
  | _ => none

/-- The bytes that the polls from one position to another have returned. -/
def polledBytes (getc : ℕ → ByteRead) (start stop : ℕ) : List UInt8 :=
  (List.range' start (stop - start)).filterMap fun i => (getc i).byte?

/-- The bytes of a stream, and what a session hears of it. The byte that is too many is dropped. -/
inductive Delivers : List UInt8 → List LineEvent → Prop
  | nil : Delivers [] []
  | byte {bytes : List UInt8} {events : List LineEvent} (value : UInt8)
      (rest : Delivers bytes events) : Delivers (value :: bytes) (.byte value :: events)
  | timeout {bytes : List UInt8} {events : List LineEvent} (rest : Delivers bytes events) :
      Delivers bytes (.timeout :: events)
  | overrun {bytes : List UInt8} {events : List LineEvent} (value : UInt8)
      (rest : Delivers bytes events) : Delivers (value :: bytes) (.overrun :: events)
  | failed {bytes : List UInt8} {events : List LineEvent} (rest : Delivers bytes events) :
      Delivers bytes (.failed :: events)

section Bytes

variable {bytes bytes' : List UInt8} {events events' : List LineEvent} {getc : ℕ → ByteRead}

theorem delivers_bytes (bytes : List UInt8) : Delivers bytes (bytes.map .byte) := by
  induction bytes with
  | nil => exact .nil
  | cons byte bytes ih => exact .byte byte ih

theorem Delivers.append (h : Delivers bytes events) (h' : Delivers bytes' events') :
    Delivers (bytes ++ bytes') (events ++ events') := by
  induction h with
  | nil => exact h'
  | byte value _ ih => exact .byte value ih
  | timeout _ ih => exact .timeout ih
  | overrun value _ ih => exact .overrun value ih
  | failed _ ih => exact .failed ih

theorem polledBytes_append {start middle stop : ℕ} (h : start ≤ middle) (h' : middle ≤ stop) :
    polledBytes getc start middle ++ polledBytes getc middle stop =
      polledBytes getc start stop := by
  have hrange : List.range' start (middle - start) ++ List.range' middle (stop - middle) =
      List.range' start (stop - start) := by
    have := @List.range'_append_1 start (middle - start) (stop - middle)
    rw [show start + (middle - start) = middle by omega,
      show middle - start + (stop - middle) = stop - start by omega] at this
    exact this
  rw [polledBytes, polledBytes, polledBytes, ← List.filterMap_append, hrange]

theorem polledBytes_self (start : ℕ) : polledBytes getc start start = [] := by
  rw [polledBytes, Nat.sub_self]
  rfl

theorem polledBytes_succ (start : ℕ) :
    polledBytes getc start (start + 1) = (getc start).byte?.toList := by
  rw [polledBytes, Nat.add_sub_cancel_left]
  cases hread : getc start <;> simp [List.range'_succ, hread, ByteRead.byte?]

/-- The polls for one byte return that byte and no other. -/
theorem polledBytes_getc (timeoutPolls polled : ℕ) :
    polledBytes getc polled (byteReaderGetcTimeout getc timeoutPolls polled).2 =
      (byteReaderGetcTimeout getc timeoutPolls polled).1.byte?.toList := by
  induction timeoutPolls generalizing polled with
  | zero =>
    rw [byteReaderGetcTimeout]
    exact polledBytes_self polled
  | succ timeoutPolls ih =>
    have hle := (@byteReaderGetcTimeout_polled getc timeoutPolls (polled + 1)).1
    have hfirst := @polledBytes_succ getc polled
    rw [byteReaderGetcTimeout]
    cases hread : getc polled with
    | noData =>
      rw [hread] at hfirst
      dsimp only
      rw [← polledBytes_append (Nat.le_succ polled) hle, hfirst, ih]
      rfl
    | _ =>
      rw [hread] at hfirst
      exact hfirst

/-- What a session hears in a window are the bytes that the reader returns in it. -/
theorem readFrameEvents_delivers (timeoutPolls remaining : ℕ) (parser : UpdateProtocolParser)
    (polled : ℕ) :
    Delivers (polledBytes getc polled (readFrameLoop getc timeoutPolls remaining parser polled).2.2)
      (readFrameEvents getc timeoutPolls remaining parser polled) := by
  induction remaining generalizing parser polled with
  | zero =>
    have hbytes := @polledBytes_getc getc timeoutPolls polled
    rw [readFrameEvents.eq_def, readFrameLoop.eq_def]
    revert hbytes
    rcases byteReaderGetcTimeout getc timeoutPolls polled with ⟨read, polled'⟩
    intro hbytes
    cases read <;> dsimp only at hbytes ⊢ <;> rw [hbytes]
    · exact .overrun _ .nil
    · exact .failed .nil
    · exact .timeout .nil
    · exact .failed .nil
    · exact .failed .nil
  | succ remaining ih =>
    have hbytes := @polledBytes_getc getc timeoutPolls polled
    have hle := (@byteReaderGetcTimeout_polled getc timeoutPolls polled).1
    rw [readFrameEvents.eq_def, readFrameLoop.eq_def]
    revert hbytes hle
    rcases byteReaderGetcTimeout getc timeoutPolls polled with ⟨read, polled'⟩
    intro hbytes hle
    cases read with
    | ok byte =>
      rcases hpush : updateProtocolParserPush parser byte with ⟨status, parser'⟩
      cases status with
      | needMore =>
        have hle' := (@readFrameLoop_polled getc timeoutPolls remaining parser' polled').1
        simp only [hpush]
        rw [← polledBytes_append hle hle', hbytes]
        exact .byte byte (ih parser' polled')
      | _ =>
        simp only [hpush]
        rw [hbytes]
        exact .byte byte .nil
    | timeout =>
      dsimp only at hbytes ⊢
      rw [hbytes]
      exact .timeout .nil
    | _ =>
      dsimp only at hbytes ⊢
      rw [hbytes]
      exact .failed .nil

/-- **What a session hears is what the reader has returned.** -/
theorem serviceEvents_delivers (config : UpdateServiceConfig) (start n : ℕ) :
    Delivers (polledBytes config.getc start (windowAt config start n).polled)
      (serviceEvents config start n) := by
  induction n with
  | zero =>
    show Delivers (polledBytes config.getc start start) []
    rw [polledBytes_self]
    exact .nil
  | succ n ih =>
    have hstart : start ≤ (windowAt config start n).polled :=
      polled_windowAt_mono (Nat.zero_le n)
    rw [← polledBytes_append hstart (polled_windowAt_mono (Nat.le_succ n))]
    exact ih.append (readFrameEvents_delivers _ _ _ _)

theorem Carries.stands_in {frames : List UpdateProtocolFrame} {frame : UpdateProtocolFrame}
    (h : Carries bytes frames) (hframe : frame ∈ frames) : frame.encode <:+: bytes := by
  induction h with
  | nil => cases hframe
  | gap more _ ih => exact (ih hframe).trans (List.prefix_append _ _).isInfix
  | frame last _ ih =>
    rcases List.mem_append.mp hframe with hframe | hframe
    · exact (ih hframe).trans (List.prefix_append _ _).isInfix
    · obtain rfl := List.mem_singleton.mp hframe
      exact (List.suffix_append _ _).isInfix

/-- **An executed frame was in the stream**, with the CRC that belongs to it. -/
theorem Delivers.stands_in {parser : UpdateProtocolParser} {before : List UInt8}
    {frames : List UpdateProtocolFrame} {sequence : UInt16} {frame : UpdateProtocolFrame}
    (h : Delivers bytes events) (htracks : Tracks before frames parser)
    (hframe : frame ∈ acceptedFrames parser sequence events) :
    frame.encode <:+: before ++ bytes := by
  induction h generalizing parser before frames sequence with
  | nil => cases hframe
  | @byte bytes events value _ ih =>
    have hpush := htracks.push value
    rw [acceptedFrames, LineEvent.parse] at hframe
    rw [← List.singleton_append, ← List.append_assoc]
    revert hpush hframe
    rcases updateProtocolParserPush parser value with ⟨status, parser'⟩
    intro hframe hpush
    split at hframe
    · rename_i hready
      rcases List.mem_cons.mp hframe with rfl | hframe
      · have hmem : parser'.frame ∈ frames ++ delivered (status, parser') := by
          obtain rfl : status = .frameReady := hready.1
          exact List.mem_append_right _ (List.mem_singleton_self _)
        exact (hpush.all.stands_in hmem).trans (List.prefix_append _ _).isInfix
      · exact ih hpush hframe
    · exact ih hpush hframe
  | timeout _ ih =>
    rw [acceptedFrames, if_neg (fun h => by cases h.1)] at hframe
    have hkept : Tracks before frames (ReaderEnd.timeout.parserAfter parser) := by
      rw [ReaderEnd.parserAfter]
      split
      · exact htracks.drop UpdateProtocolParser.wellFormed_init rfl
      · exact htracks
    exact ih hkept hframe
  | @overrun bytes events value _ ih =>
    rw [acceptedFrames, if_neg (fun h => by cases h.1)] at hframe
    rw [← List.singleton_append, ← List.append_assoc]
    have hdropped : Tracks (before ++ [value]) frames {} :=
      ⟨UpdateProtocolParser.wellFormed_init, before ++ [value], by simp, htracks.all.gap [value]⟩
    exact ih hdropped hframe
  | failed _ ih =>
    rw [acceptedFrames, if_neg (fun h => by cases h.1)] at hframe
    exact ih htracks hframe

end Bytes

end Stm32SecurityLab
