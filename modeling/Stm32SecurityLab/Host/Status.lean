import Stm32SecurityLab.Host.Agreement
import Stm32SecurityLab.Installer.Bounds
import Stm32SecurityLab.Protocol.Delivery

/-!
# What the target reports of itself

`HELLO` and `GET_INFO` are answered with the limits of the protocol, `GET_STATUS` and a successful
`FINISH_UPDATE` with the state of the session. The host reads both out of the acknowledgement by
position.

The limits are the ones that are enforced. The state is that of the session after the frame, but
for one field: the answer is written before the sequence number advances, so what the report calls
the next expected sequence number is the number of the frame that has just been handled.

## Main definitions

* `Attended` — the sessions that the line leads to, with the blocks they have acknowledged
* `hostResponse` — what the host makes of the bytes of an answer
* `Truthful`, `Enforced`, `ReportsTruth`

## Main results

* `Attended.audited` — the bytes that a session reports are the bytes it has acknowledged
* `executeFrame_report` — the payload of an answer that reports
* `enforced_limits`
* `reportsTruth_iff` — which reports are true
* `target_reports`
-/

namespace Stm32SecurityLab

open Crash

/-! ### Sessions -/

/-- A session that the line leads to, and the blocks it has acknowledged since the last update
began. The first frame may be the `HELLO` that the service has read by itself. -/
inductive Attended (crypto : Crypto) (start : UpdateProtocolSession) :
    UpdateProtocolSession → List (List UInt8) → Prop
  | opened : Attended crypto start start []
  | greeted {p : UpdateProtocolSession} {status : UpdateProtocolStatus}
      (run : updateProtocolSessionAcceptInitialHello start = .ret status p) :
      Attended crypto start p []
  | heard {p p' : UpdateProtocolSession} {blocks : List (List UInt8)}
      {status : UpdateProtocolStatus} (h : Attended crypto start p blocks) (event : LineEvent)
      (run : handleLineEvent crypto event p = .ret status p') :
      Attended crypto start p' (afterEvent event p p' blocks)

/-- The bytes that are reported are the bytes that have been acknowledged, and there are never too
many for the report. -/
structure Audited (crypto : Crypto) (blocks : List (List UInt8)) (p : UpdateProtocolSession) :
    Prop where
  reached : SessionReached crypto p.inst
  receiving : Receiving blocks p
  counted : p.updatePayloadOffset = blocks.flatten.length
  bound : p.updatePayloadOffset < 2 ^ 32

section Sessions

variable {crypto : Crypto} {blocks : List (List UInt8)} {frame : UpdateProtocolFrame}
  {p p' q start : UpdateProtocolSession}

/-- A block that is taken fits behind the others. -/
theorem updateInstallerWrite_bound {s : Installer} (h : SessionReached crypto s) {offset : ℕ}
    {data : List UInt8} :
    wp (updateInstallerWrite offset data) s
      (fun _ _ => s.session.payloadReceived + data.length < 2 ^ 32) (fun _ _ => True)
      fun _ => True := by
  rw [updateInstallerWrite, wp_bind, wp_getSession, wp_bind, wp_failSession, wp_check]
  refine ⟨fun _ => ?_, fun _ => trivial⟩
  rw [wp_bind, wp_check]
  refine ⟨fun hstate => ?_, fun _ => trivial⟩
  rw [wp_bind, wp_check]
  refine ⟨fun _ => ?_, fun _ => trivial⟩
  rw [wp_failSession, wp_bind, wp_check]
  refine ⟨fun _ => ?_, fun _ => trivial⟩
  rw [wp_bind, wp_check]
  refine ⟨fun hfits => ?_, fun _ => trivial⟩
  have hcounted := h.running.counted (Or.inl hstate)
  have hbound := hcounted.bound
  have hfit := hcounted.prepared.fits
  obtain ⟨-, hsize, -⟩ := checkedRoundUp_spec hcounted.prepared.size
  have hslot : (bootSlots s.session.candidate).maximumPayloadSize < 2 ^ 32 := by
    cases s.session.candidate <;> decide
  refine (wp_of_forall fun _ _ => ?_)
  omega

/-- **A frame keeps the books in order.** -/
theorem Audited.executed {ack : Bool} (h : Audited crypto blocks p)
    (hrun : Executed crypto frame p ack q) :
    Audited crypto (if ack then withFrame frame blocks else blocks) q := by
  have hreceiving := h.receiving.executed hrun
  have hstarts {s : Installer} (init : openInstaller p p.inst = .ret () s) :
      SessionReached crypto s := .opened _ _ _ _ init
  have hrefused {e : UpdateInstallError} {s : Installer}
      (init : openInstaller p p.inst = .err e s) : SessionReached crypto s :=
    .err (.sessionInit p.flash p.publicKey p.installOptions true) e h.reached init
  have hends {s s' : Installer} (hs : SessionReached crypto s)
      (abort : Ended updateInstallerAbort s s') : SessionReached crypto s' := by
    rcases abort with hret | ⟨e, herr⟩
    · exact .ret .abort hs hret
    · exact .err .abort e hs herr
  cases hrun with
  | refused => exact h
  | informed known question =>
    refine ⟨h.reached, hreceiving, ?_, h.bound⟩
    rw [if_pos rfl, withFrame, known]
    obtain rfl | rfl | rfl := question <;> exact h.counted
  | notOpened _ _ _ init => exact ⟨hrefused init, hreceiving, h.counted, h.bound⟩
  | notReopened _ _ _ init abort =>
    exact ⟨hends (hrefused init) abort, hreceiving, h.counted, h.bound⟩
  | notBegun _ _ _ init run abort =>
    exact ⟨hends (.err (.begin frame.data) _ (hstarts init) run) abort, hreceiving, h.counted,
      h.bound⟩
  | begun command _ _ init run =>
    refine ⟨.ret (.begin frame.data) (hstarts init) run, hreceiving, ?_, Nat.two_pow_pos 32⟩
    rw [if_pos rfl, withFrame, command]
    rfl
  | misplaced => exact ⟨h.reached, hreceiving, h.counted, h.bound⟩
  | notWritten _ _ _ run =>
    exact ⟨.err (.write _ _) _ h.reached run, hreceiving, h.counted, h.bound⟩
  | wrote command state _ run =>
    refine ⟨.ret (.write _ _) h.reached run, hreceiving, ?_, ?_⟩
    · rw [if_pos rfl, withFrame, command]
      show p.updatePayloadOffset + _ = (blocks ++ [_]).flatten.length
      rw [h.counted, List.flatten_append, List.flatten_singleton, List.length_append]
    · show p.updatePayloadOffset + _ < 2 ^ 32
      rw [(h.receiving state).2.1]
      exact (updateInstallerWrite_bound h.reached).ret run
  | notFinished _ _ _ run => exact ⟨.err .finish _ h.reached run, hreceiving, h.counted, h.bound⟩
  | finished command _ _ run =>
    refine ⟨.ret .finish h.reached run, hreceiving, ?_, h.bound⟩
    rw [if_pos rfl, withFrame, command]
    exact h.counted
  | stopped command =>
    refine ⟨h.reached, hreceiving, ?_, h.bound⟩
    rw [if_pos rfl, withFrame, command]
    exact h.counted
  | notAborted _ _ _ run => exact ⟨.err .abort _ h.reached run, hreceiving, h.counted, h.bound⟩
  | aborted command _ _ run =>
    refine ⟨.ret .abort h.reached run, hreceiving, ?_, h.bound⟩
    rw [if_pos rfl, withFrame, command]
    exact h.counted
  | reset command =>
    refine ⟨h.reached, hreceiving, ?_, h.bound⟩
    rw [if_pos rfl, withFrame, command]
    exact h.counted

theorem Audited.answered {ack : Bool} {sequence expectedSequence : UInt16} {command : UInt8}
    (h : Audited crypto blocks q) (ha : Answered ack sequence command q p) :
    Audited crypto blocks { p with expectedSequence } := by
  rw [ha.same]
  exact ⟨h.reached, h.receiving, h.counted, h.bound⟩

theorem Audited.handled {event : LineEvent} (h : Audited crypto blocks p)
    (hhandled : Handled crypto (event.parse p.parser).1 (received p event) p') :
    Audited crypto (afterEvent event p p' blocks) p' := by
  cases hhandled with
  | skipped hnone =>
    rw [afterEvent, hnone]
    exact ⟨h.reached, h.receiving, h.counted, h.bound⟩
  | @executed frame ack q r hsome hrun hanswer =>
    have hreceived : Audited crypto blocks (received p event) :=
      ⟨h.reached, h.receiving, h.counted, h.bound⟩
    have hack : (if r.lastStatus = .ok then withFrame frame blocks else blocks) =
        if ack then withFrame frame blocks else blocks := by
      simp only [hanswer.status]
    rw [afterEvent, hsome]
    show Audited crypto (if r.lastStatus = .ok then _ else _) _
    rw [hack]
    exact (hreceived.executed hrun).answered hanswer

theorem Audited.opened {flash : BootFlash} {publicKey : List UInt8} {options : UpdateInstallOptions}
    {write : ℕ → List UInt8 → UpdateProtocolStatus} {programBuffer : Mem} {d : Device} :
    Audited crypto [] (updateProtocolSessionInit flash publicKey options write programBuffer d) :=
  ⟨.idle rfl, .of_state fun h => (nomatch h), rfl, Nat.two_pow_pos 32⟩

/-- The answer to the first `HELLO` moves no counter but the sequence number. -/
theorem Audited.greeted (h : Audited crypto blocks p) :
    wp updateProtocolSessionAcceptInitialHello p (fun _ p' => Audited crypto blocks p')
      (fun _ _ => False) fun _ => False := by
  rw [updateProtocolSessionAcceptInitialHello, wp_bind, wp_get, wp_ite]
  refine ⟨fun _ => ?_, fun _ => ?_⟩
  · exact (sendNack_spec _ _ _).mono (fun _ p' ha => h.answered ha.1) (fun _ _ h => h) fun _ h => h
  · rw [wp_bind]
    refine (sendHelloAck_spec _ _).mono ?_ (fun _ _ h => h) fun _ h => h
    rintro status p' ⟨hanswer, -⟩
    rw [wp_ite]
    refine ⟨fun _ => ?_, fun _ => ?_⟩
    · rw [wp_bind, advanceSequence, wp_modify]
      exact h.answered hanswer
    · exact h.answered hanswer

/-- **The bytes that a session reports are the bytes it has acknowledged.** -/
theorem Attended.audited (h : Attended crypto start p blocks) (hstart : Audited crypto [] start) :
    Audited crypto blocks p := by
  induction h with
  | opened => exact hstart
  | greeted run => exact hstart.greeted.ret run
  | heard _ event run ih => exact ih.handled ((handleLineEvent_spec event).ret run)

end Sessions

/-! ### Reading an answer -/

namespace Host

/-- What `_receive_response` makes of the bytes of an answer, in the pieces in which they come. -/
def hostResponse (arrivals : List (List UInt8)) (timeout : ℚ) (sequence : ℕ)
    (command : UpdateProtocolCommand) : Except HostError Response :=
  match (readFrame { buffer := [], arrivals } timeout).1 with
  | .error e => .error e
  | .ok frame => parseResponse frame sequence command

/-- **The host gets out of an answer what the target has put into it.** -/
theorem hostResponse_answer {arrivals : List (List UInt8)} {timeout : ℚ} {ack : Bool}
    {sequence : UInt16} {command : UpdateProtocolCommand} {status : UpdateProtocolStatus}
    {extra : List UInt8}
    (hextra : extra.length ≤ updateProtocolStatusPayloadSize - updateProtocolResponseCommonSize)
    (htimeout : 0 < timeout)
    (harrive : arrivals.flatten =
      (answerFrame ack sequence command.toUInt8 status extra).encode) :
    hostResponse arrivals timeout sequence.toNat command =
      .ok (responseOf ack sequence command status extra) := by
  have hread := readFrame_spec { buffer := [], arrivals } htimeout
  have hnext : nextResult (Transport.stream { buffer := [], arrivals }) =
      some (.frameReady (responseOf ack sequence command status extra).frame, []) := by
    have hnoise : ¬ protocolMagic <:+: [] := by decide
    have hscan := @nextResult_noise_encode
      (if ack then UpdateProtocolCommand.ack.toUInt8 else UpdateProtocolCommand.nack.toUInt8)
      sequence (responseCommon command.toUInt8 status ++ extra) [] hnoise (answer_length hextra) []
    rw [List.nil_append, List.append_nil] at hscan
    rw [Transport.stream, List.nil_append, harrive, answerFrame, hscan]
    rfl
  rw [Reads, hnext] at hread
  have hframe : (readFrame { buffer := [], arrivals } timeout).1 =
      .ok (responseOf ack sequence command status extra).frame := hread.1
  rw [hostResponse, hframe]
  exact parseResponse_answer ack sequence command status extra

/-- `parse_info` inverts `send_hello_ack`. -/
theorem parseInfo_infoPayload (p : UpdateProtocolSession) :
    parseInfo (infoPayload p) = .ok
      { protocolVersion := updateProtocolVersion
        maxPayloadSize := UInt16.ofNat updateProtocolMaxPayloadSize
        maxWriteDataSize := UInt16.ofNat updateProtocolMaxWriteDataSize
        headerSize := UInt16.ofNat updateProtocolHeaderSize
        crcSize := UInt16.ofNat updateProtocolCrcSize
        sessionState := p.state.toUInt8 } := by
  rw [parseInfo, if_neg (by rw [infoPayload_length]; decide)]
  refine congrArg Except.ok ?_
  rw [Info.mk.injEq]
  exact ⟨rfl, loadLe16_of_slice rfl, loadLe16_of_slice rfl, loadLe16_of_slice rfl,
    loadLe16_of_slice rfl, rfl⟩

/-- `parse_status` inverts `build_status_payload`. -/
theorem parseStatus_buildStatusPayload (p : UpdateProtocolSession) :
    parseStatus (buildStatusPayload p) = .ok
      { sessionState := p.state.toUInt8
        lastStatus := p.lastStatus.toUInt16
        expectedSequence := p.expectedSequence
        installerState := p.inst.session.state.toUInt8
        acceptedPayloadBytes := UInt32.ofNat p.updatePayloadOffset
        imageVersion := p.inst.result.imageVersion
        programmedBlockCount := p.inst.result.programmedBlockCount } := by
  rw [parseStatus, if_neg (by rw [buildStatusPayload_length]; decide)]
  refine congrArg Except.ok ?_
  rw [TargetStatus.mk.injEq]
  exact ⟨rfl, loadLe16_of_slice rfl, loadLe16_of_slice rfl, rfl, loadLe32_of_slice rfl,
    loadLe32_of_slice rfl, loadLe32_of_slice rfl⟩

end Host

/-! ### Writing a report -/

/-- The commands that are answered with a report. -/
def UpdateProtocolCommand.Reports (command : UpdateProtocolCommand) : Prop :=
  command.IsQuestion ∨ command = .finishUpdate

instance (command : UpdateProtocolCommand) : Decidable command.Reports :=
  inferInstanceAs (Decidable (_ ∨ _))

/-- What the answer to such a command reports of a session. -/
def reportPayload (command : UpdateProtocolCommand) (p : UpdateProtocolSession) : List UInt8 :=
  if command = .hello ∨ command = .getInfo then infoPayload p else buildStatusPayload p

theorem reportPayload_length_le (command : UpdateProtocolCommand) (p : UpdateProtocolSession) :
    (reportPayload command p).length ≤
      updateProtocolStatusPayloadSize - updateProtocolResponseCommonSize := by
  rw [reportPayload]
  split
  · rw [infoPayload_length]
    decide
  · rw [buildStatusPayload_length]
    decide

/-- The report of a session has been written, all of it. -/
def WroteReport (frame : UpdateProtocolFrame) (command : UpdateProtocolCommand)
    (q p' : UpdateProtocolSession) : Prop :=
  p' = { q with lastStatus := .ok, written := p'.written } ∧
    ∃ pieces : List (List UInt8), p'.written = q.written ++ pieces ∧
      pieces.flatten =
        (answerFrame true frame.sequence frame.command .ok (reportPayload command q)).encode

section Writing

variable {crypto : Crypto} {frame : UpdateProtocolFrame} {command : UpdateProtocolCommand}
  {event : LineEvent} {p : UpdateProtocolSession}

/-- What has to hold of a session that has answered. -/
def Reporting (crypto : Crypto) (frame : UpdateProtocolFrame) (command : UpdateProtocolCommand)
    (p : UpdateProtocolSession) (status : UpdateProtocolStatus) (p' : UpdateProtocolSession) : Prop :=
  status = .ok → p'.lastStatus = .ok →
    ∃ q, Executed crypto frame p true q ∧ WroteReport frame command q p'

theorem refuse_reporting {status : UpdateProtocolStatus} {q : UpdateProtocolSession} :
    wp (refuse frame status) q (Reporting crypto frame command p) (fun _ _ => False)
      fun _ => True :=
  (sendNack_spec _ _ _).mono
    (fun _ _ h _ hok => absurd (h.2.1.symm.trans hok) (nackStatus_ne_ok _)) (fun _ _ h => h)
    fun _ h => h

theorem acknowledge_reporting {q : UpdateProtocolSession} {extra : List UInt8}
    (hrun : Executed crypto frame p true q) (hextra : extra = reportPayload command q) :
    wp (acknowledge frame extra) q (Reporting crypto frame command p) (fun _ _ => False)
      fun _ => True := by
  subst hextra
  exact (sendAck_wrote (reportPayload_length_le command q)).mono
    (fun _ _ h hstatus _ => ⟨q, hrun, h.1, h.2.2 hstatus⟩) (fun _ _ h => h) fun _ h => h

/-- **A report is written about the session as the frame leaves it**, but before the sequence
number advances. -/
theorem executeFrame_report (hcommand : UpdateProtocolCommand.ofUInt8 frame.command = some command)
    (hreports : command.Reports) :
    wp (executeFrame crypto frame) p (Reporting crypto frame command p) (fun _ _ => False)
      fun _ => True := by
  have hhello (hasks : command = .hello ∨ command = .getInfo) :
      wp (handleHello frame) p (Reporting crypto frame command p) (fun _ _ => False)
        fun _ => True := by
    rw [handleHello, wp_ite]
    refine ⟨fun _ => refuse_reporting, fun _ => ?_⟩
    rw [sendHelloAck, wp_bind, wp_get]
    refine acknowledge_reporting (.informed hcommand ?_) (if_pos hasks).symm
    exact hasks.elim Or.inl fun h => Or.inr (Or.inl h)
  rw [executeFrame, hcommand]
  rcases hreports with (rfl | rfl | rfl) | rfl
  · exact hhello (Or.inl rfl)
  · exact hhello (Or.inr rfl)
  · show wp (handleGetStatus frame) p _ _ _
    rw [handleGetStatus, wp_ite]
    refine ⟨fun _ => refuse_reporting, fun _ => ?_⟩
    rw [wp_bind, wp_get]
    exact acknowledge_reporting (.informed hcommand (by decide)) rfl
  · show wp (handleFinishUpdate crypto frame) p _ _ _
    rw [handleFinishUpdate, wp_bind, wp_get, wp_ite]
    refine ⟨fun _ => refuse_reporting, fun _ => ?_⟩
    rw [wp_ite]
    refine ⟨fun _ => refuse_reporting, fun hstate => ?_⟩
    obtain ⟨hstate, hstarted⟩ := not_or.mp hstate
    rw [wp_bind, wp_callInstaller]
    refine wp_of_outcome ?_ ?_ fun _ _ => trivial
    · intro _ s hrun
      rw [wp_ite]
      refine ⟨fun h => absurd rfl h, fun _ => ?_⟩
      rw [wp_bind, setState, wp_modify, wp_bind, wp_get]
      exact acknowledge_reporting (.finished hcommand (Decidable.not_not.mp hstate)
        (by simpa using hstarted) hrun) rfl
    · intro e s hrun
      rw [wp_ite]
      refine ⟨fun _ => ?_, fun h => absurd (mapInstallerStatus_error_ne e) h⟩
      rw [wp_bind, setState, wp_modify]
      exact refuse_reporting

/-- The event that completes a frame in sequence executes it. -/
theorem handleLineEvent_accepted {Q : UpdateProtocolStatus → UpdateProtocolSession → Prop}
    {E : Empty → UpdateProtocolSession → Prop} {C : UpdateProtocolSession → Prop}
    (hsome : accepted (received p event) (event.parse p.parser).1 = some frame)
    (hrun : wp (executeFrame crypto frame) (received p event)
      (fun status p' => Q status { p' with expectedSequence := p'.expectedSequence + 1 }) E C) :
    wp (handleLineEvent crypto event) p Q E C := by
  obtain ⟨hready, rfl, hversion, hsequence⟩ := frame_of_accepted hsome
  cases event with
  | byte byte =>
    rw [handleLineEvent, updateProtocolSessionProcessByte, wp_bind, wp_get, wp_bind, wp_modify]
    change wp (handleParsed crypto (LineEvent.parse p.parser (.byte byte)).1)
      (received p (.byte byte)) Q E C
    rw [hready, handleParsed, wp_bind, wp_get]
    change wp (handleFrame crypto (received p (.byte byte)).parser.frame) _ _ _ _
    rw [handleFrame, wp_bind, wp_get, if_neg (fun h => h hversion), if_neg (fun h => h hsequence),
      wp_bind]
    exact hrun
  | timeout => cases hready
  | overrun => cases hready
  | failed => cases hready

end Writing

/-! ### The limits -/

namespace Host

/-- The limits that the target announces are those it enforces, on every session that waits for a
frame. -/
structure Enforced (crypto : Crypto) (info : Info) : Prop where
  protocolVersion : info.protocolVersion = updateProtocolVersion
  maxPayloadSize : info.maxPayloadSize.toNat = updateProtocolMaxPayloadSize
  headerSize : info.headerSize.toNat = updateProtocolHeaderSize
  crcSize : info.crcSize.toNat = updateProtocolCrcSize
  /-- A block of the largest size is executed, and not refused for its length. -/
  largest (p : UpdateProtocolSession) (offset : UInt32) (data : List UInt8)
    (wf : p.parser.WellFormed) (held : p.parser.held = [])
    (length : data.length = info.maxWriteDataSize.toNat) :
    wp (runLine crypto ((outgoing UpdateProtocolCommand.writeBlock.toUInt8 p.expectedSequence
        (storeLe32 offset ++ data)).encode.map .byte)) p
      (fun _ p' => p'.expectedSequence = p.expectedSequence + 1 ∧
        p'.lastStatus ≠ .lengthError ∧ p'.lastStatus ≠ .oversizeError)
      (fun _ _ => False) fun _ => True
  /-- One byte more, and the target refuses the frame when it has seen the header. -/
  larger (p : UpdateProtocolSession) (offset : UInt32) (data : List UInt8)
    (wf : p.parser.WellFormed) (held : p.parser.held = [])
    (length : data.length = info.maxWriteDataSize.toNat + 1) :
    wp (runLine crypto ((outgoing UpdateProtocolCommand.writeBlock.toUInt8 p.expectedSequence
        (storeLe32 offset ++ data)).header.map .byte)) p
      (fun _ p' => p'.expectedSequence = p.expectedSequence ∧ p'.lastStatus = .oversizeError)
      (fun _ _ => False) fun _ => False

section Limits

variable {crypto : Crypto} {frame : UpdateProtocolFrame} {p : UpdateProtocolSession}

theorem mapInstallerStatus_ne_length (status : Except UpdateInstallError Unit) :
    mapInstallerStatus status ≠ .lengthError ∧ mapInstallerStatus status ≠ .oversizeError := by
  rcases status with e | _
  · cases e <;> decide
  · show UpdateProtocolStatus.ok ≠ .lengthError ∧ UpdateProtocolStatus.ok ≠ .oversizeError
    decide

/-- A block whose length is within the limits is refused for other reasons only. -/
theorem handleWriteBlock_length
    (hheader : updateProtocolWriteBlockPrefixSize < frame.payloadLength.toNat)
    (hmax : frame.payloadLength.toNat ≤ updateProtocolMaxPayloadSize) :
    wp (handleWriteBlock frame) p
      (fun _ p' => p'.expectedSequence = p.expectedSequence ∧
        p'.lastStatus ≠ .lengthError ∧ p'.lastStatus ≠ .oversizeError)
      (fun _ _ => False) fun _ => True := by
  have hrefuse {q : UpdateProtocolSession} {status : UpdateProtocolStatus}
      (hq : q.expectedSequence = p.expectedSequence)
      (hstatus : status ≠ .lengthError ∧ status ≠ .oversizeError) :
      wp (refuse frame status) q
        (fun _ p' => p'.expectedSequence = p.expectedSequence ∧
          p'.lastStatus ≠ .lengthError ∧ p'.lastStatus ≠ .oversizeError)
        (fun _ _ => False) fun _ => True := by
    refine (sendNack_spec _ _ _).mono ?_ (fun _ _ h => h) fun _ h => h
    rintro _ p' ⟨hanswer, hlast, -⟩
    refine ⟨hanswer.line.2.1.trans hq, ?_⟩
    rw [hlast, nackStatus]
    split
    · decide
    · exact hstatus
  rw [handleWriteBlock, wp_bind, wp_get, wp_ite]
  refine ⟨fun _ => hrefuse rfl (by decide), fun _ => ?_⟩
  rw [if_neg (not_or.mpr ⟨Nat.not_le.mpr hheader, Nat.not_lt.mpr hmax⟩), wp_ite]
  refine ⟨fun _ => ?_, fun _ => ?_⟩
  · rw [wp_bind, setState, wp_modify]
    exact hrefuse rfl (by decide)
  · rw [wp_bind, wp_callInstaller]
    refine wp_of_outcome ?_ ?_ fun _ _ => trivial
    · intro _ s _
      rw [wp_ite]
      refine ⟨fun h => absurd rfl h, fun _ => ?_⟩
      rw [wp_bind, wp_modify]
      refine (sendAck_spec (Nat.zero_le _)).mono ?_ (fun _ _ h => h) fun _ h => h
      rintro _ p' ⟨hanswer, -⟩
      refine ⟨hanswer.line.2.1, ?_⟩
      rw [hanswer.status.mpr rfl]
      decide
    · intro e s _
      rw [wp_ite]
      refine ⟨fun _ => ?_, fun h => absurd (mapInstallerStatus_error_ne e) h⟩
      rw [wp_bind, setState, wp_modify]
      exact hrefuse rfl (mapInstallerStatus_ne_length _)

/-- **The limits of `HELLO` and `GET_INFO` are enforced.** -/
theorem enforced_limits (crypto : Crypto) (sessionState : UInt8) :
    Enforced crypto
      { protocolVersion := updateProtocolVersion
        maxPayloadSize := UInt16.ofNat updateProtocolMaxPayloadSize
        maxWriteDataSize := UInt16.ofNat updateProtocolMaxWriteDataSize
        headerSize := UInt16.ofNat updateProtocolHeaderSize
        crcSize := UInt16.ofNat updateProtocolCrcSize
        sessionState } where
  protocolVersion := rfl
  maxPayloadSize := rfl
  headerSize := rfl
  crcSize := rfl
  largest := by
    intro p offset data wf hheld hlength
    have hlength : data.length = 1020 := hlength
    have hpayload : (storeLe32 offset ++ data).length = 1024 := by
      rw [List.length_append, storeLe32_length, hlength]
    refine wp_runLine_inSequence wf hheld (by rw [hpayload]; decide) ?_
    intro parser' _ _ hcontents
    have hcommand : parser'.frame.command = UpdateProtocolCommand.writeBlock.toUInt8 :=
      congrArg Frame.command hcontents
    have hdata : parser'.frame.payloadLength.toNat = 1024 := by
      rw [← UpdateProtocolFrame.data_length, ← hpayload]
      exact congrArg (·.payload.length) hcontents
    rw [executeFrame, hcommand, UpdateProtocolCommand.ofUInt8_toUInt8]
    refine (handleWriteBlock_length (by rw [hdata]; decide) (by rw [hdata]; decide)).mono ?_
      (fun _ _ h => h) fun _ h => h
    rintro _ p' ⟨hsequence, hstatus⟩
    exact ⟨congrArg (· + 1) hsequence, hstatus⟩
  larger := by
    intro p offset data wf hheld hlength
    have hlength : data.length = 1021 := hlength
    have hpayload : (UInt16.ofNat (storeLe32 offset ++ data).length).toNat = 1025 := by
      rw [List.length_append, storeLe32_length, hlength]
      rfl
    have hfirst : firstResult p.parser (outgoing UpdateProtocolCommand.writeBlock.toUInt8
        p.expectedSequence (storeLe32 offset ++ data)).header = some (.errOversize, []) := by
      rw [firstResult_eq_nextResult wf, hheld, List.nil_append, ← List.append_nil
        (UpdateProtocolFrame.header _), nextResult_header, if_pos]
      show _ < (UInt16.ofNat (storeLe32 offset ++ data).length).toNat
      rw [hpayload]
      decide
    obtain ⟨⟨status, parser'⟩, hparse, hresult, -, -⟩ := firstParse_of_firstResult wf hfirst
    cases status with
    | errOversize =>
      refine wp_runLine_firstParse hparse ?_
      rw [handleParsed, wp_bind, wp_get]
      show wp (handleParseError .errOversize) _ _ _ _
      rw [handleParseError.eq_def, wp_bind, wp_get]
      refine (sendNack_spec _ _ _).mono ?_ (fun _ _ h => h) fun _ h => h
      rintro _ p' ⟨hanswer, hlast, -⟩
      exact ⟨hanswer.line.2.1, hlast⟩
    | _ => cases hresult

end Limits

/-! ### Which reports are true -/

/-- What a report says of a session, and of the blocks it has acknowledged. The sequence number is
left out. -/
structure Truthful (report : TargetStatus) (blocks : List (List UInt8))
    (p : UpdateProtocolSession) : Prop where
  sessionState : report.sessionState = p.state.toUInt8
  installerState : report.installerState = p.inst.session.state.toUInt8
  acceptedPayloadBytes : report.acceptedPayloadBytes.toNat = p.updatePayloadOffset
  acknowledged : p.updatePayloadOffset = blocks.flatten.length
  imageVersion : report.imageVersion = p.inst.result.imageVersion
  programmedBlockCount : report.programmedBlockCount = p.inst.result.programmedBlockCount

/-- All that the host reads out of an answer is true: the limits are enforced, and the state is
that of the session, up to the sequence number that it accepts next. -/
def ReportsTruth (crypto : Crypto) (command : UpdateProtocolCommand) (extra : List UInt8)
    (blocks : List (List UInt8)) (p : UpdateProtocolSession) : Prop :=
  if command = .hello ∨ command = .getInfo then
    ∃ info, parseInfo extra = .ok info ∧ Enforced crypto info ∧
      info.sessionState = p.state.toUInt8
  else
    ∃ report, parseStatus extra = .ok report ∧ Truthful report blocks p ∧
      report.expectedSequence = p.expectedSequence

section Reports

variable {crypto : Crypto} {frame : UpdateProtocolFrame} {command : UpdateProtocolCommand}
  {blocks : List (List UInt8)} {event : LineEvent} {p p' q start : UpdateProtocolSession}

/-- **The report of a session that goes on to the next number.** -/
theorem reportsTruth_iff (h : Audited crypto blocks q) {lastStatus : UpdateProtocolStatus}
    {written : List (List UInt8)}
    (hnext : p' =
      { q with lastStatus, written, expectedSequence := q.expectedSequence + 1 }) :
    (ReportsTruth crypto command (reportPayload command q) blocks p' ↔
      command = .hello ∨ command = .getInfo) ∧
    (¬ (command = .hello ∨ command = .getInfo) →
      ∃ report, parseStatus (reportPayload command q) = .ok report ∧ Truthful report blocks p' ∧
        report.expectedSequence = q.expectedSequence) := by
  subst hnext
  by_cases hinfo : command = .hello ∨ command = .getInfo
  · rw [ReportsTruth, reportPayload, if_pos hinfo, if_pos hinfo]
    exact ⟨⟨fun _ => hinfo, fun _ => ⟨_, parseInfo_infoPayload q, enforced_limits crypto _, rfl⟩⟩,
      fun h => absurd hinfo h⟩
  · rw [ReportsTruth, reportPayload, if_neg hinfo, if_neg hinfo]
    have hparse := parseStatus_buildStatusPayload q
    refine ⟨⟨?_, fun h => absurd h hinfo⟩, fun _ => ⟨_, hparse, ?_, rfl⟩⟩
    · rintro ⟨report, hreport, -, hsequence⟩
      obtain rfl := Except.ok.inj (hparse.symm.trans hreport)
      have hstuck : q.expectedSequence = q.expectedSequence + 1 := hsequence
      grind
    · exact ⟨rfl, rfl, UInt32.toNat_ofNat_of_lt' h.bound, h.counted, rfl, rfl⟩

/-- What becomes of an acknowledgement that reports. -/
theorem reports_of_audited (h : Audited crypto blocks p)
    (hsome : accepted (received p event) (event.parse p.parser).1 = some frame)
    (hcommand : UpdateProtocolCommand.ofUInt8 frame.command = some command)
    (hreports : command.Reports) :
    wp (handleLineEvent crypto event) p
      (fun status p' => status = .ok → p'.lastStatus = .ok →
        ∀ (arrivals : List (List UInt8)) (timeout : ℚ), 0 < timeout →
          p'.written.flatten = p.written.flatten ++ arrivals.flatten →
          ∃ response, hostResponse arrivals timeout frame.sequence.toNat command = .ok response ∧
            (ReportsTruth crypto command response.extra (afterEvent event p p' blocks) p' ↔
              command = .hello ∨ command = .getInfo) ∧
            (command = .getStatus ∨ command = .finishUpdate →
              ∃ report, parseStatus response.extra = .ok report ∧
                Truthful report (afterEvent event p p' blocks) p' ∧
                report.expectedSequence = frame.sequence ∧
                p'.expectedSequence = frame.sequence + 1))
      (fun _ _ => False) fun _ => True := by
  have hrun : wp (handleLineEvent crypto event) p
      (fun status p' => ∃ r, p' = { r with expectedSequence := r.expectedSequence + 1 } ∧
        Reporting crypto frame command (received p event) status r)
      (fun _ _ => False) fun _ => True :=
    handleLineEvent_accepted hsome ((executeFrame_report hcommand hreports).mono
      (fun _ r hr => ⟨r, rfl, hr⟩) (fun _ _ h => h) fun _ h => h)
  refine (hrun.and (handleLineEvent_spec event)).mono ?_ (fun _ _ h => h.1) fun _ _ => trivial
  rintro status _ ⟨⟨r, rfl, hr⟩, hhandled⟩ hstatus hlast arrivals timeout htimeout harrive
  obtain ⟨q, hexecuted, hsame, pieces, hwritten, hpieces⟩ := hr hstatus hlast
  have hsequence : q.expectedSequence = frame.sequence :=
    hexecuted.line.2.1.trans (frame_of_accepted hsome).2.2.2.symm
  have hbytes : arrivals.flatten = pieces.flatten := by
    have hcat : p.written.flatten ++ arrivals.flatten = p.written.flatten ++ pieces.flatten := by
      rw [← harrive, ← List.flatten_append, ← show q.written = p.written from hexecuted.written,
        ← hwritten]
    exact List.append_cancel_left hcat
  rw [← UpdateProtocolCommand.toUInt8_of_ofUInt8 hcommand] at hpieces
  have haudited := h.handled hhandled
  revert haudited
  generalize afterEvent event p _ blocks = blocks'
  intro haudited
  rw [hsame] at haudited ⊢
  have hq : Audited crypto blocks' q :=
    ⟨haudited.reached, haudited.receiving, haudited.counted, haudited.bound⟩
  obtain ⟨htruth, hstatus⟩ := reportsTruth_iff hq rfl
  refine ⟨_, hostResponse_answer (reportPayload_length_le command q) htimeout
    (hbytes.trans hpieces), htruth, fun hasks => ?_⟩
  have hasks : ¬ (command = .hello ∨ command = .getInfo) := by
    rcases hasks with rfl | rfl <;> decide
  obtain ⟨report, hparse, htruthful, hexpected⟩ := hstatus hasks
  exact ⟨report, hparse, htruthful, hexpected.trans hsequence, congrArg (· + 1) hsequence⟩

/-- Everything that the target acknowledges with a report, over every run of a session: the limits
that `HELLO` and `GET_INFO` announce are enforced; the state that `GET_STATUS` and `FINISH_UPDATE`
report is that of the session, with the bytes it has acknowledged since the update began; and the
sequence number among it is that of the frame, which is never the one that is accepted next. -/
theorem target_reports (crypto : Crypto) (flash : BootFlash) (publicKey : List UInt8)
    (options : UpdateInstallOptions) (write : ℕ → List UInt8 → UpdateProtocolStatus)
    (programBuffer : Mem) (d : Device) (p : UpdateProtocolSession) (blocks : List (List UInt8))
    (h : Attended crypto
      (updateProtocolSessionInit flash publicKey options write programBuffer d) p blocks)
    (event : LineEvent) (frame : UpdateProtocolFrame) (command : UpdateProtocolCommand)
    (hsome : accepted (received p event) (event.parse p.parser).1 = some frame)
    (hcommand : UpdateProtocolCommand.ofUInt8 frame.command = some command)
    (hreports : command.Reports) :
    wp (handleLineEvent crypto event) p
      (fun status p' => status = .ok → p'.lastStatus = .ok →
        ∀ (arrivals : List (List UInt8)) (timeout : ℚ), 0 < timeout →
          p'.written.flatten = p.written.flatten ++ arrivals.flatten →
          ∃ response, hostResponse arrivals timeout frame.sequence.toNat command = .ok response ∧
            (ReportsTruth crypto command response.extra (afterEvent event p p' blocks) p' ↔
              command = .hello ∨ command = .getInfo) ∧
            (command = .getStatus ∨ command = .finishUpdate →
              ∃ report, parseStatus response.extra = .ok report ∧
                Truthful report (afterEvent event p p' blocks) p' ∧
                report.expectedSequence = frame.sequence ∧
                p'.expectedSequence = frame.sequence + 1))
      (fun _ _ => False) fun _ => True :=
  reports_of_audited (h.audited .opened) hsome hcommand hreports

/-- A frame that arrives in sequence is accepted with its last byte. -/
theorem attended_frame {bytes : List UInt8} {parser' : UpdateProtocolParser}
    (h : Attended crypto start p blocks)
    (hfirst : firstParse p.parser bytes = some ((.frameReady, parser'), [])) :
    ∃ parser byte, Attended crypto start { p with parser } blocks ∧
      updateProtocolParserPush parser byte = (.frameReady, parser') := by
  induction bytes generalizing p with
  | nil => cases hfirst
  | cons byte bytes ih =>
    rw [firstParse] at hfirst
    rcases hpush : updateProtocolParserPush p.parser byte with ⟨status, parser''⟩
    rw [hpush] at hfirst
    cases status with
    | needMore =>
      have hrun : handleLineEvent crypto (.byte byte) p = .ret .ok { p with parser := parser'' } := by
        show (handleParsed crypto (updateProtocolParserPush p.parser byte).1)
          { p with parser := (updateProtocolParserPush p.parser byte).2 } = _
        rw [hpush]
        rfl
      have hnone : accepted (received p (.byte byte)) (LineEvent.parse p.parser (.byte byte)).1 =
          none := by
        rw [LineEvent.parse, hpush]
        refine if_neg fun h => ?_
        cases h.1
      have hnext := h.heard (.byte byte) hrun
      rw [afterEvent, hnone] at hnext
      exact @ih { p with parser := parser'' } hnext hfirst
    | frameReady =>
      obtain ⟨hout, -⟩ := Prod.mk.inj (Option.some.inj hfirst)
      exact ⟨p.parser, byte, h, hpush.trans hout⟩
    | _ => cases hfirst

/-- `GET_STATUS` is answered. -/
theorem executeFrame_getStatus {E : Empty → UpdateProtocolSession → Prop}
    {C : UpdateProtocolSession → Prop}
    (hcommand : UpdateProtocolCommand.ofUInt8 frame.command = some .getStatus)
    (hempty : frame.payloadLength = 0) :
    wp (executeFrame crypto frame) p
      (fun status p' => (p.WriterWorks → status = .ok) ∧ p'.lastStatus = .ok ∧
        ∃ pieces, p.WriterWorks → p'.written = p.written ++ pieces) E C := by
  rw [executeFrame, hcommand]
  show wp (handleGetStatus frame) p _ _ _
  rw [handleGetStatus, if_neg (by simp [payloadIsEmpty, hempty]), wp_bind, wp_get]
  refine (sendAck_wrote (by rw [buildStatusPayload_length]; decide)).mono ?_ (fun _ _ h => h)
    fun _ h => h
  rintro status p' ⟨hsame, hworks, hwrote⟩
  refine ⟨hworks, by rw [hsame], ?_⟩
  by_cases hok : status = .ok
  · obtain ⟨pieces, hwritten, -⟩ := hwrote hok
    exact ⟨pieces, fun _ => hwritten⟩
  · exact ⟨[], fun hw => absurd (hworks hw) hok⟩

/-- A new session is asked for its status. -/
theorem freshTarget_asked : ∃ p byte frame, Attended factoryCrypto freshTarget p [] ∧
    p.WriterWorks ∧
    accepted (received p (.byte byte)) (LineEvent.parse p.parser (.byte byte)).1 = some frame ∧
    UpdateProtocolCommand.ofUInt8 frame.command = some .getStatus ∧ frame.sequence = 0 ∧
    frame.payloadLength = 0 := by
  obtain ⟨parser', hparse, -, -, hcontents⟩ :=
    @firstParse_frame freshTarget.parser UpdateProtocolCommand.getStatus.toUInt8 0 []
      UpdateProtocolParser.wellFormed_init rfl (Nat.zero_le _)
  have hversion : parser'.frame.version = updateProtocolVersion := congrArg Frame.version hcontents
  have hcommand : parser'.frame.command = UpdateProtocolCommand.getStatus.toUInt8 :=
    congrArg Frame.command hcontents
  have hsequence : parser'.frame.sequence = 0 := congrArg Frame.sequence hcontents
  obtain ⟨parser, byte, hattended, hpush⟩ :=
    attended_frame (@Attended.opened factoryCrypto _) hparse
  refine ⟨_, byte, parser'.frame, hattended, fun _ _ => rfl, ?_, ?_, hsequence,
    payloadLength_eq_zero (congrArg Frame.payload hcontents)⟩
  · rw [received, LineEvent.parse, hpush]
    exact if_pos ⟨rfl, hversion, hsequence⟩
  · rw [hcommand, UpdateProtocolCommand.ofUInt8_toUInt8]

/-- The first `GET_STATUS` of a new session. -/
theorem target_reports_fresh : ∃ p byte frame, Attended factoryCrypto freshTarget p [] ∧
    accepted (received p (.byte byte)) (LineEvent.parse p.parser (.byte byte)).1 = some frame ∧
    wp (handleLineEvent factoryCrypto (.byte byte)) p
      (fun status p' => status = .ok → p'.lastStatus = .ok →
        ∀ (arrivals : List (List UInt8)) (timeout : ℚ), 0 < timeout →
          p'.written.flatten = p.written.flatten ++ arrivals.flatten →
          ∃ response, hostResponse arrivals timeout frame.sequence.toNat .getStatus = .ok response ∧
            ¬ ReportsTruth factoryCrypto .getStatus response.extra
              (afterEvent (.byte byte) p p' []) p')
      (fun _ _ => False) fun _ => True := by
  obtain ⟨p, byte, frame, hattended, -, hsome, hcommand, -, -⟩ := freshTarget_asked
  refine ⟨p, byte, frame, hattended, hsome, ?_⟩
  refine (target_reports factoryCrypto _ _ _ _ _ _ p [] hattended (.byte byte) frame .getStatus
    hsome hcommand (by decide)).mono ?_ (fun _ _ h => h) fun _ h => h
  intro status p' h hstatus hlast arrivals timeout htimeout harrive
  obtain ⟨response, hresponse, htruth, -⟩ := h hstatus hlast arrivals timeout htimeout harrive
  exact ⟨response, hresponse, fun ht => absurd (htruth.mp ht) (by decide)⟩

/-- **The next sequence number of a status report is the last one.** The first frame of a new
session is a `GET_STATUS` with the number 0. The answer says that 0 is expected next; the session
expects 1. -/
theorem target_reports_stale : ∃ p byte frame status p' arrivals response report,
    Attended factoryCrypto freshTarget p [] ∧
    accepted (received p (.byte byte)) (LineEvent.parse p.parser (.byte byte)).1 = some frame ∧
    UpdateProtocolCommand.ofUInt8 frame.command = some .getStatus ∧
    handleLineEvent factoryCrypto (.byte byte) p = .ret status p' ∧
    p'.written = p.written ++ arrivals ∧
    hostResponse arrivals 1 frame.sequence.toNat .getStatus = .ok response ∧
    parseStatus response.extra = .ok report ∧
    report.expectedSequence = 0 ∧ p'.expectedSequence = 1 := by
  obtain ⟨p, byte, frame, hattended, hworks, hsome, hcommand, hsequence, hempty⟩ :=
    freshTarget_asked
  have hasked : wp (handleLineEvent factoryCrypto (.byte byte)) p
      (fun status p' => status = .ok ∧ p'.lastStatus = .ok ∧
        ∃ pieces, p'.written = p.written ++ pieces) (fun _ _ => False) fun _ => False :=
    handleLineEvent_accepted hsome ((executeFrame_getStatus hcommand hempty).mono
      (fun _ _ ⟨hstatus, hlast, pieces, hwritten⟩ =>
        ⟨hstatus hworks, hlast, pieces, hwritten hworks⟩) (fun _ _ h => h) fun _ h => h)
  obtain ⟨status, p', hrun⟩ :=
    returns_iff.mp (hasked.mono (fun _ _ _ => trivial) (fun _ _ h => h) fun _ h => h)
  obtain ⟨hstatus, hlast, arrivals, hwritten⟩ := hasked.ret hrun
  obtain ⟨response, hresponse, -, hreport⟩ :=
    (reports_of_audited (hattended.audited .opened) hsome hcommand (by decide)).ret hrun hstatus
      hlast arrivals 1 one_pos (by rw [hwritten, List.flatten_append])
  obtain ⟨report, hparse, -, hexpected, hnext⟩ := hreport (Or.inl rfl)
  refine ⟨p, byte, frame, status, p', arrivals, response, report, hattended, hsome, hcommand, hrun,
    hwritten, hresponse, hparse, ?_, ?_⟩
  · rw [hexpected, hsequence]
  · rw [hnext, hsequence]
    rfl

end Reports

end Host

end Stm32SecurityLab
