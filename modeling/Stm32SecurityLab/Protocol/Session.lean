import Stm32SecurityLab.Protocol.Scanner
import Stm32SecurityLab.Installer.Session

/-!
# The update session

The part of `update_protocol.c` that answers frames. A session reads bytes into its parser, and a
frame of the right version that carries the expected sequence number is executed: it asks for
information, or it drives the installer. Everything else is refused with a `NACK` and leaves the
sequence number where it is.

A handler returns the status of the writer, whatever the answer was. The only ending beside that
is a loss of power inside the installer, so the programs here have no errors of their own.

* The writer is a function of the number of earlier writes and the data. For any one run that is
  as general as a writer with a state of its own. What it was given is kept in `written`.
* `install_result` and the buffers of the caller are part of `Installer`, and so is the device.
* `update_payload_offset` grows by the bytes the installer has taken, of which there are never
  more than fit the slot.

## Main definitions

* `UpdateProtocolSession`, `updateProtocolSessionInit`
* `handleBeginUpdate`, `handleWriteBlock`, `handleFinishUpdate`, `handleAbortUpdate`, `handleReset`
* `updateProtocolSessionProcessByte`
* `Executed` — everything that a frame in sequence can do
* `acceptedFrame` — the frame that a byte completes, if it is executed

## Main results

* `executeFrame_spec` — a frame in sequence does one of the things `Executed` lists
* `updateProtocolSessionProcessByte_spec` — and a byte that does not complete one does nothing
-/

namespace Stm32SecurityLab

open Crash

/-! ### Types -/

/-- `UPDATE_PROTOCOL_RESPONSE_COMMON_SIZE`. -/
def updateProtocolResponseCommonSize : ℕ := 3

/-- `UPDATE_PROTOCOL_STATUS_PAYLOAD_SIZE`. -/
def updateProtocolStatusPayloadSize : ℕ := 21

/-- `UPDATE_PROTOCOL_WRITE_BLOCK_PREFIX_SIZE`. -/
def updateProtocolWriteBlockPrefixSize : ℕ := 4

/-- `UPDATE_PROTOCOL_MAX_WRITE_DATA_SIZE`. -/
def updateProtocolMaxWriteDataSize : ℕ :=
  updateProtocolMaxPayloadSize - updateProtocolWriteBlockPrefixSize

/-- `update_protocol_command_t`. -/
inductive UpdateProtocolCommand where
  | hello
  | getInfo
  | beginUpdate
  | writeBlock
  | finishUpdate
  | getStatus
  | abortUpdate
  | reset
  | ack
  | nack
  deriving DecidableEq, Repr

namespace UpdateProtocolCommand

/-- The number of a command on the wire. -/
def toUInt8 : UpdateProtocolCommand → UInt8
  | .hello => 0x01
  | .getInfo => 0x02
  | .beginUpdate => 0x03
  | .writeBlock => 0x04
  | .finishUpdate => 0x05
  | .getStatus => 0x06
  | .abortUpdate => 0x07
  | .reset => 0x08
  | .ack => 0x80
  | .nack => 0x81

/-- The command with a number, if there is one. -/
def ofUInt8 (command : UInt8) : Option UpdateProtocolCommand :=
  [hello, getInfo, beginUpdate, writeBlock, finishUpdate, getStatus, abortUpdate, reset, ack,
    nack].find? (·.toUInt8 = command)

@[simp] theorem ofUInt8_toUInt8 (command : UpdateProtocolCommand) :
    ofUInt8 command.toUInt8 = some command := by
  cases command <;> rfl

theorem toUInt8_of_ofUInt8 {byte : UInt8} {command : UpdateProtocolCommand}
    (h : ofUInt8 byte = some command) : command.toUInt8 = byte := by
  simpa using List.find?_some h

end UpdateProtocolCommand

/-- `update_protocol_session_state_t`. -/
inductive UpdateProtocolSessionState where
  | idle
  | updating
  | finished
  | aborted
  | failed
  | resetRequested
  deriving DecidableEq, Repr

/-- The number of a session state on the wire. -/
def UpdateProtocolSessionState.toUInt8 : UpdateProtocolSessionState → UInt8
  | .idle => 0
  | .updating => 1
  | .finished => 2
  | .aborted => 3
  | .failed => 4
  | .resetRequested => 5

/-- The number of an installer state on the wire. -/
def UpdateInstallerSessionState.toUInt8 : UpdateInstallerSessionState → UInt8
  | .empty => 0
  | .initialized => 1
  | .writing => 2
  | .payloadComplete => 3
  | .finished => 4
  | .aborted => 5
  | .failed => 6

/-- `update_protocol_session_t`, with the installer and the device it drives. The defaults are
those of `update_protocol_session_init`. -/
structure UpdateProtocolSession where
  parser : UpdateProtocolParser := {}
  /-- `update_protocol_writer_t`. -/
  write : ℕ → List UInt8 → UpdateProtocolStatus
  flash : BootFlash
  publicKey : List UInt8
  installOptions : UpdateInstallOptions
  inst : Installer
  state : UpdateProtocolSessionState := .idle
  lastStatus : UpdateProtocolStatus := .ok
  expectedSequence : UInt16 := 0
  updatePayloadOffset : ℕ := 0
  installerStarted : Bool := false
  /-- What the writer has been given so far. -/
  written : List (List UInt8) := []

/-- A cleared `update_install_result_t`. -/
def clearResult : UpdateInstallResult where
  activeSlot := 0
  candidateSlot := 0
  packageVerifyStatus := .ok ()
  installedVerifyStatus := .ok ()

/-- `update_protocol_session_init`, with the program buffer of the caller and the device. -/
def updateProtocolSessionInit (flash : BootFlash) (publicKey : List UInt8)
    (installOptions : UpdateInstallOptions) (write : ℕ → List UInt8 → UpdateProtocolStatus)
    (programBuffer : Mem) (dev : Device) : UpdateProtocolSession where
  write
  flash
  publicKey
  installOptions
  inst := { session := {}, programBuffer, result := clearResult, dev }

/-- What a handler is: it ends with the status of the writer. -/
abbrev Handler : Type := Prog UpdateProtocolSession Empty UpdateProtocolStatus

/-! ### Answers -/

/-- Hand some bytes to the writer. -/
def writeBytes (data : List UInt8) : Handler := fun p =>
  .ret (p.write p.written.length data) { p with written := p.written ++ [data] }

/-- `update_protocol_write_frame`. -/
def updateProtocolWriteFrame (command : UInt8) (sequence : UInt16) (payload : List UInt8) :
    Handler :=
  match buildHeader command sequence (byteAt payload) (UInt16.ofNat payload.length) with
  | .error status => pure status
  | .ok (header, crc) => do
    let status ← writeBytes header
    if status ≠ .ok then
      pure status
    else if payload.length ≠ 0 then do
      let status ← writeBytes payload
      if status ≠ .ok then
        pure status
      else
        writeBytes (storeLe32 crc)
    else
      writeBytes (storeLe32 crc)

/-- `response_common`. -/
def responseCommon (requestCommand : UInt8) (status : UpdateProtocolStatus) : List UInt8 :=
  requestCommand :: storeLe16 status.toUInt16

/-- Set `last_status`. -/
def setLastStatus (status : UpdateProtocolStatus) : Prog UpdateProtocolSession Empty Unit :=
  .modify fun p => { p with lastStatus := status }

/-- Set the state of the session. -/
def setState (state : UpdateProtocolSessionState) : Prog UpdateProtocolSession Empty Unit :=
  .modify fun p => { p with state }

/-- The status that `send_nack` reports. -/
def nackStatus (status : UpdateProtocolStatus) : UpdateProtocolStatus :=
  if status = .ok then .parserError else status

/-- `send_nack`. -/
def sendNack (sequence : UInt16) (requestCommand : UInt8) (status : UpdateProtocolStatus) :
    Handler := do
  setLastStatus (nackStatus status)
  updateProtocolWriteFrame UpdateProtocolCommand.nack.toUInt8 sequence
    (responseCommon requestCommand (nackStatus status))

/-- `send_ack`. -/
def sendAck (sequence : UInt16) (requestCommand : UInt8) (extra : List UInt8) : Handler :=
  if extra.length > updateProtocolStatusPayloadSize - updateProtocolResponseCommonSize then
    pure .invalidArgument
  else do
    setLastStatus .ok
    updateProtocolWriteFrame UpdateProtocolCommand.ack.toUInt8 sequence
      (responseCommon requestCommand .ok ++ extra)

/-- `map_installer_status`. -/
def mapInstallerStatus : Except UpdateInstallError Unit → UpdateProtocolStatus
  | .ok () => .ok
  | .error .rollback => .rollbackError
  | .error .package | .error .hash | .error .installedVerify => .verifyError
  | .error .metadata | .error .slot | .error .capacity | .error .erase | .error .program
  | .error .readback => .flashError
  | .error .activeState | .error .state => .stateError
  | .error .sequence => .sequenceError
  | .error .invalidArgument => .invalidArgument
  | .error .injected => .installerError

/-- `payload_is_empty`. -/
def payloadIsEmpty (frame : UpdateProtocolFrame) : Bool := frame.payloadLength == 0

/-- The payload of `send_hello_ack`. -/
def infoPayload (p : UpdateProtocolSession) : List UInt8 :=
  [updateProtocolVersion] ++ storeLe16 (UInt16.ofNat updateProtocolMaxPayloadSize) ++
    storeLe16 (UInt16.ofNat updateProtocolMaxWriteDataSize) ++
    storeLe16 (UInt16.ofNat updateProtocolHeaderSize) ++
    storeLe16 (UInt16.ofNat updateProtocolCrcSize) ++ [p.state.toUInt8]

/-- `send_hello_ack`. -/
def sendHelloAck (sequence : UInt16) (command : UInt8) : Handler := do
  let p ← .get
  sendAck sequence command (infoPayload p)

/-- `build_status_payload`. -/
def buildStatusPayload (p : UpdateProtocolSession) : List UInt8 :=
  [p.state.toUInt8] ++ storeLe16 p.lastStatus.toUInt16 ++ storeLe16 p.expectedSequence ++
    [p.inst.session.state.toUInt8] ++ storeLe32 (UInt32.ofNat p.updatePayloadOffset) ++
    storeLe32 p.inst.result.imageVersion ++ storeLe32 p.inst.result.programmedBlockCount

/-! ### Handlers -/

/-- Refuse a frame. -/
def refuse (frame : UpdateProtocolFrame) (status : UpdateProtocolStatus) : Handler :=
  sendNack frame.sequence frame.command status

/-- Acknowledge a frame. -/
def acknowledge (frame : UpdateProtocolFrame) (extra : List UInt8) : Handler :=
  sendAck frame.sequence frame.command extra

/-- Call the installer. -/
def callInstaller (x : Prog Installer UpdateInstallError Unit) :
    Prog UpdateProtocolSession Empty (Except UpdateInstallError Unit) :=
  x.attempt.zoom (·.inst) fun s p => { p with inst := s }

/-- `handle_hello`. -/
def handleHello (frame : UpdateProtocolFrame) : Handler :=
  if payloadIsEmpty frame = false then refuse frame .lengthError
  else sendHelloAck frame.sequence frame.command

/-- `handle_get_info`. -/
def handleGetInfo (frame : UpdateProtocolFrame) : Handler := handleHello frame

/-- `handle_get_status`. -/
def handleGetStatus (frame : UpdateProtocolFrame) : Handler :=
  if payloadIsEmpty frame = false then refuse frame .lengthError
  else do
    let p ← .get
    acknowledge frame (buildStatusPayload p)

/-- The installer calls of `handle_begin_update`. -/
def beginInstaller (crypto : Crypto) (frame : UpdateProtocolFrame) :
    Prog UpdateProtocolSession Empty (Except UpdateInstallError Unit) := do
  let p ← .get
  let installStatus ← callInstaller
    (updateInstallerSessionInit p.flash p.publicKey p.installOptions true)
  match installStatus with
  | .error e => pure (.error e)
  | .ok () => do
    .modify fun p => { p with installerStarted := true }
    callInstaller (updateInstallerBegin crypto frame.data)

/-- `update_installer_abort` if there is an installer to abort. -/
def abortInstaller : Prog UpdateProtocolSession Empty (Except UpdateInstallError Unit) := do
  let p ← .get
  if p.installerStarted then callInstaller updateInstallerAbort else pure (.ok ())

/-- `handle_begin_update`. -/
def handleBeginUpdate (crypto : Crypto) (frame : UpdateProtocolFrame) : Handler := do
  let p ← .get
  if frame.payloadLength ≠ UInt16.ofNat Layout.signedImageHeaderSize then
    refuse frame .lengthError
  else if p.state ≠ .idle ∧ p.state ≠ .aborted then
    refuse frame .stateError
  else do
    let installStatus ← beginInstaller crypto frame
    let protocolStatus := mapInstallerStatus installStatus
    if protocolStatus ≠ .ok then do
      let _ ← abortInstaller
      setState .failed
      refuse frame protocolStatus
    else do
      .modify fun p => { p with state := .updating, updatePayloadOffset := 0 }
      acknowledge frame []

/-- `handle_write_block`. -/
def handleWriteBlock (frame : UpdateProtocolFrame) : Handler := do
  let p ← .get
  if p.state ≠ .updating ∨ p.installerStarted = false then
    refuse frame .stateError
  else if frame.payloadLength.toNat ≤ updateProtocolWriteBlockPrefixSize ∨
      frame.payloadLength.toNat > updateProtocolMaxPayloadSize then
    refuse frame .lengthError
  else
    let payloadOffset := loadLe32 frame.payload 0
    if payloadOffset.toNat ≠ p.updatePayloadOffset then do
      setState .failed
      refuse frame .sequenceError
    else do
      let block := frame.data.drop updateProtocolWriteBlockPrefixSize
      let installStatus ← callInstaller (updateInstallerWrite payloadOffset.toNat block)
      let protocolStatus := mapInstallerStatus installStatus
      if protocolStatus ≠ .ok then do
        setState .failed
        refuse frame protocolStatus
      else do
        .modify fun p => { p with updatePayloadOffset := p.updatePayloadOffset + block.length }
        acknowledge frame []

/-- `handle_finish_update`. -/
def handleFinishUpdate (crypto : Crypto) (frame : UpdateProtocolFrame) : Handler := do
  let p ← .get
  if payloadIsEmpty frame = false then
    refuse frame .lengthError
  else if p.state ≠ .updating ∨ p.installerStarted = false then
    refuse frame .stateError
  else do
    let installStatus ← callInstaller (updateInstallerFinish crypto)
    let protocolStatus := mapInstallerStatus installStatus
    if protocolStatus ≠ .ok then do
      setState .failed
      refuse frame protocolStatus
    else do
      setState .finished
      let p ← .get
      acknowledge frame (buildStatusPayload p)

/-- `handle_abort_update`. -/
def handleAbortUpdate (frame : UpdateProtocolFrame) : Handler := do
  let p ← .get
  if payloadIsEmpty frame = false then
    refuse frame .lengthError
  else if p.state = .finished then
    refuse frame .stateError
  else do
    let installStatus ← abortInstaller
    let protocolStatus := mapInstallerStatus installStatus
    if protocolStatus ≠ .ok then do
      setState .failed
      refuse frame protocolStatus
    else do
      setState .aborted
      acknowledge frame []

/-- `handle_reset`. -/
def handleReset (frame : UpdateProtocolFrame) : Handler :=
  if payloadIsEmpty frame = false then
    refuse frame .lengthError
  else do
    setState .resetRequested
    acknowledge frame []

/-- `execute_frame`. -/
def executeFrame (crypto : Crypto) (frame : UpdateProtocolFrame) : Handler :=
  match UpdateProtocolCommand.ofUInt8 frame.command with
  | some .hello => handleHello frame
  | some .getInfo => handleGetInfo frame
  | some .beginUpdate => handleBeginUpdate crypto frame
  | some .writeBlock => handleWriteBlock frame
  | some .finishUpdate => handleFinishUpdate crypto frame
  | some .getStatus => handleGetStatus frame
  | some .abortUpdate => handleAbortUpdate frame
  | some .reset => handleReset frame
  | some .ack | some .nack | none => refuse frame .unknownCommand

/-- `advance_sequence`. -/
def advanceSequence : Prog UpdateProtocolSession Empty Unit :=
  .modify fun p => { p with expectedSequence := p.expectedSequence + 1 }

/-- `update_protocol_session_accept_initial_hello`. -/
def updateProtocolSessionAcceptInitialHello : Handler := do
  let p ← .get
  if p.expectedSequence ≠ 0 then
    sendNack 0 UpdateProtocolCommand.hello.toUInt8 .sequenceError
  else do
    let status ← sendHelloAck 0 UpdateProtocolCommand.hello.toUInt8
    if status = .ok then do
      advanceSequence
      pure status
    else
      pure status

/-- `handle_frame`. -/
def handleFrame (crypto : Crypto) (frame : UpdateProtocolFrame) : Handler := do
  let p ← .get
  if frame.version ≠ updateProtocolVersion then
    refuse frame .versionError
  else if frame.sequence ≠ p.expectedSequence then
    refuse frame .sequenceError
  else do
    let status ← executeFrame crypto frame
    advanceSequence
    pure status

/-- `handle_parse_error`. -/
def handleParseError (parseStatus : UpdateProtocolParseStatus) : Handler := do
  let p ← .get
  let status : UpdateProtocolStatus :=
    match parseStatus with
    | .errOversize => .oversizeError
    | .errCrc => .crcError
    | .needMore | .frameReady => .parserError
  let (command, sequence) := (updateProtocolParserErrorInfo p.parser).getD (0, p.expectedSequence)
  sendNack sequence command status

/-- What is done with the result of a push. -/
def handleParsed (crypto : Crypto) (parseStatus : UpdateProtocolParseStatus) : Handler := do
  let p ← .get
  match parseStatus with
  | .needMore => pure .ok
  | .frameReady => handleFrame crypto p.parser.frame
  | .errOversize | .errCrc => handleParseError parseStatus

/-- `update_protocol_session_process_byte`. -/
def updateProtocolSessionProcessByte (crypto : Crypto) (byte : UInt8) : Handler := do
  let p ← .get
  let (parseStatus, parser) := updateProtocolParserPush p.parser byte
  .modify fun p => { p with parser }
  handleParsed crypto parseStatus

/-! ### What an answer changes -/

/-- The writer takes everything. -/
def UpdateProtocolSession.WriterWorks (p : UpdateProtocolSession) : Prop :=
  ∀ n data, p.write n data = .ok

/-- The frame of an answer. -/
def answerFrame (ack : Bool) (sequence : UInt16) (requestCommand : UInt8)
    (status : UpdateProtocolStatus) (extra : List UInt8) : UpdateProtocolFrame :=
  outgoing (if ack then UpdateProtocolCommand.ack.toUInt8 else UpdateProtocolCommand.nack.toUInt8)
    sequence (responseCommon requestCommand status ++ extra)

/-- A session that has sent an answer to a request; the flag says whether it was an
acknowledgement. A writer that works has been given the frame, all of it, and nothing else. -/
structure Answered (ack : Bool) (sequence : UInt16) (requestCommand : UInt8)
    (p p' : UpdateProtocolSession) : Prop where
  same : p' = { p with lastStatus := p'.lastStatus, written := p'.written }
  status : p'.lastStatus = .ok ↔ ack = true
  wire : p.WriterWorks → ∃ (pieces : List (List UInt8)) (extra : List UInt8),
    extra.length ≤ updateProtocolStatusPayloadSize - updateProtocolResponseCommonSize ∧
      p'.written = p.written ++ pieces ∧
      pieces.flatten = (answerFrame ack sequence requestCommand p'.lastStatus extra).encode

section Answers

variable {p : UpdateProtocolSession} {E : Empty → UpdateProtocolSession → Prop}
  {C : UpdateProtocolSession → Prop}

theorem wp_writeBytes {data : List UInt8}
    {Q : UpdateProtocolStatus → UpdateProtocolSession → Prop}
    (h : ∀ status, (p.WriterWorks → status = .ok) →
      Q status { p with written := p.written ++ [data] }) :
    wp (writeBytes data) p Q E C :=
  h _ fun hwrite => hwrite _ _

/-- A frame is written piece by piece. A writer that fails may have been given only some. -/
theorem updateProtocolWriteFrame_spec (command : UInt8) (sequence : UInt16) {payload : List UInt8}
    (hlength : payload.length ≤ updateProtocolMaxPayloadSize) :
    wp (updateProtocolWriteFrame command sequence payload) p
      (fun status p' => p' = { p with written := p'.written } ∧ (p.WriterWorks → status = .ok) ∧
        (status = .ok → ∃ pieces, p'.written = p.written ++ pieces ∧
          pieces.flatten = (outgoing command sequence payload).encode)) E C := by
  have htoNat : (UInt16.ofNat payload.length).toNat = payload.length :=
    @outgoing_length command sequence _ hlength
  have hdata : slice (byteAt payload) 0 (UInt16.ofNat payload.length).toNat = payload :=
    @outgoing_data command sequence _ hlength
  have hencode : (outgoing command sequence payload).encode =
      frameHeader updateProtocolVersion command sequence (UInt16.ofNat payload.length) ++ payload ++
        storeLe32 (frameCrc (frameHeader updateProtocolVersion command sequence
          (UInt16.ofNat payload.length)) payload) := by
    rw [UpdateProtocolFrame.encode, outgoing_data hlength]
    rfl
  rw [updateProtocolWriteFrame, buildHeader, if_neg (by rw [htoNat]; exact Nat.not_lt.mpr hlength)]
  dsimp only
  rw [hdata, wp_bind]
  refine wp_writeBytes fun status hok => ?_
  rw [wp_ite]
  refine ⟨fun hfail => ⟨rfl, hok, fun hstatus => absurd hstatus hfail⟩, fun _ => ?_⟩
  rw [wp_ite]
  refine ⟨fun _ => ?_, fun hempty => ?_⟩
  · rw [wp_bind]
    refine wp_writeBytes fun status hok => ?_
    rw [wp_ite]
    refine ⟨fun hfail => ⟨rfl, hok, fun hstatus => absurd hstatus hfail⟩, fun _ => ?_⟩
    refine wp_writeBytes fun status hok => ⟨rfl, hok, fun _ => ⟨_,
      (List.append_assoc _ _ _).trans (List.append_assoc _ _ _), ?_⟩⟩
    simp [hencode]
  · refine wp_writeBytes fun status hok => ⟨rfl, hok, fun _ => ⟨_, List.append_assoc _ _ _, ?_⟩⟩
    have hnil : payload = [] := List.length_eq_zero_iff.mp (Decidable.not_not.mp hempty)
    subst hnil
    simp [hencode]

theorem nackStatus_ne_ok (status : UpdateProtocolStatus) : nackStatus status ≠ .ok := by
  rw [nackStatus]
  split
  · decide
  · assumption

theorem responseCommon_length (command : UInt8) (status : UpdateProtocolStatus) :
    (responseCommon command status).length = updateProtocolResponseCommonSize := by
  rw [responseCommon, List.length_cons, storeLe16_length]
  rfl

theorem sendNack_spec (sequence : UInt16) (command : UInt8) (status : UpdateProtocolStatus) :
    wp (sendNack sequence command status) p
      (fun result p' => Answered false sequence command p p' ∧ p'.lastStatus = nackStatus status ∧
        (p.WriterWorks → result = .ok)) E C := by
  rw [sendNack, wp_bind, setLastStatus, wp_modify]
  refine wp.mono (updateProtocolWriteFrame_spec _ _ ?_) ?_ (fun _ _ h => h) fun _ h => h
  · rw [responseCommon_length]
    decide
  · rintro result p' ⟨hsame, hworks, hwire⟩
    have hstatus : p'.lastStatus = nackStatus status := by rw [hsame]
    refine ⟨⟨?_, ?_, fun hwrite => ?_⟩, hstatus, hworks⟩
    · rw [hstatus]
      exact hsame
    · simp [hstatus, nackStatus_ne_ok]
    · obtain ⟨pieces, hwritten, hpieces⟩ := hwire (hworks hwrite)
      refine ⟨pieces, [], Nat.zero_le _, hwritten, ?_⟩
      rw [hstatus, answerFrame, List.append_nil]
      exact hpieces

/-- An acknowledgement, with what it carries. -/
theorem sendAck_wrote {sequence : UInt16} {command : UInt8} {extra : List UInt8}
    (h : extra.length ≤ updateProtocolStatusPayloadSize - updateProtocolResponseCommonSize) :
    wp (sendAck sequence command extra) p
      (fun result p' => p' = { p with lastStatus := .ok, written := p'.written } ∧
        (p.WriterWorks → result = .ok) ∧
        (result = .ok → ∃ pieces, p'.written = p.written ++ pieces ∧
          pieces.flatten = (answerFrame true sequence command .ok extra).encode)) E C := by
  rw [sendAck, if_neg (Nat.not_lt.mpr h), wp_bind, setLastStatus, wp_modify]
  refine updateProtocolWriteFrame_spec _ _ ?_
  rw [List.length_append, responseCommon_length]
  exact (Nat.add_le_add_left h _).trans (by decide)

theorem sendAck_spec {sequence : UInt16} {command : UInt8} {extra : List UInt8}
    (h : extra.length ≤ updateProtocolStatusPayloadSize - updateProtocolResponseCommonSize) :
    wp (sendAck sequence command extra) p
      (fun result p' => Answered true sequence command p p' ∧ (p.WriterWorks → result = .ok))
      E C := by
  refine (sendAck_wrote h).mono ?_ (fun _ _ h => h) fun _ h => h
  rintro result p' ⟨hsame, hworks, hwire⟩
  have hstatus : p'.lastStatus = .ok := by rw [hsame]
  refine ⟨⟨?_, by simp [hstatus], fun hwrite => ?_⟩, hworks⟩
  · rw [hstatus]
    exact hsame
  · obtain ⟨pieces, hwritten, hpieces⟩ := hwire (hworks hwrite)
    refine ⟨pieces, extra, h, hwritten, ?_⟩
    rw [hstatus]
    exact hpieces

@[simp] theorem infoPayload_length (p : UpdateProtocolSession) : (infoPayload p).length = 10 := rfl

@[simp] theorem buildStatusPayload_length (p : UpdateProtocolSession) :
    (buildStatusPayload p).length = 18 := rfl

theorem sendHelloAck_spec (sequence : UInt16) (command : UInt8) :
    wp (sendHelloAck sequence command) p
      (fun result p' => Answered true sequence command p p' ∧ (p.WriterWorks → result = .ok))
      E C := by
  rw [sendHelloAck, wp_bind, wp_get]
  exact sendAck_spec (by rw [infoPayload_length]; decide)

theorem mapInstallerStatus_eq_ok {status : Except UpdateInstallError Unit} :
    mapInstallerStatus status = .ok ↔ status = .ok () := by
  rcases status with e | ⟨⟩
  · cases e <;> simp [mapInstallerStatus]
  · simp [mapInstallerStatus]

theorem wp_callInstaller {x : Prog Installer UpdateInstallError Unit}
    {Q : Except UpdateInstallError Unit → UpdateProtocolSession → Prop} :
    wp (callInstaller x) p Q E C ↔
      wp x p.inst (fun _ s => Q (.ok ()) { p with inst := s })
        (fun e s => Q (.error e) { p with inst := s }) (fun s => C { p with inst := s }) := by
  rw [callInstaller, wp_zoom, wp_attempt]

end Answers

/-! ### What a frame in sequence can do -/

/-- The commands that only ask. -/
def UpdateProtocolCommand.IsQuestion (command : UpdateProtocolCommand) : Prop :=
  command = .hello ∨ command = .getInfo ∨ command = .getStatus

instance (command : UpdateProtocolCommand) : Decidable command.IsQuestion :=
  inferInstanceAs (Decidable (_ ∨ _))

/-- The call ended, one way or the other, and left the installer in `s'`. -/
def Ended (x : Prog Installer UpdateInstallError Unit) (s s' : Installer) : Prop :=
  x s = .ret () s' ∨ ∃ e, x s = .err e s'

/-- `update_installer_session_init` as a session calls it. -/
def openInstaller (p : UpdateProtocolSession) : Prog Installer UpdateInstallError Unit :=
  updateInstallerSessionInit p.flash p.publicKey p.installOptions true

/-- Everything that a frame in sequence can do to a session, up to the answer. The flag says
whether the frame is acknowledged. -/
inductive Executed (crypto : Crypto) (frame : UpdateProtocolFrame) (p : UpdateProtocolSession) :
    Bool → UpdateProtocolSession → Prop
  /-- The frame is refused for its length, its command or the state of the session. -/
  | refused : Executed crypto frame p false p
  /-- A question has been answered. -/
  | informed {command : UpdateProtocolCommand}
      (known : UpdateProtocolCommand.ofUInt8 frame.command = some command)
      (question : command.IsQuestion) : Executed crypto frame p true p
  /-- The installer could not be opened. -/
  | notOpened {e : UpdateInstallError} {s : Installer}
      (command : UpdateProtocolCommand.ofUInt8 frame.command = some .beginUpdate)
      (state : p.state = .idle ∨ p.state = .aborted) (fresh : p.installerStarted = false)
      (init : openInstaller p p.inst = .err e s) :
      Executed crypto frame p false { p with inst := s, state := .failed }
  /-- The installer could not be opened again. -/
  | notReopened {e : UpdateInstallError} {s s' : Installer}
      (command : UpdateProtocolCommand.ofUInt8 frame.command = some .beginUpdate)
      (state : p.state = .idle ∨ p.state = .aborted) (started : p.installerStarted = true)
      (init : openInstaller p p.inst = .err e s) (abort : Ended updateInstallerAbort s s') :
      Executed crypto frame p false { p with inst := s', state := .failed }
  /-- The installer did not take the header. -/
  | notBegun {e : UpdateInstallError} {s s' s'' : Installer}
      (command : UpdateProtocolCommand.ofUInt8 frame.command = some .beginUpdate)
      (length : frame.data.length = Layout.signedImageHeaderSize)
      (state : p.state = .idle ∨ p.state = .aborted)
      (init : openInstaller p p.inst = .ret () s)
      (run : updateInstallerBegin crypto frame.data s = .err e s')
      (abort : Ended updateInstallerAbort s' s'') :
      Executed crypto frame p false
        { p with inst := s'', installerStarted := true, state := .failed }
  /-- An update has begun. -/
  | begun {s s' : Installer}
      (command : UpdateProtocolCommand.ofUInt8 frame.command = some .beginUpdate)
      (length : frame.data.length = Layout.signedImageHeaderSize)
      (state : p.state = .idle ∨ p.state = .aborted)
      (init : openInstaller p p.inst = .ret () s)
      (run : updateInstallerBegin crypto frame.data s = .ret () s') :
      Executed crypto frame p true
        { p with
          inst := s', installerStarted := true, state := .updating, updatePayloadOffset := 0 }
  /-- A block does not continue the payload. -/
  | misplaced (command : UpdateProtocolCommand.ofUInt8 frame.command = some .writeBlock)
      (state : p.state = .updating) (started : p.installerStarted = true) :
      Executed crypto frame p false { p with state := .failed }
  /-- The installer did not take a block. -/
  | notWritten {e : UpdateInstallError} {s : Installer}
      (command : UpdateProtocolCommand.ofUInt8 frame.command = some .writeBlock)
      (state : p.state = .updating) (started : p.installerStarted = true)
      (run : updateInstallerWrite p.updatePayloadOffset
        (frame.data.drop updateProtocolWriteBlockPrefixSize) p.inst = .err e s) :
      Executed crypto frame p false { p with inst := s, state := .failed }
  /-- A block has been written. -/
  | wrote {s : Installer}
      (command : UpdateProtocolCommand.ofUInt8 frame.command = some .writeBlock)
      (state : p.state = .updating) (started : p.installerStarted = true)
      (run : updateInstallerWrite p.updatePayloadOffset
        (frame.data.drop updateProtocolWriteBlockPrefixSize) p.inst = .ret () s) :
      Executed crypto frame p true
        { p with
          inst := s
          updatePayloadOffset := p.updatePayloadOffset +
            (frame.data.drop updateProtocolWriteBlockPrefixSize).length }
  /-- The installer did not finish. -/
  | notFinished {e : UpdateInstallError} {s : Installer}
      (command : UpdateProtocolCommand.ofUInt8 frame.command = some .finishUpdate)
      (state : p.state = .updating) (started : p.installerStarted = true)
      (run : updateInstallerFinish crypto p.inst = .err e s) :
      Executed crypto frame p false { p with inst := s, state := .failed }
  /-- The update has finished. -/
  | finished {s : Installer}
      (command : UpdateProtocolCommand.ofUInt8 frame.command = some .finishUpdate)
      (state : p.state = .updating) (started : p.installerStarted = true)
      (run : updateInstallerFinish crypto p.inst = .ret () s) :
      Executed crypto frame p true { p with inst := s, state := .finished }
  /-- There was nothing to abort. -/
  | stopped (command : UpdateProtocolCommand.ofUInt8 frame.command = some .abortUpdate)
      (state : p.state ≠ .finished) (fresh : p.installerStarted = false) :
      Executed crypto frame p true { p with state := .aborted }
  /-- The installer did not abort. -/
  | notAborted {e : UpdateInstallError} {s : Installer}
      (command : UpdateProtocolCommand.ofUInt8 frame.command = some .abortUpdate)
      (state : p.state ≠ .finished) (started : p.installerStarted = true)
      (run : updateInstallerAbort p.inst = .err e s) :
      Executed crypto frame p false { p with inst := s, state := .failed }
  /-- The update has been aborted. -/
  | aborted {s : Installer}
      (command : UpdateProtocolCommand.ofUInt8 frame.command = some .abortUpdate)
      (state : p.state ≠ .finished) (started : p.installerStarted = true)
      (run : updateInstallerAbort p.inst = .ret () s) :
      Executed crypto frame p true { p with inst := s, state := .aborted }
  /-- A reset has been asked for. -/
  | reset (command : UpdateProtocolCommand.ofUInt8 frame.command = some .reset)
      (empty : frame.payloadLength = 0) :
      Executed crypto frame p true { p with state := .resetRequested }

/-- Where the power can go while a frame is executed, and what the installer has done by then. -/
inductive Interrupted (crypto : Crypto) (frame : UpdateProtocolFrame) (p : UpdateProtocolSession) :
    UpdateProtocolSession → Prop
  | opening {s : Installer} (init : openInstaller p p.inst = .cut s) :
      Interrupted crypto frame p { p with inst := s }
  | reopening {e : UpdateInstallError} {s s' : Installer} (started : p.installerStarted = true)
      (init : openInstaller p p.inst = .err e s) (abort : updateInstallerAbort s = .cut s') :
      Interrupted crypto frame p { p with inst := s' }
  | beginning {s s' : Installer}
      (command : UpdateProtocolCommand.ofUInt8 frame.command = some .beginUpdate)
      (length : frame.data.length = Layout.signedImageHeaderSize)
      (init : openInstaller p p.inst = .ret () s)
      (run : updateInstallerBegin crypto frame.data s = .cut s') :
      Interrupted crypto frame p { p with inst := s', installerStarted := true }
  | retreating {e : UpdateInstallError} {s s' s'' : Installer}
      (command : UpdateProtocolCommand.ofUInt8 frame.command = some .beginUpdate)
      (length : frame.data.length = Layout.signedImageHeaderSize)
      (init : openInstaller p p.inst = .ret () s)
      (run : updateInstallerBegin crypto frame.data s = .err e s')
      (abort : updateInstallerAbort s' = .cut s'') :
      Interrupted crypto frame p { p with inst := s'', installerStarted := true }
  | writing {s : Installer} (state : p.state = .updating) (started : p.installerStarted = true)
      (run : updateInstallerWrite p.updatePayloadOffset
        (frame.data.drop updateProtocolWriteBlockPrefixSize) p.inst = .cut s) :
      Interrupted crypto frame p { p with inst := s }
  | finishing {s : Installer} (state : p.state = .updating) (started : p.installerStarted = true)
      (run : updateInstallerFinish crypto p.inst = .cut s) :
      Interrupted crypto frame p { p with inst := s }
  | aborting {s : Installer} (started : p.installerStarted = true)
      (run : updateInstallerAbort p.inst = .cut s) :
      Interrupted crypto frame p { p with inst := s }

/-- What a handler has to establish. -/
def Executes (crypto : Crypto) (frame : UpdateProtocolFrame) (p : UpdateProtocolSession)
    (x : Handler) : Prop :=
  wp x p (fun _ p' => ∃ ack q, Executed crypto frame p ack q ∧
        Answered ack frame.sequence frame.command q p')
    (fun _ _ => False) (Interrupted crypto frame p)

section Handlers

variable {crypto : Crypto} {frame : UpdateProtocolFrame} {p q : UpdateProtocolSession}
  {Q : UpdateProtocolStatus → UpdateProtocolSession → Prop}
  {E : Empty → UpdateProtocolSession → Prop} {C : UpdateProtocolSession → Prop}

theorem wp_refuse {status : UpdateProtocolStatus} (h : Executed crypto frame p false q) :
    wp (refuse frame status) q
      (fun _ p' => ∃ ack q, Executed crypto frame p ack q ∧
        Answered ack frame.sequence frame.command q p') E C :=
  (sendNack_spec _ _ _).mono (fun _ _ hp => ⟨false, q, h, hp.1⟩) (fun _ _ h => h) fun _ h => h

theorem wp_acknowledge {extra : List UInt8} (h : Executed crypto frame p true q)
    (hextra : extra.length ≤ updateProtocolStatusPayloadSize - updateProtocolResponseCommonSize) :
    wp (acknowledge frame extra) q
      (fun _ p' => ∃ ack q, Executed crypto frame p ack q ∧
        Answered ack frame.sequence frame.command q p') E C :=
  (sendAck_spec hextra).mono (fun _ _ hp => ⟨true, q, h, hp.1⟩) (fun _ _ h => h) fun _ h => h

theorem executes_handleHello {command : UpdateProtocolCommand}
    (hcommand : UpdateProtocolCommand.ofUInt8 frame.command = some command)
    (hquestion : command.IsQuestion) : Executes crypto frame p (handleHello frame) := by
  rw [Executes, handleHello, wp_ite]
  refine ⟨fun _ => wp_refuse .refused, fun _ => ?_⟩
  exact (sendHelloAck_spec _ _).mono (fun _ _ h => ⟨true, p, .informed hcommand hquestion, h.1⟩)
    (fun _ _ h => h) fun _ h => h

theorem executes_handleGetStatus
    (hcommand : UpdateProtocolCommand.ofUInt8 frame.command = some .getStatus) :
    Executes crypto frame p (handleGetStatus frame) := by
  rw [Executes, handleGetStatus, wp_ite]
  refine ⟨fun _ => wp_refuse .refused, fun _ => ?_⟩
  rw [wp_bind, wp_get]
  exact wp_acknowledge (.informed hcommand (by decide)) (by rw [buildStatusPayload_length]; decide)

/-- A failed call is refused with the status it maps to. -/
theorem mapInstallerStatus_error_ne (e : UpdateInstallError) : mapInstallerStatus (.error e) ≠ .ok :=
  fun h => by cases mapInstallerStatus_eq_ok.mp h

theorem wp_abortInstaller {Q : Except UpdateInstallError Unit → UpdateProtocolSession → Prop}
    (hfresh : p.installerStarted = false → Q (.ok ()) p)
    (hret : p.installerStarted = true →
      ∀ s, updateInstallerAbort p.inst = .ret () s → Q (.ok ()) { p with inst := s })
    (herr : p.installerStarted = true →
      ∀ e s, updateInstallerAbort p.inst = .err e s → Q (.error e) { p with inst := s })
    (hcut : p.installerStarted = true →
      ∀ s, updateInstallerAbort p.inst = .cut s → C { p with inst := s }) :
    wp abortInstaller p Q E C := by
  rw [abortInstaller, wp_bind, wp_get, wp_ite]
  refine ⟨fun h => ?_, fun h => hfresh (by simpa using h)⟩
  rw [wp_callInstaller]
  exact wp_of_outcome (fun _ s hs => hret h s hs) (fun e s hs => herr h e s hs)
    fun s hs => hcut h s hs

theorem executes_handleBeginUpdate
    (hcommand : UpdateProtocolCommand.ofUInt8 frame.command = some .beginUpdate) :
    Executes crypto frame p (handleBeginUpdate crypto frame) := by
  rw [Executes, handleBeginUpdate, wp_bind, wp_get, wp_ite]
  refine ⟨fun _ => wp_refuse .refused, fun hlength => ?_⟩
  rw [wp_ite]
  refine ⟨fun _ => wp_refuse .refused, fun hstate => ?_⟩
  have hstate : p.state = .idle ∨ p.state = .aborted := by
    by_contra hne
    exact hstate (not_or.mp hne)
  have hlength : frame.data.length = Layout.signedImageHeaderSize := by
    rw [UpdateProtocolFrame.data_length, Decidable.not_not.mp hlength]
    rfl
  rw [wp_bind, beginInstaller, wp_bind, wp_get, wp_bind, wp_callInstaller]
  refine wp_of_outcome ?_ ?_ ?_
  · intro _ s hinit
    rw [wp_bind, wp_modify, wp_callInstaller]
    refine wp_of_outcome ?_ ?_ ?_
    · intro _ s' hrun
      rw [wp_ite]
      refine ⟨fun h => absurd rfl h, fun _ => ?_⟩
      rw [wp_bind, wp_modify]
      exact wp_acknowledge (.begun hcommand hlength hstate hinit hrun) (Nat.zero_le _)
    · intro e s' hrun
      rw [wp_ite]
      refine ⟨fun _ => ?_, fun h => absurd (mapInstallerStatus_error_ne e) h⟩
      rw [wp_bind]
      refine wp_abortInstaller (fun h => by cases h) ?_ ?_ ?_
      · intro _ s'' habort
        rw [wp_bind, setState, wp_modify]
        exact wp_refuse (.notBegun hcommand hlength hstate hinit hrun (.inl habort))
      · intro _ e' s'' habort
        rw [wp_bind, setState, wp_modify]
        exact wp_refuse (.notBegun hcommand hlength hstate hinit hrun (.inr ⟨e', habort⟩))
      · intro _ s'' habort
        exact .retreating hcommand hlength hinit hrun habort
    · intro s' hrun
      exact .beginning hcommand hlength hinit hrun
  · intro e s hinit
    rw [wp_pure, wp_ite]
    refine ⟨fun _ => ?_, fun h => absurd (mapInstallerStatus_error_ne e) h⟩
    rw [wp_bind]
    refine wp_abortInstaller ?_ ?_ ?_ ?_
    · intro hfresh
      rw [wp_bind, setState, wp_modify]
      exact wp_refuse (.notOpened hcommand hstate hfresh hinit)
    · intro hstarted s' habort
      rw [wp_bind, setState, wp_modify]
      exact wp_refuse (.notReopened hcommand hstate hstarted hinit (.inl habort))
    · intro hstarted e' s' habort
      rw [wp_bind, setState, wp_modify]
      exact wp_refuse (.notReopened hcommand hstate hstarted hinit (.inr ⟨e', habort⟩))
    · intro hstarted s' habort
      exact .reopening hstarted hinit habort
  · intro s hinit
    exact .opening hinit

theorem executes_handleWriteBlock
    (hcommand : UpdateProtocolCommand.ofUInt8 frame.command = some .writeBlock) :
    Executes crypto frame p (handleWriteBlock frame) := by
  rw [Executes, handleWriteBlock, wp_bind, wp_get, wp_ite]
  refine ⟨fun _ => wp_refuse .refused, fun hstate => ?_⟩
  obtain ⟨hstate, hstarted⟩ := not_or.mp hstate
  have hstate := Decidable.not_not.mp hstate
  have hstarted : p.installerStarted = true := by simpa using hstarted
  rw [wp_ite]
  refine ⟨fun _ => wp_refuse .refused, fun _ => ?_⟩
  rw [wp_ite]
  refine ⟨fun _ => ?_, fun hoffset => ?_⟩
  · rw [wp_bind, setState, wp_modify]
    exact wp_refuse (.misplaced hcommand hstate hstarted)
  · rw [Decidable.not_not.mp hoffset, wp_bind, wp_callInstaller]
    refine wp_of_outcome ?_ ?_ ?_
    · intro _ s hrun
      rw [wp_ite]
      refine ⟨fun h => absurd rfl h, fun _ => ?_⟩
      rw [wp_bind, wp_modify]
      exact wp_acknowledge (.wrote hcommand hstate hstarted hrun) (Nat.zero_le _)
    · intro e s hrun
      rw [wp_ite]
      refine ⟨fun _ => ?_, fun h => absurd (mapInstallerStatus_error_ne e) h⟩
      rw [wp_bind, setState, wp_modify]
      exact wp_refuse (.notWritten hcommand hstate hstarted hrun)
    · intro s hrun
      exact .writing hstate hstarted hrun

theorem executes_handleFinishUpdate
    (hcommand : UpdateProtocolCommand.ofUInt8 frame.command = some .finishUpdate) :
    Executes crypto frame p (handleFinishUpdate crypto frame) := by
  rw [Executes, handleFinishUpdate, wp_bind, wp_get, wp_ite]
  refine ⟨fun _ => wp_refuse .refused, fun _ => ?_⟩
  rw [wp_ite]
  refine ⟨fun _ => wp_refuse .refused, fun hstate => ?_⟩
  obtain ⟨hstate, hstarted⟩ := not_or.mp hstate
  have hstate := Decidable.not_not.mp hstate
  have hstarted : p.installerStarted = true := by simpa using hstarted
  rw [wp_bind, wp_callInstaller]
  refine wp_of_outcome ?_ ?_ ?_
  · intro _ s hrun
    rw [wp_ite]
    refine ⟨fun h => absurd rfl h, fun _ => ?_⟩
    rw [wp_bind, setState, wp_modify, wp_bind, wp_get]
    refine wp_acknowledge (.finished hcommand hstate hstarted hrun) ?_
    rw [buildStatusPayload_length]
    decide
  · intro e s hrun
    rw [wp_ite]
    refine ⟨fun _ => ?_, fun h => absurd (mapInstallerStatus_error_ne e) h⟩
    rw [wp_bind, setState, wp_modify]
    exact wp_refuse (.notFinished hcommand hstate hstarted hrun)
  · intro s hrun
    exact .finishing hstate hstarted hrun

theorem executes_handleAbortUpdate
    (hcommand : UpdateProtocolCommand.ofUInt8 frame.command = some .abortUpdate) :
    Executes crypto frame p (handleAbortUpdate frame) := by
  rw [Executes, handleAbortUpdate, wp_bind, wp_get, wp_ite]
  refine ⟨fun _ => wp_refuse .refused, fun _ => ?_⟩
  rw [wp_ite]
  refine ⟨fun _ => wp_refuse .refused, fun hstate => ?_⟩
  rw [wp_bind]
  refine wp_abortInstaller ?_ ?_ ?_ ?_
  · intro hfresh
    rw [wp_ite]
    refine ⟨fun h => absurd rfl h, fun _ => ?_⟩
    rw [wp_bind, setState, wp_modify]
    exact wp_acknowledge (.stopped hcommand hstate hfresh) (Nat.zero_le _)
  · intro hstarted s hrun
    rw [wp_ite]
    refine ⟨fun h => absurd rfl h, fun _ => ?_⟩
    rw [wp_bind, setState, wp_modify]
    exact wp_acknowledge (.aborted hcommand hstate hstarted hrun) (Nat.zero_le _)
  · intro hstarted e s hrun
    rw [wp_ite]
    refine ⟨fun _ => ?_, fun h => absurd (mapInstallerStatus_error_ne e) h⟩
    rw [wp_bind, setState, wp_modify]
    exact wp_refuse (.notAborted hcommand hstate hstarted hrun)
  · intro hstarted s hrun
    exact .aborting hstarted hrun

theorem executes_handleReset
    (hcommand : UpdateProtocolCommand.ofUInt8 frame.command = some .reset) :
    Executes crypto frame p (handleReset frame) := by
  rw [Executes, handleReset, wp_ite]
  refine ⟨fun _ => wp_refuse .refused, fun hempty => ?_⟩
  rw [wp_bind, setState, wp_modify]
  refine wp_acknowledge (.reset hcommand ?_) (Nat.zero_le _)
  simpa [payloadIsEmpty] using hempty

/-- **A frame in sequence does one of the things `Executed` lists.** -/
theorem executeFrame_spec : Executes crypto frame p (executeFrame crypto frame) := by
  rw [executeFrame]
  split
  · rename_i h
    exact executes_handleHello h (by decide)
  · rename_i h
    exact executes_handleHello h (by decide)
  · rename_i h
    exact executes_handleBeginUpdate h
  · rename_i h
    exact executes_handleWriteBlock h
  · rename_i h
    exact executes_handleFinishUpdate h
  · rename_i h
    exact executes_handleGetStatus h
  · rename_i h
    exact executes_handleAbortUpdate h
  · rename_i h
    exact executes_handleReset h
  all_goals exact wp_refuse .refused

/-- A question is always answered. -/
theorem executeFrame_question {command : UpdateProtocolCommand}
    (hcommand : UpdateProtocolCommand.ofUInt8 frame.command = some command)
    (hquestion : command.IsQuestion) (hempty : frame.payloadLength = 0) :
    wp (executeFrame crypto frame) p
      (fun _ p' => Answered true frame.sequence frame.command p p') E C := by
  have hno : ¬ payloadIsEmpty frame = false := by simp [payloadIsEmpty, hempty]
  have hhello : wp (handleHello frame) p
      (fun _ p' => Answered true frame.sequence frame.command p p') E C := by
    rw [handleHello, if_neg hno]
    exact (sendHelloAck_spec _ _).mono (fun _ _ h => h.1) (fun _ _ h => h) fun _ h => h
  rw [executeFrame, hcommand]
  obtain rfl | rfl | rfl := hquestion
  · exact hhello
  · exact hhello
  · show wp (handleGetStatus frame) p _ _ _
    rw [handleGetStatus, if_neg hno, wp_bind, wp_get]
    exact (sendAck_spec (by rw [buildStatusPayload_length]; decide)).mono (fun _ _ h => h.1)
      (fun _ _ h => h) fun _ h => h

/-- A header that the installer takes begins an update. -/
theorem executeFrame_begin {s s' : Installer}
    (hcommand : UpdateProtocolCommand.ofUInt8 frame.command = some .beginUpdate)
    (hlength : frame.payloadLength = UInt16.ofNat Layout.signedImageHeaderSize)
    (hstate : p.state = .idle ∨ p.state = .aborted) (hinit : openInstaller p p.inst = .ret () s)
    (hrun : updateInstallerBegin crypto frame.data s = .ret () s') :
    wp (executeFrame crypto frame) p
      (fun status p' => (p.WriterWorks → status = .ok) ∧
        Answered true frame.sequence frame.command
          { p with
            inst := s', installerStarted := true, state := .updating, updatePayloadOffset := 0 } p')
      E C := by
  rw [executeFrame, hcommand]
  show wp (handleBeginUpdate crypto frame) p _ _ _
  rw [handleBeginUpdate, wp_bind, wp_get, if_neg (not_not.mpr hlength), if_neg (by tauto), wp_bind,
    beginInstaller, wp_bind, wp_get, wp_bind, wp_callInstaller]
  refine wp_of_ret hinit ?_
  rw [wp_bind, wp_modify, wp_callInstaller]
  refine wp_of_ret hrun ?_
  rw [wp_ite]
  refine ⟨fun h => absurd rfl h, fun _ => ?_⟩
  rw [wp_bind, wp_modify]
  exact (sendAck_spec (Nat.zero_le _)).mono (fun _ _ h => ⟨h.2, h.1⟩) (fun _ _ h => h) fun _ h => h

/-- A reset is always acknowledged. -/
theorem executeFrame_reset
    (hcommand : UpdateProtocolCommand.ofUInt8 frame.command = some .reset)
    (hempty : frame.payloadLength = 0) :
    wp (executeFrame crypto frame) p
      (fun status p' => (p.WriterWorks → status = .ok) ∧
        Answered true frame.sequence frame.command { p with state := .resetRequested } p') E C := by
  rw [executeFrame, hcommand]
  show wp (handleReset frame) p _ _ _
  rw [handleReset, if_neg (by simp [payloadIsEmpty, hempty]), wp_bind, setState, wp_modify]
  exact (sendAck_spec (Nat.zero_le _)).mono (fun _ _ h => ⟨h.2, h.1⟩) (fun _ _ h => h) fun _ h => h

/-- While an update is under way, an abort does what the installer does. -/
theorem executeFrame_abort
    (hcommand : UpdateProtocolCommand.ofUInt8 frame.command = some .abortUpdate)
    (hempty : frame.payloadLength = 0) (hstate : p.state = .updating)
    (hstarted : p.installerStarted = true) :
    wp (executeFrame crypto frame) p
      (fun _ p' => ∃ s,
        (updateInstallerAbort p.inst = .ret () s ∧
          Answered true frame.sequence frame.command { p with inst := s, state := .aborted } p') ∨
        ∃ e, updateInstallerAbort p.inst = .err e s ∧
          Answered false frame.sequence frame.command { p with inst := s, state := .failed } p')
      E (fun p' => ∃ s, updateInstallerAbort p.inst = .cut s ∧ p' = { p with inst := s }) := by
  rw [executeFrame, hcommand]
  show wp (handleAbortUpdate frame) p _ _ _
  rw [handleAbortUpdate, wp_bind, wp_get, if_neg (by simp [payloadIsEmpty, hempty]),
    if_neg (by rw [hstate]; decide), wp_bind]
  refine wp_abortInstaller ?_ ?_ ?_ ?_
  · intro hfresh
    rw [hstarted] at hfresh
    cases hfresh
  · intro _ s hrun
    rw [wp_ite]
    refine ⟨fun h => absurd rfl h, fun _ => ?_⟩
    rw [wp_bind, setState, wp_modify]
    exact (sendAck_spec (Nat.zero_le _)).mono (fun _ _ h => ⟨s, .inl ⟨hrun, h.1⟩⟩)
      (fun _ _ h => h) fun _ h => h
  · intro _ e s hrun
    rw [wp_ite]
    refine ⟨fun _ => ?_, fun h => absurd (mapInstallerStatus_error_ne e) h⟩
    rw [wp_bind, setState, wp_modify]
    exact (sendNack_spec _ _ _).mono (fun _ _ h => ⟨s, .inr ⟨e, hrun, h.1⟩⟩)
      (fun _ _ h => h) fun _ h => h
  · intro _ s hrun
    exact ⟨s, hrun, rfl⟩

end Handlers

/-! ### What a byte can do -/

/-- The frame that the parser of `p` has just delivered, if it is executed. -/
def accepted (p : UpdateProtocolSession) (status : UpdateProtocolParseStatus) :
    Option UpdateProtocolFrame :=
  if status = .frameReady ∧ p.parser.frame.version = updateProtocolVersion ∧
      p.parser.frame.sequence = p.expectedSequence then
    some p.parser.frame
  else
    none

/-- The parser of a session after one more byte. -/
def pushByte (p : UpdateProtocolSession) (byte : UInt8) : UpdateProtocolSession :=
  { p with parser := (updateProtocolParserPush p.parser byte).2 }

/-- The frame that a byte completes, if it is executed. -/
def acceptedFrame (p : UpdateProtocolSession) (byte : UInt8) : Option UpdateProtocolFrame :=
  accepted (pushByte p byte) (updateProtocolParserPush p.parser byte).1

theorem frame_of_accepted {p : UpdateProtocolSession} {status : UpdateProtocolParseStatus}
    {frame : UpdateProtocolFrame} (h : accepted p status = some frame) :
    status = .frameReady ∧ frame = p.parser.frame ∧ frame.version = updateProtocolVersion ∧
      frame.sequence = p.expectedSequence := by
  rw [accepted] at h
  split at h
  · rename_i hc
    obtain rfl := Option.some.inj h
    exact ⟨hc.1, rfl, hc.2⟩
  · cases h

/-- Everything that the result of a push can do to a session. -/
inductive Handled (crypto : Crypto) (status : UpdateProtocolParseStatus)
    (p : UpdateProtocolSession) : UpdateProtocolSession → Prop
  /-- There is no frame to execute. -/
  | skipped (none : accepted p status = none) {lastStatus : UpdateProtocolStatus}
      {written : List (List UInt8)} : Handled crypto status p { p with lastStatus, written }
  /-- The frame is executed and the sequence number advances. -/
  | executed {frame : UpdateProtocolFrame} {ack : Bool} {q r : UpdateProtocolSession}
      (some : accepted p status = some frame) (run : Executed crypto frame p ack q)
      (answer : Answered ack frame.sequence frame.command q r) :
      Handled crypto status p { r with expectedSequence := r.expectedSequence + 1 }

section Bytes

variable {crypto : Crypto} {p : UpdateProtocolSession} {E : Empty → UpdateProtocolSession → Prop}
  {C : UpdateProtocolSession → Prop}

theorem Answered.handled {ack : Bool} {sequence : UInt16} {command : UInt8}
    {p' : UpdateProtocolSession} {status : UpdateProtocolParseStatus}
    (h : Answered ack sequence command p p') (hnone : accepted p status = none) :
    Handled crypto status p p' := by
  rw [h.same]
  exact .skipped hnone

/-- The power goes only while a frame is executed. -/
theorem handleParsed_spec (status : UpdateProtocolParseStatus) :
    wp (handleParsed crypto status) p (fun _ p' => Handled crypto status p p') (fun _ _ => False)
      (fun p' => ∃ frame, accepted p status = some frame ∧ Interrupted crypto frame p p') := by
  have hother (h : status ≠ .frameReady) : accepted p status = none := if_neg fun hc => h hc.1
  have herror : status ≠ .frameReady →
      wp (handleParseError status) p (fun _ p' => Handled crypto status p p') (fun _ _ => False)
        (fun p' => ∃ frame, accepted p status = some frame ∧ Interrupted crypto frame p p') := by
    intro h
    rw [handleParseError.eq_def, wp_bind, wp_get]
    exact (sendNack_spec _ _ _).mono (fun _ _ ha => ha.1.handled (hother h)) (fun _ _ h => h)
      fun _ h => h
  rw [handleParsed, wp_bind, wp_get]
  cases status with
  | needMore => exact .skipped (hother fun h => by cases h)
  | errOversize => exact herror fun h => by cases h
  | errCrc => exact herror fun h => by cases h
  | frameReady =>
    show wp (handleFrame crypto p.parser.frame) p _ _ _
    rw [handleFrame, wp_bind, wp_get, wp_ite]
    refine ⟨fun hversion => ?_, fun hversion => ?_⟩
    · refine (sendNack_spec _ _ _).mono (fun _ _ ha => ha.1.handled ?_) (fun _ _ h => h) fun _ h => h
      exact if_neg fun hc => hversion hc.2.1
    rw [wp_ite]
    refine ⟨fun hsequence => ?_, fun hsequence => ?_⟩
    · refine (sendNack_spec _ _ _).mono (fun _ _ ha => ha.1.handled ?_) (fun _ _ h => h) fun _ h => h
      exact if_neg fun hc => hsequence hc.2.2
    have hsome : accepted p .frameReady = some p.parser.frame :=
      if_pos ⟨rfl, Decidable.not_not.mp hversion, Decidable.not_not.mp hsequence⟩
    rw [wp_bind]
    refine executeFrame_spec.mono ?_ (fun _ _ h => h) fun _ h => ⟨_, hsome, h⟩
    rintro status r ⟨ack, q, hrun, hanswer⟩
    rw [wp_bind, advanceSequence, wp_modify]
    exact .executed hsome hrun hanswer

/-- **A byte executes the frame it completes, if that is in sequence, and nothing else.** -/
theorem updateProtocolSessionProcessByte_spec (byte : UInt8) :
    wp (updateProtocolSessionProcessByte crypto byte) p
      (fun _ p' => Handled crypto (updateProtocolParserPush p.parser byte).1 (pushByte p byte) p')
      (fun _ _ => False)
      (fun p' => ∃ frame, acceptedFrame p byte = some frame ∧
        Interrupted crypto frame (pushByte p byte) p') := by
  rw [updateProtocolSessionProcessByte, wp_bind, wp_get, wp_bind, wp_modify]
  exact handleParsed_spec _

end Bytes

end Stm32SecurityLab
