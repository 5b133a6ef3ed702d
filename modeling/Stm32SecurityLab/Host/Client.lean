import Stm32SecurityLab.Host.Codec
import Stm32SecurityLab.Protocol.Stream

/-!
# The host client and its target

`tools/stm32ctl/client.py`, and the target at the other end of the line. A call of the client writes
a frame, the target hears what the line makes of it and answers, and the client reads what the line
makes of the answer. Both ends count: the client counts the responses it has taken, the target the
frames it has executed.

* The line is a list of passages, one for each frame the client will write. A passage says what
  reaches the target in place of a frame, and in which pieces what reaches the host in place of
  the answer. Where the list ends the line is clear.
* What has arrived and not been read stays in the buffer of the port.
* A write is never short, and a `progress` callback does nothing.
* Losing power at the target ends the run.

## Main definitions

* `Host.parseResponse`, `Host.parseInfo`, `Host.parseStatus`
* `Host.Link` — the client, the target and the line
* `Host.exchange`, `Host.sendOnce`, `Host.request`, `Host.hello`, `Host.getInfo`, `Host.getStatus`,
  `Host.abortUpdate`, `Host.update`

## Main results

* `Host.exchange_spec` — who counts what in an exchange, whatever the line does
* `Host.exchange_answered`, `Host.exchange_unanswered` — an exchange in which the answer arrives, and
  one in which nothing does
-/

namespace Stm32SecurityLab.Host

open Crash

/-! ### Responses -/

/-- `Response`. -/
structure Response where
  frame : Frame
  responseCommand : UpdateProtocolCommand
  requestCommand : UpdateProtocolCommand
  status : UInt16
  extra : List UInt8
  deriving DecidableEq, Repr

/-- `parse_response`. -/
def parseResponse (frame : Frame) (expectedSequence : ℕ) (requestCommand : UpdateProtocolCommand) :
    Except HostError Response :=
  if frame.version ≠ updateProtocolVersion then .error (.unsupportedResponseVersion frame.version)
  else if frame.sequence.toNat ≠ expectedSequence then
    .error (.unexpectedResponseSequence frame.sequence expectedSequence)
  else if frame.command ≠ UpdateProtocolCommand.ack.toUInt8 ∧
      frame.command ≠ UpdateProtocolCommand.nack.toUInt8 then
    .error (.unexpectedResponseCommand frame.command)
  else if frame.payload.length < 3 then .error .responseTruncated
  else if byteAt frame.payload 0 ≠ requestCommand.toUInt8 then
    .error (.responseForOther (byteAt frame.payload 0))
  else
    .ok
      { frame
        responseCommand :=
          if frame.command = UpdateProtocolCommand.ack.toUInt8 then .ack else .nack
        requestCommand
        status := loadLe16 (byteAt frame.payload) 1
        extra := frame.payload.drop 3 }

/-- `Info`. -/
structure Info where
  protocolVersion : UInt8
  maxPayloadSize : UInt16
  maxWriteDataSize : UInt16
  headerSize : UInt16
  crcSize : UInt16
  sessionState : UInt8
  deriving DecidableEq, Repr

/-- `parse_info`. -/
def parseInfo (extra : List UInt8) : Except HostError Info :=
  if extra.length ≠ 10 then .error (.infoSize extra.length)
  else
    .ok
      { protocolVersion := byteAt extra 0
        maxPayloadSize := loadLe16 (byteAt extra) 1
        maxWriteDataSize := loadLe16 (byteAt extra) 3
        headerSize := loadLe16 (byteAt extra) 5
        crcSize := loadLe16 (byteAt extra) 7
        sessionState := byteAt extra 9 }

/-- `TargetStatus`. -/
structure TargetStatus where
  sessionState : UInt8
  lastStatus : UInt16
  expectedSequence : UInt16
  installerState : UInt8
  acceptedPayloadBytes : UInt32
  imageVersion : UInt32
  programmedBlockCount : UInt32
  deriving DecidableEq, Repr

/-- `parse_status`. -/
def parseStatus (extra : List UInt8) : Except HostError TargetStatus :=
  if extra.length ≠ 18 then .error (.statusSize extra.length)
  else
    .ok
      { sessionState := byteAt extra 0
        lastStatus := loadLe16 (byteAt extra) 1
        expectedSequence := loadLe16 (byteAt extra) 3
        installerState := byteAt extra 5
        acceptedPayloadBytes := loadLe32 (byteAt extra) 6
        imageVersion := loadLe32 (byteAt extra) 10
        programmedBlockCount := loadLe32 (byteAt extra) 14 }

/-- `ProtocolTimeout`. -/
def HostError.IsTimeout (e : HostError) : Prop := e = .timedOut ∨ e = .timeoutNotPositive

instance (e : HostError) : Decidable e.IsTimeout := inferInstanceAs (Decidable (_ ∨ _))

/-- `Stm32CtlError`: everything but `struct.error`. -/
def HostError.IsStm32CtlError (e : HostError) : Prop := e ≠ .structError

instance (e : HostError) : Decidable e.IsStm32CtlError := inferInstanceAs (Decidable (_ ≠ _))

/-! ### The two parties -/

/-- `Stm32Client`, without its transport. -/
structure Client where
  timeout : ℚ := 15
  retries : ℤ := 1
  sequence : ℕ := 0
  info : Option Info := none

/-- What the line does to one frame and the answer to it. -/
structure Passage where
  toTarget : List UInt8 → List LineEvent
  toHost : List UInt8 → List (List UInt8)

namespace Passage

/-- Both frames arrive as they were sent. -/
def clear : Passage := ⟨fun bytes => bytes.map .byte, fun bytes => [bytes]⟩

/-- The request is lost. -/
def lostRequest : Passage := ⟨fun _ => [], fun bytes => [bytes]⟩

/-- The response is lost. -/
def lostResponse : Passage := ⟨fun bytes => bytes.map .byte, fun _ => []⟩

end Passage

/-- The client, what its port holds, the target, and what the line will do. -/
structure Link where
  client : Client
  unread : List UInt8 := []
  target : UpdateProtocolSession
  passages : List Passage := []

/-- `transport.write`: the target hears the frame, and what comes back is on its way. -/
def transmit (crypto : Crypto) (data : List UInt8) : Prog Link HostError (List (List UInt8)) :=
  fun link =>
    let passage := link.passages.headD .clear
    let onward := { link with passages := link.passages.tail }
    match runLine crypto (passage.toTarget data) link.target with
    | .ret _ target =>
      .ret (passage.toHost (target.written.drop link.target.written.length).flatten)
        { onward with target }
    | .err e _ => e.elim
    | .cut target => .cut { onward with target }

/-- `read_frame` on the port of the client. -/
def receive (arrivals : List (List UInt8)) : Prog Link HostError Frame := fun link =>
  match readFrame { buffer := link.unread, arrivals } link.client.timeout with
  | (.ok frame, transport) => .ret frame { link with unread := transport.stream }
  | (.error e, transport) => .err e { link with unread := transport.stream }

/-- `_advance_sequence`. -/
def advanceSequence : Prog Link HostError Unit :=
  .modify fun link =>
    { link with client := { link.client with sequence := (link.client.sequence + 1) &&& 0xFFFF } }

/-- The part of `_send_once` up to a response that `parse_response` takes. -/
def exchange (crypto : Crypto) (command : UpdateProtocolCommand) (payload : List UInt8) :
    Prog Link HostError Response := do
  let link ← .get
  let sequence := link.client.sequence
  let encoded ← .ofExcept (encodeFrame command.toUInt8.toNat sequence payload)
  let arrivals ← transmit crypto encoded
  let frame ← receive arrivals
  let response ← .ofExcept (parseResponse frame sequence command)
  advanceSequence
  pure response

/-- The end of `_send_once`: the response is an acknowledgement, or it is raised. -/
def checkResponse (command : UpdateProtocolCommand) (response : Response) :
    Prog Link HostError Response :=
  if response.responseCommand = .nack then .fail (.nack command.toUInt8 response.status)
  else if response.status ≠ UpdateProtocolStatus.ok.toUInt16 then
    .fail (.nonOkStatus response.status)
  else
    pure response

/-- `_send_once`. -/
def sendOnce (crypto : Crypto) (command : UpdateProtocolCommand) (payload : List UInt8) :
    Prog Link HostError Response := do
  let response ← exchange crypto command payload
  checkResponse command response

/-- The loop of `request`, with the attempts that are left and the last timeout. -/
def requestAttempts (crypto : Crypto) (command : UpdateProtocolCommand) (payload : List UInt8) :
    ℕ → HostError → Prog Link HostError Response
  | 0, last => .fail last
  | attempts + 1, _ => do
    let result ← (sendOnce crypto command payload).attempt
    match result with
    | .ok response => pure response
    | .error e => if e.IsTimeout then requestAttempts crypto command payload attempts e else .fail e

/-- `request`. -/
def request (crypto : Crypto) (command : UpdateProtocolCommand) (payload : List UInt8)
    (retryIdempotent : Bool) : Prog Link HostError Response := do
  let link ← .get
  let attempts := if retryIdempotent then link.client.retries + 1 else 1
  requestAttempts crypto command payload attempts.toNat .noResponse

/-- `_validate_info`. -/
def validateInfo (info : Info) : Except HostError Unit := do
  require (info.protocolVersion = 1) (.unsupportedTargetVersion info.protocolVersion)
  require (info.headerSize.toNat = updateProtocolHeaderSize) (.unexpectedHeaderSize info.headerSize)
  require (info.maxWriteDataSize.toNat ≤ updateProtocolMaxWriteDataSize)
    (.maxWriteTooLarge info.maxWriteDataSize)
  require (info.maxWriteDataSize ≠ 0) .maxWriteZero

/-- The common body of `hello` and `get_info`. -/
def requestInfo (crypto : Crypto) (command : UpdateProtocolCommand) : Prog Link HostError Info := do
  let response ← request crypto command [] true
  let info ← .ofExcept (parseInfo response.extra)
  .ofExcept (validateInfo info)
  .modify fun link => { link with client := { link.client with info := some info } }
  pure info

/-- `hello`. -/
def hello (crypto : Crypto) : Prog Link HostError Info := requestInfo crypto .hello

/-- `get_info`. -/
def getInfo (crypto : Crypto) : Prog Link HostError Info := requestInfo crypto .getInfo

/-- `get_status`. -/
def getStatus (crypto : Crypto) : Prog Link HostError TargetStatus := do
  let response ← request crypto .getStatus [] true
  .ofExcept (parseStatus response.extra)

/-- `abort_update`. -/
def abortUpdate (crypto : Crypto) : Prog Link HostError Unit := do
  let _ ← request crypto .abortUpdate [] false
  pure ()

/-! ### Updates -/

/-- The fields of `PackageInfo` that the client reads. -/
structure PackageInfo where
  data : List UInt8
  imageVersion : ℕ
  payloadSize : ℕ
  packageSize : ℕ
  signedHeaderSize : ℕ

/-- `_validate_package_against_target`. -/
def validatePackageAgainstTarget (package : PackageInfo) (info : Info) : Except HostError Unit := do
  require (package.signedHeaderSize = 512) (.packageHeaderSize package.signedHeaderSize)
  require (package.packageSize = package.signedHeaderSize + package.payloadSize)
    .packageSizeMismatch
  require (package.signedHeaderSize ≤ info.maxPayloadSize.toNat) .headerDoesNotFit

/-- `struct.pack("<I", offset)`. -/
def packOffset (offset : ℕ) : Except HostError (List UInt8) :=
  if offset ≤ uint32Max then .ok (storeLe32 (UInt32.ofNat offset)) else .error .structError

/-- The loop of `update` over the blocks, for the part of the payload that is left. A chunk is not
empty, so as many rounds as there are bytes are enough. -/
def writeBlocks (crypto : Crypto) (chunkSize : ℕ) :
    ℕ → ℕ → List UInt8 → Prog Link HostError Unit
  | 0, _, _ => pure ()
  | fuel + 1, offset, payload =>
    if payload.length = 0 then pure ()
    else do
      let chunk := payload.take chunkSize
      let location ← .ofExcept (packOffset offset)
      let _ ← request crypto .writeBlock (location ++ chunk) false
      writeBlocks crypto chunkSize fuel (offset + chunk.length) (payload.drop chunkSize)

/-- The part of the `try` block of `update` behind the first request. -/
def updateRest (crypto : Crypto) (payload : List UInt8) (chunkSize : ℕ) :
    Prog Link HostError TargetStatus := do
  writeBlocks crypto chunkSize payload.length 0 payload
  let finishResponse ← request crypto .finishUpdate [] false
  .ofExcept (parseStatus finishResponse.extra)

/-- The `try` block of `update`. An error comes with `update_started`. -/
def updateTry (crypto : Crypto) (header payload : List UInt8) (chunkSize : ℕ) :
    Prog Link (HostError × Bool) TargetStatus := do
  let _ ← (request crypto .beginUpdate header false).mapErr fun e => (e, false)
  (updateRest crypto payload chunkSize).mapErr fun e => (e, true)

/-- `_best_effort_abort`. -/
def bestEffortAbort (crypto : Crypto) : Prog Link HostError Unit := do
  let result ← (abortUpdate crypto).attempt
  match result with
  | .ok () => pure ()
  | .error e => if e.IsStm32CtlError then pure () else .fail e

/-- `UpdateResult`. -/
structure UpdateResult where
  imageVersion : ℕ
  payloadSize : ℕ
  programmedBlockCount : UInt32
  finalStatus : TargetStatus

/-- The information about the target, or a `HELLO`. -/
def knownInfo (crypto : Crypto) : Prog Link HostError Info := do
  let link ← .get
  match link.client.info with
  | some info => pure info
  | none => hello crypto

/-- `update`. -/
def update (crypto : Crypto) (package : PackageInfo) (blockSize : Option ℤ) :
    Prog Link HostError UpdateResult := do
  let info ← knownInfo crypto
  .ofExcept (validatePackageAgainstTarget package info)
  let maxWrite := info.maxWriteDataSize
  let chunkSize := blockSize.getD maxWrite.toNat
  .check (0 < chunkSize) .blockSizeNotPositive
  .check (chunkSize ≤ maxWrite.toNat) (.blockSizeTooLarge chunkSize maxWrite)
  let header := package.data.take package.signedHeaderSize
  let payload := package.data.drop package.signedHeaderSize
  .check (payload.length = package.payloadSize) .packageChanged
  let result ← (updateTry crypto header payload chunkSize.toNat).attempt
  match result with
  | .ok finalStatus =>
    pure
      { imageVersion := package.imageVersion
        payloadSize := package.payloadSize
        programmedBlockCount := finalStatus.programmedBlockCount
        finalStatus }
  | .error (e, updateStarted) =>
    if e.IsStm32CtlError ∧ updateStarted = true then do
      bestEffortAbort crypto
      .fail e
    else
      .fail e

/-! ### An exchange -/

/-- What the target hears in place of a request. -/
def Link.heard (link : Link) (command : UpdateProtocolCommand) (payload : List UInt8) :
    List LineEvent :=
  (link.passages.headD .clear).toTarget
    (outgoing command.toUInt8 (UInt16.ofNat link.client.sequence) payload).encode

/-- A client that has taken one more response. -/
def Client.advanced (client : Client) : Client :=
  { client with sequence := (client.sequence + 1) &&& 0xFFFF }

theorem encodeFrame_ok {command : UInt8} {sequence : ℕ} {payload encoded : List UInt8}
    (h : encodeFrame command.toNat sequence payload = .ok encoded) :
    sequence ≤ 0xFFFF ∧ payload.length ≤ updateProtocolMaxPayloadSize ∧
      encoded = (outgoing command (UInt16.ofNat sequence) payload).encode := by
  have hsequence : sequence ≤ 0xFFFF := by
    by_contra hlarge
    rw [encodeFrame, if_pos (by omega)] at h
    cases h
  have hlength : payload.length ≤ updateProtocolMaxPayloadSize := by
    by_contra hlarge
    rw [encodeFrame, if_neg (by omega), if_pos (Nat.not_le.mp hlarge)] at h
    cases h
  have htoNat : (UInt16.ofNat sequence).toNat = sequence :=
    Nat.mod_eq_of_lt (Nat.lt_succ_of_le hsequence)
  refine ⟨hsequence, hlength, ?_⟩
  have heq := @encodeFrame_eq command (UInt16.ofNat sequence) payload hlength
  rw [htoNat, h] at heq
  exact Except.ok.inj heq

section Exchange

variable {crypto : Crypto} {link : Link} {command : UpdateProtocolCommand} {payload : List UInt8}

theorem wp_transmit {data : List UInt8} {Q : List (List UInt8) → Link → Prop}
    {E : HostError → Link → Prop} {C : Link → Prop}
    (hret : ∀ target,
      runLine crypto ((link.passages.headD .clear).toTarget data) link.target = .ret () target →
      Q ((link.passages.headD .clear).toHost
          (target.written.drop link.target.written.length).flatten)
        { link with target, passages := link.passages.tail })
    (hcut : ∀ target,
      runLine crypto ((link.passages.headD .clear).toTarget data) link.target = .cut target →
      C { link with target, passages := link.passages.tail }) :
    wp (transmit crypto data) link Q E C := by
  rw [wp, transmit]
  cases hrun : runLine crypto ((link.passages.headD .clear).toTarget data) link.target with
  | ret _ target => exact hret target hrun
  | err e _ => exact e.elim
  | cut target => exact hcut target hrun

theorem wp_receive {arrivals : List (List UInt8)} {Q : Frame → Link → Prop}
    {E : HostError → Link → Prop} {C : Link → Prop}
    (hret : ∀ frame unread, Q frame { link with unread })
    (herr : ∀ e unread, E e { link with unread }) : wp (receive arrivals) link Q E C := by
  rw [wp, receive]
  rcases readFrame { buffer := link.unread, arrivals } link.client.timeout with ⟨e | frame, transport⟩
  · exact herr e _
  · exact hret frame _

theorem encodeFrame_error_ne_timeout {command sequence : ℤ} {e : HostError}
    (h : encodeFrame command sequence payload = .error e) : ¬ e.IsTimeout := by
  rw [encodeFrame] at h
  split_ifs at h
  all_goals
    obtain rfl := Except.error.inj h
    rintro (h | h) <;> cases h

/-- **The client counts the exchanges that end with a response, and the target counts what it has
heard.** -/
theorem exchange_spec :
    wp (exchange crypto command payload) link
      (fun _ link' => runLine crypto (link.heard command payload) link.target =
          .ret () link'.target ∧ link'.client = link.client.advanced)
      (fun e link' => e.IsTimeout → runLine crypto (link.heard command payload) link.target =
          .ret () link'.target ∧ link'.client = link.client)
      fun _ => True := by
  rw [exchange, wp_bind, wp_get, wp_bind, wp_ofExcept]
  refine ⟨fun encoded hencoded => ?_, fun e he h => absurd h (encodeFrame_error_ne_timeout he)⟩
  obtain ⟨-, -, rfl⟩ := encodeFrame_ok hencoded
  rw [wp_bind]
  refine wp_transmit (fun target hrun => ?_) fun _ _ => trivial
  rw [wp_bind]
  refine wp_receive (fun frame unread => ?_) fun _ _ _ => ⟨hrun, rfl⟩
  rw [wp_bind, wp_ofExcept]
  refine ⟨fun response _ => ?_, fun _ _ _ => ⟨hrun, rfl⟩⟩
  rw [wp_bind, advanceSequence, wp_modify]
  exact ⟨hrun, rfl⟩

/-! ### An answer that arrives, and silence -/

/-- The target has written one answer. -/
def WroteAnswer (ack : Bool) (sequence : UInt16) (command : UInt8) (status : UpdateProtocolStatus)
    (extra : List UInt8) (p p' : UpdateProtocolSession) : Prop :=
  extra.length ≤ updateProtocolStatusPayloadSize - updateProtocolResponseCommonSize ∧
    ∃ pieces : List (List UInt8), p'.written = p.written ++ pieces ∧
      pieces.flatten = (answerFrame ack sequence command status extra).encode

theorem wroteAnswer_of_answered {ack : Bool} {sequence : UInt16} {command : UInt8}
    {p p' : UpdateProtocolSession} (h : Answered ack sequence command p p')
    (hwriter : p.WriterWorks) :
    ∃ extra, WroteAnswer ack sequence command p'.lastStatus extra p p' := by
  obtain ⟨pieces, extra, hextra, hwritten, hpieces⟩ := h.wire hwriter
  exact ⟨extra, hextra, pieces, hwritten, hpieces⟩

/-- The response the client makes of an answer. -/
def responseOf (ack : Bool) (sequence : UInt16) (command : UpdateProtocolCommand)
    (status : UpdateProtocolStatus) (extra : List UInt8) : Response where
  frame := ⟨updateProtocolVersion,
    if ack then UpdateProtocolCommand.ack.toUInt8 else UpdateProtocolCommand.nack.toUInt8, sequence,
    responseCommon command.toUInt8 status ++ extra⟩
  responseCommand := if ack then .ack else .nack
  requestCommand := command
  status := status.toUInt16
  extra := extra

theorem answer_length {command : UInt8} {status : UpdateProtocolStatus} {extra : List UInt8}
    (h : extra.length ≤ updateProtocolStatusPayloadSize - updateProtocolResponseCommonSize) :
    (responseCommon command status ++ extra).length ≤ updateProtocolMaxPayloadSize := by
  rw [List.length_append, responseCommon_length]
  exact (Nat.add_le_add_left h _).trans (by decide)

theorem parseResponse_answer (ack : Bool) (sequence : UInt16) (command : UpdateProtocolCommand)
    (status : UpdateProtocolStatus) (extra : List UInt8) :
    parseResponse (responseOf ack sequence command status extra).frame sequence.toNat command =
      .ok (responseOf ack sequence command status extra) := by
  have hlength : ¬ (responseCommon command.toUInt8 status ++ extra).length < 3 := by
    rw [List.length_append, responseCommon_length, updateProtocolResponseCommonSize]
    omega
  have hstatus : loadLe16 (byteAt (responseCommon command.toUInt8 status ++ extra)) 1 =
      status.toUInt16 := by
    refine loadLe16_of_slice ?_
    rw [slice_succ, slice_succ, slice_zero]
    rfl
  rw [parseResponse, responseOf, if_neg (fun h => h rfl), if_neg (fun h => h rfl)]
  dsimp only
  cases ack
  all_goals
    rw [if_neg (by decide), if_neg hlength, if_neg (fun h => h rfl), hstatus]
    rfl

/-- Reading an answer that has arrived in one piece. -/
theorem receive_answer {ack : Bool} {sequence : UInt16} {status : UpdateProtocolStatus}
    {extra : List UInt8} {Q : Frame → Link → Prop} {E : HostError → Link → Prop} {C : Link → Prop}
    (hextra : extra.length ≤ updateProtocolStatusPayloadSize - updateProtocolResponseCommonSize)
    (htimeout : 0 < link.client.timeout) (hunread : link.unread = [])
    (hQ : Q (responseOf ack sequence command status extra).frame link) :
    wp (receive [(answerFrame ack sequence command.toUInt8 status extra).encode]) link Q E C := by
  have hread := readFrame_spec
    { buffer := link.unread,
      arrivals := [(answerFrame ack sequence command.toUInt8 status extra).encode] } htimeout
  have hnext : nextResult (Transport.stream
      { buffer := link.unread,
        arrivals := [(answerFrame ack sequence command.toUInt8 status extra).encode] }) =
      some (.frameReady (responseOf ack sequence command status extra).frame, []) := by
    have hnoise : ¬ protocolMagic <:+: [] := by decide
    have := @nextResult_noise_encode
      (if ack then UpdateProtocolCommand.ack.toUInt8 else UpdateProtocolCommand.nack.toUInt8)
      sequence (responseCommon command.toUInt8 status ++ extra) [] hnoise (answer_length hextra) []
    rw [List.nil_append, List.append_nil] at this
    rw [Transport.stream, hunread, List.nil_append, List.flatten_cons, List.flatten_nil,
      List.append_nil, answerFrame, this]
    rfl
  rw [Reads, hnext] at hread
  rw [wp, receive]
  revert hread
  generalize readFrame _ link.client.timeout = out
  obtain ⟨result, transport⟩ := out
  rintro ⟨rfl, hstream⟩
  show Q _ { link with unread := transport.stream }
  rw [hstream, ← hunread]
  exact hQ

/-- A read of nothing times out. -/
theorem readFrame_nil {transport : Transport} {timeout : ℚ} (hstream : transport.stream = [])
    (htimeout : 0 < timeout) :
    ∃ transport', readFrame transport timeout = (.error .timedOut, transport') ∧
      transport'.stream = [] := by
  obtain ⟨transport', hread, hrest⟩ := (readOne_spec transport).1 hstream
  have hloop : syncMagic transport [] = (.error .timedOut, transport') := by
    rw [syncMagic]
    split
    · rename_i h
      rw [hread] at h
      obtain ⟨h₁, rfl⟩ := Prod.mk.inj h
      rw [Except.error.inj h₁]
    · rename_i h
      rw [hread] at h
      cases h
  refine ⟨transport', ?_, hrest⟩
  rw [readFrame, if_neg (not_le.mpr htimeout), hloop]

/-- The client is ready for an exchange, and the request can be sent. -/
structure Ready (link : Link) (payload : List UInt8) : Prop where
  sequence : link.client.sequence ≤ 0xFFFF
  timeout : 0 < link.client.timeout
  unread : link.unread = []
  length : payload.length ≤ updateProtocolMaxPayloadSize

theorem Ready.encode (h : Ready link payload) :
    encodeFrame command.toUInt8.toNat link.client.sequence payload =
      .ok (outgoing command.toUInt8 (UInt16.ofNat link.client.sequence) payload).encode := by
  have htoNat : (UInt16.ofNat link.client.sequence).toNat = link.client.sequence :=
    Nat.mod_eq_of_lt (Nat.lt_succ_of_le h.sequence)
  have := @encodeFrame_eq command.toUInt8 (UInt16.ofNat link.client.sequence) payload h.length
  rwa [htoNat] at this

/-- **An exchange in which the answer arrives.** -/
theorem exchange_answered
    {R : Bool → UpdateProtocolStatus → List UInt8 → UpdateProtocolSession → Prop}
    {C : UpdateProtocolSession → Prop} (h : Ready link payload)
    (hhost : (link.passages.headD .clear).toHost = fun bytes => [bytes])
    (hrun : wp (runLine crypto (link.heard command payload)) link.target
      (fun _ p' => ∃ ack status extra, WroteAnswer ack (UInt16.ofNat link.client.sequence)
        command.toUInt8 status extra link.target p' ∧ R ack status extra p')
      (fun _ _ => False) C) :
    wp (exchange crypto command payload) link
      (fun response link' => ∃ target ack status extra, R ack status extra target ∧
        response =
          responseOf ack (UInt16.ofNat link.client.sequence) command status extra ∧
        link' = { link with
          client := link.client.advanced, target, passages := link.passages.tail })
      (fun _ _ => False) fun link' => C link'.target := by
  have htoNat : (UInt16.ofNat link.client.sequence).toNat = link.client.sequence :=
    Nat.mod_eq_of_lt (Nat.lt_succ_of_le h.sequence)
  rw [exchange, wp_bind, wp_get, wp_bind, h.encode]
  show wp (transmit crypto _ >>= _) link _ _ _
  rw [wp_bind]
  refine wp_transmit (fun target hret => ?_) fun target hcut => hrun.cut hcut
  obtain ⟨ack, status, extra, ⟨hextra, pieces, hwritten, hpieces⟩, hR⟩ := hrun.ret hret
  rw [hhost, hwritten, List.drop_left, hpieces, wp_bind]
  refine receive_answer hextra h.timeout h.unread ?_
  have hparse := parseResponse_answer ack (UInt16.ofNat link.client.sequence) command status extra
  rw [htoNat] at hparse
  rw [wp_bind, hparse]
  exact ⟨target, ack, status, extra, hR, rfl, rfl⟩

/-- **An exchange in which nothing arrives.** -/
theorem exchange_unanswered {R C : UpdateProtocolSession → Prop} (h : Ready link payload)
    (hrun : wp (runLine crypto (link.heard command payload)) link.target
      (fun _ p' => R p' ∧ ((link.passages.headD .clear).toHost
        (p'.written.drop link.target.written.length).flatten).flatten = [])
      (fun _ _ => False) C) :
    wp (exchange crypto command payload) link (fun _ _ => False)
      (fun e link' => e = .timedOut ∧ ∃ target, R target ∧
        link' = { link with target, passages := link.passages.tail })
      fun link' => C link'.target := by
  rw [exchange, wp_bind, wp_get, wp_bind, h.encode]
  show wp (transmit crypto _ >>= _) link _ _ _
  rw [wp_bind]
  refine wp_transmit (fun target hret => ?_) fun target hcut => hrun.cut hcut
  obtain ⟨hR, hnothing⟩ := hrun.ret hret
  revert hnothing
  generalize (link.passages.headD .clear).toHost _ = arrivals
  intro hnothing
  rw [wp_bind]
  have hstream : Transport.stream { buffer := link.unread, arrivals } = [] := by
    rw [Transport.stream, h.unread, hnothing]
    rfl
  obtain ⟨transport', hread, hrest⟩ := readFrame_nil hstream h.timeout
  rw [wp, receive]
  dsimp only
  rw [hread]
  refine ⟨rfl, target, hR, ?_⟩
  rw [hrest, h.unread]

theorem payloadLength_eq_zero {frame : UpdateProtocolFrame} (h : frame.data = []) :
    frame.payloadLength = 0 := by
  have hlength := frame.data_length
  rw [h] at hlength
  exact UInt16.toNat.inj hlength.symm

/-- **A question that arrives in sequence gets its acknowledgement.** -/
theorem exchange_question (h : Ready link []) (hclear : link.passages.headD .clear = .clear)
    (wf : link.target.parser.WellFormed) (hheld : link.target.parser.held = [])
    (hwriter : link.target.WriterWorks)
    (hsequence : UInt16.ofNat link.client.sequence = link.target.expectedSequence)
    (hquestion : command.IsQuestion) :
    wp (exchange crypto command []) link
      (fun response _ => response.responseCommand = .ack ∧
        response.status = UpdateProtocolStatus.ok.toUInt16)
      (fun _ _ => False) fun _ => False := by
  have hheard : link.heard command [] =
      (outgoing command.toUInt8 link.target.expectedSequence []).encode.map .byte := by
    rw [Link.heard, hclear, hsequence]
    rfl
  have hrun : wp (runLine crypto (link.heard command [])) link.target
      (fun _ p' => ∃ ack status extra, WroteAnswer ack (UInt16.ofNat link.client.sequence)
        command.toUInt8 status extra link.target p' ∧ (ack = true ∧ status = .ok))
      (fun _ _ => False) fun _ => False := by
    rw [hheard, hsequence]
    refine wp_runLine_inSequence wf hheld (Nat.zero_le _) fun parser' _ _ hcontents => ?_
    have hcommand : parser'.frame.command = command.toUInt8 := congrArg Frame.command hcontents
    have hempty := payloadLength_eq_zero (congrArg Frame.payload hcontents)
    refine (executeFrame_question (by rw [hcommand, UpdateProtocolCommand.ofUInt8_toUInt8]) hquestion
      hempty).mono ?_ (fun _ _ h => h) fun _ h => h
    intro _ p' hanswer
    rw [hcommand, show parser'.frame.sequence = _ from congrArg Frame.sequence hcontents] at hanswer
    obtain ⟨extra, hwrote⟩ := wroteAnswer_of_answered hanswer hwriter
    exact ⟨true, p'.lastStatus, extra, hwrote, rfl, hanswer.status.mpr rfl⟩
  refine (exchange_answered h (by rw [hclear]; rfl) hrun).mono ?_ (fun _ _ h => h) fun _ h => h
  rintro response link' ⟨target, ack, status, extra, ⟨rfl, rfl⟩, rfl, rfl⟩
  exact ⟨rfl, rfl⟩

/-- **A request that arrives out of sequence is refused.** -/
theorem exchange_outOfSequence (h : Ready link payload)
    (hclear : link.passages.headD .clear = .clear) (wf : link.target.parser.WellFormed)
    (hheld : link.target.parser.held = []) (hwriter : link.target.WriterWorks)
    (hsequence : UInt16.ofNat link.client.sequence ≠ link.target.expectedSequence) :
    wp (exchange crypto command payload) link
      (fun response _ => response.responseCommand = .nack ∧
        response.status = UpdateProtocolStatus.sequenceError.toUInt16)
      (fun _ _ => False) fun _ => False := by
  have hheard : link.heard command payload =
      (outgoing command.toUInt8 (UInt16.ofNat link.client.sequence) payload).encode.map .byte := by
    rw [Link.heard, hclear]
    rfl
  have hrun : wp (runLine crypto (link.heard command payload)) link.target
      (fun _ p' => ∃ ack status extra, WroteAnswer ack (UInt16.ofNat link.client.sequence)
        command.toUInt8 status extra link.target p' ∧ (ack = false ∧ status = .sequenceError))
      (fun _ _ => False) fun _ => False := by
    rw [hheard]
    refine wp_runLine_outOfSequence wf hheld h.length hsequence ?_
    intro parser' p' _ _ hanswer hstatus
    obtain ⟨extra, hwrote⟩ := wroteAnswer_of_answered hanswer hwriter
    exact ⟨false, p'.lastStatus, extra, hwrote, rfl, hstatus⟩
  refine (exchange_answered h (by rw [hclear]; rfl) hrun).mono ?_ (fun _ _ h => h) fun _ h => h
  rintro response link' ⟨target, ack, status, extra, ⟨rfl, rfl⟩, rfl, rfl⟩
  exact ⟨rfl, rfl⟩

/-- **A request that arrives with a wrong checksum is refused, and only the client counts.** -/
theorem exchange_badCrc {bytes : List UInt8} {parser' : UpdateProtocolParser}
    (h : Ready link payload) (hhost : (link.passages.headD .clear).toHost = fun bytes => [bytes])
    (hheard : link.heard command payload = bytes.map .byte)
    (hparse : firstParse link.target.parser bytes = some ((.errCrc, parser'), []))
    (hinfo : updateProtocolParserErrorInfo parser' =
      some (command.toUInt8, UInt16.ofNat link.client.sequence))
    (hwriter : link.target.WriterWorks) :
    wp (exchange crypto command payload) link
      (fun response link' => response.responseCommand = .nack ∧
        response.status = UpdateProtocolStatus.crcError.toUInt16 ∧ ∃ target,
          target.parser = parser' ∧ target.write = link.target.write ∧
          target.expectedSequence = link.target.expectedSequence ∧
          link' = { link with
            client := link.client.advanced, target, passages := link.passages.tail })
      (fun _ _ => False) fun _ => False := by
  have hrun : wp (runLine crypto (link.heard command payload)) link.target
      (fun _ p' => ∃ ack status extra, WroteAnswer ack (UInt16.ofNat link.client.sequence)
        command.toUInt8 status extra link.target p' ∧ (ack = false ∧ status = .crcError ∧
          p'.parser = parser' ∧ p'.write = link.target.write ∧
          p'.expectedSequence = link.target.expectedSequence))
      (fun _ _ => False) fun _ => False := by
    rw [hheard]
    refine wp_runLine_firstParse hparse ?_
    rw [handleParsed, wp_bind, wp_get]
    show wp (handleParseError .errCrc) _ _ _ _
    rw [handleParseError.eq_def, wp_bind, wp_get, hinfo]
    refine (sendNack_spec _ _ _).mono ?_ (fun _ _ h => h) fun _ h => h
    rintro _ p' ⟨hanswer, hstatus, -⟩
    obtain ⟨extra, hwrote⟩ := wroteAnswer_of_answered hanswer hwriter
    obtain ⟨hparser, hsequence, hwrite⟩ := hanswer.line
    exact ⟨false, p'.lastStatus, extra, hwrote, rfl, hstatus, hparser, hwrite, hsequence⟩
  refine (exchange_answered h hhost hrun).mono ?_ (fun _ _ h => h) fun _ h => h
  rintro response link' ⟨target, ack, status, extra, ⟨rfl, rfl, hkept⟩, rfl, rfl⟩
  exact ⟨rfl, rfl, target, hkept.1, hkept.2.1, hkept.2.2, rfl⟩

end Exchange

end Stm32SecurityLab.Host
