import Stm32SecurityLab.Protocol.Session

/-!
# The update service

`update_service.c` and the part of `update_protocol.c` that reads from a `byte_reader_t`. The
service waits for a `HELLO`, answers it, and then calls `update_protocol_session_process_reader`
until the session is over or the line has been silent for too long. A call of the latter reads
bytes until there is a result: a complete frame, a damaged one, a silence, or too many bytes.

* A reader is the sequence of what its polls return. The service state holds how often it has been
  polled, which is the position in that sequence.
* The loop of `update_protocol_session_process_reader` changes nothing but the parser, so it is a
  function of the parser and the reader, and what is done with its result comes after it.
* The loop of `run_update_protocol` has no bound. Here it has fuel, and no result when that is
  used up.
* The watchdog is left out, and so is the reset callback, which does not return on the target.

## Main definitions

* `byteReaderGetcTimeout`, `readFrameLoop`, `updateProtocolSessionProcessReader`
* `abortStartedInstaller`, `updateServiceRound`, `runUpdateProtocol`
* `updateServiceRun`, `updateServiceRunAfterHello`
-/

namespace Stm32SecurityLab

open Crash

/-! ### The reader -/

/-- `byte_reader_status_t`, with the byte that comes with `OK`. -/
inductive ByteRead where
  | ok (byte : UInt8)
  | noData
  | timeout
  | errInvalidArgument
  | errIo
  deriving DecidableEq, Repr

/-- `byte_reader_getc_timeout`: the result, and how often the reader has been polled by then. -/
@[irreducible]
def byteReaderGetcTimeout (getc : ℕ → ByteRead) : ℕ → ℕ → ByteRead × ℕ
  | 0, polled => (.timeout, polled)
  | timeoutPolls + 1, polled =>
    match getc polled with
    | .noData => byteReaderGetcTimeout getc timeoutPolls (polled + 1)
    | read => (read, polled + 1)

/-- `UPDATE_PROTOCOL_READER_MAX_BYTES`. -/
def updateProtocolReaderMaxBytes : ℕ := updateProtocolMaxFrameSize * 2

/-- How the loop of `update_protocol_session_process_reader` ends. -/
inductive ReaderEnd where
  /-- No byte has come in time. -/
  | timeout
  /-- The reader has failed. -/
  | failed
  /-- One byte too many has come. -/
  | overrun
  /-- The parser has reported a result. -/
  | parsed (status : UpdateProtocolParseStatus)
  deriving DecidableEq, Repr

/-- The loop of `update_protocol_session_process_reader`, for the bytes that may still come. -/
@[irreducible]
def readFrameLoop (getc : ℕ → ByteRead) (byteTimeoutPolls remaining : ℕ)
    (parser : UpdateProtocolParser) (polled : ℕ) : ReaderEnd × UpdateProtocolParser × ℕ :=
  match byteReaderGetcTimeout getc byteTimeoutPolls polled with
  | (.timeout, polled) => (.timeout, parser, polled)
  | (.ok byte, polled) =>
    match remaining with
    | 0 => (.overrun, parser, polled)
    | remaining + 1 =>
      match updateProtocolParserPush parser byte with
      | (.needMore, parser) => readFrameLoop getc byteTimeoutPolls remaining parser polled
      | (status, parser) => (.parsed status, parser, polled)
  | (_, polled) => (.failed, parser, polled)

/-- What `update_protocol_session_process_reader` does about a silence. -/
def handleTimeout : Handler := do
  let p ← .get
  if updateProtocolParserHasPartial p.parser then do
    .modify fun p => { p with parser := {}, lastStatus := .timeout }
    match updateProtocolParserErrorInfo p.parser with
    | none => pure .timeout
    | some (command, sequence) => do
      let writeStatus ← sendNack sequence command .timeout
      if writeStatus ≠ .ok then pure writeStatus else pure .timeout
  else
    pure .timeout

/-- What `update_protocol_session_process_reader` does when its loop has ended. -/
def handleReaderEnd (crypto : Crypto) : ReaderEnd → Handler
  | .timeout => handleTimeout
  | .failed => do
    setLastStatus .ioError
    pure .ioError
  | .overrun => do
    .modify fun p => { p with parser := {}, lastStatus := .timeout }
    pure .timeout
  | .parsed status => handleParsed crypto status

/-- The parser that the end of a loop leaves behind. -/
def ReaderEnd.parserAfter (parser : UpdateProtocolParser) : ReaderEnd → UpdateProtocolParser
  | .timeout => if updateProtocolParserHasPartial parser then {} else parser
  | .overrun => {}
  | .failed | .parsed _ => parser

/-- Only the parser and the trace of an answer are different. -/
def Heard (parser : UpdateProtocolParser) (p p' : UpdateProtocolSession) : Prop :=
  ∃ lastStatus written, p' = { p with parser, lastStatus, written }

/-! ### The service -/

/-- `update_service_config_t`, without the reset callback. -/
structure UpdateServiceConfig where
  flash : BootFlash
  publicKey : List UInt8
  installOptions : UpdateInstallOptions
  /-- `reader`: what its polls return. -/
  getc : ℕ → ByteRead
  write : ℕ → List UInt8 → UpdateProtocolStatus
  entryIdlePolls : UInt32 := 0
  entryMaxBytes : UInt32 := 0
  frameByteTimeoutPolls : UInt32 := 0
  maxFrameTimeouts : UInt32 := 0

/-- `update_service_t`, with the position of the reader. -/
structure UpdateService where
  protocol : UpdateProtocolSession
  entryParser : UpdateProtocolParser := {}
  polled : ℕ

/-- `update_service_result_t`. -/
inductive UpdateServiceResult where
  | bootContinue
  | resetRequested
  | recoveryRequested
  deriving DecidableEq, Repr

/-- Run a program of the session. -/
def onProtocol {α : Type} (x : Prog UpdateProtocolSession Empty α) : Prog UpdateService Empty α :=
  x.zoom (·.protocol) fun p s => { s with protocol := p }

/-- `config_or_default`. -/
def configOrDefault (value : UInt32) (defaultValue : ℕ) : ℕ :=
  if value ≠ 0 then value.toNat else defaultValue

namespace UpdateServiceConfig

/-- `max_idle_polls` of `wait_for_binary_hello`. -/
def maxIdlePolls (config : UpdateServiceConfig) : ℕ := configOrDefault config.entryIdlePolls 800000

/-- `max_bytes` of `wait_for_binary_hello`. -/
def maxBytes (config : UpdateServiceConfig) : ℕ :=
  configOrDefault config.entryMaxBytes (updateProtocolMaxFrameSize * 2)

/-- `byte_timeout` of `run_update_protocol`. -/
def byteTimeout (config : UpdateServiceConfig) : ℕ :=
  configOrDefault config.frameByteTimeoutPolls 200000

/-- `max_frame_timeouts` of `run_update_protocol`. -/
def frameTimeouts (config : UpdateServiceConfig) : ℕ := configOrDefault config.maxFrameTimeouts 3

end UpdateServiceConfig

/-- `update_protocol_session_process_reader`. -/
def updateProtocolSessionProcessReader (crypto : Crypto) (getc : ℕ → ByteRead)
    (byteTimeoutPolls : ℕ) : Prog UpdateService Empty UpdateProtocolStatus := do
  let s ← .get
  let read :=
    readFrameLoop getc byteTimeoutPolls updateProtocolReaderMaxBytes s.protocol.parser s.polled
  .modify fun s =>
    { s with protocol := { s.protocol with parser := read.2.1 }, polled := read.2.2 }
  onProtocol (handleReaderEnd crypto read.1)

/-- `frame_is_initial_hello`. -/
def frameIsInitialHello (frame : UpdateProtocolFrame) : Bool :=
  frame.version == updateProtocolVersion && frame.command == UpdateProtocolCommand.hello.toUInt8 &&
    frame.sequence == 0 && frame.payloadLength == 0

/-- The loop of `wait_for_binary_hello`: whether a `HELLO` has come, the parser, and how often the
reader has been polled by then. -/
def waitLoop (config : UpdateServiceConfig) (idlePolls byteCount : ℕ)
    (parser : UpdateProtocolParser) (polled : ℕ) : Bool × UpdateProtocolParser × ℕ :=
  if _h : idlePolls < config.maxIdlePolls ∧ byteCount < config.maxBytes then
    match config.getc polled with
    | .noData => waitLoop config (idlePolls + 1) byteCount parser (polled + 1)
    | .ok byte =>
      match updateProtocolParserPush parser byte with
      | (.needMore, parser) => waitLoop config 0 (byteCount + 1) parser (polled + 1)
      | (.frameReady, parser) =>
        if frameIsInitialHello parser.frame then (true, parser, polled + 1)
        else waitLoop config 0 (byteCount + 1) {} (polled + 1)
      | _ => waitLoop config 0 (byteCount + 1) {} (polled + 1)
    | _ => (false, parser, polled + 1)
  else
    (false, parser, polled)
termination_by (config.maxBytes - byteCount, config.maxIdlePolls - idlePolls)

/-- `wait_for_binary_hello`. -/
def waitForBinaryHello (config : UpdateServiceConfig) : Prog UpdateService Empty Bool := do
  let s ← .get
  let wait := waitLoop config 0 0 {} s.polled
  .modify fun s => { s with entryParser := wait.2.1, polled := wait.2.2 }
  pure wait.1

/-- `accept_initial_hello`. -/
def acceptInitialHello (config : UpdateServiceConfig) :
    Prog UpdateService Empty UpdateProtocolStatus := do
  .modify fun s =>
    { s with
      protocol := updateProtocolSessionInit config.flash config.publicKey config.installOptions
        config.write s.protocol.inst.programBuffer s.protocol.inst.dev }
  onProtocol updateProtocolSessionAcceptInitialHello

/-- `abort_started_installer`. -/
def abortStartedInstaller : Prog UpdateProtocolSession Empty Unit := do
  let p ← .get
  if p.installerStarted = true ∧ p.state ≠ .finished ∧ p.state ≠ .aborted then do
    let _ ← callInstaller updateInstallerAbort
    setState .aborted
  else
    pure ()

/-- Clean up and go on with the boot. -/
def leaveService : Prog UpdateService Empty (UpdateServiceResult ⊕ ℕ) := do
  onProtocol abortStartedInstaller
  pure (.inl .bootContinue)

/-- What a round of `run_update_protocol` does with the status of the session. -/
def decideRound (config : UpdateServiceConfig) (frameTimeouts : ℕ)
    (protocolStatus : UpdateProtocolStatus) : Prog UpdateService Empty (UpdateServiceResult ⊕ ℕ) :=
  if protocolStatus = .timeout then
    if frameTimeouts + 1 ≥ config.frameTimeouts then leaveService
    else pure (.inr (frameTimeouts + 1))
  else do
    let s ← .get
    if protocolStatus ≠ .ok then
      if s.protocol.state = .finished ∨ s.protocol.state = .resetRequested then
        pure (.inl .resetRequested)
      else
        leaveService
    else
      match s.protocol.state with
      | .finished => pure (.inl .resetRequested)
      | .resetRequested => pure (.inl .resetRequested)
      | .aborted => pure (.inl .bootContinue)
      | .failed => leaveService
      | .idle | .updating => pure (.inr 0)

/-- One round of `run_update_protocol`: a result, or the number of timeouts to go on with. -/
def updateServiceRound (crypto : Crypto) (config : UpdateServiceConfig) (frameTimeouts : ℕ) :
    Prog UpdateService Empty (UpdateServiceResult ⊕ ℕ) := do
  let protocolStatus ← updateProtocolSessionProcessReader crypto config.getc config.byteTimeout
  decideRound config frameTimeouts protocolStatus

/-- `run_update_protocol`, for so many rounds. -/
def runUpdateProtocol (crypto : Crypto) (config : UpdateServiceConfig) :
    ℕ → ℕ → Prog UpdateService Empty (Option UpdateServiceResult)
  | 0, _ => pure none
  | fuel + 1, frameTimeouts => do
    let next ← updateServiceRound crypto config frameTimeouts
    match next with
    | .inl result => pure (some result)
    | .inr frameTimeouts => runUpdateProtocol crypto config fuel frameTimeouts

/-- `update_service_init`. -/
def updateServiceInit : Prog UpdateService Empty Unit :=
  .modify fun s => { s with entryParser := {} }

/-- The common end of the two entries. -/
def serveAfterHello (crypto : Crypto) (config : UpdateServiceConfig) (fuel : ℕ) :
    Prog UpdateService Empty (Option UpdateServiceResult) := do
  let status ← acceptInitialHello config
  if status ≠ .ok then pure (some .bootContinue) else runUpdateProtocol crypto config fuel 0

/-- `update_service_run`. -/
def updateServiceRun (crypto : Crypto) (config : UpdateServiceConfig) (fuel : ℕ) :
    Prog UpdateService Empty (Option UpdateServiceResult) := do
  updateServiceInit
  let hello ← waitForBinaryHello config
  if hello = false then pure (some .bootContinue) else serveAfterHello crypto config fuel

/-- `update_service_run_after_hello`. -/
def updateServiceRunAfterHello (crypto : Crypto) (config : UpdateServiceConfig) (fuel : ℕ) :
    Prog UpdateService Empty (Option UpdateServiceResult) := do
  updateServiceInit
  serveAfterHello crypto config fuel

theorem wp_onProtocol {α : Type} {x : Prog UpdateProtocolSession Empty α} {s : UpdateService}
    {Q : α → UpdateService → Prop} {E : Empty → UpdateService → Prop} {C : UpdateService → Prop} :
    wp (onProtocol x) s Q E C ↔
      wp x s.protocol (fun a p => Q a { s with protocol := p })
        (fun e p => E e { s with protocol := p }) (fun p => C { s with protocol := p }) :=
  wp_zoom

end Stm32SecurityLab
