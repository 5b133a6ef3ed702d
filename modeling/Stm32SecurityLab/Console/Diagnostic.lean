import Stm32SecurityLab.Metadata.Journal

/-!
# The diagnostic console

`diagnostic_console.c`: the read-only console of the bootloader. It reads a line, byte by byte, into
a buffer of 65 characters, cuts the line into tokens where it stands, and runs the command that the
only token names.

* C does not say what happens when an access leaves the line buffer or the argument vector. Here
  such an access ends the run with a `ConsoleTrap`, and so does a line length that the buffer has
  no room for.
* The reader is what `byte_reader_getc_timeout` returns: the bytes of `unread`, and behind them one
  status again and again.
* The writer is a function of the number of earlier writes and the data.
* Of the board the commands print what it measures and is configured with. That is a parameter.
* The loop of `diagnostic_console_run` goes round once for each line, so it needs no more rounds
  than there are bytes.

## Main definitions

* `DiagnosticConsole`, `DiagnosticConsoleConfig`
* `tokenize`, `executeLine`, `readLine`
* `diagnosticConsoleRun`
-/

namespace Stm32SecurityLab

open Crash

/-! ### Types -/

/-- `DIAGNOSTIC_CONSOLE_MAX_LINE_LENGTH`. -/
def diagnosticConsoleMaxLineLength : ℕ := 64

/-- `DIAGNOSTIC_CONSOLE_MAX_ARGUMENTS`. -/
def diagnosticConsoleMaxArguments : ℕ := 4

/-- `diagnostic_console_result_t`. -/
inductive DiagnosticConsoleResult where
  | bootContinue
  | resetRequested
  | timeout
  | ioError
  | recoveryRequested
  deriving DecidableEq, Repr

/-- `line_status_t`. -/
inductive LineStatus where
  | ready
  | timeout
  | ioError
  deriving DecidableEq, Repr

/-- `reset_cause_t`. -/
structure ResetCause where
  rawCsr : UInt32
  lowPowerReset : Bool
  windowWatchdogReset : Bool
  independentWatchdogReset : Bool
  softwareReset : Bool
  powerOnReset : Bool
  pinReset : Bool
  brownoutReset : Bool

/-- What a command can read of the board. -/
structure ConsoleBoard where
  /-- `board_clock_get_sysclk_hz`. -/
  sysclkHz : UInt32
  /-- `performance_sha512_us`. -/
  sha512Us : UInt32
  /-- `performance_ed25519_us`. -/
  ed25519Us : UInt32
  /-- `performance_verification_us`. -/
  verificationUs : UInt32

/-- `diagnostic_console_config_t`; a null pointer is `none` or `false`. -/
structure DiagnosticConsoleConfig where
  /-- What the reader returns when there are no more bytes is `BYTE_READER_TIMEOUT`, and not an
  error. -/
  timesOut : Bool
  write : ℕ → List UInt8 → Bool
  flash : Bool
  boardName : Option (List UInt8)
  resetCause : Option ResetCause
  reset : Bool
  board : ConsoleBoard

/-- `diagnostic_console_t`, and what is around it. The defaults are those of
`diagnostic_console_init`. -/
structure DiagnosticConsole where
  line : Mem := fun _ => 0
  lineLength : ℕ := 0
  commandCount : UInt32 := 0
  overflowed : Bool := false
  bootRequested : Bool := false
  /-- What the reader has not delivered yet. -/
  unread : List UInt8
  /-- What the writer has been given. -/
  written : List (List UInt8) := []
  /-- How often the reset callback has been called. -/
  resets : ℕ := 0
  dev : Device

/-- What C leaves undefined. -/
inductive ConsoleTrap where
  /-- An access outside the line buffer. -/
  | outside
  /-- A line length that the buffer has no room for. -/
  | length
  /-- An argument behind the end of the argument vector. -/
  | arguments
  deriving DecidableEq, Repr

/-- A part of the console. -/
abbrev Console (α : Type) : Type := Prog DiagnosticConsole ConsoleTrap α

/-- A string that ends at its first zero. -/
structure CString where
  bytes : List UInt8
  terminated : 0 ∉ bytes

/-- The bytes of a string literal. -/
def ascii (text : String) : List UInt8 := text.toList.map fun c => UInt8.ofNat c.toNat

/-! ### Memory -/

/-- Read a character of the line buffer. -/
def readChar (index : ℕ) : Console UInt8 := do
  .check (index ≤ diagnosticConsoleMaxLineLength) .outside
  let c ← .get
  pure (c.line index)

/-- Write a character into the line buffer. -/
def storeChar (index : ℕ) (value : UInt8) : Console Unit := do
  .check (index ≤ diagnosticConsoleMaxLineLength) .outside
  .modify fun c => { c with line := Function.update c.line index value }

/-- Set `line_length`. -/
def setLineLength (lineLength : ℕ) : Console Unit := do
  .check (lineLength ≤ diagnosticConsoleMaxLineLength) .length
  .modify fun c => { c with lineLength }

/-- Set `overflowed`. -/
def setOverflowed (overflowed : Bool) : Console Unit := .modify fun c => { c with overflowed }

/-! ### Output -/

/-- `console_write`. -/
def consoleWrite (config : DiagnosticConsoleConfig) (data : List UInt8) : Console Bool := do
  let c ← .get
  .modify fun c => { c with written := c.written ++ [data] }
  pure (config.write c.written.length data)

/-- `console_puts`. -/
def consolePuts (config : DiagnosticConsoleConfig) (text : String) : Console Bool :=
  consoleWrite config (ascii text)

/-- Writes that are joined by `&&`. -/
def consoleWriteAll (config : DiagnosticConsoleConfig) : List (List UInt8) → Console Bool
  | [] => pure true
  | data :: rest => do
    let ok ← consoleWrite config data
    if ok then consoleWriteAll config rest else pure false

/-- The decimal digits of `console_put_u32`, for at most so many of them. -/
def decimalDigits : ℕ → UInt32 → List UInt8
  | 0, _ => []
  | count + 1, value =>
    if value = 0 then [] else decimalDigits count (value / 10) ++ [0x30 + (value % 10).toUInt8]

/-- The writes of `console_put_u32`: one for each digit. -/
def putU32 (value : UInt32) : List (List UInt8) :=
  if value = 0 then [ascii "0"] else (decimalDigits 10 value).map fun digit => [digit]

/-- The table `digits` of `console_put_hex32`. -/
def hexDigits : List UInt8 := ascii "0123456789ABCDEF"

/-- The write of `console_put_hex32`. -/
def putHex32 (value : UInt32) : List (List UInt8) :=
  [ascii "0x" ++ (List.range 8).map fun i =>
    byteAt hexDigits ((value >>> UInt32.ofNat (28 - i * 4)) &&& 0x0F).toNat]

/-- The write of `console_put_bool`. -/
def putBool (value : Bool) : List (List UInt8) := [ascii (if value then "yes" else "no")]

/-- The write of `console_put_slot`. -/
def putSlot (slot : UInt32) : List (List UInt8) :=
  if slot = BootSlotId.a.toUInt32 then [ascii "A"]
  else if slot = BootSlotId.b.toUInt32 then [ascii "B"]
  else if slot = bootSlotNone then [ascii "none"]
  else putHex32 slot

/-- The write of a string literal. -/
def puts (text : String) : List (List UInt8) := [ascii text]

/-- The writes for a constant of the layout. -/
def putAddress (address : ℕ) : List (List UInt8) := putHex32 (UInt32.ofNat address)

/-! ### Tokens -/

/-- `is_space`. -/
def isSpace (c : UInt8) : Bool := c == 0x20 || c == 0x09

/-- The spaces in front of a token. They become zeros. -/
def skipSpaces : ℕ → ℕ → Console ℕ
  | 0, _ => .fail .outside
  | fuel + 1, cursor => do
    let c ← readChar cursor
    if isSpace c then do
      storeChar cursor 0
      skipSpaces fuel (cursor + 1)
    else
      pure cursor

/-- The characters of a token. -/
def skipToken : ℕ → ℕ → Console ℕ
  | 0, _ => .fail .outside
  | fuel + 1, cursor => do
    let c ← readChar cursor
    if c ≠ 0 ∧ isSpace c = false then skipToken fuel (cursor + 1) else pure cursor

/-- More steps than a cursor can make inside the line buffer. -/
def lineFuel : ℕ := diagnosticConsoleMaxLineLength + 2

/-- The loop of `tokenize`: the argument vector, and `too_many`. -/
def tokenizeLoop : ℕ → ℕ → List ℕ → Console (List ℕ × Bool)
  | 0, _, _ => .fail .outside
  | fuel + 1, cursor, argv => do
    let c ← readChar cursor
    if c = 0 then
      pure (argv, false)
    else do
      let cursor ← skipSpaces lineFuel cursor
      let c ← readChar cursor
      if c = 0 then
        pure (argv, false)
      else if argv.length ≥ diagnosticConsoleMaxArguments then
        pure (argv, true)
      else do
        .check (argv.length < diagnosticConsoleMaxArguments) .arguments
        let next ← skipToken lineFuel cursor
        tokenizeLoop fuel next (argv ++ [cursor])

/-- `tokenize`. -/
def tokenize : Console (List ℕ × Bool) := tokenizeLoop lineFuel 0 []

/-- `str_equal` of the string at a place of the line buffer and a literal. -/
def strEqual : ℕ → List UInt8 → Console Bool
  | cursor, [] => do
    let c ← readChar cursor
    pure (c == 0)
  | cursor, right :: text => do
    let c ← readChar cursor
    if c = 0 then pure (c == right)
    else if c ≠ right then pure false
    else strEqual (cursor + 1) text

/-! ### Commands -/

/-- The commands of `execute_line`. -/
inductive ConsoleCommand where
  | help
  | version
  | info
  | slots
  | metadata
  | flashinfo
  | resetcause
  | performance
  | status
  | boot
  | reboot
  | recovery
  deriving DecidableEq, Repr

/-- The names that `execute_line` compares with, in its order. -/
def consoleCommands : List (String × ConsoleCommand) :=
  [("help", .help), ("version", .version), ("info", .info), ("slots", .slots),
    ("metadata", .metadata), ("flashinfo", .flashinfo), ("resetcause", .resetcause),
    ("performance", .performance), ("status", .status), ("boot", .boot), ("reboot", .reboot),
    ("recovery", .recovery)]

/-- `print_slot_descriptor`. -/
def printSlotDescriptor (slot : BootSlotId) : List (List UInt8) :=
  puts "slot " ++ putSlot slot.toUInt32 ++ puts ": signed=" ++
    putAddress (bootSlots slot).signedImageBase ++ puts " payload=" ++
    putAddress (bootSlots slot).payloadBase ++ puts " end=" ++
    putAddress (bootSlots slot).slotEnd ++ puts " max=" ++
    putU32 (UInt32.ofNat (bootSlots slot).maximumPayloadSize) ++
    puts " sectors=" ++ putU32 (UInt32.ofNat (bootSlots slot).firstSector) ++ puts ".." ++
    putU32 (UInt32.ofNat (bootSlots slot).lastSector) ++ puts "\n"

/-- `print_reset_flag`. -/
def printResetFlag (name : String) (value : Bool) : List (List UInt8) :=
  puts name ++ puts "=" ++ putBool value ++ puts "\n"

/-- `command_help`. -/
def commandHelp : List (List UInt8) :=
  puts ("commands: help version info slots metadata flashinfo " ++
    "resetcause performance status boot reboot recovery\n")

/-- `BOARD_NAME`. -/
def boardName : List UInt8 := ascii "STM32F429IGT6 Lab Board"

/-- `UPDATE_PROTOCOL_VERSION`, `UPDATE_PACKAGE_FORMAT_VERSION` and `MIN_IMAGE_VERSION`. -/
def consoleVersions : UInt32 × UInt32 × UInt32 := (1, 2, 2)

/-- `command_version`. -/
def commandVersion (config : DiagnosticConsoleConfig) : List (List UInt8) :=
  puts "bootloader=EXP045 V2\n" ++ puts "board=" ++ [config.boardName.getD boardName] ++
    puts "\nlayout=" ++ puts "stm32f429_1m" ++ puts "\nprotocol=" ++ putU32 consoleVersions.1 ++
    puts "\npackage=" ++ putU32 consoleVersions.2.1 ++ puts "\nmin-image-version=" ++
    putU32 consoleVersions.2.2 ++ puts "\n"

/-- `STM32F429_APPLICATION_BASE`. -/
def applicationBase : ℕ := 0x08020200

/-- `command_info`. -/
def commandInfo (config : DiagnosticConsoleConfig) : List (List UInt8) :=
  puts "cpu-hz=" ++ putU32 config.board.sysclkHz ++ puts "\nflash-base=" ++
    putAddress Layout.flashBase ++ puts "\nflash-end=" ++ putAddress Layout.flashEnd ++
    puts "\nbootloader-end=" ++ putAddress Layout.bootloaderEnd ++ puts "\napp-base=" ++
    putAddress applicationBase ++ puts "\n"

/-- `command_slots`. -/
def commandSlots : List (List UInt8) := printSlotDescriptor .a ++ printSlotDescriptor .b

/-- `boot_metadata_status_text`. -/
def bootMetadataStatusText : Except BootMetadataError BootMetadataRecord → String
  | .ok _ => "OK"
  | .error .invalidArgument => "INVALID ARGUMENT"
  | .error .badFormat => "BAD FORMAT"
  | .error .crc => "CRC"
  | .error .noValidCopy => "NO VALID COPY"
  | .error .ambiguous => "AMBIGUOUS"
  | .error .badTransition => "BAD TRANSITION"
  | .error .sequence => "SEQUENCE"
  | .error .flash => "FLASH"

/-- `boot_metadata_state_text`. -/
def bootMetadataStateText : BootMetadataState → String
  | .empty => "EMPTY"
  | .writing => "WRITING"
  | .candidateReady => "CANDIDATE READY"
  | .pendingTrial => "PENDING TRIAL"
  | .confirmed => "CONFIRMED"
  | .rejectedInvalid => "REJECTED INVALID"

/-- What `command_metadata` prints of a recovery. When there is no record the empty one is
printed. -/
def printMetadata (recovery : BootMetadataRecovery)
    (status : Except BootMetadataError BootMetadataRecord) : List (List UInt8) :=
  let record := status.toOption.getD bootMetadataEmpty
  puts "metadata-status=" ++ puts (bootMetadataStatusText status) ++ puts "\ncopy-a-valid=" ++
    putBool recovery.copyAValid ++ puts "\ncopy-b-valid=" ++ putBool recovery.copyBValid ++
    puts "\nselected-copy=" ++
    puts (match recovery.selectedCopy with | .a => "A" | .b => "B" | .none => "none") ++
    puts "\nsequence=" ++ putU32 record.sequence ++ puts "\nstate=" ++
    puts (bootMetadataStateText record.state) ++ puts "\nactive-slot=" ++
    putSlot record.activeSlot ++ puts "\ncandidate-slot=" ++ putSlot record.candidateSlot ++
    puts "\ncandidate-version=" ++ putU32 record.candidateImageVersion ++ puts "\nattempts=" ++
    putU32 record.bootAttemptCount ++ puts "\nconfirmed=" ++
    putBool (record.confirmationState.toUInt8 != 0) ++ puts "\nresult=" ++
    putHex32 record.result ++ puts "\n"

/-- `command_metadata`. -/
def commandMetadata (config : DiagnosticConsoleConfig) {ε : Type} :
    Prog Device ε (List (List UInt8)) :=
  if config.flash = false then
    pure (puts "metadata-status=flash-unavailable\n")
  else do
    let (recovery, status) ← bootMetadataRecoverFromFlash
    pure (printMetadata recovery status)

/-- `command_flashinfo`. -/
def commandFlashinfo : List (List UInt8) :=
  puts "flash-size=" ++ putU32 (UInt32.ofNat Layout.flashTotalSize) ++ puts "\nsector-count=" ++
    putU32 (UInt32.ofNat Layout.flashSectorCount) ++ puts "\nmetadata-a=" ++
    putAddress Layout.bootMetadataABase ++ puts ".." ++ putAddress Layout.bootMetadataAEnd ++
    puts "\nmetadata-b=" ++ putAddress Layout.bootMetadataBBase ++ puts ".." ++
    putAddress Layout.bootMetadataBEnd ++ puts "\nrecovery=" ++ putAddress Layout.recoveryBase ++
    puts ".." ++ putAddress Layout.recoveryEnd ++ puts "\n"

/-- `command_resetcause`. -/
def commandResetcause (config : DiagnosticConsoleConfig) : List (List UInt8) :=
  match config.resetCause with
  | none => puts "resetcause=unavailable\n"
  | some cause =>
    puts "raw=" ++ putHex32 cause.rawCsr ++ puts "\n" ++
      printResetFlag "low-power" cause.lowPowerReset ++
      printResetFlag "window-watchdog" cause.windowWatchdogReset ++
      printResetFlag "independent-watchdog" cause.independentWatchdogReset ++
      printResetFlag "software" cause.softwareReset ++
      printResetFlag "power-on" cause.powerOnReset ++ printResetFlag "pin" cause.pinReset ++
      printResetFlag "brownout" cause.brownoutReset

/-- `command_performance`. -/
def commandPerformance (config : DiagnosticConsoleConfig) : List (List UInt8) :=
  puts "cpu-hz=" ++ putU32 config.board.sysclkHz ++ puts "\nsha512-us=" ++
    putU32 config.board.sha512Us ++ puts "\ned25519-us=" ++ putU32 config.board.ed25519Us ++
    puts "\nverify-us=" ++ putU32 config.board.verificationUs ++ puts "\n"

/-- `command_status`. -/
def commandStatus (commandCount : UInt32) : List (List UInt8) :=
  puts "console=ready\ncommands=" ++ putU32 commandCount ++ puts "\nreadonly=yes\n"

/-- What a command writes. Only `metadata` looks at the flash. -/
def commandOutput (config : DiagnosticConsoleConfig) (commandCount : UInt32) {ε : Type} :
    ConsoleCommand → Prog Device ε (List (List UInt8))
  | .help => pure commandHelp
  | .version => pure (commandVersion config)
  | .info => pure (commandInfo config)
  | .slots => pure commandSlots
  | .metadata => commandMetadata config
  | .flashinfo => pure commandFlashinfo
  | .resetcause => pure (commandResetcause config)
  | .performance => pure (commandPerformance config)
  | .status => pure (commandStatus commandCount)
  | .boot => pure (puts "boot\n")
  | .reboot => pure (puts "reboot\n")
  | .recovery => pure (puts "recovery\n")

/-! ### Lines -/

/-- The command that the string at a place of the line buffer names. -/
def findCommand (cursor : ℕ) : List (String × ConsoleCommand) → Console (Option ConsoleCommand)
  | [] => pure none
  | (name, command) :: rest => do
    let equal ← strEqual cursor (ascii name)
    if equal then pure (some command) else findCommand cursor rest

/-- What `execute_line` returns when a write has gone well, or not. -/
def resultOf (ok : Bool) (result : DiagnosticConsoleResult) : DiagnosticConsoleResult :=
  if ok then result else .ioError

/-- A branch of `execute_line`: the output of a command, and what it does besides. -/
def runCommand (config : DiagnosticConsoleConfig) (command : ConsoleCommand) :
    Console DiagnosticConsoleResult := do
  let c ← .get
  let output ← (commandOutput config c.commandCount command).zoom (·.dev)
    fun d c => { c with dev := d }
  let ok ← consoleWriteAll config output
  match command with
  | .boot => do
    .modify fun c => { c with bootRequested := true }
    pure (resultOf ok .bootContinue)
  | .reboot => do
    .modify fun c => { c with resets := if ok ∧ config.reset then c.resets + 1 else c.resets }
    pure (resultOf ok .resetRequested)
  | .recovery => pure (resultOf ok .recoveryRequested)
  | _ => pure (resultOf ok .bootContinue)

/-- `execute_line`. -/
def executeLine (config : DiagnosticConsoleConfig) : Console DiagnosticConsoleResult := do
  let c ← .get
  if c.overflowed then do
    setOverflowed false
    setLineLength 0
    storeChar 0 0
    let ok ← consolePuts config "ERR line-too-long\n"
    pure (resultOf ok .bootContinue)
  else do
    let (argv, tooMany) ← tokenize
    setLineLength 0
    match argv with
    | [] => pure .bootContinue
    | argument :: rest => do
      .modify fun c => { c with commandCount := c.commandCount + 1 }
      if tooMany ∨ rest ≠ [] then do
        let ok ← consolePuts config "ERR args\n"
        pure (resultOf ok .bootContinue)
      else do
        match ← findCommand argument consoleCommands with
        | some command => runCommand config command
        | none => do
          let ok ← consolePuts config "ERR unknown\n"
          pure (resultOf ok .bootContinue)

/-- What `read_line` does with a byte. It goes on with the next byte unless there is a status. -/
def readLineByte (config : DiagnosticConsoleConfig) (byte : UInt8) : Console (Option LineStatus) :=
  if byte = 0x0D ∨ byte = 0x0A then do
    let c ← .get
    storeChar c.lineLength 0
    pure (some .ready)
  else if byte = 0x08 ∨ byte = 0x7F then do
    let c ← .get
    if c.lineLength ≠ 0 then do
      setLineLength (c.lineLength - 1)
      storeChar (c.lineLength - 1) 0
      pure none
    else
      pure none
  else if byte ≠ 0x09 ∧ (byte < 0x20 ∨ byte > 0x7E) then do
    setLineLength 0
    storeChar 0 0
    setOverflowed false
    let ok ← consolePuts config "ERR control\n"
    pure (some (if ok then .ready else .ioError))
  else do
    let c ← .get
    if c.lineLength ≥ diagnosticConsoleMaxLineLength then do
      setOverflowed true
      pure none
    else do
      storeChar c.lineLength (if byte = 0x09 then 0x20 else byte)
      setLineLength (c.lineLength + 1)
      storeChar (c.lineLength + 1) 0
      pure none

/-- The loop of `read_line`, for the bytes that the reader delivers. -/
def readLineLoop (config : DiagnosticConsoleConfig) : List UInt8 → Console LineStatus
  | [] => pure (if config.timesOut then .timeout else .ioError)
  | byte :: unread => do
    .modify fun c => { c with unread }
    match ← readLineByte config byte with
    | some status => pure status
    | none => readLineLoop config unread

/-- `read_line`. -/
def readLine (config : DiagnosticConsoleConfig) : Console LineStatus := do
  let c ← .get
  readLineLoop config c.unread

/-! ### The console -/

/-- The loop of `copy_initial_line`, from a place of the string on. -/
def copyInitialLine : ℕ → List UInt8 → Console Unit
  | index, [] => do
    storeChar index 0
    setLineLength index
    setOverflowed false
  | index, c :: rest =>
    if index ≥ diagnosticConsoleMaxLineLength then do
      setLineLength 0
      storeChar 0 0
      setOverflowed true
    else do
      storeChar index c
      copyInitialLine (index + 1) rest

/-- The results that end a run. -/
def DiagnosticConsoleResult.IsFinal (result : DiagnosticConsoleResult) : Prop :=
  result = .resetRequested ∨ result = .recoveryRequested ∨ result = .ioError

instance (result : DiagnosticConsoleResult) : Decidable result.IsFinal :=
  inferInstanceAs (Decidable (_ ∨ _))

/-- The loop of `diagnostic_console_run`, for so many rounds. -/
def consoleLoop (config : DiagnosticConsoleConfig) : ℕ → Console (Option DiagnosticConsoleResult)
  | 0 => pure none
  | fuel + 1 => do
    let ok ← consolePuts config "> "
    let lineStatus ← if ok then readLine config else pure .ioError
    match lineStatus with
    | .timeout => do
      let _ ← consolePuts config "timeout\n"
      pure (some .timeout)
    | .ioError => pure (some .ioError)
    | .ready => do
      let result ← executeLine config
      let c ← .get
      if result.IsFinal then pure (some result)
      else if c.bootRequested then pure (some .bootContinue)
      else consoleLoop config fuel

/-- The loop of `diagnostic_console_run`: every round but the last takes a byte off the reader. -/
def consoleRounds (config : DiagnosticConsoleConfig) :
    Console (Option DiagnosticConsoleResult) := do
  let c ← .get
  consoleLoop config (c.unread.length + 1)

/-- `diagnostic_console_init`. -/
def diagnosticConsoleInit : Console Unit :=
  .modify fun c =>
    { unread := c.unread, written := c.written, resets := c.resets, dev := c.dev }

/-- `diagnostic_console_run`. -/
def diagnosticConsoleRun (config : DiagnosticConsoleConfig) (initialLine : Option CString) :
    Console (Option DiagnosticConsoleResult) := do
  diagnosticConsoleInit
  let ok ← consolePuts config "diagnostic console readonly\n"
  if ok = false then
    pure (some .ioError)
  else
    match initialLine with
    | none => consoleRounds config
    | some initialLine => do
      copyInitialLine 0 initialLine.bytes
      let result ← executeLine config
      let c ← .get
      if result.IsFinal ∨ c.bootRequested then pure (some result) else consoleRounds config

end Stm32SecurityLab
