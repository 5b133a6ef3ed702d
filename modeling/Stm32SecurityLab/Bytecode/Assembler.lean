import Stm32SecurityLab.Bytecode.Vm

/-!
# The assembler

`tools/bytecode_asm.py`: lines of text to bytecode. A line is a directive, the definition of a label or
an instruction; the first pass collects the three, the second one encodes the instructions, with the
branches relative to the counter after the fetch.

A text is a list of characters. The methods of Python's `str` are written out, but for the parts that
are read off the Unicode database: those are fields of `Unicode`, about which nothing is assumed.

## Main definitions

* `splitlines`, `split`, `pyInt` — what the assembler uses of Python's strings
* `readLine`, `assembleInstruction` — the two passes
* `assembleText`
-/

namespace Stm32SecurityLab.Bytecode

open Crash

/-! ### Text -/

/-- A Python string. -/
abbrev Text := List Char

/-- What is read off the Unicode database. -/
structure Unicode where
  /-- `str.upper`. -/
  upper : Text → Text
  /-- `str.lower`. -/
  lower : Text → Text
  /-- The value of a decimal digit beyond ASCII. -/
  decimal : Char → Option (Fin 10)

/-- The characters at which `str.splitlines` ends a line. -/
def isLineBreak (c : Char) : Bool :=
  let n := c.toNat
  (0x0A ≤ n && n ≤ 0x0D) || (0x1C ≤ n && n ≤ 0x1E) || n == 0x85 || n == 0x2028 || n == 0x2029

/-- `str.isspace` of one character. -/
def isSpace (c : Char) : Bool :=
  let n := c.toNat
  (0x09 ≤ n && n ≤ 0x0D) || (0x1C ≤ n && n ≤ 0x20) || n == 0x85 || n == 0xA0 || n == 0x1680 ||
    (0x2000 ≤ n && n ≤ 0x200A) || n == 0x2028 || n == 0x2029 || n == 0x202F || n == 0x205F ||
    n == 0x3000

/-- The lines from here on, when `line` has been read of the first, last character in front. -/
def splitlinesFrom (line : Text) : Text → List Text
  | [] => if line = [] then [] else [line.reverse]
  | '\r' :: '\n' :: rest => line.reverse :: splitlinesFrom [] rest
  | c :: rest =>
    if isLineBreak c then line.reverse :: splitlinesFrom [] rest else splitlinesFrom (c :: line) rest

/-- `str.splitlines`. -/
def splitlines (text : Text) : List Text := splitlinesFrom [] text

/-- The words from here on, when `word` has been read of the first. -/
def splitFrom (word : Text) : Text → List Text
  | [] => if word = [] then [] else [word.reverse]
  | c :: rest =>
    if isSpace c then
      if word = [] then splitFrom [] rest else word.reverse :: splitFrom [] rest
    else splitFrom (c :: word) rest

/-- `str.split`. -/
def split (text : Text) : List Text := splitFrom [] text

/-- `str.strip`. -/
def strip (text : Text) : Text :=
  ((text.dropWhile isSpace).reverse.dropWhile isSpace).reverse

/-! ### Integers -/

/-- The limit of Python on the digits of a decimal literal. -/
def maxStrDigits : ℕ := 4300

def digitOf (c : Char) : Option ℕ :=
  if c.isDigit then some (c.toNat - '0'.toNat)
  else if c.isLower then some (c.toNat - 'a'.toNat + 10)
  else if c.isUpper then some (c.toNat - 'A'.toNat + 10)
  else none

/-- Digits, with single underscores between them. -/
def digitsValue (base : ℕ) : Bool → ℕ → Text → Option ℕ
  | afterDigit, value, [] => if afterDigit then some value else none
  | afterDigit, value, c :: rest =>
    if c = '_' then if afterDigit then digitsValue base false value rest else none
    else
      match digitOf c with
      | none => none
      | some digit =>
        if digit < base then digitsValue base true (value * base + digit) rest else none

/-- A decimal literal, which may not have leading zeros unless it is zero. -/
def decimalValue (text : Text) : Option ℕ :=
  if (text.filter (· ≠ '_')).length > maxStrDigits then none
  else
    match digitsValue 10 false 0 text with
    | none => none
    | some value => if text.head? = some '0' ∧ value ≠ 0 then none else some value

/-- One underscore may follow the base. -/
def dropUnderscore : Text → Text
  | '_' :: rest => rest
  | text => text

/-- A literal without its sign. -/
def magnitude (text : Text) : Option ℕ :=
  match text with
  | '0' :: c :: rest =>
    if c = 'x' ∨ c = 'X' then digitsValue 16 false 0 (dropUnderscore rest)
    else if c = 'o' ∨ c = 'O' then digitsValue 8 false 0 (dropUnderscore rest)
    else if c = 'b' ∨ c = 'B' then digitsValue 2 false 0 (dropUnderscore rest)
    else decimalValue text
  | _ => decimalValue text

/-- A digit beyond ASCII is read as the ASCII digit of its value. -/
def asciiDigit (unicode : Unicode) (c : Char) : Char :=
  if c.toNat < 128 then c
  else if isSpace c then ' '
  else
    match unicode.decimal c with
    | some digit => Char.ofNat ('0'.toNat + digit)
    | none => '?'

/-- `int(text, 0)`. -/
def pyInt (unicode : Unicode) (text : Text) : Option ℤ :=
  match strip (text.map (asciiDigit unicode)) with
  | '-' :: rest => (magnitude rest).map fun value => -(value : ℤ)
  | '+' :: rest => (magnitude rest).map fun value => (value : ℤ)
  | rest => (magnitude rest).map fun value => (value : ℤ)

/-! ### The first pass -/

/-- What `assemble_text` can raise: the messages of `AssemblerError`, the index error of a line of
commas, and the errors of `encode_program`. -/
inductive AssemblerError where
  | invalidInteger (text : Text)
  | outsideRange (text : Text) (bits : ℕ)
  | stackArguments (line : ℕ)
  | capArguments (line : ℕ)
  | unknownDirective (line : ℕ) (directive : Text)
  | invalidLabel (line : ℕ) (label : Text)
  | duplicateLabel (line : ℕ) (label : Text)
  | noInstructions
  | duplicateCapability
  | expectsNoArguments (line : ℕ) (op : Text)
  | expectsOneArgument (line : ℕ) (op : Text)
  | shiftRange (line : ℕ)
  | expectsOneLabel (line : ℕ) (op : Text)
  | unknownLabel (line : ℕ) (label : Text)
  | branchRange (line : ℕ)
  | syscallArguments (line : ℕ)
  | unknownInstruction (line : ℕ) (op : Text)
  | indexError
  | encode (error : PyError)
  deriving DecidableEq, Repr

/-- `PendingInstruction`. -/
structure PendingInstruction where
  op : Text
  args : List Text
  lineNumber : ℕ
  deriving DecidableEq, Repr

/-- `AssemblyResult`. -/
structure AssemblyResult where
  bytecode : List UInt8
  capabilities : List ℤ
  maxStack : ℤ
  deriving DecidableEq, Repr

/-- `_strip_comment`. -/
def stripComment (line : Text) : Text :=
  strip ((line.takeWhile (· ≠ ';')).takeWhile (· ≠ '#'))

/-- `_parse_int`. -/
def parseInt (unicode : Unicode) (text : Text) (bits : ℕ) : Except AssemblerError ℤ :=
  match pyInt unicode text with
  | none => .error (.invalidInteger text)
  | some value => do
    require (¬ (value < 0 ∨ value > 2 ^ bits - 1)) (.outsideRange text bits)
    pure value

/-- `_parse_capability`. -/
def parseCapability (unicode : Unicode) (text : Text) : Except AssemblerError ℤ :=
  let upper := unicode.upper text
  if upper = "RCC_READ".toList then .ok capRccRead
  else if upper = "OUTPUT".toList then .ok capOutput
  else parseInt unicode text 32

def isLabelStart (c : Char) : Bool := c.isAlpha || c == '_'

/-- `LABEL_RE.match`. -/
def labelMatches : Text → Bool
  | [] => false
  | c :: rest => isLabelStart c && rest.all fun c => isLabelStart c || c.isDigit

/-- The variables of `assemble_text`. -/
structure Assembly where
  labels : List (Text × ℕ)
  pending : List PendingInstruction
  capabilities : List ℤ
  maxStack : ℤ
  deriving DecidableEq, Repr

def Assembly.start : Assembly := ⟨[], [], [], 16⟩

/-- A line that starts with a dot. -/
def readDirective (unicode : Unicode) (lineNumber : ℕ) (line : Text) (assembly : Assembly) :
    Except AssemblerError Assembly :=
  match split line with
  | [] => .error .indexError
  | word :: args =>
    let directive := unicode.lower word
    if directive = ".stack".toList then
      match args with
      | [arg] => do
        let maxStack ← parseInt unicode arg 16
        pure { assembly with maxStack := maxStack }
      | _ => .error (.stackArguments lineNumber)
    else if directive = ".cap".toList then
      match args with
      | [arg] => do
        let capability ← parseCapability unicode arg
        pure { assembly with capabilities := assembly.capabilities ++ [capability] }
      | _ => .error (.capArguments lineNumber)
    else .error (.unknownDirective lineNumber directive)

/-- A line that ends with a colon. -/
def readLabel (lineNumber : ℕ) (line : Text) (assembly : Assembly) :
    Except AssemblerError Assembly := do
  let label := line.dropLast
  require (labelMatches label) (.invalidLabel lineNumber label)
  require (assembly.labels.lookup label = none) (.duplicateLabel lineNumber label)
  pure { assembly with labels := (label, assembly.pending.length) :: assembly.labels }

/-- The words of an instruction. -/
def instructionWords (line : Text) : List Text :=
  split (line.map fun c => if c = ',' then ' ' else c)

/-- Any other line. -/
def readInstruction (unicode : Unicode) (lineNumber : ℕ) (line : Text) (assembly : Assembly) :
    Except AssemblerError Assembly :=
  match instructionWords line with
  | [] => .error .indexError
  | word :: args =>
    .ok { assembly with
      pending := assembly.pending ++ [⟨unicode.upper word, args, lineNumber⟩] }

/-- One round of the loop of `assemble_text`. -/
def readLine (unicode : Unicode) (lineNumber : ℕ) (rawLine : Text) (assembly : Assembly) :
    Except AssemblerError Assembly :=
  let line := stripComment rawLine
  if line = [] then .ok assembly
  else if line.head? = some '.' then readDirective unicode lineNumber line assembly
  else if line.getLast? = some ':' then readLabel lineNumber line assembly
  else readInstruction unicode lineNumber line assembly

/-- The loop of `assemble_text`. -/
def readLines (unicode : Unicode) : ℕ → List Text → Assembly → Except AssemblerError Assembly
  | _, [], assembly => .ok assembly
  | lineNumber, rawLine :: rest, assembly => do
    let assembly ← readLine unicode lineNumber rawLine assembly
    readLines unicode (lineNumber + 1) rest assembly

/-! ### The second pass -/

/-- `_u16_as_i16`. -/
def u16AsI16 (value : ℤ) : ℤ := if value ≤ 0x7FFF then value else value - 0x10000

/-- `no_args`. -/
def noArgs (item : PendingInstruction) (opcode : ℤ) : Except AssemblerError Instruction := do
  require (item.args = []) (.expectsNoArguments item.lineNumber item.op)
  pure ⟨opcode, 0, 0⟩

/-- `PUSH`. -/
def assemblePush (unicode : Unicode) (item : PendingInstruction) :
    Except AssemblerError Instruction :=
  match item.args with
  | [arg] => do
    let value ← parseInt unicode arg 16
    pure ⟨opPushU16, 0, u16AsI16 value⟩
  | _ => .error (.expectsOneArgument item.lineNumber item.op)

/-- `SHL` and `SHR`. -/
def assembleShift (unicode : Unicode) (item : PendingInstruction) (opcode : ℤ) :
    Except AssemblerError Instruction :=
  match item.args with
  | [arg] => do
    let shift ← parseInt unicode arg 8
    require (¬ (shift > 31)) (.shiftRange item.lineNumber)
    pure ⟨opcode, shift, 0⟩
  | _ => .error (.expectsOneArgument item.lineNumber item.op)

/-- `JMP` and `JZ`. -/
def assembleBranch (labels : List (Text × ℕ)) (pc : ℕ) (item : PendingInstruction) (opcode : ℤ) :
    Except AssemblerError Instruction :=
  match item.args with
  | [arg] =>
    match labels.lookup arg with
    | none => .error (.unknownLabel item.lineNumber arg)
    | some index => do
      let relative : ℤ := index - (pc + 1)
      require (¬ (relative < -32768 ∨ relative > 32767)) (.branchRange item.lineNumber)
      pure ⟨opcode, 0, relative⟩
  | _ => .error (.expectsOneLabel item.lineNumber item.op)

/-- The number of a system call, or its name. -/
def parseSyscall (unicode : Unicode) (text : Text) : Except AssemblerError ℤ :=
  let syscallName := unicode.upper text
  if syscallName = "RCC_READ".toList then .ok sysRccRead
  else if syscallName = "EMIT".toList then .ok sysEmit
  else parseInt unicode text 16

/-- `SYSCALL`. -/
def assembleSyscall (unicode : Unicode) (item : PendingInstruction) :
    Except AssemblerError Instruction :=
  match item.args with
  | [name, arg] => do
    let syscallId ← parseSyscall unicode name
    let argc ← parseInt unicode arg 8
    pure ⟨opSyscall, argc, u16AsI16 syscallId⟩
  | _ => .error (.syscallArguments item.lineNumber)

/-- `_assemble_instruction`. -/
def assembleInstruction (unicode : Unicode) (labels : List (Text × ℕ)) (pc : ℕ)
    (item : PendingInstruction) : Except AssemblerError Instruction :=
  let op := item.op
  if op = "HALT".toList then noArgs item opHalt
  else if op = "DROP".toList then noArgs item opDrop
  else if op = "DUP".toList then noArgs item opDup
  else if op = "SWAP".toList then noArgs item opSwap
  else if op = "ADD".toList then noArgs item opAdd
  else if op = "SUB".toList then noArgs item opSub
  else if op = "AND".toList then noArgs item opAnd
  else if op = "OR".toList then noArgs item opOr
  else if op = "XOR".toList then noArgs item opXor
  else if op = "NEZ".toList then noArgs item opNez
  else if op = "EQ".toList then noArgs item opEq
  else if op = "PUSH".toList then assemblePush unicode item
  else if op = "SHL".toList then assembleShift unicode item opShlImm
  else if op = "SHR".toList then assembleShift unicode item opShrImm
  else if op = "JMP".toList then assembleBranch labels pc item opJmpRel
  else if op = "JZ".toList then assembleBranch labels pc item opJzRel
  else if op = "SYSCALL".toList then assembleSyscall unicode item
  else .error (.unknownInstruction item.lineNumber op)

/-- `assemble_text`. -/
def assembleText (unicode : Unicode) (text : Text) : Except AssemblerError AssemblyResult := do
  let assembly ← readLines unicode 1 (splitlines text) Assembly.start
  require (assembly.pending ≠ []) .noInstructions
  require (assembly.capabilities.dedup.length = assembly.capabilities.length) .duplicateCapability
  let instructions ← assembly.pending.zipIdx.mapM fun (item, pc) =>
    assembleInstruction unicode assembly.labels pc item
  let bytecode ← (encodeProgram instructions 0 assembly.maxStack).mapError .encode
  pure ⟨bytecode, assembly.capabilities, assembly.maxStack⟩

end Stm32SecurityLab.Bytecode
