import Stm32SecurityLab.Crash.Loop
import Stm32SecurityLab.Bytes
import Mathlib.Data.Int.Bitwise

/-!
# The bytecode machine

`tools/bytecode_vm.py`: a stack machine with seventeen instructions, relative branches and two system
calls, each behind a capability.

The code is Python. Besides `VMError`, an expression may raise an exception of the language: an index
out of range, an unpacking of the wrong length, a negative shift, a buffer too short for `struct`. The
model raises them where Python would, so that their absence is a theorem (`PyError`).

A program of `Crash.Prog` keeps the state at the point where it raises. The stack is a list with its
top in front; the result of a run shows it bottom first, as the source does.

## Main definitions

* `Instruction`, `encodeProgram`, `parseProgram`
* `SyscallHost.handle` — the system calls
* `iterate` — one round of the loop of `BytecodeVM.execute`
* `BytecodeVM.execute`
-/

namespace Stm32SecurityLab.Bytecode

open Crash

/-! ### Errors -/

/-- The messages of `VMError`. -/
inductive VMError where
  | missingCapability (capability : ℤ)
  | invalidStackLimit
  | invalidCodeSize
  | invalidEntryOffset
  | invalidOpcode
  | invalidOperand
  | invalidImmediate
  | truncatedHeader
  | invalidIdentity
  | reservedHeaderField
  | sizeMismatch
  | unalignedBytecode
  | unsupportedOpcode (opcode : ℤ)
  | invalidShiftAmount
  | tooManySyscallArguments
  | rccReadArguments
  | invalidRccIndex
  | emitArguments
  | unsupportedSyscall (syscallId : ℕ)
  | stackOverflow
  | stackUnderflow
  | budgetExhausted
  | pcOutOfRange
  | branchOutOfRange
  deriving DecidableEq, Repr

/-- What the code can raise. -/
inductive PyError where
  | vm (error : VMError)
  | indexError
  | valueError
  | structError
  deriving DecidableEq, Repr

/-- `values[index]`; a negative index counts from the end. -/
def pyIndex {α : Type} (values : List α) (index : ℤ) : Except PyError α :=
  let index := if index < 0 then index + values.length else index
  if index < 0 then .error .indexError
  else
    match values[index.toNat]? with
    | none => .error .indexError
    | some value => .ok value

/-! ### Programs -/

def bytecodeMagic : List UInt8 := [0x42, 0x43, 0x56, 0x31]
def bytecodeVersion : ℤ := 1
def bytecodeHeaderSize : ℕ := 16
def instructionSize : ℕ := 4
def maxCodeSize : ℕ := 4096
def maxStackLimit : ℤ := 64
def maxSyscallArgs : ℤ := 4

def capRccRead : ℤ := 0x6801
def capOutput : ℤ := 0x6802

def sysRccRead : ℕ := 1
def sysEmit : ℕ := 2

def opHalt : ℤ := 0x00
def opPushU16 : ℤ := 0x01
def opDrop : ℤ := 0x02
def opDup : ℤ := 0x03
def opSwap : ℤ := 0x04
def opAdd : ℤ := 0x10
def opSub : ℤ := 0x11
def opAnd : ℤ := 0x12
def opOr : ℤ := 0x13
def opXor : ℤ := 0x14
def opShlImm : ℤ := 0x15
def opShrImm : ℤ := 0x16
def opNez : ℤ := 0x17
def opEq : ℤ := 0x18
def opJmpRel : ℤ := 0x20
def opJzRel : ℤ := 0x21
def opSyscall : ℤ := 0x30

/-- `Instruction`. -/
structure Instruction where
  opcode : ℤ
  operand : ℤ
  immediate : ℤ
  deriving DecidableEq, Repr

/-- `BytecodeProgram`. -/
structure BytecodeProgram where
  entryOffset : ℤ
  maxStack : ℤ
  instructions : List Instruction
  deriving DecidableEq, Repr

/-- The two bytes of a value in a field of 16 bits. -/
def storeI16 (value : ℤ) : List UInt8 := storeLe16 (UInt16.ofNat (value % 0x10000).toNat)

/-- An `h` of a `struct.unpack`. -/
def loadI16 (blob : List UInt8) (offset : ℕ) : ℤ :=
  let word := (loadLe16 (byteAt blob) offset).toNat
  if word < 0x8000 then word else word - 0x10000

/-- One instruction of `encode_program`. -/
def encodeInstruction (instruction : Instruction) : Except PyError (List UInt8) := do
  require (0 ≤ instruction.opcode ∧ instruction.opcode ≤ 0xFF) (.vm .invalidOpcode)
  require (0 ≤ instruction.operand ∧ instruction.operand ≤ 0xFF) (.vm .invalidOperand)
  require (-32768 ≤ instruction.immediate ∧ instruction.immediate ≤ 32767) (.vm .invalidImmediate)
  pure (UInt8.ofNat instruction.opcode.toNat :: UInt8.ofNat instruction.operand.toNat ::
    storeI16 instruction.immediate)

/-- `encode_program`. -/
def encodeProgram (instructions : List Instruction) (entryOffset maxStack : ℤ) :
    Except PyError (List UInt8) := do
  require (0 < maxStack ∧ maxStack ≤ maxStackLimit) (.vm .invalidStackLimit)
  let codeSize := instructions.length * instructionSize
  require (codeSize ≠ 0 ∧ codeSize ≤ maxCodeSize) (.vm .invalidCodeSize)
  require (entryOffset % instructionSize = 0 ∧ entryOffset < codeSize) (.vm .invalidEntryOffset)
  let code ← instructions.mapM encodeInstruction
  -- a negative entry offset gets this far, and does not fit its field
  require (0 ≤ entryOffset) .structError
  pure (bytecodeMagic ++ storeI16 bytecodeVersion ++ storeI16 bytecodeHeaderSize ++
    storeI16 codeSize ++ storeI16 entryOffset ++ storeI16 maxStack ++ storeI16 0 ++ code.flatten)

/-- The opcodes that `_validate_instruction` lets through. -/
def supportedOpcodes : List ℤ :=
  [opHalt, opPushU16, opDrop, opDup, opSwap, opAdd, opSub, opAnd, opOr, opXor, opShlImm, opShrImm,
    opNez, opEq, opJmpRel, opJzRel, opSyscall]

/-- `_validate_instruction`. -/
def validateInstruction (instruction : Instruction) : Except PyError Unit := do
  require (instruction.opcode ∈ supportedOpcodes) (.vm (.unsupportedOpcode instruction.opcode))
  require (¬ (instruction.opcode ∈ [opShlImm, opShrImm] ∧ instruction.operand > 31))
    (.vm .invalidShiftAmount)
  require (¬ (instruction.opcode = opSyscall ∧ instruction.operand > maxSyscallArgs))
    (.vm .tooManySyscallArguments)

/-- `struct.unpack_from(INSTRUCTION_FORMAT, blob, offset)`. -/
def unpackInstruction (blob : List UInt8) (offset : ℕ) : Except PyError Instruction := do
  require (offset + instructionSize ≤ blob.length) .structError
  pure
    { opcode := (byteAt blob offset).toNat
      operand := (byteAt blob (offset + 1)).toNat
      immediate := loadI16 blob (offset + 2) }

/-- One round of the loop of `parse_program`. -/
def parseInstruction (blob : List UInt8) (offset : ℕ) : Except PyError Instruction := do
  let instruction ← unpackInstruction blob offset
  validateInstruction instruction
  pure instruction

/-- `range(BYTECODE_HEADER_SIZE, len(blob), INSTRUCTION_SIZE)`. -/
def instructionOffsets (length : ℕ) : List ℕ :=
  (List.range ((length - bytecodeHeaderSize + (instructionSize - 1)) / instructionSize)).map
    fun k => bytecodeHeaderSize + instructionSize * k

/-- `parse_program`. -/
def parseProgram (blob : List UInt8) : Except PyError BytecodeProgram := do
  require (bytecodeHeaderSize ≤ blob.length) (.vm .truncatedHeader)
  let magic := blob.take 4
  let version := (loadLe16 (byteAt blob) 4).toNat
  let headerSize := (loadLe16 (byteAt blob) 6).toNat
  let codeSize := (loadLe16 (byteAt blob) 8).toNat
  let entryOffset := (loadLe16 (byteAt blob) 10).toNat
  let maxStack := (loadLe16 (byteAt blob) 12).toNat
  let reserved := (loadLe16 (byteAt blob) 14).toNat
  require (magic = bytecodeMagic ∧ version = bytecodeVersion ∧ headerSize = bytecodeHeaderSize)
    (.vm .invalidIdentity)
  require (reserved = 0) (.vm .reservedHeaderField)
  require (codeSize ≠ 0 ∧ codeSize ≤ maxCodeSize) (.vm .invalidCodeSize)
  require (blob.length = bytecodeHeaderSize + codeSize) (.vm .sizeMismatch)
  require (codeSize % instructionSize = 0) (.vm .unalignedBytecode)
  require (entryOffset % instructionSize = 0 ∧ entryOffset < codeSize) (.vm .invalidEntryOffset)
  require (0 < (maxStack : ℤ) ∧ maxStack ≤ maxStackLimit) (.vm .invalidStackLimit)
  let instructions ← (instructionOffsets blob.length).mapM (parseInstruction blob)
  pure ⟨entryOffset, maxStack, instructions⟩

/-! ### The machine -/

/-- The variables of `execute`, and the outputs of the host. A call finds the outputs of the one before
it; the variables are set before they are used. -/
structure VmState where
  pc : ℤ
  /-- The top is in front. -/
  stack : List ℕ
  executed : ℕ
  outputs : List (ℕ × ℕ)
  deriving DecidableEq, Repr

/-- `ExecutionResult`. -/
structure ExecutionResult where
  halted : Bool
  instructionsExecuted : ℕ
  outputs : List (ℕ × ℕ)
  stack : List ℕ
  deriving DecidableEq, Repr

/-- Code that runs inside `execute`. -/
abbrev Vm := Prog VmState PyError

/-- `_u32`: the low 32 bits. -/
def u32 (value : ℤ) : ℕ := (value % 0x100000000).toNat

/-- `push`. -/
def push (stackLimit : ℤ) (value : ℤ) : Vm Unit := do
  let s ← Prog.get
  Prog.check (s.stack.length < stackLimit) (.vm .stackOverflow)
  Prog.modify fun s => { s with stack := u32 value :: s.stack }

/-- `pop`. -/
def pop : Vm ℕ := do
  let s ← Prog.get
  match s.stack with
  | [] => Prog.fail (.vm .stackUnderflow)
  | value :: rest => do
    Prog.modify fun s => { s with stack := rest }
    pure value

/-- The registers of a `SyscallHost`, as `__init__` leaves them. -/
structure SyscallHost where
  rcc : List ℕ
  rcc_length : rcc.length = 3
  rcc_u32 : ∀ value ∈ rcc, value < 2 ^ 32

/-- `_require_capability`. -/
def requireCapability (capabilities : List ℤ) (capability : ℤ) : Vm Unit :=
  Prog.check (capability ∈ capabilities) (.vm (.missingCapability capability))

/-- `SyscallHost.handle`. -/
def SyscallHost.handle (host : SyscallHost) (capabilities : List ℤ) (syscallId : ℕ)
    (args : List ℕ) : Vm (List ℕ) :=
  if syscallId = sysRccRead then do
    requireCapability capabilities capRccRead
    Prog.check (args.length = 1) (.vm .rccReadArguments)
    let index ← Prog.ofExcept (pyIndex args 0)
    Prog.check (index < host.rcc.length) (.vm .invalidRccIndex)
    let value ← Prog.ofExcept (pyIndex host.rcc index)
    pure [value]
  else if syscallId = sysEmit then do
    requireCapability capabilities capOutput
    Prog.check (args.length = 2) (.vm .emitArguments)
    match args with
    | [value, channel] => do
      Prog.modify fun s => { s with outputs := s.outputs ++ [(u32 channel, u32 value)] }
      pure []
    | _ => Prog.fail .valueError
  else
    Prog.fail (.vm (.unsupportedSyscall syscallId))

/-- `_branch_target`. -/
def branchTarget (currentPc relative instructionCount : ℤ) : Except PyError ℤ := do
  let target := currentPc + relative
  require (¬ (target < 0 ∨ target ≥ instructionCount)) (.vm .branchOutOfRange)
  pure target

/-- Take a branch. -/
def branch (program : BytecodeProgram) (relative : ℤ) : Vm Unit := do
  let s ← Prog.get
  let target ← Prog.ofExcept (branchTarget s.pc relative program.instructions.length)
  Prog.modify fun s => { s with pc := target }

/-- An instruction that takes two values and leaves one. -/
def binary (stackLimit : ℤ) (f : ℕ → ℕ → ℤ) : Vm Unit := do
  let right ← pop
  let left ← pop
  push stackLimit (f left right)

/-- Exchange the two values on top. -/
def swap : Vm Unit := do
  let s ← Prog.get
  match s.stack with
  | first :: second :: rest => Prog.modify fun s => { s with stack := second :: first :: rest }
  | _ => Prog.fail (.vm .stackUnderflow)

/-- The amount of a shift, which may not be negative. -/
def shiftAmount (operand : ℤ) : Except PyError ℕ :=
  if operand < 0 then .error .valueError else .ok operand.toNat

/-- `for result in results: push(result)`. -/
def pushAll (stackLimit : ℤ) : List ℕ → Vm Unit
  | [] => pure ()
  | result :: results => do
    push stackLimit result
    pushAll stackLimit results

/-- The arguments of a system call: the last `argc` values of the stack, which are taken off. -/
def popArgs (argc : ℤ) : Vm (List ℕ) := do
  let s ← Prog.get
  Prog.check (¬ (s.stack.length < argc)) (.vm .stackUnderflow)
  Prog.modify fun s => { s with stack := s.stack.drop argc.toNat }
  pure (s.stack.take argc.toNat).reverse

/-- The instructions but `HALT`. -/
def perform (program : BytecodeProgram) (stackLimit : ℤ) (handle : ℕ → List ℕ → Vm (List ℕ))
    (instruction : Instruction) : Vm Unit :=
  let opcode := instruction.opcode
  if opcode = opPushU16 then push stackLimit (instruction.immediate % 0x10000)
  else if opcode = opDrop then do
    let _ ← pop
    pure ()
  else if opcode = opDup then do
    let value ← pop
    push stackLimit value
    push stackLimit value
  else if opcode = opSwap then swap
  else if opcode = opAdd then binary stackLimit fun left right => left + right
  else if opcode = opSub then binary stackLimit fun left right => left - right
  else if opcode = opAnd then binary stackLimit fun left right => (left &&& right : ℕ)
  else if opcode = opOr then binary stackLimit fun left right => (left ||| right : ℕ)
  else if opcode = opXor then binary stackLimit fun left right => (left ^^^ right : ℕ)
  else if opcode = opShlImm then do
    let value ← pop
    let amount ← Prog.ofExcept (shiftAmount instruction.operand)
    push stackLimit (value <<< amount : ℕ)
  else if opcode = opShrImm then do
    let value ← pop
    let amount ← Prog.ofExcept (shiftAmount instruction.operand)
    push stackLimit (value >>> amount : ℕ)
  else if opcode = opNez then do
    let value ← pop
    push stackLimit (if value ≠ 0 then 1 else 0)
  else if opcode = opEq then binary stackLimit fun left right => if left = right then 1 else 0
  else if opcode = opJmpRel then branch program instruction.immediate
  else if opcode = opJzRel then do
    let value ← pop
    if value = 0 then branch program instruction.immediate else pure ()
  else if opcode = opSyscall then do
    let args ← popArgs instruction.operand
    let results ← handle (instruction.immediate % 0x10000).toNat args
    pushAll stackLimit results
  else
    Prog.fail (.vm (.unsupportedOpcode opcode))

/-- One round of `while True`: the result if the program halts. -/
def iterate (program : BytecodeProgram) (stackLimit : ℤ) (instructionBudget : ℕ)
    (handle : ℕ → List ℕ → Vm (List ℕ)) : Vm (Option ExecutionResult) := do
  let s ← Prog.get
  Prog.check (¬ (s.executed ≥ instructionBudget)) (.vm .budgetExhausted)
  Prog.check (¬ (s.pc < 0 ∨ s.pc ≥ program.instructions.length)) (.vm .pcOutOfRange)
  let instruction ← Prog.ofExcept (pyIndex program.instructions s.pc)
  Prog.modify fun s => { s with executed := s.executed + 1, pc := s.pc + 1 }
  if instruction.opcode = opHalt then do
    let s ← Prog.get
    pure (some ⟨true, s.executed, s.outputs, s.stack.reverse⟩)
  else do
    perform program stackLimit handle instruction
    pure none

/-- `BytecodeVM`. -/
structure BytecodeVM where
  instructionBudget : ℕ
  maxStack : ℤ
  host : SyscallHost
  /-- What `__init__` asks for. -/
  budget_pos : 0 < instructionBudget
  maxStack_range : 0 < maxStack ∧ maxStack ≤ maxStackLimit

/-- The local variables of `execute` as the loop finds them. -/
def enter (program : BytecodeProgram) (s : VmState) : VmState :=
  { s with pc := program.entryOffset / instructionSize, stack := [], executed := 0 }

/-- A round with the limits of a machine. -/
def BytecodeVM.round (vm : BytecodeVM) (capabilities : List ℤ) (program : BytecodeProgram) :
    Vm (Option ExecutionResult) :=
  iterate program (min program.maxStack vm.maxStack) vm.instructionBudget
    (vm.host.handle capabilities)

/-- `BytecodeVM.execute`, with a bound on the number of rounds. -/
def BytecodeVM.execute (vm : BytecodeVM) (blob : List UInt8) (capabilities : List ℤ) (fuel : ℕ) :
    Vm (Option ExecutionResult) := do
  Prog.modify fun s => { s with outputs := [] }
  let program ← Prog.ofExcept (parseProgram blob)
  Prog.modify (enter program)
  (vm.round capabilities program).untilSome fuel

end Stm32SecurityLab.Bytecode
