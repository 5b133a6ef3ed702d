import Stm32SecurityLab.Bytecode.Assembler
import Stm32SecurityLab.Bytecode.Loader

/-!
# What a source says

The meaning of an assembler source, read off its lines without the tables of the assembler: which lines
are instructions, how many of them come before the definition of a label, and what an instruction of
the machine has to do to be the one a line asks for (`Means`).

An assembled text does not always load. The assembler takes a `SYSCALL` with up to 255 arguments, and
the loader four; and a label may stand behind the last instruction, where no branch can go. These are
the only two cases (`assembled_loads_iff`).

## Main definitions

* `sourceLines`, `instructionLines`, `DefinedAt`, `Declares` — the source
* `Means` — the instruction of a line
* `Loads` — the bytes load to what the source says

## Main results

* `readLines_read` — the tables of the first pass are what the source says
* `assembleInstruction_ok` — the instruction of the second pass
* `assembled_loads_iff`
-/

namespace Stm32SecurityLab.Bytecode

open Crash

/-! ### The source -/

/-- The lines that hold something, without their comments. -/
def sourceLines (rawLines : List Text) : List Text := (rawLines.map stripComment).filter (· ≠ [])

/-- A line that is no directive, and does not define a label. -/
def isInstructionLine (line : Text) : Bool := line.head? ≠ some '.' && line.getLast? ≠ some ':'

def instructionLines (lines : List Text) : List Text := lines.filter isInstructionLine

/-- The label is defined between these lines. -/
def DefinedAt (lines : List Text) (label : Text) (before after : List Text) : Prop :=
  labelMatches label ∧ lines = before ++ (label ++ [':']) :: after

/-- The argument of a line `.stack`. -/
def stackArgument (unicode : Unicode) (line : Text) : Option Text :=
  if line.head? = some '.' then
    match split line with
    | [word, arg] => if unicode.lower word = ".stack".toList then some arg else none
    | _ => none
  else none

/-- The last `.stack` counts. -/
def Declares (unicode : Unicode) (lines : List Text) (maxStack : ℤ) : Prop :=
  match (lines.filterMap (stackArgument unicode)).getLast? with
  | none => maxStack = 16
  | some arg => pyInt unicode arg = some maxStack

/-- The instructions without arguments. -/
def mnemonics : List (Text × ℤ) :=
  [("HALT".toList, opHalt), ("DROP".toList, opDrop), ("DUP".toList, opDup), ("SWAP".toList, opSwap),
    ("ADD".toList, opAdd), ("SUB".toList, opSub), ("AND".toList, opAnd), ("OR".toList, opOr),
    ("XOR".toList, opXor), ("NEZ".toList, opNez), ("EQ".toList, opEq)]

def shifts : List (Text × ℤ) := [("SHL".toList, opShlImm), ("SHR".toList, opShrImm)]

def branches : List (Text × ℤ) := [("JMP".toList, opJmpRel), ("JZ".toList, opJzRel)]

/-- The system call that a name or a number stands for. -/
def syscallValue (unicode : Unicode) (text : Text) : Option ℤ :=
  if unicode.upper text = "RCC_READ".toList then some sysRccRead
  else if unicode.upper text = "EMIT".toList then some sysEmit
  else pyInt unicode text

/-- The instruction at `pc` does what a line with this name and these arguments says. A branch is taken
from the counter after the fetch; the first instruction behind a label has as many before it as the
label has. -/
inductive Means (unicode : Unicode) (lines : List Text) (pc : ℕ) (instruction : Instruction) :
    Text → List Text → Prop
  | plain {op : Text} {opcode : ℤ} (hop : (op, opcode) ∈ mnemonics)
      (hopcode : instruction.opcode = opcode) : Means unicode lines pc instruction op []
  | push {arg : Text} {value : ℤ} (hvalue : pyInt unicode arg = some value)
      (hrange : 0 ≤ value ∧ value ≤ 0xFFFF) (hopcode : instruction.opcode = opPushU16)
      (himmediate : instruction.immediate % 0x10000 = value) :
      Means unicode lines pc instruction "PUSH".toList [arg]
  | shift {op arg : Text} {opcode value : ℤ} (hop : (op, opcode) ∈ shifts)
      (hvalue : pyInt unicode arg = some value) (hrange : 0 ≤ value ∧ value ≤ 31)
      (hopcode : instruction.opcode = opcode) (hoperand : instruction.operand = value) :
      Means unicode lines pc instruction op [arg]
  | branch {op label : Text} {opcode : ℤ} {before after : List Text} (hop : (op, opcode) ∈ branches)
      (hlabel : DefinedAt lines label before after) (hopcode : instruction.opcode = opcode)
      (htarget : branchTarget (pc + 1) instruction.immediate (instructionLines lines).length =
        .ok (instructionLines before).length) :
      Means unicode lines pc instruction op [label]
  | syscall {name arg : Text} {syscallId argc : ℤ} (hname : syscallValue unicode name = some syscallId)
      (hargc : pyInt unicode arg = some argc) (hopcode : instruction.opcode = opSyscall)
      (himmediate : instruction.immediate % 0x10000 = syscallId)
      (hoperand : instruction.operand = argc) :
      Means unicode lines pc instruction "SYSCALL".toList [name, arg]

/-- The bytes load to what the source says, instruction for instruction. -/
def Loads (unicode : Unicode) (lines : List Text) (result : AssemblyResult) : Prop :=
  ∃ program, parseProgram result.bytecode = .ok program ∧ program.entryOffset = 0 ∧
    program.maxStack = result.maxStack ∧ Declares unicode lines result.maxStack ∧
    program.instructions.length = (instructionLines lines).length ∧
    ∀ pc line instruction, (instructionLines lines)[pc]? = some line →
      program.instructions[pc]? = some instruction →
      ∃ word args, instructionWords line = word :: args ∧
        Means unicode lines pc instruction (unicode.upper word) args

/-- A system call has four arguments at most, and an instruction follows each label of a branch. -/
def Fits (unicode : Unicode) (lines : List Text) : Prop :=
  ∀ line ∈ instructionLines lines, ∀ word args, instructionWords line = word :: args →
    (unicode.upper word = "SYSCALL".toList → ∀ name arg argc, args = [name, arg] →
      pyInt unicode arg = some argc → argc ≤ maxSyscallArgs) ∧
    (unicode.upper word ∈ ["JMP".toList, "JZ".toList] → ∀ label before after, args = [label] →
      DefinedAt lines label before after → instructionLines after ≠ [])

/-! ### The first pass -/

/-- The entry of an instruction line. -/
def Entered (unicode : Unicode) (line : Text) (item : PendingInstruction) : Prop :=
  ∃ word, instructionWords line = word :: item.args ∧ item.op = unicode.upper word

/-- The tables of the first pass say what the lines say. -/
structure Read (unicode : Unicode) (lines : List Text) (assembly : Assembly) : Prop where
  pending : List.Forall₂ (Entered unicode) (instructionLines lines) assembly.pending
  labels : ∀ label index, assembly.labels.lookup label = some index ↔
    ∃ before after, DefinedAt lines label before after ∧ index = (instructionLines before).length
  maxStack : Declares unicode lines assembly.maxStack

theorem read_start (unicode : Unicode) : Read unicode [] Assembly.start where
  pending := .nil
  labels := by
    intro label index
    constructor
    · intro h
      cases h
    · rintro ⟨before, after, ⟨_, h⟩, _⟩
      exact absurd h.symm (List.append_ne_nil_of_right_ne_nil _ (List.cons_ne_nil _ _))
  maxStack := rfl

/-- A definition in the lines with one more. -/
theorem definedAt_concat {lines : List Text} {line label : Text} {before after : List Text} :
    DefinedAt (lines ++ [line]) label before after ↔
      (∃ rest, after = rest ++ [line] ∧ DefinedAt lines label before rest) ∨
      (labelMatches label ∧ line = label ++ [':'] ∧ before = lines ∧ after = []) := by
  constructor
  · rintro ⟨hmatch, h⟩
    obtain rfl | ⟨rest, last, rfl⟩ := after.eq_nil_or_concat'
    · obtain ⟨rfl, hline⟩ := List.append_inj' h rfl
      exact .inr ⟨hmatch, List.head_eq_of_cons_eq hline, rfl, rfl⟩
    · rw [← List.cons_append, ← List.append_assoc] at h
      obtain ⟨rfl, hline⟩ := List.append_inj' h rfl
      obtain rfl := List.head_eq_of_cons_eq hline
      exact .inl ⟨rest, rfl, hmatch, rfl⟩
  · rintro (⟨rest, rfl, hmatch, rfl⟩ | ⟨hmatch, rfl, rfl, rfl⟩)
    · exact ⟨hmatch, by rw [List.append_assoc, List.cons_append]⟩
    · exact ⟨hmatch, rfl⟩

theorem instructionLines_concat (lines : List Text) (line : Text) :
    instructionLines (lines ++ [line]) =
      instructionLines lines ++ if isInstructionLine line then [line] else [] := by
  simp only [instructionLines, List.filter_append, List.filter_cons, List.filter_nil]

/-- A definition is no directive. -/
theorem labelMatches_head {label : Text} (h : labelMatches label) :
    (label ++ [':']).head? ≠ some '.' := by
  cases label with
  | nil => cases h
  | cons c rest =>
    rintro ⟨⟩
    cases h

theorem labels_concat {unicode : Unicode} {lines : List Text} {assembly : Assembly}
    (h : Read unicode lines assembly) {line label : Text}
    (hline : labelMatches label → line ≠ label ++ [':']) (index : ℕ) :
    assembly.labels.lookup label = some index ↔ ∃ before after,
      DefinedAt (lines ++ [line]) label before after ∧ index = (instructionLines before).length := by
  rw [h.labels]
  constructor
  · rintro ⟨before, after, hdefined, hindex⟩
    exact ⟨before, _, definedAt_concat.mpr (.inl ⟨after, rfl, hdefined⟩), hindex⟩
  · rintro ⟨before, after, hdefined, hindex⟩
    obtain ⟨rest, _, hrest⟩ | ⟨hmatch, heq, _⟩ := definedAt_concat.mp hdefined
    · exact ⟨before, rest, hrest, hindex⟩
    · exact absurd heq (hline hmatch)

theorem declares_concat {unicode : Unicode} {lines : List Text} {maxStack maxStack' : ℤ}
    (h : Declares unicode lines maxStack) {line : Text}
    (hline : match stackArgument unicode line with
      | none => maxStack' = maxStack
      | some arg => pyInt unicode arg = some maxStack') :
    Declares unicode (lines ++ [line]) maxStack' := by
  rw [Declares, List.filterMap_append, List.filterMap_cons, List.filterMap_nil]
  cases harg : stackArgument unicode line with
  | none =>
    rw [harg] at hline
    rw [List.append_nil, hline]
    exact h
  | some arg =>
    rw [harg] at hline
    rw [List.getLast?_concat]
    exact hline

theorem parseInt_eq_ok_iff {unicode : Unicode} {text : Text} {bits : ℕ} {value : ℤ} :
    parseInt unicode text bits = .ok value ↔
      pyInt unicode text = some value ∧ 0 ≤ value ∧ value ≤ 2 ^ bits - 1 := by
  rw [parseInt]
  cases pyInt unicode text with
  | none => simp
  | some number =>
    simp only [except_bind_eq_ok, require_eq_ok, exists_const, pure, Except.pure, Except.ok.injEq,
      Option.some.injEq, not_or, not_lt]
    constructor
    · rintro ⟨⟨h₀, h₁⟩, rfl⟩
      exact ⟨rfl, h₀, h₁⟩
    · rintro ⟨rfl, h₀, h₁⟩
      exact ⟨⟨h₀, h₁⟩, rfl⟩

/-- A directive sets the stack limit or adds a capability. -/
theorem readDirective_ok {unicode : Unicode} {lineNumber : ℕ} {line : Text}
    {assembly assembly' : Assembly} (hdot : line.head? = some '.')
    (h : readDirective unicode lineNumber line assembly = .ok assembly') :
    assembly'.pending = assembly.pending ∧ assembly'.labels = assembly.labels ∧
      match stackArgument unicode line with
      | none => assembly'.maxStack = assembly.maxStack
      | some arg => pyInt unicode arg = some assembly'.maxStack := by
  rw [readDirective] at h
  rw [stackArgument, if_pos hdot]
  cases hsplit : split line with
  | nil =>
    rw [hsplit] at h
    cases h
  | cons word args =>
    rw [hsplit] at h
    by_cases hstack : unicode.lower word = ".stack".toList
    · simp only [if_pos hstack] at h
      match args, h with
      | [arg], h =>
        obtain ⟨value, hvalue, h⟩ := except_bind_eq_ok.mp h
        cases h
        refine ⟨rfl, rfl, ?_⟩
        simp only [if_pos hstack]
        exact (parseInt_eq_ok_iff.mp hvalue).1
    · simp only [if_neg hstack] at h
      by_cases hcap : unicode.lower word = ".cap".toList
      · simp only [if_pos hcap] at h
        match args, h with
        | [arg], h =>
          obtain ⟨value, _, h⟩ := except_bind_eq_ok.mp h
          cases h
          refine ⟨rfl, rfl, ?_⟩
          simp only [if_neg hstack]
      · simp only [if_neg hcap] at h
        cases h

section OneLine

variable {unicode : Unicode} {lineNumber : ℕ} {lines : List Text} {line : Text}
  {assembly assembly' : Assembly}

theorem readDirective_read (hread : Read unicode lines assembly) (hdot : line.head? = some '.')
    (h : readDirective unicode lineNumber line assembly = .ok assembly') :
    Read unicode (lines ++ [line]) assembly' := by
  obtain ⟨hpending, hlabels, hstack⟩ := readDirective_ok hdot h
  refine ⟨?_, fun label index => ?_, declares_concat hread.maxStack hstack⟩
  · have hno : isInstructionLine line = false := by simp [isInstructionLine, hdot]
    rw [instructionLines_concat, hno, hpending, if_neg Bool.false_ne_true, List.append_nil]
    exact hread.pending
  · rw [hlabels]
    refine labels_concat hread (fun hmatch heq => ?_) index
    exact labelMatches_head hmatch (heq ▸ hdot)

/-- A line that is no directive does not set the stack limit. -/
theorem declares_concat_of_head {maxStack : ℤ} (h : Declares unicode lines maxStack)
    (hdot : line.head? ≠ some '.') : Declares unicode (lines ++ [line]) maxStack := by
  refine declares_concat h ?_
  rw [stackArgument, if_neg hdot]

/-- The label of the line is new, so no definition of another one changes. -/
theorem readLabel_read (hread : Read unicode lines assembly) (hdot : line.head? ≠ some '.')
    (hcolon : line.getLast? = some ':') (h : readLabel lineNumber line assembly = .ok assembly') :
    Read unicode (lines ++ [line]) assembly' := by
  simp only [readLabel, except_bind_eq_ok, require_eq_ok, exists_const, pure, Except.pure,
    Except.ok.injEq] at h
  obtain ⟨hmatch, hnew, rfl⟩ := h
  obtain ⟨label, rfl⟩ := List.getLast?_eq_some_iff.mp hcolon
  rw [List.dropLast_concat] at hmatch hnew ⊢
  have hno : isInstructionLine (label ++ [':']) = false := by simp [isInstructionLine]
  refine ⟨?_, fun other index => ?_, declares_concat_of_head hread.maxStack hdot⟩
  · rw [instructionLines_concat, hno, if_neg Bool.false_ne_true, List.append_nil]
    exact hread.pending
  have hlength : (instructionLines lines).length = assembly.pending.length := hread.pending.length_eq
  by_cases hsame : other = label
  · subst hsame
    rw [List.lookup_cons_self, Option.some.injEq]
    constructor
    · rintro rfl
      exact ⟨lines, [], definedAt_concat.mpr (.inr ⟨hmatch, rfl, rfl, rfl⟩), hlength.symm⟩
    · rintro ⟨before, after, hdefined, rfl⟩
      obtain ⟨rest, _, hrest⟩ | ⟨_, _, rfl, _⟩ := definedAt_concat.mp hdefined
      · have hold := (hread.labels other _).mpr ⟨before, rest, hrest, rfl⟩
        rw [hnew] at hold
        cases hold
      · exact hlength.symm
  · rw [List.lookup_cons, beq_eq_false_iff_ne.mpr hsame]
    refine labels_concat hread (fun _ heq => hsame ?_) index
    exact (List.append_cancel_right heq).symm

theorem readInstruction_read (hread : Read unicode lines assembly) (hdot : line.head? ≠ some '.')
    (hcolon : line.getLast? ≠ some ':')
    (h : readInstruction unicode lineNumber line assembly = .ok assembly') :
    Read unicode (lines ++ [line]) assembly' := by
  rw [readInstruction] at h
  cases hwords : instructionWords line with
  | nil =>
    rw [hwords] at h
    cases h
  | cons word args =>
    rw [hwords] at h
    cases h
    refine ⟨?_, fun label index => ?_, declares_concat_of_head hread.maxStack hdot⟩
    · have hyes : isInstructionLine line = true := by simp [isInstructionLine, hdot, hcolon]
      rw [instructionLines_concat, hyes, if_pos rfl]
      exact List.rel_append hread.pending (.cons ⟨word, hwords, rfl⟩ .nil)
    · refine labels_concat hread (fun _ heq => hcolon ?_) index
      rw [heq, List.getLast?_concat]

/-- **One line.** -/
theorem readLine_read {rawLine : Text} (hread : Read unicode lines assembly)
    (h : readLine unicode lineNumber rawLine assembly = .ok assembly') :
    Read unicode (lines ++ sourceLines [rawLine]) assembly' := by
  obtain ⟨line, hline⟩ : ∃ line, line = stripComment rawLine := ⟨_, rfl⟩
  simp only [readLine, ← hline] at h
  by_cases hempty : line = []
  · have hnone : sourceLines [rawLine] = [] := by simp [sourceLines, ← hline, hempty]
    rw [if_pos hempty] at h
    cases h
    rw [hnone, List.append_nil]
    exact hread
  have hone : sourceLines [rawLine] = [line] := by simp [sourceLines, ← hline, hempty]
  rw [if_neg hempty] at h
  rw [hone]
  by_cases hdot : line.head? = some '.'
  · rw [if_pos hdot] at h
    exact readDirective_read hread hdot h
  rw [if_neg hdot] at h
  by_cases hcolon : line.getLast? = some ':'
  · rw [if_pos hcolon] at h
    exact readLabel_read hread hdot hcolon h
  · rw [if_neg hcolon] at h
    exact readInstruction_read hread hdot hcolon h

end OneLine

theorem sourceLines_cons (rawLine : Text) (rawLines : List Text) :
    sourceLines (rawLine :: rawLines) = sourceLines [rawLine] ++ sourceLines rawLines := by
  rw [sourceLines, sourceLines, sourceLines, ← List.filter_append, ← List.map_append]
  rfl

theorem readLines_read {unicode : Unicode} {lineNumber : ℕ} {rawLines : List Text}
    {lines : List Text} {assembly assembly' : Assembly} (hread : Read unicode lines assembly)
    (h : readLines unicode lineNumber rawLines assembly = .ok assembly') :
    Read unicode (lines ++ sourceLines rawLines) assembly' := by
  induction rawLines generalizing lineNumber lines assembly with
  | nil =>
    cases h
    rw [show sourceLines [] = [] from rfl, List.append_nil]
    exact hread
  | cons rawLine rawLines ih =>
    obtain ⟨between, hline, hrest⟩ := except_bind_eq_ok.mp h
    have hnext := ih (readLine_read hread hline) hrest
    rw [List.append_assoc] at hnext
    rwa [sourceLines_cons]

/-! ### The second pass -/

/-- What the second pass makes of an instruction. -/
inductive Assembles (unicode : Unicode) (labels : List (Text × ℕ)) (pc : ℕ) :
    Text → List Text → Instruction → Prop
  | plain {op : Text} {opcode : ℤ} (hop : (op, opcode) ∈ mnemonics) :
      Assembles unicode labels pc op [] ⟨opcode, 0, 0⟩
  | push {arg : Text} {value : ℤ} (hvalue : pyInt unicode arg = some value)
      (hrange : 0 ≤ value ∧ value ≤ 0xFFFF) :
      Assembles unicode labels pc "PUSH".toList [arg] ⟨opPushU16, 0, u16AsI16 value⟩
  | shift {op arg : Text} {opcode value : ℤ} (hop : (op, opcode) ∈ shifts)
      (hvalue : pyInt unicode arg = some value) (hrange : 0 ≤ value ∧ value ≤ 31) :
      Assembles unicode labels pc op [arg] ⟨opcode, value, 0⟩
  | branch {op label : Text} {opcode : ℤ} {index : ℕ} (hop : (op, opcode) ∈ branches)
      (hlabel : labels.lookup label = some index) :
      Assembles unicode labels pc op [label] ⟨opcode, 0, index - (pc + 1)⟩
  | syscall {name arg : Text} {syscallId argc : ℤ} (hname : syscallValue unicode name = some syscallId)
      (hrange : 0 ≤ syscallId ∧ syscallId ≤ 0xFFFF) (hargc : pyInt unicode arg = some argc) :
      Assembles unicode labels pc "SYSCALL".toList [name, arg] ⟨opSyscall, argc, u16AsI16 syscallId⟩

section SecondPass

variable {unicode : Unicode} {labels : List (Text × ℕ)} {pc : ℕ} {item : PendingInstruction}
  {instruction : Instruction}

theorem noArgs_ok {opcode : ℤ} (hop : (item.op, opcode) ∈ mnemonics)
    (h : noArgs item opcode = .ok instruction) :
    Assembles unicode labels pc item.op item.args instruction := by
  simp only [noArgs, except_bind_eq_ok, require_eq_ok, exists_const, pure, Except.pure,
    Except.ok.injEq] at h
  obtain ⟨hargs, rfl⟩ := h
  rw [hargs]
  exact .plain hop

theorem assemblePush_ok (hop : item.op = "PUSH".toList)
    (h : assemblePush unicode item = .ok instruction) :
    Assembles unicode labels pc item.op item.args instruction := by
  rw [assemblePush] at h
  match hargs : item.args, h with
  | [arg], h =>
    obtain ⟨value, hvalue, h⟩ := except_bind_eq_ok.mp h
    cases h
    obtain ⟨hvalue, hrange⟩ := parseInt_eq_ok_iff.mp hvalue
    rw [hop]
    exact .push hvalue hrange

theorem assembleShift_ok {opcode : ℤ} (hop : (item.op, opcode) ∈ shifts)
    (h : assembleShift unicode item opcode = .ok instruction) :
    Assembles unicode labels pc item.op item.args instruction := by
  rw [assembleShift] at h
  match hargs : item.args, h with
  | [arg], h =>
    simp only [except_bind_eq_ok, require_eq_ok, exists_const, pure, Except.pure,
      Except.ok.injEq] at h
    obtain ⟨value, hvalue, hshift, rfl⟩ := h
    obtain ⟨hvalue, hpos, _⟩ := parseInt_eq_ok_iff.mp hvalue
    exact .shift hop hvalue ⟨hpos, not_lt.mp hshift⟩

theorem assembleBranch_ok {opcode : ℤ} (hop : (item.op, opcode) ∈ branches)
    (h : assembleBranch labels pc item opcode = .ok instruction) :
    Assembles unicode labels pc item.op item.args instruction := by
  rw [assembleBranch] at h
  match hargs : item.args, h with
  | [label], h =>
    cases hlabel : labels.lookup label with
    | none =>
      simp only [hlabel] at h
      cases h
    | some index =>
      simp only [hlabel, except_bind_eq_ok, require_eq_ok, exists_const, pure, Except.pure,
        Except.ok.injEq] at h
      obtain ⟨_, rfl⟩ := h
      exact .branch hop hlabel

theorem parseSyscall_ok {text : Text} {syscallId : ℤ}
    (h : parseSyscall unicode text = .ok syscallId) :
    syscallValue unicode text = some syscallId ∧ 0 ≤ syscallId ∧ syscallId ≤ 0xFFFF := by
  rw [parseSyscall] at h
  rw [syscallValue]
  by_cases hread : unicode.upper text = "RCC_READ".toList
  · simp only [if_pos hread] at h ⊢
    cases h
    exact ⟨rfl, by decide, by decide⟩
  · simp only [if_neg hread] at h ⊢
    by_cases hemit : unicode.upper text = "EMIT".toList
    · simp only [if_pos hemit] at h ⊢
      cases h
      exact ⟨rfl, by decide, by decide⟩
    · simp only [if_neg hemit] at h ⊢
      exact parseInt_eq_ok_iff.mp h

theorem assembleSyscall_ok (hop : item.op = "SYSCALL".toList)
    (h : assembleSyscall unicode item = .ok instruction) :
    Assembles unicode labels pc item.op item.args instruction := by
  rw [assembleSyscall] at h
  match hargs : item.args, h with
  | [name, arg], h =>
    simp only [except_bind_eq_ok, pure, Except.pure, Except.ok.injEq] at h
    obtain ⟨syscallId, hname, argc, hargc, rfl⟩ := h
    obtain ⟨hname, hrange⟩ := parseSyscall_ok hname
    rw [hop]
    exact .syscall hname hrange (parseInt_eq_ok_iff.mp hargc).1

/-- One branch of a chain of names. -/
theorem ite_ok_elim {ε α : Type} {c : Prop} [Decidable c] {x y : Except ε α} {a : α} {P : Prop}
    (h : (if c then x else y) = .ok a) (hx : c → x = .ok a → P) (hy : y = .ok a → P) : P := by
  by_cases hc : c
  · rw [if_pos hc] at h
    exact hx hc h
  · rw [if_neg hc] at h
    exact hy h

/-- The second pass, instruction by instruction. -/
theorem assembleInstruction_ok (h : assembleInstruction unicode labels pc item = .ok instruction) :
    Assembles unicode labels pc item.op item.args instruction := by
  have hplain {name : Text} {opcode : ℤ} (hop : item.op = name) (hmem : (name, opcode) ∈ mnemonics)
      (h : noArgs item opcode = .ok instruction) :
      Assembles unicode labels pc item.op item.args instruction := noArgs_ok (hop ▸ hmem) h
  simp only [assembleInstruction] at h
  refine ite_ok_elim h (fun hop h => hplain hop (by decide) h) fun h => ?_
  refine ite_ok_elim h (fun hop h => hplain hop (by decide) h) fun h => ?_
  refine ite_ok_elim h (fun hop h => hplain hop (by decide) h) fun h => ?_
  refine ite_ok_elim h (fun hop h => hplain hop (by decide) h) fun h => ?_
  refine ite_ok_elim h (fun hop h => hplain hop (by decide) h) fun h => ?_
  refine ite_ok_elim h (fun hop h => hplain hop (by decide) h) fun h => ?_
  refine ite_ok_elim h (fun hop h => hplain hop (by decide) h) fun h => ?_
  refine ite_ok_elim h (fun hop h => hplain hop (by decide) h) fun h => ?_
  refine ite_ok_elim h (fun hop h => hplain hop (by decide) h) fun h => ?_
  refine ite_ok_elim h (fun hop h => hplain hop (by decide) h) fun h => ?_
  refine ite_ok_elim h (fun hop h => hplain hop (by decide) h) fun h => ?_
  refine ite_ok_elim h (fun hop h => assemblePush_ok hop h) fun h => ?_
  refine ite_ok_elim h (fun hop h => assembleShift_ok (by rw [hop]; decide) h) fun h => ?_
  refine ite_ok_elim h (fun hop h => assembleShift_ok (by rw [hop]; decide) h) fun h => ?_
  refine ite_ok_elim h (fun hop h => assembleBranch_ok (by rw [hop]; decide) h) fun h => ?_
  refine ite_ok_elim h (fun hop h => assembleBranch_ok (by rw [hop]; decide) h) fun h => ?_
  refine ite_ok_elim h (fun hop h => assembleSyscall_ok hop h) fun h => ?_
  cases h

end SecondPass

/-! ### Assembled and loaded -/

theorem validateInstruction_eq_ok_iff {instruction : Instruction} :
    validateInstruction instruction = .ok () ↔ instruction.opcode ∈ supportedOpcodes ∧
      ¬ (instruction.opcode ∈ [opShlImm, opShrImm] ∧ instruction.operand > 31) ∧
      ¬ (instruction.opcode = opSyscall ∧ instruction.operand > maxSyscallArgs) := by
  simp only [validateInstruction, except_bind_eq_ok, require_eq_ok, exists_const]

/-- An instruction without an operand. -/
theorem validateInstruction_zero {opcode : ℤ} (h : opcode ∈ supportedOpcodes) (immediate : ℤ) :
    validateInstruction ⟨opcode, 0, immediate⟩ = .ok () := by
  refine validateInstruction_eq_ok_iff.mpr ⟨h, fun h => ?_, fun h => ?_⟩
  · exact absurd h.2 (by decide : ¬ (0 : ℤ) > 31)
  · exact absurd h.2 (by decide : ¬ (0 : ℤ) > maxSyscallArgs)

theorem branchTarget_eq_ok_iff {currentPc relative instructionCount target : ℤ} :
    branchTarget currentPc relative instructionCount = .ok target ↔
      target = currentPc + relative ∧ 0 ≤ target ∧ target < instructionCount := by
  simp only [branchTarget, except_bind_eq_ok, require_eq_ok, exists_const, pure, Except.pure,
    Except.ok.injEq, not_or, not_lt, ge_iff_le, not_le]
  constructor
  · rintro ⟨⟨h₀, h₁⟩, rfl⟩
    exact ⟨rfl, h₀, h₁⟩
  · rintro ⟨rfl, h₀, h₁⟩
    exact ⟨⟨h₀, h₁⟩, rfl⟩

/-- A sixteen-bit operand comes back from its signed field. -/
theorem u16AsI16_emod {value : ℤ} (h : 0 ≤ value ∧ value ≤ 0xFFFF) :
    u16AsI16 value % 0x10000 = value := by
  rw [u16AsI16]
  split <;> omega

/-- The lines around a definition have the instructions of the source. -/
theorem DefinedAt.count {lines : List Text} {label : Text} {before after : List Text}
    (h : DefinedAt lines label before after) :
    (instructionLines lines).length =
      (instructionLines before).length + (instructionLines after).length := by
  have hno : isInstructionLine (label ++ [':']) = false := by simp [isInstructionLine]
  rw [h.2, instructionLines, List.filter_append, List.filter_cons, hno,
    if_neg Bool.false_ne_true, List.length_append]
  rfl

section Loaded

variable {unicode : Unicode} {lines : List Text} {assembly : Assembly} {pc : ℕ}
  {op : Text} {arguments : List Text} {instruction : Instruction}

/-- The loader turns down what has too many arguments for a system call, and nothing else. -/
theorem Assembles.validate_iff
    (h : Assembles unicode assembly.labels pc op arguments instruction) :
    validateInstruction instruction = .ok () ↔
      (op = "SYSCALL".toList → ∀ name arg argc, arguments = [name, arg] →
        pyInt unicode arg = some argc → argc ≤ maxSyscallArgs) := by
  cases h with
  | plain hop =>
    have hall : ∀ pair ∈ mnemonics, pair.2 ∈ supportedOpcodes := by decide
    refine iff_of_true (validateInstruction_zero (hall _ hop) _) ?_
    rintro _ _ _ _ ⟨⟩
  | push hvalue hrange =>
    refine iff_of_true (validateInstruction_zero (by decide) _) ?_
    rintro _ _ _ _ ⟨⟩
  | shift hop hvalue hrange =>
    have hall : ∀ pair ∈ shifts, pair.2 ∈ supportedOpcodes ∧ pair.2 ≠ opSyscall := by decide
    obtain ⟨hopcode, hother⟩ := hall _ hop
    refine iff_of_true (validateInstruction_eq_ok_iff.mpr ⟨hopcode, fun h => ?_, fun h => ?_⟩) ?_
    · exact absurd h.2 (not_lt.mpr hrange.2)
    · exact hother h.1
    · rintro _ _ _ _ ⟨⟩
  | branch hop hlabel =>
    have hall : ∀ pair ∈ branches, pair.2 ∈ supportedOpcodes := by decide
    refine iff_of_true (validateInstruction_zero (hall _ hop) _) ?_
    rintro _ _ _ _ ⟨⟩
  | syscall hname hrange hargc =>
    rw [validateInstruction_eq_ok_iff]
    constructor
    · rintro ⟨_, _, hfew⟩ _ _ _ _ ⟨⟩ hvalue
      obtain rfl := Option.some.inj (hargc.symm.trans hvalue)
      exact not_lt.mp fun hmany => hfew ⟨rfl, hmany⟩
    · intro hfew
      have hopcode : opSyscall ∈ supportedOpcodes ∧ opSyscall ∉ [opShlImm, opShrImm] := by decide
      refine ⟨hopcode.1, fun h => hopcode.2 h.1, fun h => ?_⟩
      exact absurd h.2 (not_lt.mpr (hfew rfl _ _ _ rfl hargc))

/-- A branch has its target if an instruction follows the label. -/
theorem Read.target_iff (hread : Read unicode lines assembly) {label : Text} {index : ℕ}
    (hlabel : assembly.labels.lookup label = some index) {target : ℤ} :
    branchTarget (pc + 1) (index - (pc + 1)) (instructionLines lines).length = .ok target ↔
      target = index ∧
        ∀ before after, DefinedAt lines label before after → instructionLines after ≠ [] := by
  have hsame {before after : List Text} (h : DefinedAt lines label before after) :
      index = (instructionLines before).length := by
    have hother := (hread.labels label _).mpr ⟨before, after, h, rfl⟩
    exact Option.some.inj (hlabel.symm.trans hother)
  rw [branchTarget_eq_ok_iff]
  constructor
  · rintro ⟨htarget, _, hlt⟩
    obtain rfl : target = index := by omega
    refine ⟨rfl, fun before after h hnone => ?_⟩
    have hcount := h.count
    rw [hnone, List.length_nil, ← hsame h] at hcount
    omega
  · rintro ⟨rfl, hafter⟩
    obtain ⟨before, after, h, _⟩ := (hread.labels label index).mp hlabel
    have hcount := h.count
    have hpos := List.length_pos_of_ne_nil (hafter before after h)
    rw [← hsame h] at hcount
    omega

/-- An instruction does what its line says, but for a branch without a target. -/
theorem Assembles.means (hread : Read unicode lines assembly)
    (h : Assembles unicode assembly.labels pc op arguments instruction)
    (hfits : op ∈ ["JMP".toList, "JZ".toList] → ∀ label before after, arguments = [label] →
      DefinedAt lines label before after → instructionLines after ≠ []) :
    Means unicode lines pc instruction op arguments := by
  cases h with
  | plain hop => exact .plain hop rfl
  | push hvalue hrange => exact .push hvalue hrange rfl (u16AsI16_emod hrange)
  | shift hop hvalue hrange => exact .shift hop hvalue hrange rfl rfl
  | syscall hname hrange hargc => exact .syscall hname hargc rfl (u16AsI16_emod hrange) rfl
  | @branch op label opcode index hop hlabel =>
    have hall : ∀ pair ∈ branches, pair.1 ∈ ["JMP".toList, "JZ".toList] := by decide
    obtain ⟨before, after, hdefined, hindex⟩ := (hread.labels label index).mp hlabel
    refine .branch hop hdefined rfl ?_
    rw [← hindex]
    refine (hread.target_iff hlabel).mpr ⟨rfl, fun before after h => ?_⟩
    exact hfits (hall _ hop) label before after rfl h

/-- A branch that does what its line says has a target. -/
theorem Means.target (h : Means unicode lines pc instruction op arguments)
    (hop : op ∈ ["JMP".toList, "JZ".toList]) {label : Text} (harguments : arguments = [label]) :
    ∃ target, branchTarget (pc + 1) instruction.immediate (instructionLines lines).length =
      .ok target := by
  cases h with
  | plain => cases harguments
  | push => exact absurd hop (by decide)
  | shift hshift =>
    have hall : ∀ pair ∈ shifts, pair.1 ∉ ["JMP".toList, "JZ".toList] := by decide
    exact absurd hop (hall _ hshift)
  | branch _ _ _ htarget => exact ⟨_, htarget⟩
  | syscall => cases harguments

/-- So an instruction follows the label. -/
theorem Means.follows (h : Means unicode lines pc instruction op arguments)
    (hread : Read unicode lines assembly)
    (hassembled : Assembles unicode assembly.labels pc op arguments instruction)
    (hop : op ∈ ["JMP".toList, "JZ".toList]) {label : Text} (harguments : arguments = [label])
    {before after : List Text} (hdefined : DefinedAt lines label before after) :
    instructionLines after ≠ [] := by
  obtain ⟨target, htarget⟩ := h.target hop harguments
  cases hassembled with
  | plain => cases harguments
  | push => exact absurd hop (by decide)
  | shift hshift =>
    have hall : ∀ pair ∈ shifts, pair.1 ∉ ["JMP".toList, "JZ".toList] := by decide
    exact absurd hop (hall _ hshift)
  | branch _ hlabel =>
    cases harguments
    exact ((hread.target_iff hlabel).mp htarget).2 before after hdefined
  | syscall => cases harguments

end Loaded

/-- Two lists that are related are related at each place. -/
theorem forall₂_getElem? {α β : Type} {R : α → β → Prop} {xs : List α} {ys : List β}
    (h : List.Forall₂ R xs ys) {k : ℕ} {x : α} (hx : xs[k]? = some x) :
    ∃ y, ys[k]? = some y ∧ R x y := by
  induction h generalizing k with
  | nil => cases hx
  | @cons x' y' xs ys hhead _ ih =>
    cases k with
    | zero =>
      cases hx
      exact ⟨y', rfl, hhead⟩
    | succ k => exact ih hx

/-- What the two passes and the encoder have made of a text. -/
theorem assembleText_ok {unicode : Unicode} {text : Text} {result : AssemblyResult}
    (h : assembleText unicode text = .ok result) :
    ∃ assembly instructions, Read unicode (sourceLines (splitlines text)) assembly ∧
      Encoded instructions result.maxStack result.bytecode ∧
      Declares unicode (sourceLines (splitlines text)) result.maxStack ∧
      instructions.length = (instructionLines (sourceLines (splitlines text))).length ∧
      ∀ pc line, (instructionLines (sourceLines (splitlines text)))[pc]? = some line →
        ∃ word args instruction, instructionWords line = word :: args ∧
          instructions[pc]? = some instruction ∧
          Assembles unicode assembly.labels pc (unicode.upper word) args instruction := by
  simp only [assembleText, except_bind_eq_ok, require_eq_ok, exists_const, mapError_eq_ok, pure,
    Except.pure, Except.ok.injEq] at h
  obtain ⟨assembly, hlines, _, _, instructions, hassemble, bytecode, hencode, rfl⟩ := h
  have hread := readLines_read (read_start unicode) hlines
  rw [List.nil_append] at hread
  have hall := mapM_eq_ok_iff.mp hassemble
  refine ⟨assembly, instructions, hread, encodeProgram_ok hencode, hread.maxStack, ?_,
    fun pc line hline => ?_⟩
  · rw [← hall.length_eq, List.length_zipIdx, hread.pending.length_eq]
  · obtain ⟨item, hitem, word, hwords, hop⟩ := forall₂_getElem? hread.pending hline
    have hindexed : assembly.pending.zipIdx[pc]? = some (item, pc) := by
      rw [List.getElem?_zipIdx, hitem]
      simp
    obtain ⟨instruction, hinstruction, hok⟩ := forall₂_getElem? hall hindexed
    refine ⟨word, item.args, instruction, hwords, hinstruction, ?_⟩
    rw [← hop]
    exact assembleInstruction_ok hok

/-- **Assembled texts.** A text that the assembler takes loads to what its lines say exactly when no
system call has more than four arguments and an instruction follows each label of a branch. -/
theorem assembled_loads_iff (unicode : Unicode) (text : Text) (result : AssemblyResult)
    (h : assembleText unicode text = .ok result) :
    Loads unicode (sourceLines (splitlines text)) result ↔
      Fits unicode (sourceLines (splitlines text)) := by
  obtain ⟨assembly, instructions, hread, hencoded, hstack, hlength, hall⟩ := assembleText_ok h
  obtain ⟨lines, hlines⟩ : ∃ lines, lines = sourceLines (splitlines text) := ⟨_, rfl⟩
  rw [← hlines] at hread hstack hlength hall ⊢
  constructor
  · rintro ⟨program, hparse, _, _, _, _, hmeans⟩ line hline word args hwords
    obtain ⟨rfl, hvalid⟩ := (parseProgram_eq_ok_iff hencoded).mp hparse
    obtain ⟨pc, hpc⟩ := List.mem_iff_getElem?.mp hline
    obtain ⟨word', args', instruction, hwords', hinstruction, hassembled⟩ := hall pc line hpc
    obtain ⟨rfl, rfl⟩ := List.cons.inj (hwords'.symm.trans hwords)
    refine ⟨?_, fun hop label before after hargs hdefined => ?_⟩
    · exact hassembled.validate_iff.mp (hvalid _ (List.mem_of_getElem? hinstruction))
    · obtain ⟨word'', args'', hwords'', hmean⟩ := hmeans pc line instruction hpc hinstruction
      obtain ⟨rfl, rfl⟩ := List.cons.inj (hwords'.symm.trans hwords'')
      exact hmean.follows hread hassembled hop hargs hdefined
  · intro hfits
    have hvalid : ∀ instruction ∈ instructions, validateInstruction instruction = .ok () := by
      intro instruction hmem
      obtain ⟨pc, hpc⟩ := List.mem_iff_getElem?.mp hmem
      have hlt : pc < (instructionLines lines).length := by
        rw [← hlength]
        exact (List.getElem?_eq_some_iff.mp hpc).1
      have hline := List.getElem?_eq_getElem hlt
      obtain ⟨word, args, other, hwords, hother, hassembled⟩ := hall pc _ hline
      obtain rfl := Option.some.inj (hother.symm.trans hpc)
      exact hassembled.validate_iff.mpr (hfits _ (List.mem_of_getElem? hline) word args hwords).1
    refine ⟨_, (parseProgram_eq_ok_iff hencoded).mpr ⟨rfl, hvalid⟩, rfl, rfl, hstack, hlength,
      fun pc line instruction hline hinstruction => ?_⟩
    obtain ⟨word, args, other, hwords, hother, hassembled⟩ := hall pc line hline
    obtain rfl := Option.some.inj (hother.symm.trans hinstruction)
    exact ⟨word, args, hwords, hassembled.means hread
      (hfits line (List.mem_of_getElem? hline) word args hwords).2⟩

/-- The database on ASCII. -/
def ascii : Unicode where
  upper text := text.map Char.toUpper
  lower text := text.map Char.toLower
  decimal _ := none

/-- A loop with a full sixteen-bit operand. -/
def loopText : Text := ".stack 2\nloop: ; again\nPUSH 0xFFFF\nJZ loop\nHALT\n".toList

def loopLines : List Text :=
  [".stack 2".toList, "loop:".toList, "PUSH 0xFFFF".toList, "JZ loop".toList, "HALT".toList]

/-- An instruction follows the label. -/
theorem fits_loopLines : Fits ascii loopLines := by
  have hlines : instructionLines loopLines =
      ["PUSH 0xFFFF".toList, "JZ loop".toList, "HALT".toList] := by decide
  have hother : ∀ word ∈ ["PUSH".toList, "HALT".toList], ascii.upper word ≠ "SYSCALL".toList ∧
      ascii.upper word ∉ ["JMP".toList, "JZ".toList] := by decide
  intro line hline word args hwords
  rw [hlines] at hline
  rcases List.mem_cons.mp hline with rfl | hline
  · obtain ⟨rfl, -⟩ : "PUSH".toList = word ∧ ["0xFFFF".toList] = args := List.cons.inj hwords
    exact ⟨fun h => absurd h (hother _ (by decide)).1, fun h => absurd h (hother _ (by decide)).2⟩
  rcases List.mem_cons.mp hline with rfl | hline
  · obtain ⟨rfl, rfl⟩ : "JZ".toList = word ∧ ["loop".toList] = args := List.cons.inj hwords
    refine ⟨fun h => absurd h (by decide), fun _ label before after hlabel hdefined => ?_⟩
    obtain rfl := (List.cons.inj hlabel).1
    have hlast := congrArg List.getLast? hdefined.2
    rw [List.getLast?_append, List.getLast?_cons] at hlast
    replace hlast := Option.some.inj hlast
    intro hnone
    cases hafter : after.getLast? with
    | none =>
      rw [hafter] at hlast
      exact absurd hlast (by decide)
    | some last =>
      rw [hafter, Option.getD_some] at hlast
      replace hlast : "HALT".toList = last := hlast
      have hmem : "HALT".toList ∈ instructionLines after :=
        List.mem_filter.mpr ⟨by rw [hlast]; exact List.mem_of_getLast? hafter, by decide⟩
      rw [hnone] at hmem
      cases hmem
  · obtain rfl := List.mem_singleton.mp hline
    obtain ⟨rfl, -⟩ : "HALT".toList = word ∧ [] = args := List.cons.inj hwords
    exact ⟨fun h => absurd h (hother _ (by decide)).1, fun h => absurd h (hother _ (by decide)).2⟩

theorem assembled_loads_loop :
    ∃ result, assembleText ascii loopText = .ok result ∧ Fits ascii loopLines ∧
      Loads ascii loopLines result :=
  ⟨_, rfl, fits_loopLines, (assembled_loads_iff ascii loopText _ rfl).mpr fits_loopLines⟩

/-- A system call with five arguments is assembled, and not loaded; a branch behind the last instruction
is loaded, and has no target. -/
theorem assembled_not_loaded :
    (∃ result, assembleText ascii "SYSCALL EMIT, 5".toList = .ok result ∧
      ¬ Loads ascii (sourceLines (splitlines "SYSCALL EMIT, 5".toList)) result) ∧
    ∃ result, assembleText ascii "JMP end\nend:".toList = .ok result ∧
      ¬ Loads ascii (sourceLines (splitlines "JMP end\nend:".toList)) result := by
  refine ⟨⟨_, rfl, ?_⟩, ⟨_, rfl, ?_⟩⟩
  · rintro ⟨program, hparse, _⟩
    cases hparse
  · rintro ⟨program, hparse, _, _, _, _, hmeans⟩
    cases hparse
    obtain ⟨word, args, hwords, hmean⟩ := hmeans 0 _ _ rfl rfl
    cases hwords
    obtain ⟨target, htarget⟩ := hmean.target (by decide) rfl
    cases htarget

end Stm32SecurityLab.Bytecode
