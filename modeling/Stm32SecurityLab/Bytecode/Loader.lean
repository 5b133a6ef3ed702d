import Stm32SecurityLab.Bytecode.Vm

/-!
# The loader and the encoder

`parse_program` reads back what `encode_program` has written: the header, and each instruction with its
signed immediate. The loader checks more than the encoder, so the bytes load when every instruction of
the program passes `_validate_instruction`, and then to that program.

## Main results

* `loadI16_storeI16` — sixteen signed bits
* `parseProgram_eq_ok_iff` — the loader, on the bytes of an encoded program
-/

namespace Stm32SecurityLab.Bytecode

open Crash

/-! ### Fields -/

theorem loadLe16_append {front rest : List UInt8} {offset : ℕ} (h : front.length = offset)
    (value : UInt16) : loadLe16 (byteAt (front ++ (storeLe16 value ++ rest))) offset = value := by
  refine loadLe16_of_slice ?_
  rw [← storeLe16_length value, slice_eq_iff]
  intro i hi
  rw [byteAt_append_right h, byteAt_append_left hi, byteAt_of_lt hi]

theorem toNat_storeI16 {value : ℤ} (h : 0 ≤ value ∧ value ≤ 0xFFFF) :
    ((UInt16.ofNat (value % 0x10000).toNat).toNat : ℤ) = value := by
  rw [UInt16.toNat_ofNat']
  omega

/-- A signed field is read as it was written. -/
theorem loadI16_storeI16 {front rest : List UInt8} {offset : ℕ} (h : front.length = offset)
    {value : ℤ} (hvalue : -32768 ≤ value ∧ value ≤ 32767) :
    loadI16 (front ++ (storeI16 value ++ rest)) offset = value := by
  simp only [loadI16, storeI16, loadLe16_append h, UInt16.toNat_ofNat']
  split <;> omega

/-! ### Instructions -/

/-- What the encoder asks of an instruction. -/
structure Instruction.Encodable (instruction : Instruction) : Prop where
  opcode : 0 ≤ instruction.opcode ∧ instruction.opcode ≤ 0xFF
  operand : 0 ≤ instruction.operand ∧ instruction.operand ≤ 0xFF
  immediate : -32768 ≤ instruction.immediate ∧ instruction.immediate ≤ 32767

/-- The bytes of an instruction. -/
def Instruction.bytes (instruction : Instruction) : List UInt8 :=
  UInt8.ofNat instruction.opcode.toNat :: UInt8.ofNat instruction.operand.toNat ::
    storeI16 instruction.immediate

@[simp] theorem Instruction.bytes_length (instruction : Instruction) :
    instruction.bytes.length = instructionSize := rfl

theorem encodeInstruction_eq_ok_iff {instruction : Instruction} {code : List UInt8} :
    encodeInstruction instruction = .ok code ↔ instruction.Encodable ∧ code = instruction.bytes := by
  simp only [encodeInstruction, except_bind_eq_ok, require_eq_ok, pure, Except.pure,
    Except.ok.injEq]
  constructor
  · rintro ⟨_, hopcode, _, hoperand, _, himmediate, rfl⟩
    exact ⟨⟨hopcode, hoperand, himmediate⟩, rfl⟩
  · rintro ⟨h, rfl⟩
    exact ⟨(), h.opcode, (), h.operand, (), h.immediate, rfl⟩

/-- The code of a list of instructions. -/
def codeBytes (instructions : List Instruction) : List UInt8 := instructions.flatMap Instruction.bytes

theorem codeBytes_length (instructions : List Instruction) :
    (codeBytes instructions).length = instructions.length * instructionSize := by
  induction instructions with
  | nil => rfl
  | cons instruction instructions ih =>
    rw [codeBytes, List.flatMap_cons, List.length_append, Instruction.bytes_length, List.length_cons,
      ← codeBytes, ih, Nat.succ_mul, Nat.add_comm]

theorem mapM_encodeInstruction {instructions : List Instruction} {code : List (List UInt8)}
    (h : instructions.mapM encodeInstruction = .ok code) :
    (∀ instruction ∈ instructions, instruction.Encodable) ∧ code.flatten = codeBytes instructions := by
  have hall := mapM_eq_ok_iff.mp h
  clear h
  induction hall with
  | nil => exact ⟨fun _ h => absurd h List.not_mem_nil, rfl⟩
  | @cons instruction chunk instructions code hhead _ ih =>
    obtain ⟨hencodable, rfl⟩ := encodeInstruction_eq_ok_iff.mp hhead
    refine ⟨fun other hmem => ?_, ?_⟩
    · cases hmem with
      | head => exact hencodable
      | tail _ hmem => exact ih.1 other hmem
    · rw [List.flatten_cons, ih.2]
      rfl

/-- An instruction is unpacked from where it was packed. -/
theorem unpackInstruction_append {front rest : List UInt8} {offset : ℕ} (h : front.length = offset)
    {instruction : Instruction} (hencodable : instruction.Encodable) :
    unpackInstruction (front ++ (instruction.bytes ++ rest)) offset = .ok instruction := by
  have hlength : offset + instructionSize ≤ (front ++ (instruction.bytes ++ rest)).length := by
    rw [List.length_append, List.length_append, h, Instruction.bytes_length]
    omega
  have hopcode : byteAt (front ++ (instruction.bytes ++ rest)) offset =
      UInt8.ofNat instruction.opcode.toNat := byteAt_append_right h 0
  have hoperand : byteAt (front ++ (instruction.bytes ++ rest)) (offset + 1) =
      UInt8.ofNat instruction.operand.toNat := byteAt_append_right h 1
  have himmediate : loadI16 (front ++ (instruction.bytes ++ rest)) (offset + 2) =
      instruction.immediate := by
    have hsplit : front ++ (instruction.bytes ++ rest) =
        (front ++ [UInt8.ofNat instruction.opcode.toNat, UInt8.ofNat instruction.operand.toNat]) ++
          (storeI16 instruction.immediate ++ rest) := by
      rw [List.append_assoc]
      rfl
    rw [hsplit]
    refine loadI16_storeI16 ?_ hencodable.immediate
    rw [List.length_append, h]
    rfl
  have hopcode' : ((UInt8.ofNat instruction.opcode.toNat).toNat : ℤ) = instruction.opcode := by
    have hrange := hencodable.opcode
    rw [UInt8.toNat_ofNat']
    omega
  have hoperand' : ((UInt8.ofNat instruction.operand.toNat).toNat : ℤ) = instruction.operand := by
    have hrange := hencodable.operand
    rw [UInt8.toNat_ofNat']
    omega
  simp only [unpackInstruction, require, if_pos hlength, hopcode, hoperand, himmediate, hopcode',
    hoperand']
  rfl

/-- An instruction, if the loader accepts it. -/
def acceptInstruction (instruction : Instruction) : Except PyError Instruction := do
  validateInstruction instruction
  pure instruction

theorem mapM_acceptInstruction {instructions accepted : List Instruction} :
    instructions.mapM acceptInstruction = .ok accepted ↔
      accepted = instructions ∧
        ∀ instruction ∈ instructions, validateInstruction instruction = .ok () := by
  induction instructions generalizing accepted with
  | nil =>
    rw [List.mapM_nil]
    simp only [pure, Except.pure, Except.ok.injEq, List.not_mem_nil, false_implies, implies_true,
      and_true]
    exact eq_comm
  | cons instruction instructions ih =>
    simp only [List.mapM_cons, except_bind_eq_ok, acceptInstruction, ih, pure, Except.pure,
      Except.ok.injEq, List.forall_mem_cons]
    constructor
    · rintro ⟨_, ⟨_, hvalid, rfl⟩, _, ⟨rfl, hall⟩, rfl⟩
      exact ⟨rfl, hvalid, hall⟩
    · rintro ⟨rfl, hvalid, hall⟩
      exact ⟨instruction, ⟨(), hvalid, rfl⟩, instructions, ⟨rfl, hall⟩, rfl⟩

/-- The loop of the loader is the check of each instruction. -/
theorem mapM_parseInstruction {instructions : List Instruction}
    (hencodable : ∀ instruction ∈ instructions, instruction.Encodable) (front : List UInt8) :
    ((List.range instructions.length).map fun k => front.length + instructionSize * k).mapM
        (parseInstruction (front ++ codeBytes instructions)) =
      instructions.mapM acceptInstruction := by
  induction instructions generalizing front with
  | nil => rfl
  | cons instruction instructions ih =>
    have hrest := ih (fun other h => hencodable other (List.mem_cons_of_mem _ h))
      (front ++ instruction.bytes)
    have hoffsets : ((List.range instructions.length).map Nat.succ).map
        (fun k => front.length + instructionSize * k) =
        (List.range instructions.length).map
          fun k => (front ++ instruction.bytes).length + instructionSize * k := by
      rw [List.map_map]
      refine List.map_congr_left fun k _ => ?_
      rw [List.length_append, Instruction.bytes_length, Function.comp_apply, Nat.mul_succ]
      omega
    have hblob : front ++ codeBytes (instruction :: instructions) =
        front ++ instruction.bytes ++ codeBytes instructions := by
      rw [List.append_assoc]
      rfl
    have hhead : parseInstruction (front ++ codeBytes (instruction :: instructions))
        (front.length + instructionSize * 0) = acceptInstruction instruction := by
      rw [parseInstruction, codeBytes, List.flatMap_cons, Nat.mul_zero, Nat.add_zero,
        unpackInstruction_append rfl (hencodable instruction List.mem_cons_self)]
      rfl
    rw [List.length_cons, List.range_succ_eq_map, List.map_cons, List.mapM_cons, List.mapM_cons,
      hhead, hoffsets, hblob, hrest]

/-! ### Programs -/

/-- The header of `encode_program`. -/
def headerBytes (instructions : List Instruction) (maxStack : ℤ) : List UInt8 :=
  bytecodeMagic ++ storeI16 bytecodeVersion ++ storeI16 bytecodeHeaderSize ++
    storeI16 (instructions.length * instructionSize : ℕ) ++ storeI16 0 ++ storeI16 maxStack ++
    storeI16 0

/-- A program that `encode_program` accepts. -/
structure Encoded (instructions : List Instruction) (maxStack : ℤ) (blob : List UInt8) : Prop where
  stack : 0 < maxStack ∧ maxStack ≤ maxStackLimit
  size : instructions.length * instructionSize ≠ 0 ∧
    instructions.length * instructionSize ≤ maxCodeSize
  encodable : ∀ instruction ∈ instructions, instruction.Encodable
  blob : blob = headerBytes instructions maxStack ++ codeBytes instructions

theorem encodeProgram_ok {instructions : List Instruction} {maxStack : ℤ} {blob : List UInt8}
    (h : encodeProgram instructions 0 maxStack = .ok blob) : Encoded instructions maxStack blob := by
  simp only [encodeProgram, except_bind_eq_ok, require_eq_ok, pure, Except.pure,
    Except.ok.injEq] at h
  obtain ⟨_, hstack, _, hsize, _, _, code, hcode, _, _, rfl⟩ := h
  obtain ⟨hencodable, hflat⟩ := mapM_encodeInstruction hcode
  exact ⟨hstack, hsize, hencodable, by rw [hflat]; rfl⟩

/-- The loader reads an encoded program back if it accepts each of the instructions. -/
theorem parseProgram_eq_ok_iff {instructions : List Instruction} {maxStack : ℤ} {blob : List UInt8}
    (h : Encoded instructions maxStack blob) {program : BytecodeProgram} :
    parseProgram blob = .ok program ↔ program = ⟨0, maxStack, instructions⟩ ∧
      ∀ instruction ∈ instructions, validateInstruction instruction = .ok () := by
  obtain ⟨hstack, hsize, hencodable, rfl⟩ := h
  have hlength : (headerBytes instructions maxStack ++ codeBytes instructions).length =
      bytecodeHeaderSize + instructions.length * instructionSize := by
    rw [List.length_append, codeBytes_length]
    rfl
  have hversion : loadLe16 (byteAt (headerBytes instructions maxStack ++ codeBytes instructions)) 4 =
      1 := loadLe16_of_slice rfl
  have hheader : loadLe16 (byteAt (headerBytes instructions maxStack ++ codeBytes instructions)) 6 =
      16 := loadLe16_of_slice rfl
  have hcode : ((loadLe16 (byteAt (headerBytes instructions maxStack ++ codeBytes instructions))
      8).toNat : ℤ) = (instructions.length * instructionSize : ℕ) := by
    rw [loadLe16_of_slice (v := UInt16.ofNat
      (((instructions.length * instructionSize : ℕ) : ℤ) % 0x10000).toNat) rfl]
    refine toNat_storeI16 ?_
    have hle := hsize.2
    simp only [maxCodeSize] at hle
    omega
  have hentry : loadLe16 (byteAt (headerBytes instructions maxStack ++ codeBytes instructions)) 10 =
      0 := loadLe16_of_slice rfl
  have hmax : ((loadLe16 (byteAt (headerBytes instructions maxStack ++ codeBytes instructions))
      12).toNat : ℤ) = maxStack := by
    rw [loadLe16_of_slice (v := UInt16.ofNat (maxStack % 0x10000).toNat) rfl]
    refine toNat_storeI16 ?_
    simp only [maxStackLimit] at hstack
    omega
  have hreserved : loadLe16 (byteAt (headerBytes instructions maxStack ++ codeBytes instructions)) 14 =
      0 := loadLe16_of_slice rfl
  have hmagic : (headerBytes instructions maxStack ++ codeBytes instructions).take 4 =
      bytecodeMagic := rfl
  have hoffsets : instructionOffsets (bytecodeHeaderSize + instructions.length * instructionSize) =
      (List.range instructions.length).map fun k =>
        (headerBytes instructions maxStack).length + instructionSize * k := by
    have hcount : (bytecodeHeaderSize + instructions.length * instructionSize - bytecodeHeaderSize +
        (instructionSize - 1)) / instructionSize = instructions.length := by
      simp only [bytecodeHeaderSize, instructionSize]
      omega
    rw [instructionOffsets, hcount]
    rfl
  simp only [parseProgram, except_bind_eq_ok, require_eq_ok, exists_const, hlength, hversion, hheader,
    Nat.cast_inj.mp hcode, hentry, hmax, hreserved, hmagic, hoffsets,
    mapM_parseInstruction hencodable, mapM_acceptInstruction]
  constructor
  · rintro ⟨_, _, _, _, _, _, _, _, _, ⟨rfl, hvalid⟩, hprogram⟩
    exact ⟨(Except.ok.inj hprogram).symm, hvalid⟩
  · rintro ⟨rfl, hvalid⟩
    have hpos : UInt16.toNat 0 < instructions.length * instructionSize := Nat.pos_of_ne_zero hsize.1
    exact ⟨Nat.le_add_right _ _, ⟨trivial, rfl, rfl⟩, rfl, hsize, trivial, Nat.mul_mod_left _ _,
      ⟨rfl, hpos⟩, hstack, instructions, ⟨rfl, hvalid⟩, rfl⟩

end Stm32SecurityLab.Bytecode
