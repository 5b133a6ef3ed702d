import Stm32SecurityLab.Crc.Burst
import Stm32SecurityLab.Metadata.Record

/-!
# The CRC of a metadata record

The loop of `crc32_update` is a reflected CRC whose register starts and ends complemented. A string
followed by its own CRC therefore leaves the same register whatever the string is, and a burst of
up to four bytes, which changes the register, never turns one such string into another.

In a record the CRC stands behind the first 60 bytes. The padding and the commit marker behind it
are compared with constants, so that a record altered inside four consecutive bytes is refused
wherever the four bytes are.

## Main results

* `crc32Update_append` — the CRC of a string can be computed piece by piece
* `ne_codeword_of_burst` — a burst never leads from one checksummed string to another
* `bootMetadataDecode_burst` — a record with a burst in it is refused
-/

namespace Stm32SecurityLab

/-! ### The loop is a reflected CRC -/

/-- The polynomial of the CRC. -/
def crc32Polynomial : BitVec 32 := 0xEDB88320#32

theorem crc32Polynomial_msb : crc32Polynomial.msb = true := by decide

theorem crc32Bit_toBitVec (crc : UInt32) :
    (crc32Bit crc).toBitVec = Crc.step crc32Polynomial crc.toBitVec := by
  have hlow : (crc &&& 1).toBitVec =
      BitVec.setWidth 32 (BitVec.ofBool (crc.toBitVec.getLsbD 0)) :=
    BitVec.and_one_eq_setWidth_ofBool_getLsbD
  have hmask : (0xEDB88320 &&& (0 - (crc &&& 1)) : UInt32).toBitVec =
      if crc.toBitVec.getLsbD 0 then crc32Polynomial else 0 := by
    rw [UInt32.toBitVec_and, UInt32.toBitVec_sub, hlow]
    cases crc.toBitVec.getLsbD 0 <;> rfl
  rw [crc32Bit, Crc.step, UInt32.toBitVec_xor, hmask]
  rfl

theorem repeat_crc32Bit_toBitVec (crc : UInt32) (n : ℕ) :
    (Nat.repeat crc32Bit n crc).toBitVec = (Crc.step crc32Polynomial)^[n] crc.toBitVec := by
  induction n with
  | zero => rfl
  | succ n ih => rw [Function.iterate_succ_apply', ← ih, ← crc32Bit_toBitVec]; rfl

theorem crc32Byte_toBitVec (crc : UInt32) (byte : UInt8) :
    (crc32Byte crc byte).toBitVec = Crc.byteStep crc32Polynomial crc.toBitVec byte := by
  rw [crc32Byte, repeat_crc32Bit_toBitVec, Crc.byteStep, UInt32.toBitVec_xor]
  rfl

theorem foldl_crc32Byte_toBitVec (crc : UInt32) (data : List UInt8) :
    (data.foldl crc32Byte crc).toBitVec = Crc.register crc32Polynomial crc.toBitVec data := by
  induction data generalizing crc with
  | nil => rfl
  | cons byte data ih =>
    rw [List.foldl_cons, ih, crc32Byte_toBitVec]
    rfl

/-- **The CRC can be computed piece by piece.** -/
theorem crc32Update_append (crc : UInt32) (a b : List UInt8) :
    crc32Update (crc32Update crc a) b = crc32Update crc (a ++ b) := by
  rw [crc32Update, crc32Update, crc32Update, UInt32.not_not, List.foldl_append]

/-! ### A string and its CRC -/

/-- A string with its CRC behind it. -/
def codeword (data : List UInt8) : List UInt8 := data ++ storeLe32 (crc32Update 0 data)

theorem word_storeLe32 (v : UInt32) : Crc.word 32 (storeLe32 v) = v.toBitVec := by
  refine BitVec.eq_of_getLsbD_eq fun i hi => ?_
  rw [storeLe32]
  interval_cases i <;> simp [Crc.word]

/-- The register behind a string and its CRC does not depend on the string. -/
theorem register_codeword (data : List UInt8) :
    Crc.register crc32Polynomial (BitVec.allOnes 32) (codeword data) =
      (Crc.step crc32Polynomial)^[32] (BitVec.allOnes 32) := by
  obtain ⟨crc, hcrc⟩ : ∃ crc, crc = data.foldl crc32Byte (~~~ 0) := ⟨_, rfl⟩
  have hregister : Crc.register crc32Polynomial (BitVec.allOnes 32) data = crc.toBitVec := by
    rw [hcrc, foldl_crc32Byte_toBitVec]
    rfl
  have hxor : crc.toBitVec ^^^ (~~~ crc).toBitVec = BitVec.allOnes 32 := by
    rw [UInt32.toBitVec_not, ← BitVec.not_xor_right, BitVec.xor_self, BitVec.not_zero]
  have hroom : 8 * (storeLe32 (~~~ crc)).length ≤ 32 := Nat.le_of_eq rfl
  rw [codeword, Crc.register_append, hregister, crc32Update, ← hcrc,
    Crc.register_eq_iterate _ hroom, word_storeLe32, hxor]
  rfl

/-- **A burst of four bytes** never leads from one checksummed string to another. -/
theorem ne_codeword_of_burst {x y z : List UInt8} (h : Crc.Burst 4 (codeword x) z) :
    z ≠ codeword y := by
  rintro rfl
  refine Crc.register_ne_of_burst crc32Polynomial_msb (BitVec.allOnes 32) (by decide) h ?_
  rw [register_codeword, register_codeword]

/-! ### Records -/

/-- What is behind the CRC of a record: the padding and the commit marker. -/
def recordTail : List UInt8 :=
  List.replicate 56 0 ++ storeWords [bootMetadataCommit0, bootMetadataCommit1]

theorem encodedRecord_eq (r : BootMetadataRecord) :
    encodedRecord r = codeword (encodeWithoutCrc r) ++ recordTail := by
  have hzero : storeWords (List.replicate 14 0) = List.replicate 56 0 := by decide
  rw [encodedRecord, recordWords, storeWords_append, storeWords_append, storeWords_append, hzero,
    codeword, recordTail, List.append_assoc]
  rfl

/-- The decoder has compared the padding with zeros and the CRC with that of the body. -/
theorem bootMetadataDecode_checked {input : List UInt8} {r : BootMetadataRecord}
    (h : bootMetadataDecode input = .ok r) :
    (∀ i < 56, byteAt input (metadataPaddingOffset + i) = 0) ∧
      crc32Update 0 (slice (byteAt input) 0 metadataBodySize) =
        loadLe32 (byteAt input) metadataCrcOffset := by
  rw [bootMetadataDecode] at h
  simp only at h
  split at h
  · cases h
  split at h
  · cases h
  split at h
  · cases h
  rename_i hpadding
  split at h
  · cases h
  split at h
  · cases h
  rename_i hcrc
  refine ⟨fun i hi => ?_, not_not.mp hcrc⟩
  rw [Bool.not_eq_true, List.any_eq_false] at hpadding
  have hbyte := hpadding (metadataPaddingOffset + i) (List.mem_range'_1.mpr ⟨Nat.le_add_right _ _,
    Nat.add_lt_add_left hi _⟩)
  simpa using hbyte

/-- A decoded record is a checksummed body in front of the constant tail. -/
theorem eq_codeword_of_decode {input : List UInt8} {r : BootMetadataRecord}
    (h : bootMetadataDecode input = .ok r) :
    input = codeword (slice (byteAt input) 0 metadataBodySize) ++ recordTail := by
  obtain ⟨hlength, hcommit₀, hcommit₁, -⟩ := bootMetadataDecode_ok h
  obtain ⟨hpadding, hcrc⟩ := bootMetadataDecode_checked h
  have hzero : slice (byteAt input) 64 56 = List.replicate 56 0 := by
    refine (slice_eq_iff (l := List.replicate 56 0)).mpr fun i hi => ?_
    rw [List.length_replicate] at hi
    rw [List.getElem_replicate]
    exact hpadding i hi
  have hcommit : slice (byteAt input) 120 8 =
      storeWords [bootMetadataCommit0, bootMetadataCommit1] := by
    rw [slice_add _ _ 4 4, ← storeLe32_loadLe32, ← storeLe32_loadLe32]
    change storeLe32 (loadLe32 (byteAt input) metadataCommitOffset) ++
      storeLe32 (loadLe32 (byteAt input) (metadataCommitOffset + 4)) = _
    rw [hcommit₀, hcommit₁]
    rfl
  have hall : input = slice (byteAt input) 0 (60 + 4 + (56 + 8)) := by
    have hslice := slice_byteAt input
    rw [hlength] at hslice
    exact hslice.symm
  rw [slice_add, slice_add, slice_add, Nat.zero_add, Nat.zero_add, hzero, hcommit] at hall
  rw [codeword, recordTail, hcrc, storeLe32_loadLe32]
  exact hall

/-- **A record with a burst of four bytes in it is refused.** -/
theorem bootMetadataDecode_burst {r : BootMetadataRecord} {input : List UInt8}
    (h : Crc.Burst 4 (encodedRecord r) input) : ∃ e, bootMetadataDecode input = .error e := by
  cases hdecode : bootMetadataDecode input with
  | error e => exact ⟨e, rfl⟩
  | ok r' =>
    have hinput := eq_codeword_of_decode hdecode
    rw [encodedRecord_eq, hinput] at h
    exact absurd rfl (ne_codeword_of_burst h.of_append_right)

end Stm32SecurityLab
