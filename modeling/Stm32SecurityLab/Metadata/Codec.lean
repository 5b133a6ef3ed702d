import Stm32SecurityLab.Metadata.Record

/-!
# How much of a record the decoder checks

An encoded record is thirty-two words: the fields, the checksum, padding and the commit marker.
Reading a canonical record back is `bootMetadataDecode_encode`. In the other direction every byte of
an accepted input is pinned by the record it returns, but for three: the cast to the one-byte
enumeration drops the upper bytes of the state word before `state_value_is_valid` sees it. The
checksum covers those bytes, so each value of them is one more copy of the same record.

## Main definitions

* `narrowed` — a memory with the bytes the cast drops cleared
* `sealBody` — sixty bytes with their checksum, padding and commit marker

## Main results

* `Decoded.input_eq` — an accepted input is its body, sealed
* `Decoded.encodedRecord_eq` — and its record encodes to the narrowed body, sealed
* `bootMetadata_codec` — encoder and decoder are inverse exactly where the dropped bytes are zero
-/

namespace Stm32SecurityLab

variable {input input' : List UInt8} {r r' : BootMetadataRecord}

/-! ### The bytes the cast drops -/

/-- The upper three bytes of the word at offset 16. -/
def Dropped (i : ℕ) : Prop := 17 ≤ i ∧ i < 20

instance : DecidablePred Dropped := fun i => inferInstanceAs (Decidable (17 ≤ i ∧ i < 20))

/-- What is left of a memory when the cast has dropped the upper bytes of the state word. -/
def narrowed (p : Mem) : Mem := fun i => if Dropped i then 0 else p i

theorem narrowed_of_dropped {p : Mem} {i : ℕ} (h : Dropped i) : narrowed p i = 0 := if_pos h

theorem narrowed_of_not_dropped {p : Mem} {i : ℕ} (h : ¬ Dropped i) : narrowed p i = p i := if_neg h

theorem toUInt8_loadLe32 (p : Mem) (off : ℕ) : (loadLe32 p off).toUInt8 = p off := by
  apply UInt8.eq_of_toBitVec_eq
  ext i hi
  rw [loadLe32]
  interval_cases i <;> simp

/-- Away from the state word the cast changes nothing. -/
theorem loadLe32_narrowed {p : Mem} {off : ℕ} (h : off + 3 < 17 ∨ 20 ≤ off) :
    loadLe32 (narrowed p) off = loadLe32 p off := by
  refine loadLe32_congr fun k hk => narrowed_of_not_dropped ?_
  rw [Dropped]
  omega

theorem loadLe32_narrowed_state (p : Mem) : loadLe32 (narrowed p) 16 = (p 16).toUInt32 := by
  have h₀ : narrowed p 16 = p 16 := narrowed_of_not_dropped (by decide)
  have h₁ : narrowed p (16 + 1) = 0 := narrowed_of_dropped (by decide)
  have h₂ : narrowed p (16 + 2) = 0 := narrowed_of_dropped (by decide)
  have h₃ : narrowed p (16 + 3) = 0 := narrowed_of_dropped (by decide)
  rw [loadLe32, h₀, h₁, h₂, h₃]
  simp

/-- The cast returns the state whose value is the low byte. -/
theorem BootMetadataState.toUInt32_of_ofUInt32 {v : UInt32} {s : BootMetadataState}
    (h : BootMetadataState.ofUInt32 v = some s) : s.toUInt32 = v.toUInt8.toUInt32 := by
  rw [BootMetadataState.ofUInt32] at h
  split_ifs at h with h₀ h₁ h₂ h₃ h₄ h₅
  · cases h; rw [h₀]; rfl
  · cases h; rw [h₁]; rfl
  · cases h; rw [h₂]; rfl
  · cases h; rw [h₃]; rfl
  · cases h; rw [h₄]; rfl
  · cases h; rw [h₅]; rfl

/-! ### What the decoder has read -/

/-- What the decoder has read when it returns the record `r`. -/
structure Decoded (input : List UInt8) (r : BootMetadataRecord) : Prop where
  length : input.length = Layout.bootMetadataRecordSize
  body : bodyWords r = (List.range 15).map fun k => loadLe32 (narrowed (byteAt input)) (0 + 4 * k)
  crc : crc32Update 0 (slice (byteAt input) 0 metadataBodySize) =
    loadLe32 (byteAt input) metadataCrcOffset
  padding : ∀ i, metadataPaddingOffset ≤ i → i < metadataCommitOffset → byteAt input i = 0
  commit0 : loadLe32 (byteAt input) metadataCommitOffset = bootMetadataCommit0
  commit1 : loadLe32 (byteAt input) (metadataCommitOffset + 4) = bootMetadataCommit1
  canonical : stateRecordIsCanonical r = true

theorem decoded_of_decode (h : bootMetadataDecode input = .ok r) : Decoded input r := by
  rw [bootMetadataDecode] at h
  dsimp only at h
  split_ifs at h with hlength hcommit hpadding hfixed hcrc
  cases hstate : BootMetadataState.ofUInt32 (loadLe32 (byteAt input) 16) with
  | none =>
    rw [hstate] at h
    cases h
  | some state =>
    rw [hstate] at h
    dsimp only at h
    split_ifs at h with hcanonical
    cases h
    simp only [not_or, not_not] at hlength hcommit hfixed hcrc
    obtain ⟨hmagic, hversion, hsize, h44, h48, h52, h56⟩ := hfixed
    refine ⟨hlength, ?_, hcrc, fun i h₁ h₂ => ?_, hcommit.1, hcommit.2, hcanonical⟩
    · have hword := BootMetadataState.toUInt32_of_ofUInt32 hstate
      rw [toUInt8_loadLe32] at hword
      have hlow : ∀ off, off + 3 < 17 ∨ 20 ≤ off →
          loadLe32 (narrowed (byteAt input)) off = loadLe32 (byteAt input) off :=
        fun _ hoff => loadLe32_narrowed hoff
      rw [bodyWords, ← hmagic, ← hversion, ← hsize, hword]
      simp only [List.range_succ, List.range_zero, List.map_nil, List.map_cons,
        List.nil_append, List.cons_append, Nat.reduceMul, Nat.reduceAdd, loadLe32_narrowed_state,
        hlow _ (by omega : (0 : ℕ) + 3 < 17 ∨ 20 ≤ 0), hlow 4 (by omega), hlow 8 (by omega),
        hlow 12 (by omega), hlow 20 (by omega), hlow 24 (by omega), hlow 28 (by omega),
        hlow 32 (by omega), hlow 36 (by omega), hlow 40 (by omega), hlow 44 (by omega),
        hlow 48 (by omega), hlow 52 (by omega), hlow 56 (by omega), h44, h48, h52, h56]
    · rw [Bool.not_eq_true, List.any_eq_false] at hpadding
      have hi := hpadding i (List.mem_range'_1.mpr ⟨h₁, ?_⟩)
      · simpa using hi
      · simp only [metadataPaddingOffset, metadataCommitOffset] at h₂ ⊢
        omega

/-- A word of zero bytes is zero. -/
theorem loadLe32_eq_zero {p : Mem} {off : ℕ} (h : ∀ k < 4, p (off + k) = 0) : loadLe32 p off = 0 := by
  have hzero : loadLe32 p off = loadLe32 (fun _ => 0) 0 := loadLe32_congr fun k hk => h k hk
  rw [hzero]
  decide

/-! ### Sealing -/

/-- The body of a record with its CRC, the padding and the commit marker behind it. -/
def sealBody (body : List UInt8) : List UInt8 :=
  body ++ storeWords ([crc32Update 0 body] ++ List.replicate 14 0 ++
    [bootMetadataCommit0, bootMetadataCommit1])

theorem encodedRecord_eq_sealBody (r : BootMetadataRecord) :
    encodedRecord r = sealBody (encodeWithoutCrc r) := by
  rw [encodedRecord, recordWords, List.append_assoc, List.append_assoc, storeWords_append, sealBody,
    List.append_assoc, encodeWithoutCrc]

theorem sealBody_injective {body body' : List UInt8} (hlength : body.length = body'.length)
    (h : sealBody body = sealBody body') : body = body' :=
  (List.append_inj h hlength).1

/-- **An accepted input is its body, sealed.** -/
theorem Decoded.input_eq (h : Decoded input r) : sealBody (slice (byteAt input) 0 60) = input := by
  have hzero : ∀ k ∈ List.range 14, loadLe32 (byteAt input) (60 + 4 * (1 + k)) = 0 := by
    intro k hk
    have hk' : k < 14 := List.mem_range.mp hk
    refine loadLe32_eq_zero fun j hj => h.padding _ ?_ ?_ <;>
      simp only [metadataPaddingOffset, metadataCommitOffset] <;> omega
  have hreplicate : ((List.range 14).map (1 + ·)).map
      (fun k => loadLe32 (byteAt input) (60 + 4 * k)) = List.replicate 14 0 := by
    rw [List.map_map]
    exact List.map_eq_replicate_iff.mpr hzero
  have hcrc := h.crc
  have hcommit0 := h.commit0
  have hcommit1 := h.commit1
  simp only [metadataBodySize, metadataCrcOffset, metadataCommitOffset] at hcrc hcommit0 hcommit1
  have hsplit : List.range 17 = [0] ++ (List.range 14).map (1 + ·) ++ [15, 16] := rfl
  have htail : [crc32Update 0 (slice (byteAt input) 0 60)] ++ List.replicate 14 0 ++
      [bootMetadataCommit0, bootMetadataCommit1] =
        (List.range 17).map fun k => loadLe32 (byteAt input) (60 + 4 * k) := by
    rw [hsplit, List.map_append, List.map_append, hreplicate, hcrc, ← hcommit0, ← hcommit1]
    rfl
  have hlength : 60 + 4 * 17 = input.length := by
    rw [h.length]
    rfl
  have hall := slice_byteAt input
  rw [← hlength, slice_add, Nat.zero_add] at hall
  rw [sealBody, htail, storeWords_loadLe32]
  exact hall

/-- **Its record encodes to the narrowed body, sealed.** -/
theorem Decoded.encodeWithoutCrc_eq (h : Decoded input r) :
    encodeWithoutCrc r = slice (narrowed (byteAt input)) 0 60 := by
  rw [encodeWithoutCrc, h.body, storeWords_loadLe32]

theorem Decoded.encodedRecord_eq (h : Decoded input r) :
    encodedRecord r = sealBody (slice (narrowed (byteAt input)) 0 60) := by
  rw [encodedRecord_eq_sealBody, h.encodeWithoutCrc_eq]

theorem BootMetadataState.toUInt32_injective : Function.Injective BootMetadataState.toUInt32 := by
  intro s s' h
  have hs := BootMetadataState.ofUInt32_toUInt32 s
  rw [h, BootMetadataState.ofUInt32_toUInt32] at hs
  exact (Option.some.inj hs).symm

theorem encodeWithoutCrc_injective : Function.Injective encodeWithoutCrc := by
  intro r r' h
  have hwords : bodyWords r = bodyWords r' := storeWords_injective h
  simp only [bodyWords, List.cons.injEq, and_true, true_and] at hwords
  obtain ⟨hsequence, hstate, hactive, hcandidate, hversion, hattempts, hconfirmation, hresult⟩ :=
    hwords
  cases r
  cases r'
  cases hsequence
  cases BootMetadataState.toUInt32_injective hstate
  cases hactive
  cases hcandidate
  cases hversion
  cases hattempts
  cases hconfirmation
  cases hresult
  rfl

/-! ### The codec -/

/-- The upper three bytes of the state word are zero. -/
def NarrowState (input : List UInt8) : Prop := ∀ i, 17 ≤ i → i < 20 → byteAt input i = 0

/-- Two inputs agree in the upper bytes of the state word, or differ elsewhere in the body. -/
def DifferInRecord (input input' : List UInt8) : Prop :=
  (∀ i, 17 ≤ i → i < 20 → byteAt input i = byteAt input' i) ∨
    ∃ i < 60, ¬ (17 ≤ i ∧ i < 20) ∧ byteAt input i ≠ byteAt input' i

theorem slice_narrowed_iff (p q : Mem) :
    slice (narrowed p) 0 60 = slice (narrowed q) 0 60 ↔ ∀ i < 60, ¬ Dropped i → p i = q i := by
  constructor
  · intro h i hi hdropped
    have hp := byteAt_slice (p := narrowed p) (a := 0) hi
    rw [h, byteAt_slice hi, Nat.zero_add, narrowed_of_not_dropped hdropped,
      narrowed_of_not_dropped hdropped] at hp
    exact hp.symm
  · intro h
    refine slice_congr fun i _ hi => ?_
    by_cases hdropped : Dropped i
    · rw [narrowed_of_dropped hdropped, narrowed_of_dropped hdropped]
    · rw [narrowed_of_not_dropped hdropped, narrowed_of_not_dropped hdropped]
      exact h i (by omega) hdropped

/-- Two accepted inputs have the same record exactly if they agree where the decoder looks. -/
theorem Decoded.eq_iff (h : Decoded input r) (h' : Decoded input' r') :
    r = r' ↔ ∀ i < 60, ¬ Dropped i → byteAt input i = byteAt input' i := by
  rw [← slice_narrowed_iff, ← h.encodeWithoutCrc_eq, ← h'.encodeWithoutCrc_eq]
  exact encodeWithoutCrc_injective.eq_iff.symm

theorem Decoded.input_eq_iff (h : Decoded input r) (h' : Decoded input' r') :
    input = input' ↔ ∀ i < 60, byteAt input i = byteAt input' i := by
  constructor
  · rintro rfl i _
    rfl
  · intro hbytes
    rw [← h.input_eq, ← h'.input_eq, slice_congr fun i _ hi => hbytes i (by omega)]

theorem Decoded.reencoded_iff (h : Decoded input r) : encodedRecord r = input ↔ NarrowState input := by
  have hbodies : encodedRecord r = input ↔
      slice (narrowed (byteAt input)) 0 60 = slice (byteAt input) 0 60 := by
    constructor
    · intro heq
      refine sealBody_injective (by rw [slice_length, slice_length]) ?_
      rw [← h.encodedRecord_eq, heq, h.input_eq]
    · intro heq
      rw [h.encodedRecord_eq, heq, h.input_eq]
  rw [hbodies]
  constructor
  · intro heq i h₁ h₂
    have hi := byteAt_slice (p := narrowed (byteAt input)) (a := 0) (show i < 60 by omega)
    rw [heq, byteAt_slice (by omega), Nat.zero_add, narrowed_of_dropped ⟨h₁, h₂⟩] at hi
    exact hi
  · intro hnarrow
    refine slice_congr fun i _ _ => ?_
    by_cases hdropped : Dropped i
    · rw [narrowed_of_dropped hdropped, hnarrow i hdropped.1 hdropped.2]
    · exact narrowed_of_not_dropped hdropped

theorem Decoded.tell_apart_iff (h : Decoded input r) (h' : Decoded input' r') :
    (r = r' ↔ input = input') ↔ DifferInRecord input input' := by
  rw [h.eq_iff h', h.input_eq_iff h', DifferInRecord]
  constructor
  · intro hiff
    by_cases hsame : ∀ i < 60, ¬ Dropped i → byteAt input i = byteAt input' i
    · exact .inl fun i _ hi => hiff.mp hsame i (by omega)
    · push Not at hsame
      exact .inr hsame
  · rintro (hdropped | ⟨i, hi, hnot, hne⟩)
    · refine ⟨fun hsame i hi => ?_, fun hsame i hi _ => hsame i hi⟩
      by_cases hi' : Dropped i
      · exact hdropped i hi'.1 hi'.2
      · exact hsame i hi hi'
    · exact ⟨fun hsame => absurd (hsame i hi hnot) hne, fun hsame => absurd (hsame i hi) hne⟩

theorem bootMetadataEncode_of_canonical (h : stateRecordIsCanonical r = true) :
    bootMetadataEncode r = .ok (encodedRecord r) := by
  rw [bootMetadataEncode, h]
  rfl

/-- **The codec.** What is encoded decodes to the record it came from. What is decoded encodes to
the bytes it came from exactly if the upper bytes of its state word are zero, and inputs of another
length are refused. Two accepted inputs that differ have different records exactly if they do not
differ in those bytes alone. Only canonical records are ever decoded. -/
theorem bootMetadata_codec (r r' : BootMetadataRecord) (input input' : List UInt8) :
    (bootMetadataEncode r = .ok input →
      input.length = Layout.bootMetadataRecordSize ∧ bootMetadataDecode input = .ok r) ∧
    (bootMetadataDecode input = .ok r → (bootMetadataEncode r = .ok input ↔ NarrowState input)) ∧
    (input.length ≠ Layout.bootMetadataRecordSize →
      bootMetadataDecode input = .error .badFormat) ∧
    (bootMetadataDecode input = .ok r → bootMetadataDecode input' = .ok r' →
      ((r = r' ↔ input = input') ↔ DifferInRecord input input')) ∧
    (bootMetadataDecode input = .ok r → stateRecordIsCanonical r = true) := by
  refine ⟨fun h => ?_, fun h => ?_, fun h => ?_,
    fun h h' => (decoded_of_decode h).tell_apart_iff (decoded_of_decode h'),
    bootMetadataDecode_canonical⟩
  · rw [bootMetadataEncode] at h
    split_ifs at h with hcanonical
    cases h
    rw [Bool.not_eq_false] at hcanonical
    exact ⟨encodedRecord_length r, bootMetadataDecode_encode hcanonical⟩
  · have hdecoded := decoded_of_decode h
    rw [bootMetadataEncode_of_canonical hdecoded.canonical, ← hdecoded.reencoded_iff, Except.ok.injEq]
  · rw [bootMetadataDecode]
    exact if_pos h

/-- A confirmed record of slot A. -/
def confirmedSlotA : BootMetadataRecord where
  sequence := 1
  state := .confirmed
  activeSlot := BootSlotId.a.toUInt32
  candidateSlot := bootSlotNone
  candidateImageVersion := 1
  bootAttemptCount := 0
  confirmationState := 1
  result := 0

/-- The same record with the state word 0x104, under a valid CRC. -/
def wideStateCopy : List UInt8 := sealBody (storeWords ((bodyWords confirmedSlotA).set 4 0x104))

/-- A copy with a state word past the enumeration is accepted as confirmed. It is not what the
encoder writes for its record, and the two copies decode to the same record. -/
theorem wideStateCopy_accepted :
    bootMetadataDecode wideStateCopy = .ok confirmedSlotA ∧
      bootMetadataEncode confirmedSlotA ≠ .ok wideStateCopy ∧
      bootMetadataDecode (encodedRecord confirmedSlotA) = .ok confirmedSlotA ∧
      encodedRecord confirmedSlotA ≠ wideStateCopy := by
  decide +kernel

end Stm32SecurityLab
