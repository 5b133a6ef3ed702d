import Stm32SecurityLab.Bytes
import Stm32SecurityLab.Layout

/-!
# The boot metadata record

The pure half of `boot_metadata.c`: the record, its canonical forms, the 128-byte encoding with
its CRC and commit marker, and the transition relation.

The `state` field of the C record is an enumeration read from flash by a cast. The target gives it
the one byte its six values need, so the cast keeps the low byte of the word, and
`state_record_is_canonical` rejects what is past the last enumerator only afterwards. Here the cast
itself fails on such a byte, with the status the canonicity test returns at the same place.

## Main definitions

* `BootMetadataRecord`, `stateRecordIsCanonical`
* `bootMetadataEncode`, `bootMetadataDecode`
* `bootMetadataValidateTransition`, `bootMetadataPrepareNext`

## Main results

* `bootMetadataDecode_encode` — a canonical record is read back exactly
* `bootMetadataDecode_canonical` — nothing else leaves the decoder
* `not_decode_of_marker` — without all eight bytes of the commit marker nothing decodes
-/

namespace Stm32SecurityLab

/-! ### Records -/

/-- `boot_metadata_state_t`. -/
inductive BootMetadataState where
  | empty
  | writing
  | candidateReady
  | pendingTrial
  | confirmed
  | rejectedInvalid
  deriving DecidableEq, Repr

/-- The value of a state in an encoded record. -/
def BootMetadataState.toUInt32 : BootMetadataState → UInt32
  | .empty => 0
  | .writing => 1
  | .candidateReady => 2
  | .pendingTrial => 3
  | .confirmed => 4
  | .rejectedInvalid => 5

/-- The cast from flash to the one byte of the enumeration, with `state_value_is_valid`. -/
def BootMetadataState.ofUInt32 (v : UInt32) : Option BootMetadataState :=
  if v.toUInt8 = 0 then some .empty
  else if v.toUInt8 = 1 then some .writing
  else if v.toUInt8 = 2 then some .candidateReady
  else if v.toUInt8 = 3 then some .pendingTrial
  else if v.toUInt8 = 4 then some .confirmed
  else if v.toUInt8 = 5 then some .rejectedInvalid
  else none

@[simp] theorem BootMetadataState.ofUInt32_toUInt32 (s : BootMetadataState) :
    BootMetadataState.ofUInt32 s.toUInt32 = some s := by
  cases s <;> rfl

/-- `boot_metadata_status_t` without `OK`. -/
inductive BootMetadataError where
  | invalidArgument
  | badFormat
  | crc
  | noValidCopy
  | ambiguous
  | badTransition
  | sequence
  | flash
  deriving DecidableEq, Repr

/-- `boot_metadata_record_t`. -/
structure BootMetadataRecord where
  sequence : UInt32
  state : BootMetadataState
  activeSlot : UInt32
  candidateSlot : UInt32
  candidateImageVersion : UInt32
  bootAttemptCount : UInt32
  confirmationState : UInt32
  result : UInt32
  deriving DecidableEq, Repr

/-- `boot_metadata_empty`: the record a blank journal starts from. It is not canonical. -/
def bootMetadataEmpty : BootMetadataRecord where
  sequence := 0
  state := .empty
  activeSlot := bootSlotNone
  candidateSlot := bootSlotNone
  candidateImageVersion := 0
  bootAttemptCount := 0
  confirmationState := 0
  result := 0

/-- `BOOT_METADATA_MAX_BOOT_ATTEMPTS`. -/
def bootMetadataMaxBootAttempts : UInt32 := 3

/-- `slot_value_is_valid`. -/
def slotValueIsValid (slot : UInt32) : Bool :=
  slot == BootSlotId.a.toUInt32 || slot == BootSlotId.b.toUInt32 || slot == bootSlotNone

/-- `state_record_is_canonical`. -/
def stateRecordIsCanonical (r : BootMetadataRecord) : Bool :=
  if r.sequence = 0 ∨ r.sequence = 0xFFFFFFFF ∨ ¬ slotValueIsValid r.activeSlot ∨
      ¬ slotValueIsValid r.candidateSlot ∨ r.bootAttemptCount > bootMetadataMaxBootAttempts ∨
      r.confirmationState > 1 then
    false
  else
    match r.state with
    | .empty =>
      r.activeSlot == bootSlotNone && r.candidateSlot == bootSlotNone &&
        r.candidateImageVersion == 0 && r.bootAttemptCount == 0 && r.confirmationState == 0
    | .confirmed =>
      r.activeSlot != bootSlotNone && r.candidateSlot == bootSlotNone &&
        r.candidateImageVersion != 0 && r.bootAttemptCount == 0 && r.confirmationState == 1
    | .writing | .candidateReady | .pendingTrial | .rejectedInvalid =>
      if r.candidateSlot = bootSlotNone ∨ r.candidateImageVersion = 0 ∨
          (r.activeSlot ≠ bootSlotNone ∧ r.activeSlot = r.candidateSlot) then
        false
      else if r.state ≠ .pendingTrial ∧ r.bootAttemptCount ≠ 0 then
        false
      else
        r.confirmationState == 0

/-- `transition_state_allowed`. -/
def transitionStateAllowed : BootMetadataState → BootMetadataState → Bool
  | .empty, next => next == .writing || next == .confirmed
  | .writing, next => next == .candidateReady || next == .rejectedInvalid
  | .candidateReady, next => next == .pendingTrial || next == .rejectedInvalid
  | .pendingTrial, next => next == .pendingTrial || next == .confirmed || next == .rejectedInvalid
  | .confirmed, next => next == .writing || next == .confirmed
  | .rejectedInvalid, next => next == .writing

/-- `transition_fields_allowed`. -/
def transitionFieldsAllowed (current next : BootMetadataRecord) : Bool :=
  if current.state = .pendingTrial ∧ next.state = .pendingTrial then
    if current.bootAttemptCount = 0 then
      false
    else
      next.activeSlot == current.activeSlot && next.candidateSlot == current.candidateSlot &&
        next.candidateImageVersion == current.candidateImageVersion &&
        next.bootAttemptCount + 1 == current.bootAttemptCount && next.confirmationState == 0
  else if current.state = .pendingTrial ∧ next.state = .confirmed then
    next.activeSlot == current.candidateSlot && next.candidateSlot == bootSlotNone &&
      next.candidateImageVersion == current.candidateImageVersion &&
      next.bootAttemptCount == 0 && next.confirmationState == 1
  else if current.state = .confirmed ∧ next.state = .confirmed then
    next.activeSlot == current.activeSlot && next.candidateSlot == bootSlotNone &&
      next.candidateImageVersion == current.candidateImageVersion &&
      next.bootAttemptCount == 0 && next.confirmationState == 1
  else
    true

/-- `records_are_equal`. -/
def recordsAreEqual (left right : BootMetadataRecord) : Bool :=
  left.sequence == right.sequence && left.state == right.state &&
    left.activeSlot == right.activeSlot && left.candidateSlot == right.candidateSlot &&
    left.candidateImageVersion == right.candidateImageVersion &&
    left.bootAttemptCount == right.bootAttemptCount &&
    left.confirmationState == right.confirmationState && left.result == right.result

theorem recordsAreEqual_iff {left right : BootMetadataRecord} :
    recordsAreEqual left right = true ↔ left = right := by
  cases left
  cases right
  simp [recordsAreEqual, and_assoc]

/-- `boot_metadata_validate_transition`. -/
def bootMetadataValidateTransition (current next : BootMetadataRecord) :
    Except BootMetadataError Unit :=
  if next.sequence = 0 ∨ next.sequence = 0xFFFFFFFF ∨ current.sequence = 0xFFFFFFFF ∨
      next.sequence ≠ current.sequence + 1 then
    .error .sequence
  else if stateRecordIsCanonical next = false then
    .error .badFormat
  else if transitionStateAllowed current.state next.state = false then
    .error .badTransition
  else if transitionFieldsAllowed current next = false then
    .error .badTransition
  else
    .ok ()

/-- `boot_metadata_prepare_next`. -/
def bootMetadataPrepareNext (current : BootMetadataRecord) (state : BootMetadataState)
    (activeSlot candidateSlot candidateImageVersion bootAttemptCount confirmationState
      result : UInt32) : Except BootMetadataError BootMetadataRecord :=
  if current.sequence ≥ 0xFFFFFFFF - 1 then
    .error .sequence
  else
    let next : BootMetadataRecord :=
      { sequence := current.sequence + 1
        state
        activeSlot
        candidateSlot
        candidateImageVersion
        bootAttemptCount
        confirmationState
        result }
    match bootMetadataValidateTransition current next with
    | .ok () => .ok next
    | .error e => .error e

/-! ### The encoding -/

/-- `BOOT_METADATA_MAGIC`, the bytes `BTM1`. -/
def bootMetadataMagic : UInt32 := 0x314D5442

/-- `BOOT_METADATA_COMMIT0`. -/
def bootMetadataCommit0 : UInt32 := 0xC0DEF00D

/-- `BOOT_METADATA_COMMIT1`. -/
def bootMetadataCommit1 : UInt32 := 0x3F210FF2

def metadataBodySize : ℕ := 60
def metadataCrcOffset : ℕ := 60
def metadataPaddingOffset : ℕ := 64
def metadataCommitOffset : ℕ := 120
def metadataCommitSize : ℕ := 8

/-- One bit of the inner loop of `crc32_update`. -/
def crc32Bit (crc : UInt32) : UInt32 :=
  (crc >>> 1) ^^^ (0xEDB88320 &&& (0 - (crc &&& 1)))

/-- One byte of the outer loop of `crc32_update`. -/
def crc32Byte (crc : UInt32) (b : UInt8) : UInt32 :=
  Nat.repeat crc32Bit 8 (crc ^^^ b.toUInt32)

/-- `crc32_update` of `boot_metadata.c`. -/
def crc32Update (crc : UInt32) (data : List UInt8) : UInt32 :=
  ~~~ data.foldl crc32Byte (~~~ crc)

/-- The words `encode_without_crc` stores at offsets 0 to 40, and the zeros up to the CRC. -/
def bodyWords (r : BootMetadataRecord) : List UInt32 :=
  [bootMetadataMagic, Layout.bootMetadataFormatVersion,
    UInt32.ofNat Layout.bootMetadataRecordSize, r.sequence, r.state.toUInt32, r.activeSlot,
    r.candidateSlot, r.candidateImageVersion, r.bootAttemptCount, r.confirmationState, r.result,
    0, 0, 0, 0]

/-- The first 60 bytes of `encode_without_crc`; the rest of its output is zero. -/
def encodeWithoutCrc (r : BootMetadataRecord) : List UInt8 := storeWords (bodyWords r)

/-- The 32 words of an encoded record: the body, its CRC, 56 bytes of zero padding and the commit
marker. -/
def recordWords (r : BootMetadataRecord) : List UInt32 :=
  bodyWords r ++ [crc32Update 0 (encodeWithoutCrc r)] ++ List.replicate 14 0 ++
    [bootMetadataCommit0, bootMetadataCommit1]

/-- The 128 bytes `boot_metadata_encode` produces for a canonical record. -/
def encodedRecord (r : BootMetadataRecord) : List UInt8 := storeWords (recordWords r)

/-- `boot_metadata_encode`. -/
def bootMetadataEncode (r : BootMetadataRecord) : Except BootMetadataError (List UInt8) :=
  if stateRecordIsCanonical r = false then .error .badFormat else .ok (encodedRecord r)

/-- `boot_metadata_decode`. -/
def bootMetadataDecode (input : List UInt8) : Except BootMetadataError BootMetadataRecord :=
  let p := byteAt input
  if input.length ≠ Layout.bootMetadataRecordSize then
    .error .badFormat
  else if loadLe32 p metadataCommitOffset ≠ bootMetadataCommit0 ∨
      loadLe32 p (metadataCommitOffset + 4) ≠ bootMetadataCommit1 then
    .error .badFormat
  else if (List.range' metadataPaddingOffset
      (metadataCommitOffset - metadataPaddingOffset)).any (fun i => p i != 0) then
    .error .badFormat
  else if loadLe32 p 0 ≠ bootMetadataMagic ∨ loadLe32 p 4 ≠ Layout.bootMetadataFormatVersion ∨
      loadLe32 p 8 ≠ UInt32.ofNat Layout.bootMetadataRecordSize ∨ loadLe32 p 44 ≠ 0 ∨
      loadLe32 p 48 ≠ 0 ∨ loadLe32 p 52 ≠ 0 ∨ loadLe32 p 56 ≠ 0 then
    .error .badFormat
  else if crc32Update 0 (slice p 0 metadataBodySize) ≠ loadLe32 p metadataCrcOffset then
    .error .crc
  else
    match BootMetadataState.ofUInt32 (loadLe32 p 16) with
    | none => .error .badFormat
    | some state =>
      let record : BootMetadataRecord :=
        { sequence := loadLe32 p 12
          state
          activeSlot := loadLe32 p 20
          candidateSlot := loadLe32 p 24
          candidateImageVersion := loadLe32 p 28
          bootAttemptCount := loadLe32 p 32
          confirmationState := loadLe32 p 36
          result := loadLe32 p 40 }
      if stateRecordIsCanonical record then .ok record else .error .badFormat

/-! ### Reading a record back -/

@[simp] theorem encodedRecord_length (r : BootMetadataRecord) : (encodedRecord r).length = 128 := by
  simp [encodedRecord, recordWords, bodyWords]

theorem encodeWithoutCrc_length (r : BootMetadataRecord) : (encodeWithoutCrc r).length = 60 := by
  simp [encodeWithoutCrc, bodyWords]

theorem loadLe32_encodedRecord {r : BootMetadataRecord} {k : ℕ} {v : UInt32}
    (h : (recordWords r)[k]? = some v) : loadLe32 (byteAt (encodedRecord r)) (4 * k) = v :=
  loadLe32_storeWords h

theorem slice_encodedRecord_body (r : BootMetadataRecord) :
    slice (byteAt (encodedRecord r)) 0 metadataBodySize = encodeWithoutCrc r := by
  rw [encodedRecord, recordWords, List.append_assoc, List.append_assoc, storeWords_append]
  exact slice_byteAt_append (encodeWithoutCrc_length r)

/-- A zero word of the padding is four zero bytes. -/
theorem encodedRecord_padding (r : BootMetadataRecord) :
    (List.range' metadataPaddingOffset (metadataCommitOffset - metadataPaddingOffset)).any
      (fun i => byteAt (encodedRecord r) i != 0) = false := by
  rw [List.any_eq_false]
  intro i hi
  obtain ⟨h₁, h₂⟩ := List.mem_range'_1.mp hi
  have hsplit : encodedRecord r = storeWords (bodyWords r ++ [crc32Update 0 (encodeWithoutCrc r)]) ++
      (storeWords (List.replicate 14 0) ++ storeWords [bootMetadataCommit0, bootMetadataCommit1]) := by
    rw [encodedRecord, recordWords, storeWords_append, storeWords_append, List.append_assoc]
  have hlen : (storeWords (bodyWords r ++ [crc32Update 0 (encodeWithoutCrc r)])).length = 64 := by
    simp [bodyWords]
  obtain ⟨j, rfl⟩ := Nat.exists_eq_add_of_le h₁
  have hj : j < 56 := by simp only [metadataPaddingOffset, metadataCommitOffset] at h₂; omega
  rw [show metadataPaddingOffset = 64 from rfl, hsplit, byteAt_append_right hlen,
    byteAt_append_left (by simpa using hj)]
  have hzero : storeWords (List.replicate 14 0) = List.replicate 56 0 := by decide
  rw [hzero, byteAt_replicate_zero]
  decide

/-- **A canonical record is read back exactly.** -/
theorem bootMetadataDecode_encode {r : BootMetadataRecord} (h : stateRecordIsCanonical r = true) :
    bootMetadataDecode (encodedRecord r) = .ok r := by
  have hw : ∀ k v, (recordWords r)[k]? = some v →
      loadLe32 (byteAt (encodedRecord r)) (4 * k) = v := fun _ _ => loadLe32_encodedRecord
  have h0 := hw 0 bootMetadataMagic rfl
  have h1 := hw 1 Layout.bootMetadataFormatVersion rfl
  have h2 := hw 2 (UInt32.ofNat Layout.bootMetadataRecordSize) rfl
  have h3 := hw 3 r.sequence rfl
  have h4 := hw 4 r.state.toUInt32 rfl
  have h5 := hw 5 r.activeSlot rfl
  have h6 := hw 6 r.candidateSlot rfl
  have h7 := hw 7 r.candidateImageVersion rfl
  have h8 := hw 8 r.bootAttemptCount rfl
  have h9 := hw 9 r.confirmationState rfl
  have h10 := hw 10 r.result rfl
  have h11 := hw 11 0 rfl
  have h12 := hw 12 0 rfl
  have h13 := hw 13 0 rfl
  have h14 := hw 14 0 rfl
  have h15 := hw 15 (crc32Update 0 (encodeWithoutCrc r)) rfl
  have h30 := hw 30 bootMetadataCommit0 rfl
  have h31 := hw 31 bootMetadataCommit1 rfl
  simp only [Nat.reduceMul] at *
  have hlen : ¬ 128 ≠ Layout.bootMetadataRecordSize := by decide
  rw [bootMetadataDecode]
  simp only [encodedRecord_padding]
  simp only [encodedRecord_length, slice_encodedRecord_body, metadataCommitOffset,
    metadataCrcOffset, Nat.reduceAdd, h0, h1, h2, h3, h4, h5, h6, h7, h8, h9, h10, h11, h12, h13,
    h14, h15, h30, h31, hlen, ne_eq, not_true_eq_false, or_self, if_false,
    BootMetadataState.ofUInt32_toUInt32, h, if_true, Bool.false_eq_true]

/-! ### What the decoder lets through -/

/-- The checks `bootMetadataDecode` has passed when it returns a record. -/
theorem bootMetadataDecode_ok {input : List UInt8} {r : BootMetadataRecord}
    (h : bootMetadataDecode input = .ok r) :
    input.length = Layout.bootMetadataRecordSize ∧
      loadLe32 (byteAt input) metadataCommitOffset = bootMetadataCommit0 ∧
      loadLe32 (byteAt input) (metadataCommitOffset + 4) = bootMetadataCommit1 ∧
      stateRecordIsCanonical r = true := by
  rw [bootMetadataDecode] at h
  simp only at h
  split at h
  · cases h
  rename_i hlen
  split at h
  · cases h
  rename_i hmarker
  split at h
  · cases h
  split at h
  · cases h
  split at h
  · cases h
  split at h
  · cases h
  split at h
  · rename_i hcanon
    cases h
    rw [not_or, not_not, not_not] at hmarker
    exact ⟨not_not.mp hlen, hmarker.1, hmarker.2, hcanon⟩
  · cases h

/-- Only canonical records leave the decoder. -/
theorem bootMetadataDecode_canonical {input : List UInt8} {r : BootMetadataRecord}
    (h : bootMetadataDecode input = .ok r) : stateRecordIsCanonical r = true :=
  (bootMetadataDecode_ok h).2.2.2

/-- Without the whole commit marker there is no record. -/
theorem not_decode_of_marker {input : List UInt8} {r : BootMetadataRecord} {i : ℕ} (hi : i < 8)
    (hne : byteAt input (metadataCommitOffset + i) ≠
      byteAt (storeWords [bootMetadataCommit0, bootMetadataCommit1]) i) :
    bootMetadataDecode input ≠ .ok r := by
  intro h
  obtain ⟨-, h₀, h₁, -⟩ := bootMetadataDecode_ok h
  apply hne
  have hs₀ := storeLe32_loadLe32 (byteAt input) metadataCommitOffset
  have hs₁ := storeLe32_loadLe32 (byteAt input) (metadataCommitOffset + 4)
  rw [h₀] at hs₀
  rw [h₁] at hs₁
  have hs : slice (byteAt input) metadataCommitOffset 8 =
      storeWords [bootMetadataCommit0, bootMetadataCommit1] := by
    rw [slice_add _ _ 4 4, ← hs₀, ← hs₁]
    rfl
  rw [← hs, byteAt_slice hi]

end Stm32SecurityLab
