import Stm32SecurityLab.Image.Package

/-!
# What the image verifier accepts

The verifier of `signed_image.c` as one condition on the manifest, the signature and the payload,
and the passes that come after it: the preparation of a jump, the check of the jump context, and the
comparison of the context with the flash.

The verifier checks the range of the payload twice, in 32-bit arithmetic that saturates. On a slot
that ends below `2 ^ 32` nothing wraps, and both checks say that the image fits the slot.

## Main definitions

* `ImageAccepted` — the condition
* `confirmJumpContextMatchesFlash`

## Main results

* `signedImageVerifyUpdateSlotBuffer_iff` — what the verifier accepts, and what it reads
* `jump_agrees` — verification, preparation and jump agree
-/

namespace Stm32SecurityLab

open Crash

/-- The images the verifier is meant to accept. -/
structure ImageAccepted (crypto : Crypto) (manifestBytes signatureBytes : List UInt8)
    (payload : Mem) (payloadCapacity : ℕ) (publicKey : List UInt8) (slot : BootSlotDescriptor)
    (m : SignedManifest) : Prop where
  magic : m.magic = signedImageMagic
  headerVersion : m.headerVersion = updatePackageFormatVersion
  flags : m.flags &&& ~~~ Layout.signedImageFlagsAllowedMask = 0
  target : m.reserved0 = updatePackageTarget
  imageType : m.reserved1 = updatePackageImageTypeApplication
  version : minImageVersion ≤ m.imageVersion
  vector : m.vectorAddress.toNat = slot.payloadBase
  minSize : Layout.applicationMinSize ≤ m.imageSize.toNat
  maxSize : m.imageSize.toNat ≤ min slot.maximumPayloadSize payloadCapacity
  stack : Layout.applicationMspBase.toNat < (loadLe32 payload 0).toNat ∧
    (loadLe32 payload 0).toNat ≤ Layout.applicationMspEnd.toNat ∧ 8 ∣ (loadLe32 payload 0).toNat
  odd : (loadLe32 payload 4).toNat % 2 = 1
  reset : slot.payloadBase ≤ (loadLe32 payload 4).toNat - 1 ∧
    (loadLe32 payload 4).toNat - 1 < slot.payloadBase + m.imageSize.toNat
  hash : crypto.sha512 (slice payload 0 m.imageSize.toNat) = m.payloadSha512
  signature : crypto.ed25519Check signatureBytes publicKey manifestBytes = true

/-! ### The checks -/

section Checks

variable {m : SignedManifest} {slot : BootSlotDescriptor} {payload : Mem} {payloadEnd : ℕ}

theorem validateManifestHeader_iff :
    validateManifestHeader m (updateSlotPolicy slot) = .ok () ↔
      m.magic = signedImageMagic ∧ m.headerVersion = updatePackageFormatVersion ∧
        m.flags &&& ~~~ Layout.signedImageFlagsAllowedMask = 0 ∧ m.reserved0 = updatePackageTarget ∧
        m.reserved1 = updatePackageImageTypeApplication ∧ minImageVersion ≤ m.imageVersion := by
  rw [validateManifestHeader]
  have hfields : (updateSlotPolicy slot).requireUpdateFields = true := rfl
  simp only [hfields, if_true, except_bind_eq_ok, require_eq_ok, u32EqualRedundant_iff,
    UInt32.toNat_inj, exists_const]
  exact Iff.rfl

theorem checkedU32Add_eq_some {left right sum : ℕ} (hleft : left ≤ uint32Max) :
    checkedU32Add left right = some sum ↔ sum = left + right ∧ sum ≤ uint32Max := by
  rw [checkedU32Add]
  split
  · simp only [false_iff, reduceCtorEq]
    omega
  · rw [Option.some.injEq]
    omega

/-- **The first range check**, without its 32-bit arithmetic. -/
theorem validatePayloadRange_iff (hend : slot.slotEnd ≤ uint32Max)
    (hmax : slot.maximumPayloadSize = slot.slotEnd - slot.payloadBase) :
    validatePayloadRange m (updateSlotPolicy slot) = .ok payloadEnd ↔
      m.vectorAddress.toNat = slot.payloadBase ∧ Layout.applicationMinSize ≤ m.imageSize.toNat ∧
        m.imageSize.toNat ≤ slot.maximumPayloadSize ∧
        payloadEnd = m.vectorAddress.toNat + m.imageSize.toNat := by
  have hmin : 0 < Layout.applicationMinSize := by decide
  have hvec : m.vectorAddress.toNat ≤ uint32Max := Nat.le_of_lt_succ m.vectorAddress.toNat_lt
  rw [validatePayloadRange]
  simp only [except_bind_eq_ok, require_eq_ok, u32EqualRedundant_iff, exists_const]
  constructor
  · rintro ⟨hvector, hsize, hrest⟩
    cases hsum : checkedU32Add m.vectorAddress.toNat m.imageSize.toNat with
    | none => rw [hsum] at hrest; cases hrest
    | some sum =>
      rw [hsum] at hrest
      simp only [except_bind_eq_ok, require_eq_ok, exists_const] at hrest
      obtain ⟨hfits, -, hpure⟩ := hrest
      obtain rfl := Except.ok.inj hpure
      exact ⟨hvector, hsize, hfits, ((checkedU32Add_eq_some hvec).mp hsum).1⟩
  · rintro ⟨hvector, hsize, hfits, rfl⟩
    have hle : m.vectorAddress.toNat + m.imageSize.toNat ≤ slot.slotEnd := by omega
    have hsum : checkedU32Add m.vectorAddress.toNat m.imageSize.toNat = some _ :=
      (checkedU32Add_eq_some hvec).mpr ⟨rfl, hle.trans hend⟩
    refine ⟨hvector, hsize, ?_⟩
    rw [hsum]
    simp only [except_bind_eq_ok, require_eq_ok, exists_const]
    exact ⟨hfits, hle, rfl⟩

/-- The second range check adds nothing to the first. -/
theorem validatePayloadRangeIndependent_of_range (hpayload : slot.payloadBase < slot.slotEnd)
    (hend : slot.slotEnd ≤ uint32Max)
    (hmax : slot.maximumPayloadSize = slot.slotEnd - slot.payloadBase)
    (h : validatePayloadRange m (updateSlotPolicy slot) = .ok payloadEnd) :
    validatePayloadRangeIndependent m (updateSlotPolicy slot) payloadEnd = .ok () := by
  obtain ⟨hvector, hsize, hfits, rfl⟩ := (validatePayloadRange_iff hend hmax).mp h
  have hmin : applicationVectorMinSize = Layout.applicationMinSize := rfl
  rw [validatePayloadRangeIndependent]
  simp only [except_bind_eq_ok, require_eq_ok, u32EqualRedundant_iff, exists_const]
  have hbase : (updateSlotPolicy slot).vectorAddress = slot.payloadBase := rfl
  have hlast : (updateSlotPolicy slot).payloadFlashEnd = slot.slotEnd := rfl
  rw [hbase, hlast]
  omega

theorem validateApplicationMsp_iff {msp : UInt32} :
    validateApplicationMsp msp = .ok () ↔ Layout.applicationMspBase.toNat < msp.toNat ∧
      msp.toNat ≤ Layout.applicationMspEnd.toNat ∧ 8 ∣ msp.toNat := by
  have halign : msp &&& (Layout.applicationMspAlignment - 1) = 0 ↔ 8 ∣ msp.toNat := by
    rw [← UInt32.toNat_inj, UInt32.toNat_and]
    change msp.toNat &&& (2 ^ 3 - 1) = 0 ↔ _
    rw [Nat.and_two_pow_sub_one_eq_mod]
    exact Nat.dvd_iff_mod_eq_zero.symm
  rw [validateApplicationMsp, require_eq_ok, not_or, not_or, not_not, halign, UInt32.not_le,
    gt_iff_lt, UInt32.not_lt, UInt32.lt_iff_toNat_lt, UInt32.le_iff_toNat_le]

/-- Bit 0 of an odd word cleared. -/
theorem toNat_and_not_one {v : UInt32} (h : v.toNat % 2 = 1) : (v &&& ~~~ 1).toNat = v.toNat - 1 := by
  have hlt := v.toNat_lt
  have hhigh : (v.toNat &&& 0xFFFFFFFE) / 2 ^ 1 = v.toNat / 2 ^ 1 := by
    rw [Nat.and_div_two_pow]
    change v.toNat / 2 ^ 1 &&& (2 ^ 31 - 1) = _
    rw [Nat.and_two_pow_sub_one_eq_mod]
    omega
  have hlow : (v.toNat &&& 0xFFFFFFFE) % 2 ^ 1 = 0 := by
    rw [Nat.and_mod_two_pow]
    exact Nat.and_zero _
  rw [UInt32.toNat_and]
  change v.toNat &&& 0xFFFFFFFE = _
  omega

theorem and_one_ne_zero_iff {v : UInt32} : ¬ v &&& 1 = 0 ↔ v.toNat % 2 = 1 := by
  rw [← UInt32.toNat_inj, UInt32.toNat_and]
  change ¬ v.toNat &&& (2 ^ 1 - 1) = 0 ↔ _
  rw [Nat.and_two_pow_sub_one_eq_mod]
  omega

theorem validateApplicationReset_iff {v : UInt32} {vectorAddress payloadFlashEnd : ℕ} :
    validateApplicationReset v (v &&& ~~~ 1) vectorAddress payloadEnd payloadFlashEnd = .ok () ↔
      v.toNat % 2 = 1 ∧ vectorAddress ≤ v.toNat - 1 ∧ v.toNat - 1 < payloadEnd ∧
        v.toNat - 1 < payloadFlashEnd := by
  rw [validateApplicationReset, require_eq_ok, not_or, not_or, not_or, not_or, and_one_ne_zero_iff,
    not_not, and_iff_right rfl]
  refine and_congr_right fun hodd => ?_
  rw [toNat_and_not_one hodd]
  omega

/-- The context that `validate_vector_table` fills in. -/
def vectorContext (m : SignedManifest) (payload : Mem) (payloadEnd : ℕ) :
    SignedImageJumpContext where
  vectorAddress := m.vectorAddress.toNat
  imageSize := m.imageSize.toNat
  payloadEnd
  initialMsp := loadLe32 payload 0
  resetVector := loadLe32 payload 4
  resetAddress := loadLe32 payload 4 &&& ~~~ 1

theorem validateVectorTable_iff {context : SignedImageJumpContext} :
    validateVectorTable m (updateSlotPolicy slot) payload payloadEnd = .ok context ↔
      validateApplicationMsp (loadLe32 payload 0) = .ok () ∧
        validateApplicationReset (loadLe32 payload 4) (loadLe32 payload 4 &&& ~~~ 1)
          m.vectorAddress.toNat payloadEnd slot.slotEnd = .ok () ∧
        context = vectorContext m payload payloadEnd := by
  rw [validateVectorTable]
  simp only [except_bind_eq_ok, Unique.exists_iff]
  refine and_congr_right fun _ => and_congr_right fun _ => ?_
  exact ⟨fun h => (Except.ok.inj h).symm, fun h => congrArg Except.ok h.symm⟩

end Checks

/-! ### The verifier -/

section Verifier

variable {crypto : Crypto} {manifestBytes signatureBytes publicKey : List UInt8} {payload : Mem}
  {payloadCapacity : ℕ} {slot : BootSlotDescriptor}

theorem slotDescriptorIsSane_iff :
    slotDescriptorIsSane slot = true ↔ slot.signedImageBase < slot.payloadBase ∧
      slot.payloadBase < slot.slotEnd ∧
      slot.maximumPayloadSize = slot.slotEnd - slot.payloadBase := by
  rw [slotDescriptorIsSane, decide_eq_true_iff]
  omega

/-- The verifier accepts what has passed all its checks. -/
theorem signedImageVerifyUpdateSlotBuffer_eq_ok :
    signedImageVerifyUpdateSlotBuffer crypto manifestBytes signatureBytes payload payloadCapacity
        publicKey slot = .ok () ↔
      slotDescriptorIsSane slot = true ∧
      validateManifestHeader (decodeManifestBytes (byteAt manifestBytes)) (updateSlotPolicy slot) =
        .ok () ∧
      ∃ payloadEnd,
        validatePayloadRange (decodeManifestBytes (byteAt manifestBytes)) (updateSlotPolicy slot) =
          .ok payloadEnd ∧
        validatePayloadRangeIndependent (decodeManifestBytes (byteAt manifestBytes))
          (updateSlotPolicy slot) payloadEnd = .ok () ∧
        (decodeManifestBytes (byteAt manifestBytes)).imageSize.toNat ≤ payloadCapacity ∧
        (∃ context, validateVectorTable (decodeManifestBytes (byteAt manifestBytes))
          (updateSlotPolicy slot) payload payloadEnd = .ok context) ∧
        crypto.sha512 (slice payload 0
          (decodeManifestBytes (byteAt manifestBytes)).imageSize.toNat) =
          (decodeManifestBytes (byteAt manifestBytes)).payloadSha512 ∧
        crypto.ed25519Check signatureBytes publicKey manifestBytes = true := by
  rw [signedImageVerifyUpdateSlotBuffer, signedImageVerifyBufferWithPolicy]
  simp only [except_bind_eq_ok, require_eq_ok, Unique.exists_iff]
  constructor
  · rintro ⟨hsane, hheader, payloadEnd, hrange, hagain, hcapacity, context, hvector, hhash, hsig⟩
    exact ⟨hsane, hheader, payloadEnd, hrange, hagain, hcapacity, ⟨context, hvector⟩, hhash, hsig⟩
  · rintro ⟨hsane, hheader, payloadEnd, hrange, hagain, hcapacity, ⟨context, hvector⟩, hhash, hsig⟩
    exact ⟨hsane, hheader, payloadEnd, hrange, hagain, hcapacity, context, hvector, hhash, hsig⟩

theorem imageAccepted_of_verify (hend : slot.slotEnd ≤ uint32Max)
    (h : signedImageVerifyUpdateSlotBuffer crypto manifestBytes signatureBytes payload
      payloadCapacity publicKey slot = .ok ()) :
    ImageAccepted crypto manifestBytes signatureBytes payload payloadCapacity publicKey slot
      (decodeManifestBytes (byteAt manifestBytes)) := by
  obtain ⟨hsane, hheader, payloadEnd, hrange, -, hcapacity, ⟨context, hvector⟩, hhash, hsig⟩ :=
    signedImageVerifyUpdateSlotBuffer_eq_ok.mp h
  obtain ⟨-, -, hmax⟩ := slotDescriptorIsSane_iff.mp hsane
  obtain ⟨hmagic, hversion, hflags, htarget, htype, hrollback⟩ := validateManifestHeader_iff.mp hheader
  obtain ⟨haddress, hmin, hfits, rfl⟩ := (validatePayloadRange_iff hend hmax).mp hrange
  obtain ⟨hmsp, hreset, -⟩ := validateVectorTable_iff.mp hvector
  obtain ⟨hodd, hlow, hhigh, -⟩ := validateApplicationReset_iff.mp hreset
  rw [haddress] at hlow hhigh
  exact ⟨hmagic, hversion, hflags, htarget, htype, hrollback, haddress, hmin, le_min hfits hcapacity,
    validateApplicationMsp_iff.mp hmsp, hodd, ⟨hlow, hhigh⟩, hhash, hsig⟩

theorem ImageAccepted.verifies (hsane : slotDescriptorIsSane slot = true)
    (hend : slot.slotEnd ≤ uint32Max)
    (h : ImageAccepted crypto manifestBytes signatureBytes payload payloadCapacity publicKey slot
      (decodeManifestBytes (byteAt manifestBytes))) :
    signedImageVerifyUpdateSlotBuffer crypto manifestBytes signatureBytes payload payloadCapacity
      publicKey slot = .ok () := by
  obtain ⟨-, hpayload, hmax⟩ := slotDescriptorIsSane_iff.mp hsane
  have hfits := h.maxSize
  have hrange := (validatePayloadRange_iff hend hmax).mpr
    ⟨h.vector, h.minSize, hfits.trans (min_le_left _ _), rfl⟩
  have hreset : validateApplicationReset (loadLe32 payload 4) (loadLe32 payload 4 &&& ~~~ 1)
      (decodeManifestBytes (byteAt manifestBytes)).vectorAddress.toNat
      ((decodeManifestBytes (byteAt manifestBytes)).vectorAddress.toNat +
        (decodeManifestBytes (byteAt manifestBytes)).imageSize.toNat) slot.slotEnd = .ok () := by
    rw [validateApplicationReset_iff, h.vector]
    refine ⟨h.odd, h.reset.1, h.reset.2, ?_⟩
    have := h.reset.2
    have := le_min_iff.mp hfits
    omega
  rw [signedImageVerifyUpdateSlotBuffer_eq_ok]
  exact ⟨hsane, validateManifestHeader_iff.mpr
      ⟨h.magic, h.headerVersion, h.flags, h.target, h.imageType, h.version⟩, _, hrange,
    validatePayloadRangeIndependent_of_range hpayload hend hmax hrange,
    hfits.trans (min_le_right _ _),
    ⟨_, validateVectorTable_iff.mpr ⟨validateApplicationMsp_iff.mpr h.stack, hreset, rfl⟩⟩, h.hash,
    h.signature⟩

theorem applicationMinSize_le_of_range {m : SignedManifest} {policy : SignedImageValidationPolicy}
    {payloadEnd : ℕ} (h : validatePayloadRange m policy = .ok payloadEnd) :
    Layout.applicationMinSize ≤ m.imageSize.toNat := by
  rw [validatePayloadRange] at h
  simp only [except_bind_eq_ok, require_eq_ok, exists_const] at h
  exact h.2.1

/-- The vector table is read up to its second word. -/
theorem validateVectorTable_congr {p q : Mem} {m : SignedManifest}
    {policy : SignedImageValidationPolicy} {payloadEnd : ℕ} (h : ∀ i < 8, p i = q i) :
    validateVectorTable m policy p payloadEnd = validateVectorTable m policy q payloadEnd := by
  rw [validateVectorTable, validateVectorTable, loadLe32_congr fun k hk => h (0 + k) (by omega),
    loadLe32_congr fun k hk => h (4 + k) (by omega)]

/-- The verifier reads the payload up to the size of the image, and inside its capacity. -/
theorem signedImageVerifyBufferWithPolicy_reads {p q : Mem} {policy : SignedImageValidationPolicy}
    (h : ∀ i < min (decodeManifestBytes (byteAt manifestBytes)).imageSize.toNat payloadCapacity,
      p i = q i) :
    signedImageVerifyBufferWithPolicy crypto manifestBytes signatureBytes p payloadCapacity
        publicKey policy =
      signedImageVerifyBufferWithPolicy crypto manifestBytes signatureBytes q payloadCapacity
        publicKey policy := by
  rw [signedImageVerifyBufferWithPolicy, signedImageVerifyBufferWithPolicy]
  refine congrArg _ (funext fun _ => except_bind_congr fun payloadEnd hrange => ?_)
  refine congrArg _ (funext fun _ => require_bind_congr fun hsize => ?_)
  -- the range check has put the vector table inside the image, the capacity check inside the buffer
  have hmin : 8 ≤ (decodeManifestBytes (byteAt manifestBytes)).imageSize.toNat :=
    applicationMinSize_le_of_range hrange
  rw [validateVectorTable_congr fun i hi => h i (by omega), slice_congr fun x _ hx => h x (by omega)]

/-- **The image verifier accepts exactly the images it is meant to accept**, and no byte of the
payload at or past the size of the image or the capacity of the buffer is consulted. -/
theorem signedImageVerifyUpdateSlotBuffer_iff (crypto : Crypto)
    (manifestBytes signatureBytes publicKey : List UInt8) (payload : Mem) (payloadCapacity : ℕ)
    (slot : BootSlotDescriptor) (hbase : slot.signedImageBase < slot.payloadBase)
    (hpayload : slot.payloadBase < slot.slotEnd) (hend : slot.slotEnd ≤ uint32Max)
    (hmax : slot.maximumPayloadSize = slot.slotEnd - slot.payloadBase) :
    (signedImageVerifyUpdateSlotBuffer crypto manifestBytes signatureBytes payload payloadCapacity
        publicKey slot = .ok () ↔
      ImageAccepted crypto manifestBytes signatureBytes payload payloadCapacity publicKey slot
        (decodeManifestBytes (byteAt manifestBytes))) ∧
      ∀ other : Mem,
        (∀ i < min (decodeManifestBytes (byteAt manifestBytes)).imageSize.toNat payloadCapacity,
          payload i = other i) →
        signedImageVerifyUpdateSlotBuffer crypto manifestBytes signatureBytes payload
            payloadCapacity publicKey slot =
          signedImageVerifyUpdateSlotBuffer crypto manifestBytes signatureBytes other
            payloadCapacity publicKey slot := by
  refine ⟨⟨imageAccepted_of_verify hend, ImageAccepted.verifies ?_ hend⟩, fun other h => ?_⟩
  · exact slotDescriptorIsSane_iff.mpr ⟨hbase, hpayload, hmax⟩
  · rw [signedImageVerifyUpdateSlotBuffer, signedImageVerifyUpdateSlotBuffer,
      signedImageVerifyBufferWithPolicy_reads h]

/-! ### Two small images

One for slot A, and one for slot B. The digests and the signatures are the real ones, for a key
made for the purpose. -/

def factoryKey : List UInt8 :=
  [0xD7, 0x5A, 0x98, 0x01, 0x82, 0xB1, 0x0A, 0xB7, 0xD5, 0x4B, 0xFE, 0xD3, 0xC9, 0x64, 0x07,
    0x3A, 0x0E, 0xE1, 0x72, 0xF3, 0xDA, 0xA6, 0x23, 0x25, 0xAF, 0x02, 0x1A, 0x68, 0xF7, 0x07,
    0x51, 0x1A]

/-- A vector table, and a loop for it to jump to. -/
def factoryPayload : List UInt8 :=
  [0x00, 0x00, 0x02, 0x20, 0x09, 0x02, 0x02, 0x08, 0xFE, 0xE7, 0xFE, 0xE7]

def factoryHash : List UInt8 :=
  [0x66, 0x4C, 0x35, 0xBA, 0x5C, 0x2F, 0xA4, 0x91, 0x0D, 0xCC, 0x1D, 0xF0, 0xBD, 0x44, 0x95,
    0xB5, 0x52, 0xD5, 0xCA, 0x41, 0x74, 0x19, 0xF9, 0xF2, 0x10, 0x17, 0x21, 0xB7, 0x56, 0x57,
    0xC9, 0x55, 0xC0, 0xA3, 0xFC, 0x89, 0x13, 0x25, 0x74, 0x58, 0x48, 0x1B, 0x14, 0x19, 0xE3,
    0x0A, 0xC5, 0x2D, 0x3B, 0x76, 0x8D, 0x38, 0x97, 0x1A, 0x81, 0x46, 0xE0, 0x48, 0x9E, 0xD4,
    0x81, 0xDF, 0xFD, 0x5C]

def factorySignature : List UInt8 :=
  [0x02, 0xE2, 0x0A, 0x82, 0xF7, 0x8F, 0x48, 0xD1, 0xB2, 0xCC, 0x46, 0xDC, 0x15, 0xEE, 0x8A,
    0x0B, 0xB0, 0x20, 0x17, 0xAE, 0x15, 0xFD, 0x12, 0x94, 0xEE, 0x17, 0xCD, 0x29, 0xBD, 0x16,
    0x84, 0x85, 0x43, 0xA2, 0x65, 0x8E, 0x1D, 0xE3, 0x01, 0xC3, 0x47, 0xBC, 0x96, 0x36, 0xD6,
    0xAF, 0xE6, 0x15, 0xCC, 0x9C, 0xFC, 0x77, 0x18, 0x90, 0xFE, 0x25, 0x4E, 0xC3, 0x1F, 0x5F,
    0x07, 0xF1, 0xB3, 0x0F]

/-- The same for slot B. -/
def updatePayload : List UInt8 :=
  [0x00, 0x00, 0x02, 0x20, 0x09, 0x02, 0x08, 0x08, 0xFE, 0xE7, 0xFE, 0xE7]

def updateHash : List UInt8 :=
  [0x87, 0xAF, 0x1F, 0x1C, 0xF1, 0x7E, 0x85, 0xD0, 0x8D, 0x84, 0x70, 0x49, 0x8C, 0x04, 0x93,
    0x8B, 0xDB, 0x40, 0xE3, 0xF2, 0x09, 0xDD, 0xBC, 0xDE, 0xA1, 0x61, 0x10, 0xCD, 0x99, 0xD4,
    0xC2, 0x4F, 0x5A, 0x84, 0x1A, 0x69, 0xC0, 0x51, 0xB9, 0xDB, 0xF4, 0xDE, 0x61, 0x12, 0x17,
    0x26, 0x3C, 0x8A, 0x16, 0x08, 0x11, 0xD5, 0xDB, 0x16, 0x44, 0x04, 0xF4, 0x15, 0x31, 0x03,
    0xA0, 0x60, 0x9B, 0xF5]

def updateSignature : List UInt8 :=
  [0xE3, 0x53, 0x15, 0x19, 0x78, 0xFE, 0xDC, 0xCF, 0xAF, 0x3D, 0x76, 0x0B, 0x67, 0xA5, 0x31,
    0x85, 0x27, 0x37, 0x0F, 0x43, 0x0B, 0x98, 0x36, 0xBB, 0xE2, 0x35, 0x0E, 0x28, 0x25, 0x4A,
    0xD9, 0x92, 0x5C, 0x29, 0x67, 0x47, 0x5D, 0x9B, 0x05, 0x9A, 0xD3, 0x58, 0x28, 0x50, 0x3B,
    0xA0, 0x08, 0xDE, 0x60, 0x51, 0x6B, 0x53, 0x70, 0x4D, 0xE1, 0xFE, 0xF6, 0x44, 0x9F, 0x64,
    0x10, 0xFB, 0x37, 0x00]

/-- The manifest of an image of twelve bytes. -/
def smallManifest (version vectorAddress : UInt32) (hash : List UInt8) : List UInt8 :=
  storeWords [signedImageMagic, updatePackageFormatVersion, version, vectorAddress, 12, 0,
    updatePackageTarget, updatePackageImageTypeApplication] ++ hash

/-- A package header: manifest, signature and padding. -/
def packageHeader (manifest signature : List UInt8) : List UInt8 :=
  manifest ++ signature ++ List.replicate 352 0xFF

def factoryManifest : List UInt8 := smallManifest 2 0x08020200 factoryHash

def updateManifest : List UInt8 := smallManifest 3 0x08080200 updateHash

def factoryHeader : List UInt8 := packageHeader factoryManifest factorySignature

def updateHeader : List UInt8 := packageHeader updateManifest updateSignature

/-- SHA-512 and Ed25519 at the bytes above. -/
def factoryCrypto : Crypto where
  sha512 l :=
    if l = factoryPayload then factoryHash
    else if l = updatePayload then updateHash
    else List.replicate 64 0
  ed25519Check signature publicKey message :=
    decide (publicKey = factoryKey ∧
      ((signature = factorySignature ∧ message = factoryManifest) ∨
        (signature = updateSignature ∧ message = updateManifest)))
  sha512_length l := by
    split
    · rfl
    · split <;> rfl

/-- The header of a package made from a manifest and its signature. -/
def headerOf (manifest signature : List UInt8) : UpdatePackageHeader where
  manifest := decodeManifestBytes (byteAt manifest)
  manifestBytes := manifest
  signatureBytes := signature
  payloadSize := (decodeManifestBytes (byteAt manifest)).imageSize.toNat
  packageSize :=
    Layout.signedImageHeaderSize + (decodeManifestBytes (byteAt manifest)).imageSize.toNat

theorem packageHeader_accepted {manifest signature : List UInt8} {slot : BootSlotId}
    (hm : manifest.length = Layout.signedManifestSize)
    (hs : signature.length = Layout.signedSignatureSize)
    (hparse : (headerOf manifest signature).manifest.magic = signedImageMagic ∧
      (headerOf manifest signature).manifest.headerVersion = updatePackageFormatVersion ∧
      (headerOf manifest signature).manifest.flags &&& ~~~ Layout.signedImageFlagsAllowedMask = 0 ∧
      (headerOf manifest signature).manifest.reserved0 = updatePackageTarget ∧
      (headerOf manifest signature).manifest.reserved1 = updatePackageImageTypeApplication ∧
      Layout.applicationMinSize ≤ (headerOf manifest signature).payloadSize)
    (hslot : (headerOf manifest signature).manifest.vectorAddress.toNat =
        (bootSlots slot).payloadBase ∧
      (headerOf manifest signature).payloadSize ≤ (bootSlots slot).maximumPayloadSize)
    (hsig : crypto.ed25519Check signature publicKey manifest = true) :
    HeaderAccepted crypto publicKey (packageHeader manifest signature) (bootSlots slot)
      (headerOf manifest signature) := by
  obtain ⟨hmagic, hversion, hflags, htarget, htype, hmin⟩ := hparse
  have htake : (packageHeader manifest signature).take Layout.signedManifestSize = manifest := by
    rw [packageHeader]
    rw [List.append_assoc, List.take_left' hm]
  refine ⟨?_, ?_, htake.symm, ?_, rfl, rfl, hmagic, hversion, hflags, htarget, htype, hmin, ?_,
    hslot.1, hslot.2, hsig⟩
  · rw [packageHeader]
    rw [List.length_append, List.length_append, hm, hs, List.length_replicate]
    rfl
  · rw [← decodeManifestBytes_take, htake]
    rfl
  · rw [packageHeader]
    rw [List.append_assoc, List.drop_left' hm, List.take_left' hs]
    rfl
  · rw [paddingIsCanonical]
    rw [List.all_eq_true]
    intro i hi
    obtain ⟨hle, hlt⟩ := List.mem_range'_1.mp hi
    obtain ⟨k, rfl⟩ := Nat.exists_eq_add_of_le hle
    have hlen : (manifest ++ signature).length =
        Layout.signedManifestSize + Layout.signedSignatureSize := by
      rw [List.length_append, hm, hs]
    have hk : k < (List.replicate 352 (0xFF : UInt8)).length := by
      rw [List.length_replicate]
      simp only [Layout.signedManifestSize, Layout.signedSignatureSize,
        Layout.signedImageHeaderSize] at hlt
      omega
    rw [packageHeader]
    rw [byteAt_append_right hlen, byteAt_of_lt hk, List.getElem_replicate]
    rfl

theorem factoryHeader_accepted : HeaderAccepted factoryCrypto factoryKey factoryHeader
    (bootSlots .a) (headerOf factoryManifest factorySignature) :=
  packageHeader_accepted rfl rfl (by decide) (by decide) (by decide)

theorem updateHeader_accepted : HeaderAccepted factoryCrypto factoryKey updateHeader
    (bootSlots .b) (headerOf updateManifest updateSignature) :=
  packageHeader_accepted rfl rfl (by decide) (by decide) (by decide)

theorem signedImageVerifyUpdateSlotBuffer_factory :
    (signedImageVerifyUpdateSlotBuffer factoryCrypto factoryManifest factorySignature
        (byteAt factoryPayload) factoryPayload.length factoryKey (bootSlots .a) = .ok () ↔
      ImageAccepted factoryCrypto factoryManifest factorySignature (byteAt factoryPayload)
        factoryPayload.length factoryKey (bootSlots .a)
        (decodeManifestBytes (byteAt factoryManifest))) ∧
      signedImageVerifyUpdateSlotBuffer factoryCrypto factoryManifest factorySignature
        (byteAt factoryPayload) factoryPayload.length factoryKey (bootSlots .a) = .ok () := by
  have h := (signedImageVerifyUpdateSlotBuffer_iff factoryCrypto factoryManifest factorySignature
    factoryKey (byteAt factoryPayload) factoryPayload.length (bootSlots .a) (by decide) (by decide)
    (by decide) (by decide)).1
  refine ⟨h, h.mpr ?_⟩
  exact ⟨by decide, by decide, by decide, by decide, by decide, by decide, by decide, by decide,
    by decide, by decide, by decide, by decide, by decide, by decide⟩

end Verifier

/-! ### The jump -/

section Jump

variable {m : Mem} {context : SignedImageJumpContext}

/-- `confirm_jump_context_matches_flash`. -/
def confirmJumpContextMatchesFlash (m : Mem) (context : SignedImageJumpContext) :
    Except VerifyError Unit := do
  let slot ← slotForVectorAddress context.vectorAddress
  let initialMsp := loadLe32 (pointer m context.vectorAddress) 0
  let resetVector := loadLe32 (pointer m context.vectorAddress) 4
  let resetAddress := resetVector &&& ~~~ 1
  require (u32EqualRedundant initialMsp.toNat context.initialMsp.toNat = true) .badStack
  require (u32EqualRedundant resetVector.toNat context.resetVector.toNat = true ∧
    u32EqualRedundant resetAddress.toNat context.resetAddress.toNat = true) .badResetVector
  validateApplicationMsp initialMsp
  validateApplicationReset resetVector resetAddress context.vectorAddress context.payloadEnd
    slot.slotEnd

theorem slotForVectorAddress_eq_ok {vectorAddress : ℕ} {slot : BootSlotDescriptor}
    (h : slotForVectorAddress vectorAddress = .ok slot) :
    ∃ s, slot = bootSlots s ∧ vectorAddress = (bootSlots s).payloadBase := by
  rw [slotForVectorAddress] at h
  split at h
  · exact ⟨.a, (Except.ok.inj h).symm, (by assumption : _ = vectorAddress).symm⟩
  · split at h
    · exact ⟨.b, (Except.ok.inj h).symm, (by assumption : _ = vectorAddress).symm⟩
    · cases h

/-- A context that passes the check names a range inside one slot, with the reset address in it. -/
theorem validateJumpContext_sound (h : validateJumpContext context = .ok ()) :
    ∃ s, context.vectorAddress = (bootSlots s).payloadBase ∧
      context.payloadEnd ≤ (bootSlots s).slotEnd ∧
      validateApplicationMsp context.initialMsp = .ok () ∧
      validateApplicationReset context.resetVector context.resetAddress context.vectorAddress
        context.payloadEnd (bootSlots s).slotEnd = .ok () := by
  rw [validateJumpContext] at h
  simp only [except_bind_eq_ok, require_eq_ok, exists_const] at h
  obtain ⟨slot, hslot, -, -, -, h⟩ := h
  obtain ⟨s, rfl, hvector⟩ := slotForVectorAddress_eq_ok hslot
  cases hsum : checkedU32Add context.vectorAddress context.imageSize with
  | none => rw [hsum] at h; cases h
  | some sum =>
    rw [hsum] at h
    simp only [except_bind_eq_ok, require_eq_ok, Unique.exists_iff] at h
    obtain ⟨-, ⟨-, hend⟩, hmsp, hreset⟩ := h
    exact ⟨s, hvector, hend, hmsp, hreset⟩

theorem validateApplicationReset_range {resetVector resetAddress : UInt32}
    {vectorAddress payloadEnd payloadFlashEnd : ℕ}
    (h : validateApplicationReset resetVector resetAddress vectorAddress payloadEnd
      payloadFlashEnd = .ok ()) :
    vectorAddress ≤ resetAddress.toNat ∧ resetAddress.toNat < payloadEnd := by
  rw [validateApplicationReset, require_eq_ok] at h
  omega

/-- What a prepared context is, and that it has passed the check. -/
theorem signedImagePrepareUpdateSlotBuffer_context {manifestBytes : List UInt8} {payload : Mem}
    {payloadCapacity : ℕ} {slot : BootSlotDescriptor} (hend : slot.slotEnd ≤ uint32Max)
    (h : signedImagePrepareUpdateSlotBuffer manifestBytes payload payloadCapacity slot =
      .ok context) :
    context = vectorContext (decodeManifestBytes (byteAt manifestBytes)) payload
        (slot.payloadBase + (decodeManifestBytes (byteAt manifestBytes)).imageSize.toNat) ∧
      context.vectorAddress = slot.payloadBase ∧ validateJumpContext context = .ok () := by
  rw [signedImagePrepareUpdateSlotBuffer] at h
  simp only [except_bind_eq_ok, require_eq_ok, Unique.exists_iff] at h
  obtain ⟨hsane, -, payloadEnd, hrange, -, -, context', hvector, hjump, hpure⟩ := h
  obtain rfl := Except.ok.inj hpure
  obtain ⟨-, -, hmax⟩ := slotDescriptorIsSane_iff.mp hsane
  obtain ⟨haddress, -, -, rfl⟩ := (validatePayloadRange_iff hend hmax).mp hrange
  obtain ⟨-, -, rfl⟩ := validateVectorTable_iff.mp hvector
  exact ⟨by rw [haddress], haddress, hjump⟩

/-- A context that has passed the check, with the vector table that the flash holds, is confirmed. -/
theorem confirmJumpContextMatchesFlash_of_validate (h : validateJumpContext context = .ok ())
    (hmsp : context.initialMsp = loadLe32 (pointer m context.vectorAddress) 0)
    (hreset : context.resetVector = loadLe32 (pointer m context.vectorAddress) 4)
    (haddress : context.resetAddress = context.resetVector &&& ~~~ 1) :
    confirmJumpContextMatchesFlash m context = .ok () := by
  obtain ⟨s, hvector, -, hstack, hrange⟩ := validateJumpContext_sound h
  have hslot : slotForVectorAddress context.vectorAddress = .ok (bootSlots s) := by
    rw [hvector]
    cases s <;> rfl
  rw [confirmJumpContextMatchesFlash]
  simp only [except_bind_eq_ok, require_eq_ok, u32EqualRedundant_iff, Unique.exists_iff]
  refine ⟨bootSlots s, hslot, congrArg _ hmsp.symm, ⟨congrArg _ hreset.symm, ?_⟩, ?_, ?_⟩
  · rw [haddress, hreset]
  · rw [← hmsp]
    exact hstack
  · rw [← hreset, ← haddress]
    exact hrange

/-- **Verification, preparation and jump agree.** A slot that verifies can be prepared, and on the
same flash the jump accepts what was prepared; whatever context the jump accepts names the image at
the start of the payload of one of the slots. -/
theorem jump_agrees (crypto : Crypto) (publicKey manifestBytes signatureBytes : List UInt8)
    (s : BootSlotId) (m : Mem) (payloadCapacity : ℕ) :
    (signedImageVerifyUpdateSlotBuffer crypto manifestBytes signatureBytes
        (pointer m (bootSlots s).payloadBase) payloadCapacity publicKey (bootSlots s) = .ok () →
      ∃ context, signedImagePrepareUpdateSlotBuffer manifestBytes
          (pointer m (bootSlots s).payloadBase) payloadCapacity (bootSlots s) = .ok context ∧
        context.vectorAddress = (bootSlots s).payloadBase ∧
        context.payloadEnd = (bootSlots s).payloadBase +
          (decodeManifestBytes (byteAt manifestBytes)).imageSize.toNat ∧
        context.initialMsp = loadLe32 (pointer m (bootSlots s).payloadBase) 0 ∧
        context.resetVector = loadLe32 (pointer m (bootSlots s).payloadBase) 4 ∧
        context.resetAddress = context.resetVector &&& ~~~ 1 ∧
        validateJumpContext context = .ok () ∧
        confirmJumpContextMatchesFlash m context = .ok ()) ∧
    ∀ context, validateJumpContext context = .ok () →
      confirmJumpContextMatchesFlash m context = .ok () →
      context.vectorAddress ≤ context.resetAddress.toNat ∧
        context.resetAddress.toNat < context.payloadEnd ∧
        ∃ slot, (bootSlots slot).signedImageBase ≤ context.vectorAddress ∧
          context.payloadEnd ≤ (bootSlots slot).slotEnd ∧
          context.initialMsp = loadLe32 (pointer m (bootSlots slot).payloadBase) 0 ∧
          context.resetVector = loadLe32 (pointer m (bootSlots slot).payloadBase) 4 := by
  constructor
  · intro hverify
    obtain ⟨context, hprepare⟩ := signedImagePrepareUpdateSlotBuffer_ok hverify
    obtain ⟨hcontext, hvector, hjump⟩ :=
      signedImagePrepareUpdateSlotBuffer_context (by cases s <;> decide) hprepare
    have hmsp : context.initialMsp = loadLe32 (pointer m (bootSlots s).payloadBase) 0 := by
      rw [hcontext]
      rfl
    have hreset : context.resetVector = loadLe32 (pointer m (bootSlots s).payloadBase) 4 := by
      rw [hcontext]
      rfl
    have haddress : context.resetAddress = context.resetVector &&& ~~~ 1 := by
      rw [hcontext]
      rfl
    refine ⟨context, hprepare, hvector, by rw [hcontext]; rfl, hmsp, hreset, haddress, hjump, ?_⟩
    rw [← hvector] at hmsp hreset
    exact confirmJumpContextMatchesFlash_of_validate hjump hmsp hreset haddress
  · intro context hjump hconfirm
    obtain ⟨slot, hvector, hend, -, hreset⟩ := validateJumpContext_sound hjump
    obtain ⟨hlow, hhigh⟩ := validateApplicationReset_range hreset
    refine ⟨hlow, hhigh, slot, ?_, hend, ?_⟩
    · rw [hvector]
      cases slot <;> decide
    · rw [confirmJumpContextMatchesFlash, hvector] at hconfirm
      simp only [except_bind_eq_ok, require_eq_ok, u32EqualRedundant_iff, exists_const,
        UInt32.toNat_inj] at hconfirm
      obtain ⟨-, -, hmsp, ⟨hvec, -⟩, -⟩ := hconfirm
      exact ⟨hmsp.symm, hvec.symm⟩

end Jump

end Stm32SecurityLab
