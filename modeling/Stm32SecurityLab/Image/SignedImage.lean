import Stm32SecurityLab.Bytes
import Stm32SecurityLab.Crash.Prog
import Stm32SecurityLab.Layout

/-!
# Signed images

The verifier of `signed_image.c`: a 96-byte manifest, a 64-byte Ed25519 signature over it, and a
payload whose SHA-512 the manifest names.

SHA-512 and the Ed25519 check are parameters. Nothing in this development uses a property of
either beyond their being functions and a hash having 64 bytes.

Addresses and sizes of the manifest are 32-bit words in flash and natural numbers in the checks,
where `checkedU32Add` says what the 32-bit sum would do. The cycle counters around the two
cryptographic calls record performance and return nothing.

## Main definitions

* `SignedManifest`, `decodeManifestBytes`
* `signedImageVerifyUpdateSlotBuffer`, `signedImagePrepareUpdateSlotBuffer`
* `slotVerify`, `slotVersion` — the image in a slot of the flash

## Main results

* `signedImageVerifyUpdateSlotBuffer_ok` — what an accepted image has passed
* `slotVerify_congr` — verification looks at one slot only
-/

namespace Stm32SecurityLab

open Crash

/-- The cryptographic functions of `monocypher`. -/
structure Crypto where
  /-- `crypto_sha512`. -/
  sha512 : List UInt8 → List UInt8
  /-- `crypto_ed25519_check` on signature, public key and message; it returns zero. -/
  ed25519Check : List UInt8 → List UInt8 → List UInt8 → Bool
  sha512_length : ∀ l, (sha512 l).length = 64

/-! ### Policy constants -/

def signedImageMagic : UInt32 := 0x31474953
def updatePackageFormatVersion : UInt32 := 2
def updatePackageTarget : UInt32 := 0xF429AB01
def updatePackageImageTypeApplication : UInt32 := 1
def minImageVersion : UInt32 := 2
def applicationVectorMinSize : ℕ := 8
def applicationVtorAlignment : ℕ := 0x100
def firmwarePublicKeySize : ℕ := 32

/-! ### The manifest -/

/-- `signed_manifest_t`. -/
structure SignedManifest where
  magic : UInt32
  headerVersion : UInt32
  imageVersion : UInt32
  vectorAddress : UInt32
  imageSize : UInt32
  flags : UInt32
  reserved0 : UInt32
  reserved1 : UInt32
  payloadSha512 : List UInt8
  deriving DecidableEq, Repr

/-- `decode_manifest_bytes`. -/
def decodeManifestBytes (bytes : Mem) : SignedManifest where
  magic := loadLe32 bytes 0
  headerVersion := loadLe32 bytes 4
  imageVersion := loadLe32 bytes 8
  vectorAddress := loadLe32 bytes 12
  imageSize := loadLe32 bytes 16
  flags := loadLe32 bytes 20
  reserved0 := loadLe32 bytes 24
  reserved1 := loadLe32 bytes 28
  payloadSha512 := slice bytes 32 64

/-- `verify_status_t` without `VERIFY_OK`. -/
inductive VerifyError where
  | badMagic
  | badHeaderVersion
  | rollbackVersion
  | badVectorAddress
  | badSize
  | badStack
  | badResetVector
  | badPayloadHash
  | badSignature
  | badFlags
  | badReserved
  | badPayloadRange
  | badTargetCompatibility
  | badImageType
  deriving DecidableEq, Repr

/-- `signed_image_validation_policy_t`. -/
structure SignedImageValidationPolicy where
  headerVersion : UInt32
  vectorAddress : ℕ
  payloadFlashEnd : ℕ
  maximumPayloadSize : ℕ
  allowedFlagsMask : UInt32
  targetCompatibility : UInt32
  imageType : UInt32
  requireUpdateFields : Bool

/-- `signed_image_jump_context_t`. -/
structure SignedImageJumpContext where
  vectorAddress : ℕ
  imageSize : ℕ
  payloadEnd : ℕ
  initialMsp : UInt32
  resetVector : UInt32
  resetAddress : UInt32
  deriving DecidableEq, Repr

/-- `u32_equal_redundant`. -/
def u32EqualRedundant (left right : ℕ) : Bool := left == right && left ^^^ right == 0

@[simp] theorem u32EqualRedundant_iff {left right : ℕ} :
    u32EqualRedundant left right = true ↔ left = right := by
  unfold u32EqualRedundant
  constructor
  · intro h
    simpa using (Bool.and_eq_true_iff.mp h).1
  · rintro rfl
    simp

/-- `checked_u32_add`. -/
def checkedU32Add (left right : ℕ) : Option ℕ :=
  if right > uint32Max - left then none else some (left + right)

/-! ### The checks -/

/-- `validate_manifest_header`. -/
def validateManifestHeader (m : SignedManifest) (policy : SignedImageValidationPolicy) :
    Except VerifyError Unit := do
  require (u32EqualRedundant m.magic.toNat signedImageMagic.toNat = true) .badMagic
  require (u32EqualRedundant m.headerVersion.toNat policy.headerVersion.toNat = true)
    .badHeaderVersion
  require (m.flags &&& ~~~ policy.allowedFlagsMask = 0) .badFlags
  if policy.requireUpdateFields then do
    require (m.reserved0 = policy.targetCompatibility) .badTargetCompatibility
    require (m.reserved1 = policy.imageType) .badImageType
  else
    require (m.reserved0 = 0 ∧ m.reserved1 = 0) .badReserved
  require (minImageVersion ≤ m.imageVersion) .rollbackVersion

/-- `validate_payload_range`: the end of the payload. -/
def validatePayloadRange (m : SignedManifest) (policy : SignedImageValidationPolicy) :
    Except VerifyError ℕ := do
  require (u32EqualRedundant m.vectorAddress.toNat policy.vectorAddress = true) .badVectorAddress
  require (Layout.applicationMinSize ≤ m.imageSize.toNat) .badSize
  match checkedU32Add m.vectorAddress.toNat m.imageSize.toNat with
  | none => .error .badPayloadRange
  | some payloadEnd => do
    require (m.imageSize.toNat ≤ policy.maximumPayloadSize) .badSize
    require (payloadEnd ≤ policy.payloadFlashEnd) .badPayloadRange
    pure payloadEnd

/-- `validate_payload_range_independent`. -/
def validatePayloadRangeIndependent (m : SignedManifest) (policy : SignedImageValidationPolicy)
    (payloadEnd : ℕ) : Except VerifyError Unit := do
  require (policy.vectorAddress ≤ policy.payloadFlashEnd) .badPayloadRange
  let applicationCapacity := policy.payloadFlashEnd - policy.vectorAddress
  require (u32EqualRedundant m.vectorAddress.toNat policy.vectorAddress = true) .badVectorAddress
  require (applicationVectorMinSize ≤ m.imageSize.toNat) .badSize
  require (m.imageSize.toNat ≤ applicationCapacity) .badSize
  require (m.imageSize.toNat ≤ policy.payloadFlashEnd - m.vectorAddress.toNat) .badPayloadRange
  require (m.vectorAddress.toNat ≤ payloadEnd ∧ payloadEnd ≤ policy.payloadFlashEnd)
    .badPayloadRange
  require (payloadEnd - m.vectorAddress.toNat = m.imageSize.toNat) .badPayloadRange

/-- `validate_application_msp`. -/
def validateApplicationMsp (msp : UInt32) : Except VerifyError Unit :=
  require (¬ (msp ≤ Layout.applicationMspBase ∨ msp > Layout.applicationMspEnd ∨
    msp &&& (Layout.applicationMspAlignment - 1) ≠ 0)) .badStack

/-- `validate_application_reset`. -/
def validateApplicationReset (resetVector resetAddress : UInt32)
    (vectorAddress payloadEnd payloadFlashEnd : ℕ) : Except VerifyError Unit :=
  require (¬ (resetVector &&& 1 = 0 ∨ resetVector &&& ~~~ 1 ≠ resetAddress ∨
    resetAddress.toNat < vectorAddress ∨ payloadEnd ≤ resetAddress.toNat ∨
    payloadFlashEnd ≤ resetAddress.toNat)) .badResetVector

/-- `validate_vector_table`, with the jump context it fills in. -/
def validateVectorTable (m : SignedManifest) (policy : SignedImageValidationPolicy) (payload : Mem)
    (payloadEnd : ℕ) : Except VerifyError SignedImageJumpContext := do
  let initialMsp := loadLe32 payload 0
  let resetVector := loadLe32 payload 4
  let resetAddress := resetVector &&& ~~~ 1
  validateApplicationMsp initialMsp
  validateApplicationReset resetVector resetAddress m.vectorAddress.toNat payloadEnd
    policy.payloadFlashEnd
  pure
    { vectorAddress := m.vectorAddress.toNat
      imageSize := m.imageSize.toNat
      payloadEnd
      initialMsp
      resetVector
      resetAddress }

/-- `slot_for_vector_address`. -/
def slotForVectorAddress (vectorAddress : ℕ) : Except VerifyError BootSlotDescriptor :=
  if (bootSlots .a).payloadBase = vectorAddress then .ok (bootSlots .a)
  else if (bootSlots .b).payloadBase = vectorAddress then .ok (bootSlots .b)
  else .error .badVectorAddress

/-- `validate_jump_context`. -/
def validateJumpContext (context : SignedImageJumpContext) : Except VerifyError Unit := do
  let slot ← slotForVectorAddress context.vectorAddress
  require (context.vectorAddress &&& (applicationVtorAlignment - 1) = 0) .badVectorAddress
  require (applicationVectorMinSize ≤ context.imageSize) .badSize
  require (context.imageSize ≤ slot.maximumPayloadSize) .badSize
  match checkedU32Add context.vectorAddress context.imageSize with
  | none => .error .badPayloadRange
  | some recomputedPayloadEnd => do
    require (u32EqualRedundant recomputedPayloadEnd context.payloadEnd = true) .badPayloadRange
    require (context.vectorAddress < context.payloadEnd ∧ context.payloadEnd ≤ slot.slotEnd)
      .badPayloadRange
    validateApplicationMsp context.initialMsp
    validateApplicationReset context.resetVector context.resetAddress context.vectorAddress
      context.payloadEnd slot.slotEnd

/-- `signed_image_verify_buffer_with_policy`. -/
def signedImageVerifyBufferWithPolicy (crypto : Crypto) (manifestBytes signatureBytes : List UInt8)
    (payload : Mem) (payloadCapacity : ℕ) (publicKey : List UInt8)
    (policy : SignedImageValidationPolicy) : Except VerifyError Unit := do
  let m := decodeManifestBytes (byteAt manifestBytes)
  validateManifestHeader m policy
  let payloadEnd ← validatePayloadRange m policy
  validatePayloadRangeIndependent m policy payloadEnd
  require (m.imageSize.toNat ≤ payloadCapacity) .badPayloadRange
  let _ ← validateVectorTable m policy payload payloadEnd
  require (crypto.sha512 (slice payload 0 m.imageSize.toNat) = m.payloadSha512) .badPayloadHash
  require (crypto.ed25519Check signatureBytes publicKey manifestBytes = true) .badSignature

/-- The policy of `signed_image_verify_update_slot_buffer`. -/
def updateSlotPolicy (slot : BootSlotDescriptor) : SignedImageValidationPolicy where
  headerVersion := updatePackageFormatVersion
  vectorAddress := slot.payloadBase
  payloadFlashEnd := slot.slotEnd
  maximumPayloadSize := slot.maximumPayloadSize
  allowedFlagsMask := Layout.signedImageFlagsAllowedMask
  targetCompatibility := updatePackageTarget
  imageType := updatePackageImageTypeApplication
  requireUpdateFields := true

/-- The test of the slot descriptor that precedes both functions below. -/
def slotDescriptorIsSane (slot : BootSlotDescriptor) : Bool :=
  ¬ (slot.payloadBase ≤ slot.signedImageBase ∨ slot.slotEnd ≤ slot.payloadBase ∨
    slot.maximumPayloadSize ≠ slot.slotEnd - slot.payloadBase)

/-- `signed_image_verify_update_slot_buffer`. -/
def signedImageVerifyUpdateSlotBuffer (crypto : Crypto) (manifestBytes signatureBytes : List UInt8)
    (payload : Mem) (payloadCapacity : ℕ) (publicKey : List UInt8) (slot : BootSlotDescriptor) :
    Except VerifyError Unit := do
  require (slotDescriptorIsSane slot = true) .badPayloadRange
  signedImageVerifyBufferWithPolicy crypto manifestBytes signatureBytes payload payloadCapacity
    publicKey (updateSlotPolicy slot)

/-- `signed_image_prepare_update_slot_buffer`. -/
def signedImagePrepareUpdateSlotBuffer (manifestBytes : List UInt8) (payload : Mem)
    (payloadCapacity : ℕ) (slot : BootSlotDescriptor) :
    Except VerifyError SignedImageJumpContext := do
  require (slotDescriptorIsSane slot = true) .badPayloadRange
  let m := decodeManifestBytes (byteAt manifestBytes)
  let policy := updateSlotPolicy slot
  validateManifestHeader m policy
  let payloadEnd ← validatePayloadRange m policy
  validatePayloadRangeIndependent m policy payloadEnd
  require (m.imageSize.toNat ≤ payloadCapacity) .badPayloadRange
  let context ← validateVectorTable m policy payload payloadEnd
  validateJumpContext context
  pure context

/-! ### The image in a slot -/

/-- The pointer `(const uint8_t *)address` into the flash. -/
def pointer (m : Mem) (address : ℕ) : Mem := fun i => m (address + i)

@[simp] theorem slice_pointer (m : Mem) (address n : ℕ) :
    slice (pointer m address) 0 n = slice m address n := by
  refine List.ext_getElem (by simp) fun i h₁ h₂ => ?_
  rw [slice_getElem, slice_getElem, Nat.zero_add]
  rfl

/-- The bytes of the manifest in a slot. -/
def slotManifestBytes (m : Mem) (slot : BootSlotDescriptor) : List UInt8 :=
  slice m slot.manifestAddress Layout.signedManifestSize

/-- `signed_image_verify_update_slot_buffer` on the contents of a slot, as `verify_target_slot` and
the installer call it. -/
def slotVerify (crypto : Crypto) (publicKey : List UInt8) (m : Mem) (slot : BootSlotDescriptor) :
    Except VerifyError Unit :=
  signedImageVerifyUpdateSlotBuffer crypto (slotManifestBytes m slot)
    (slice m slot.signatureAddress Layout.signedSignatureSize) (pointer m slot.payloadBase)
    slot.maximumPayloadSize publicKey slot

/-- The manifest image version of the bytes in a slot. -/
def slotVersion (m : Mem) (slot : BootSlotDescriptor) : UInt32 :=
  (decodeManifestBytes (byteAt (slotManifestBytes m slot))).imageVersion

@[simp] theorem slotDescriptorIsSane_bootSlots (s : BootSlotId) :
    slotDescriptorIsSane (bootSlots s) = true := by
  cases s <;> decide

/-- The verifier reads the payload inside its capacity only. -/
theorem signedImageVerifyBufferWithPolicy_congr {crypto : Crypto}
    {manifestBytes signatureBytes publicKey : List UInt8} {p q : Mem} {payloadCapacity : ℕ}
    {policy : SignedImageValidationPolicy} (hcap : 8 ≤ payloadCapacity)
    (h : ∀ i < payloadCapacity, p i = q i) :
    signedImageVerifyBufferWithPolicy crypto manifestBytes signatureBytes p payloadCapacity
        publicKey policy =
      signedImageVerifyBufferWithPolicy crypto manifestBytes signatureBytes q payloadCapacity
        publicKey policy := by
  have hvec : ∀ m e, validateVectorTable m policy p e = validateVectorTable m policy q e := by
    intro m e
    unfold validateVectorTable
    rw [loadLe32_congr fun k hk => h (0 + k) (by omega),
      loadLe32_congr fun k hk => h (4 + k) (by omega)]
  rw [signedImageVerifyBufferWithPolicy]
  refine congrArg _ (funext fun _ => congrArg _ (funext fun e => congrArg _ (funext fun _ => ?_)))
  refine require_bind_congr fun hsize => ?_
  rw [hvec, slice_congr fun x _ hx => h x (by omega)]

theorem slotManifestBytes_congr {m m' : Mem} {s : BootSlotId}
    (h : ∀ x, (bootSlots s).signedImageBase ≤ x → x < (bootSlots s).slotEnd → m' x = m x) :
    slotManifestBytes m' (bootSlots s) = slotManifestBytes m (bootSlots s) := by
  refine slice_congr fun x h₁ h₂ => h x ?_ ?_ <;> cases s <;>
    simp only [bootSlots, Layout.signedManifestSize] at * <;> omega

theorem slotVersion_congr {m m' : Mem} {s : BootSlotId}
    (h : ∀ x, (bootSlots s).signedImageBase ≤ x → x < (bootSlots s).slotEnd → m' x = m x) :
    slotVersion m' (bootSlots s) = slotVersion m (bootSlots s) := by
  rw [slotVersion, slotManifestBytes_congr h, slotVersion]

/-- **Verification looks at one slot only.** -/
theorem slotVerify_congr {crypto : Crypto} {publicKey : List UInt8} {m m' : Mem} {s : BootSlotId}
    (h : ∀ x, (bootSlots s).signedImageBase ≤ x → x < (bootSlots s).slotEnd → m' x = m x) :
    slotVerify crypto publicKey m' (bootSlots s) = slotVerify crypto publicKey m (bootSlots s) := by
  have hsig : slice m' (bootSlots s).signatureAddress Layout.signedSignatureSize =
      slice m (bootSlots s).signatureAddress Layout.signedSignatureSize := by
    refine slice_congr fun x h₁ h₂ => h x ?_ ?_ <;> cases s <;>
      simp only [bootSlots, Layout.signedSignatureSize] at * <;> omega
  have hpay : ∀ i < (bootSlots s).maximumPayloadSize,
      pointer m' (bootSlots s).payloadBase i = pointer m (bootSlots s).payloadBase i := by
    refine fun i hi => h _ ?_ ?_ <;> cases s <;>
      simp only [bootSlots, Layout.slotPayloadMaxSize] at * <;> omega
  unfold slotVerify signedImageVerifyUpdateSlotBuffer
  rw [slotManifestBytes_congr h, hsig,
    signedImageVerifyBufferWithPolicy_congr (by cases s <;> decide) hpay]

/-- The checks an accepted image has passed. -/
theorem signedImageVerifyUpdateSlotBuffer_ok {crypto : Crypto}
    {manifestBytes signatureBytes publicKey : List UInt8} {payload : Mem} {payloadCapacity : ℕ}
    {slot : BootSlotDescriptor}
    (h : signedImageVerifyUpdateSlotBuffer crypto manifestBytes signatureBytes payload
      payloadCapacity publicKey slot = .ok ()) :
    ∃ payloadEnd context,
      slotDescriptorIsSane slot = true ∧
      validateManifestHeader (decodeManifestBytes (byteAt manifestBytes)) (updateSlotPolicy slot) =
        .ok () ∧
      validatePayloadRange (decodeManifestBytes (byteAt manifestBytes)) (updateSlotPolicy slot) =
        .ok payloadEnd ∧
      validatePayloadRangeIndependent (decodeManifestBytes (byteAt manifestBytes))
        (updateSlotPolicy slot) payloadEnd = .ok () ∧
      (decodeManifestBytes (byteAt manifestBytes)).imageSize.toNat ≤ payloadCapacity ∧
      validateVectorTable (decodeManifestBytes (byteAt manifestBytes)) (updateSlotPolicy slot)
        payload payloadEnd = .ok context ∧
      crypto.sha512 (slice payload 0
        (decodeManifestBytes (byteAt manifestBytes)).imageSize.toNat) =
        (decodeManifestBytes (byteAt manifestBytes)).payloadSha512 ∧
      crypto.ed25519Check signatureBytes publicKey manifestBytes = true := by
  rw [signedImageVerifyUpdateSlotBuffer, signedImageVerifyBufferWithPolicy] at h
  simp only [except_bind_eq_ok, require_eq_ok] at h
  obtain ⟨_, hsane, _, hhead, payloadEnd, hrange, _, hind, _, hcap, context, hvec, _, hhash, hsig⟩ := h
  exact ⟨payloadEnd, context, hsane, hhead, hrange, hind, hcap, hvec, hhash, hsig⟩

/-- An accepted image can be jumped to: `signed_image_prepare_update_slot_buffer` repeats checks
that have been passed and adds none that can fail. -/
theorem signedImagePrepareUpdateSlotBuffer_ok {crypto : Crypto}
    {manifestBytes signatureBytes publicKey : List UInt8} {payload : Mem} {payloadCapacity : ℕ}
    {s : BootSlotId}
    (h : signedImageVerifyUpdateSlotBuffer crypto manifestBytes signatureBytes payload
      payloadCapacity publicKey (bootSlots s) = .ok ()) :
    ∃ context, signedImagePrepareUpdateSlotBuffer manifestBytes payload payloadCapacity
      (bootSlots s) = .ok context := by
  obtain ⟨payloadEnd, context, hsane, hhead, hrange, hind, hcap, hvec, -, -⟩ :=
    signedImageVerifyUpdateSlotBuffer_ok h
  refine ⟨context, ?_⟩
  rw [signedImagePrepareUpdateSlotBuffer]
  simp only [except_bind_eq_ok, require_eq_ok]
  refine ⟨(), hsane, (), hhead, payloadEnd, hrange, (), hind, (), hcap, context, hvec, (), ?_, rfl⟩
  obtain ⟨m, hm⟩ : ∃ m, m = decodeManifestBytes (byteAt manifestBytes) := ⟨_, rfl⟩
  rw [← hm] at hrange hind hvec hcap
  rw [validateVectorTable] at hvec
  simp only [except_bind_eq_ok] at hvec
  obtain ⟨_, hmsp, _, hreset, hctx⟩ := hvec
  cases hctx
  rw [validatePayloadRange] at hrange
  simp only [except_bind_eq_ok, require_eq_ok, u32EqualRedundant_iff] at hrange
  obtain ⟨_, hvaddr, _, hmin, hadd⟩ := hrange
  have hvaddr' : m.vectorAddress.toNat = (bootSlots s).payloadBase := hvaddr
  cases hsum : checkedU32Add m.vectorAddress.toNat m.imageSize.toNat with
  | none => rw [hsum] at hadd; cases hadd
  | some e =>
    rw [hsum] at hadd
    simp only [except_bind_eq_ok, require_eq_ok] at hadd
    obtain ⟨_, hmax, _, hend, he⟩ := hadd
    cases he
    have hsize : m.imageSize.toNat ≤ (bootSlots s).maximumPayloadSize := hmax
    have hend' : payloadEnd ≤ (bootSlots s).slotEnd := hend
    have hval : payloadEnd = m.vectorAddress.toNat + m.imageSize.toNat := by
      unfold checkedU32Add at hsum
      split at hsum
      · cases hsum
      · exact (Option.some.inj hsum).symm
    have hslot : slotForVectorAddress m.vectorAddress.toNat = .ok (bootSlots s) := by
      rw [hvaddr']
      cases s <;> rfl
    have halign : m.vectorAddress.toNat &&& (applicationVtorAlignment - 1) = 0 := by
      rw [hvaddr']
      cases s <;> decide
    have hpos : 8 ≤ m.imageSize.toNat := hmin
    rw [validateJumpContext]
    simp only [except_bind_eq_ok, require_eq_ok]
    refine ⟨_, hslot, (), halign, (), hpos, (), hsize, ?_⟩
    rw [hsum]
    simp only [except_bind_eq_ok, require_eq_ok, u32EqualRedundant_iff]
    exact ⟨(), trivial, (), ⟨by omega, hend'⟩, (), hmsp, hreset⟩

end Stm32SecurityLab
