import Stm32SecurityLab.Image.Acceptance
import Mathlib.Data.Nat.Bitwise

/-!
# Packages on the host

The verifier of `tools/update_package.py` and `tools/release_artifacts.py`, and the builder
`build_signed_image.py`, next to the verifier of the device.

The host works with Python integers, so its manifests hold natural numbers, and with slices, which
are shorter than asked for near the end of the input. SHA-512 and the Ed25519 check are those of
the device; signing is a parameter of its own. The digests of the report that are not compared with
anything are left out, and errors are named after their texts.

## Main definitions

* `ReleaseArtifacts.verifySignedImage`, `verifyPackageBytes` — the verifier of the host
* `Signer.buildUpdatePackage` — the builder
* `PackageAccepted` — what a package must be

## Main results

* `updatePackageVerifyForSlot_iff`, `verifyPackageBytes_iff` — both verifiers accept what is
  `PackageAccepted`
* `packages_agree` — the two verifiers agree, and accept what the builder builds
-/

namespace Stm32SecurityLab

open Crash

namespace Host

/-! ### The verifier of signed images -/

namespace ReleaseArtifacts

/-- The texts of `VerificationError`, and the `ValueError` of `VerifyKey`. -/
inductive VerificationError where
  | slotRequired
  | slotNotAllowed
  | imageTooSmall
  | manifestSize
  | badMagic
  | headerVersion
  | rollbackFloor
  | flags
  | targetCompatibility
  | imageType
  | reserved
  | vectorAddress
  | payloadBelowMinimum
  | payloadExceedsRegion
  | lengthMismatch
  | padding
  | beyondFlash
  | applicationMismatch
  | payloadSha512
  | verifyKey
  | signature
  | payloadTooSmall
  | mspOutsideSram
  | mspAlignment
  | thumbBit
  | resetOutsideFlash
  | resetOutsidePayload
  deriving DecidableEq, Repr

/-- The dictionary of `decode_manifest`. -/
structure Manifest where
  magic : ℕ
  headerVersion : ℕ
  imageVersion : ℕ
  vectorAddress : ℕ
  imageSize : ℕ
  flags : ℕ
  reserved0 : ℕ
  reserved1 : ℕ
  payloadSha512 : List UInt8
  deriving DecidableEq, Repr

/-- `load_le32`. -/
def loadLe32 (data : List UInt8) (offset : ℕ) : ℕ :=
  (Stm32SecurityLab.loadLe32 (byteAt data) offset).toNat

/-- `decode_manifest`: eight words and 64 bytes. -/
def decodeManifest (manifest : List UInt8) : Except VerificationError Manifest := do
  require (manifest.length = Layout.signedManifestSize) .manifestSize
  pure
    { magic := loadLe32 manifest 0
      headerVersion := loadLe32 manifest 4
      imageVersion := loadLe32 manifest 8
      vectorAddress := loadLe32 manifest 12
      imageSize := loadLe32 manifest 16
      flags := loadLe32 manifest 20
      reserved0 := loadLe32 manifest 24
      reserved1 := loadLe32 manifest 28
      payloadSha512 := (manifest.drop 32).take 64 }

/-- The dictionary of `validate_vector_table`. -/
structure Vector where
  initialMsp : ℕ
  resetVector : ℕ
  resetAddress : ℕ
  deriving DecidableEq, Repr

/-- `validate_vector_table`. `Nat.ldiff a b` is `a & ~b`. -/
def validateVectorTable (payload : List UInt8) (payloadEnd vectorAddress flashEnd : ℕ) :
    Except VerificationError Vector := do
  require (Layout.applicationMinSize ≤ payload.length) .payloadTooSmall
  let initialMsp := loadLe32 payload 0
  let resetVector := loadLe32 payload 4
  let resetAddress := Nat.ldiff resetVector 1
  require (Layout.applicationMspBase.toNat < initialMsp ∧
    initialMsp ≤ Layout.applicationMspEnd.toNat) .mspOutsideSram
  require (initialMsp &&& (Layout.applicationMspAlignment.toNat - 1) = 0) .mspAlignment
  require (resetVector &&& 1 ≠ 0) .thumbBit
  require (resetAddress < flashEnd) .resetOutsideFlash
  require (vectorAddress ≤ resetAddress ∧ resetAddress < payloadEnd) .resetOutsidePayload
  pure { initialMsp, resetVector, resetAddress }

/-- What `verify_signed_image` takes from the layout. -/
structure ImageLayout where
  headerVersion : ℕ
  vectorAddress : ℕ
  flashEnd : ℕ
  maxPayloadSize : ℕ

/-- The first branch of `verify_signed_image`. -/
def imageLayout : Bool → Option BootSlotId → Except VerificationError ImageLayout
  | true, none => .error .slotRequired
  | true, some slot =>
    .ok ⟨updatePackageFormatVersion.toNat, (bootSlots slot).payloadBase, (bootSlots slot).slotEnd,
      (bootSlots slot).maximumPayloadSize⟩
  | false, some _ => .error .slotNotAllowed
  | false, none =>
    .ok ⟨1, (bootSlots .a).payloadBase, (bootSlots .a).slotEnd, (bootSlots .a).maximumPayloadSize⟩

/-- The checks on the two reserved fields. -/
def validateReserved (updatePackage : Bool) (manifest : Manifest) :
    Except VerificationError Unit :=
  match updatePackage with
  | true => do
    require (manifest.reserved0 = updatePackageTarget.toNat) .targetCompatibility
    require (manifest.reserved1 = updatePackageImageTypeApplication.toNat) .imageType
  | false => require (¬ (manifest.reserved0 ≠ 0 ∨ manifest.reserved1 ≠ 0)) .reserved

/-- The comparison with the application binary, when there is one. -/
def matchApplication (payload : List UInt8) : Option (List UInt8) → Except VerificationError Unit
  | none => .ok ()
  | some application => require (payload = application) .applicationMismatch

/-- `any(byte != 0xFF for byte in padding)` is false. -/
def paddingCanonical (image : List UInt8) : Bool :=
  ((image.take Layout.signedImageHeaderSize).drop
    (Layout.signedManifestSize + Layout.signedSignatureSize)).all (· == 0xFF)

/-- The result of `verify_signed_image`. -/
structure Verified where
  manifest : Manifest
  signature : List UInt8
  payloadSize : ℕ
  payloadSha512 : List UInt8
  payloadEnd : ℕ
  vector : Vector
  deriving DecidableEq, Repr

/-- `verify_signed_image`. -/
def verifySignedImage (crypto : Crypto) (signedImage publicKey : List UInt8)
    (application : Option (List UInt8)) (updatePackage : Bool) (slot : Option BootSlotId) :
    Except VerificationError Verified := do
  let layout ← imageLayout updatePackage slot
  require (Layout.signedImageHeaderSize + Layout.applicationMinSize ≤ signedImage.length)
    .imageTooSmall
  let manifestBytes := signedImage.take Layout.signedManifestSize
  let signature := (signedImage.drop Layout.signedManifestSize).take Layout.signedSignatureSize
  let payload := signedImage.drop Layout.signedImageHeaderSize
  let manifest ← decodeManifest manifestBytes
  require (manifest.magic = signedImageMagic.toNat) .badMagic
  require (manifest.headerVersion = layout.headerVersion) .headerVersion
  require (minImageVersion.toNat ≤ manifest.imageVersion) .rollbackFloor
  require (Nat.ldiff manifest.flags Layout.signedImageFlagsAllowedMask.toNat = 0) .flags
  validateReserved updatePackage manifest
  require (manifest.vectorAddress = layout.vectorAddress) .vectorAddress
  require (Layout.applicationMinSize ≤ manifest.imageSize) .payloadBelowMinimum
  require (manifest.imageSize ≤ layout.maxPayloadSize) .payloadExceedsRegion
  require (payload.length = manifest.imageSize) .lengthMismatch
  require (paddingCanonical signedImage = true) .padding
  let payloadEnd := manifest.vectorAddress + manifest.imageSize
  require (payloadEnd ≤ layout.flashEnd) .beyondFlash
  matchApplication payload application
  require (crypto.sha512 payload = manifest.payloadSha512) .payloadSha512
  require (publicKey.length = firmwarePublicKeySize) .verifyKey
  require (crypto.ed25519Check signature publicKey manifestBytes = true) .signature
  let vector ← validateVectorTable payload payloadEnd layout.vectorAddress layout.flashEnd
  pure
    { manifest
      signature
      payloadSize := payload.length
      payloadSha512 := crypto.sha512 payload
      payloadEnd
      vector }

end ReleaseArtifacts

/-! ### The verifier of packages -/

open ReleaseArtifacts in
/-- The texts of `PackageError`. -/
inductive PackageError where
  | truncatedHeader
  | unsupportedVersion
  | targetCompatibility
  | imageType
  | flags
  | unknownSlot
  | truncated
  | trailingData
  | padding
  | otherSlot
  | verification (error : VerificationError)
  deriving DecidableEq, Repr

/-- `slot_from_vector`. -/
def slotFromVector (vectorAddress : ℕ) : Option BootSlotId :=
  if (bootSlots .a).payloadBase = vectorAddress then some .a
  else if (bootSlots .b).payloadBase = vectorAddress then some .b
  else none

/-- The dictionary of `inspect_package_bytes`. -/
structure Inspected where
  formatVersion : ℕ
  targetCompatibility : ℕ
  imageType : ℕ
  slot : BootSlotId
  imageVersion : ℕ
  payloadSize : ℕ
  payloadSha512 : List UInt8
  vectorAddress : ℕ
  packageSize : ℕ
  signedHeaderSize : ℕ
  deriving DecidableEq, Repr

/-- The slot of a package, which `inspect_package_bytes` requires to be known. -/
def requireSlot : Option BootSlotId → Except PackageError BootSlotId
  | none => .error .unknownSlot
  | some slot => .ok slot

/-- `inspect_package_bytes`. -/
def inspectPackageBytes (package : List UInt8) : Except PackageError Inspected := do
  require (Layout.signedManifestSize + Layout.signedSignatureSize ≤ package.length)
    .truncatedHeader
  let manifest ← (ReleaseArtifacts.decodeManifest
    (package.take Layout.signedManifestSize)).mapError .verification
  require (manifest.headerVersion = updatePackageFormatVersion.toNat) .unsupportedVersion
  require (manifest.reserved0 = updatePackageTarget.toNat) .targetCompatibility
  require (manifest.reserved1 = updatePackageImageTypeApplication.toNat) .imageType
  require (Nat.ldiff manifest.flags Layout.signedImageFlagsAllowedMask.toNat = 0) .flags
  let slot ← requireSlot (slotFromVector manifest.vectorAddress)
  let expectedSize := Layout.signedImageHeaderSize + manifest.imageSize
  require (expectedSize ≤ package.length) .truncated
  require (package.length ≤ expectedSize) .trailingData
  require (ReleaseArtifacts.paddingCanonical package = true) .padding
  pure
    { formatVersion := manifest.headerVersion
      targetCompatibility := manifest.reserved0
      imageType := manifest.reserved1
      slot
      imageVersion := manifest.imageVersion
      payloadSize := manifest.imageSize
      payloadSha512 := manifest.payloadSha512
      vectorAddress := manifest.vectorAddress
      packageSize := package.length
      signedHeaderSize := Layout.signedImageHeaderSize }

/-- `verify_package_bytes`. -/
def verifyPackageBytes (crypto : Crypto) (package publicKey : List UInt8) (slot : BootSlotId)
    (application : Option (List UInt8)) :
    Except PackageError (Inspected × ReleaseArtifacts.Verified) := do
  let inspected ← inspectPackageBytes package
  require (inspected.slot = slot) .otherSlot
  let verified ← (ReleaseArtifacts.verifySignedImage crypto package publicKey application true
    (some slot)).mapError .verification
  pure (inspected, verified)

/-! ### The builder -/

namespace Signer

/-- The texts of `SigningError`. -/
inductive SigningError where
  | notU32 (name : String)
  | overflow (name : String)
  | seedSize
  | unknownSlot
  | vectorOutsideSlot
  | applicationTooSmall
  | exceedsRegion
  | beyondFlash
  | mspOutsideSram
  | mspAlignment
  | thumbBit
  | resetOutsidePayload
  | headerVersion
  | flags
  | targetCompatibility
  | imageType
  | reserved
  | hashSize
  | manifestSize
  | signatureSize
  | overlap
  deriving DecidableEq, Repr

/-- `nacl.signing.SigningKey`: the signature of a message and the public key of a seed. -/
structure SigningKey where
  sign : List UInt8 → List UInt8 → List UInt8
  verifyKey : List UInt8 → List UInt8
  verifyKey_length : ∀ seed, (verifyKey seed).length = firmwarePublicKeySize

/-- `require_u32`. -/
def requireU32 (value : ℤ) (name : String) : Except SigningError Unit :=
  require (0 ≤ value ∧ value ≤ uint32Max) (.notU32 name)

/-- `checked_u32_add`. -/
def checkedU32Add (left right : ℕ) (name : String) : Except SigningError ℕ := do
  requireU32 left (name ++ " base")
  requireU32 right (name ++ " size")
  require (right ≤ uint32Max - left) (.overflow name)
  pure (left + right)

/-- `slot_layout`. -/
def slotLayout (slot : String) : Except SigningError BootSlotDescriptor :=
  if slot = "a" ∨ slot = "A" then .ok (bootSlots .a)
  else if slot = "b" ∨ slot = "B" then .ok (bootSlots .b)
  else .error .unknownSlot

/-- `validate_payload_size`. -/
def validatePayloadSize (applicationSize vectorAddress flashEnd maxPayloadSize : ℕ) :
    Except SigningError ℕ := do
  requireU32 applicationSize "Application size"
  requireU32 vectorAddress "Application vector address"
  requireU32 flashEnd "Application flash end"
  requireU32 maxPayloadSize "Application maximum payload size"
  require (vectorAddress < flashEnd) .vectorOutsideSlot
  require (Layout.applicationMinSize ≤ applicationSize) .applicationTooSmall
  require (applicationSize ≤ maxPayloadSize) .exceedsRegion
  let payloadEnd ← checkedU32Add vectorAddress applicationSize "Application address range"
  require (payloadEnd ≤ flashEnd) .beyondFlash
  pure payloadEnd

/-- `validate_vector_table`. -/
def validateVectorTable (application : List UInt8)
    (vectorAddress flashEnd maxPayloadSize : ℕ) : Except SigningError (ℕ × ℕ) := do
  let payloadEnd ← validatePayloadSize application.length vectorAddress flashEnd maxPayloadSize
  let initialMsp := ReleaseArtifacts.loadLe32 application 0
  let resetVector := ReleaseArtifacts.loadLe32 application 4
  require (Layout.applicationMspBase.toNat < initialMsp ∧
    initialMsp ≤ Layout.applicationMspEnd.toNat) .mspOutsideSram
  require (initialMsp &&& (Layout.applicationMspAlignment.toNat - 1) = 0) .mspAlignment
  require (resetVector &&& 1 ≠ 0) .thumbBit
  let resetAddress := Nat.ldiff resetVector 1
  require (vectorAddress ≤ resetAddress ∧ resetAddress < payloadEnd) .resetOutsidePayload
  pure (initialMsp, resetVector)

/-- The fields that `build_manifest` takes. -/
structure ManifestFields where
  imageVersion : ℤ
  headerVersion : ℕ
  imageSize : ℕ
  payloadHash : List UInt8
  flags : ℕ := 0
  reserved0 : ℕ := 0
  reserved1 : ℕ := 0
  vectorAddress : ℕ
  updatePackage : Bool

/-- `MANIFEST_STRUCT.pack`. -/
def pack (fields : ManifestFields) : List UInt8 :=
  storeWords [signedImageMagic, UInt32.ofNat fields.headerVersion,
    UInt32.ofNat fields.imageVersion.toNat, UInt32.ofNat fields.vectorAddress,
    UInt32.ofNat fields.imageSize, UInt32.ofNat fields.flags, UInt32.ofNat fields.reserved0,
    UInt32.ofNat fields.reserved1] ++ fields.payloadHash

/-- The checks of `build_manifest` on the two reserved fields. -/
def validateReserved (fields : ManifestFields) : Except SigningError Unit :=
  match fields.updatePackage with
  | true => do
    require (fields.reserved0 = updatePackageTarget.toNat) .targetCompatibility
    require (fields.reserved1 = updatePackageImageTypeApplication.toNat) .imageType
  | false => require (¬ (fields.reserved0 ≠ 0 ∨ fields.reserved1 ≠ 0)) .reserved

/-- `build_manifest`. -/
def buildManifest (fields : ManifestFields) : Except SigningError (List UInt8) := do
  requireU32 fields.headerVersion "Header version"
  requireU32 fields.imageVersion "Image version"
  requireU32 fields.imageSize "Application size"
  requireU32 fields.flags "Manifest flags"
  requireU32 fields.reserved0 "Reserved field 0"
  requireU32 fields.reserved1 "Reserved field 1"
  requireU32 fields.vectorAddress "Application vector address"
  require (fields.headerVersion =
    if fields.updatePackage then updatePackageFormatVersion.toNat else 1) .headerVersion
  require (Nat.ldiff fields.flags Layout.signedImageFlagsAllowedMask.toNat = 0) .flags
  validateReserved fields
  require (fields.payloadHash.length = 64) .hashSize
  require ((pack fields).length = Layout.signedManifestSize) .manifestSize
  pure (pack fields)

/-- What `build_signed_image` returns. -/
structure SignedImage where
  combinedImage : List UInt8
  payloadHash : List UInt8
  initialMsp : ℕ
  resetVector : ℕ
  deriving DecidableEq, Repr

/-- The arguments of `build_signed_image` after the application and the seed. -/
structure ImageArgs where
  imageVersion : ℤ
  headerVersion : ℕ
  flags : ℕ := 0
  reserved0 : ℕ := 0
  reserved1 : ℕ := 0
  vectorAddress : ℕ
  flashEnd : ℕ
  maxPayloadSize : ℕ
  updatePackage : Bool

/-- The manifest, the signature, the padding and the application, one after the other. -/
def combine (manifest signature application : List UInt8) : List UInt8 :=
  manifest ++ signature ++
    List.replicate (Layout.signedImageHeaderSize - Layout.signedManifestSize -
      Layout.signedSignatureSize) 0xFF ++ application

/-- `build_signed_image`. -/
def buildSignedImage (crypto : Crypto) (key : SigningKey) (application seed : List UInt8)
    (args : ImageArgs) : Except SigningError SignedImage := do
  require (seed.length = 32) .seedSize
  let vector ← validateVectorTable application args.vectorAddress args.flashEnd args.maxPayloadSize
  let payloadHash := crypto.sha512 application
  let manifest ← buildManifest
    { imageVersion := args.imageVersion
      headerVersion := args.headerVersion
      imageSize := application.length
      payloadHash := payloadHash
      flags := args.flags
      reserved0 := args.reserved0
      reserved1 := args.reserved1
      vectorAddress := args.vectorAddress
      updatePackage := args.updatePackage }
  let signature := key.sign seed manifest
  require (signature.length = Layout.signedSignatureSize) .signatureSize
  require (Layout.signedManifestSize + Layout.signedSignatureSize ≤ Layout.signedImageHeaderSize)
    .overlap
  pure
    { combinedImage := combine manifest signature application
      payloadHash := payloadHash
      initialMsp := vector.1
      resetVector := vector.2 }

/-- `build_update_package`. -/
def buildUpdatePackage (crypto : Crypto) (key : SigningKey) (application seed : List UInt8)
    (slot : String) (imageVersion : ℤ) : Except SigningError SignedImage := do
  let targetSlot ← slotLayout slot
  buildSignedImage crypto key application seed
    { imageVersion := imageVersion
      headerVersion := updatePackageFormatVersion.toNat
      reserved0 := updatePackageTarget.toNat
      reserved1 := updatePackageImageTypeApplication.toNat
      vectorAddress := targetSlot.payloadBase
      flashEnd := targetSlot.slotEnd
      maxPayloadSize := targetSlot.maximumPayloadSize
      updatePackage := true }

end Signer

/-! ### What a package must be -/

/-- The packages for a slot: a canonical header, and an image that the verifier of the device
accepts, of the size that the manifest names. -/
structure PackageAccepted (crypto : Crypto) (package publicKey : List UInt8) (slot : BootSlotId) :
    Prop where
  length : package.length = Layout.signedImageHeaderSize +
    (decodeManifestBytes (byteAt package)).imageSize.toNat
  padding : paddingIsCanonical package = true
  image : ImageAccepted crypto (package.take Layout.signedManifestSize)
    ((package.drop Layout.signedManifestSize).take Layout.signedSignatureSize)
    (byteAt (package.drop Layout.signedImageHeaderSize))
    (decodeManifestBytes (byteAt package)).imageSize.toNat publicKey (bootSlots slot)
    (decodeManifestBytes (byteAt package))

section Device

variable {crypto : Crypto} {package publicKey : List UInt8} {slot : BootSlotId}

/-- The verifier of the device accepts exactly these packages. -/
theorem updatePackageVerifyForSlot_iff :
    (∃ parsed, (updatePackageVerifyForSlot crypto package publicKey (bootSlots slot)).1 =
      .ok parsed) ↔ PackageAccepted crypto package publicKey slot := by
  have hend : (bootSlots slot).slotEnd ≤ uint32Max := by cases slot <;> decide
  have hsane : slotDescriptorIsSane (bootSlots slot) = true := by cases slot <;> decide
  constructor
  · rintro ⟨parsed, h⟩
    rw [updatePackageVerifyForSlot] at h
    split at h
    · cases h
    rename_i parsed' hparse
    simp only [updatePackageParse, except_bind_eq_ok, require_eq_ok, Unique.exists_iff,
      parseHeaderCommon_eq_ok_iff] at hparse
    obtain ⟨_, ⟨-, -, -, -, -, -, -, -, hpadding, rfl⟩, hlower, hupper, hparsed⟩ := hparse
    cases hparsed
    split at h
    · cases h
    split at h
    · cases h
    rename_i hverify
    have himage := imageAccepted_of_verify hend hverify
    rw [decodeManifestBytes_take] at himage
    exact ⟨le_antisymm hupper hlower, hpadding, himage⟩
  · rintro ⟨hlength, hpadding, himage⟩
    have hfits := himage.maxSize.trans (min_le_left _ _)
    have hparse : updatePackageParse package = .ok
        { packageBytes := package
          packageSize := package.length
          manifestBytes := package.take Layout.signedManifestSize
          signatureBytes :=
            (package.drop Layout.signedManifestSize).take Layout.signedSignatureSize
          payload := package.drop Layout.signedImageHeaderSize
          payloadSize := (decodeManifestBytes (byteAt package)).imageSize.toNat
          manifest := decodeManifestBytes (byteAt package) } := by
      simp only [updatePackageParse, except_bind_eq_ok, require_eq_ok, Unique.exists_iff,
        parseHeaderCommon_eq_ok_iff]
      exact ⟨_, ⟨by omega, himage.magic, himage.headerVersion, himage.flags, himage.target,
        himage.imageType, himage.minSize, hfits.trans (maximumPayloadSize_le slot), hpadding, rfl⟩,
        hlength.ge, hlength.le, rfl⟩
    have hslot : ¬ ((decodeManifestBytes (byteAt package)).vectorAddress.toNat ≠
        (bootSlots slot).payloadBase ∨ (decodeManifestBytes (byteAt package)).imageSize.toNat >
        (bootSlots slot).maximumPayloadSize) := by
      rw [himage.vector]
      simpa using hfits
    have hverify : signedImageVerifyUpdateSlotBuffer crypto (package.take Layout.signedManifestSize)
        ((package.drop Layout.signedManifestSize).take Layout.signedSignatureSize)
        (byteAt (package.drop Layout.signedImageHeaderSize))
        (decodeManifestBytes (byteAt package)).imageSize.toNat publicKey (bootSlots slot) =
        .ok () := by
      refine ImageAccepted.verifies hsane hend ?_
      rw [decodeManifestBytes_take]
      exact himage
    rw [updatePackageVerifyForSlot, hparse]
    simp only [if_neg hslot, hverify]
    exact ⟨_, rfl⟩

end Device

/-! ### The verifier of the host -/

section Bits

theorem ldiff_zero (n : ℕ) : Nat.ldiff n 0 = n := by
  refine Nat.eq_of_testBit_eq fun i => ?_
  rw [Nat.testBit_ldiff, Nat.zero_testBit, Bool.not_false, Bool.and_true]

theorem ldiff_one_of_odd {n : ℕ} (h : n % 2 = 1) : Nat.ldiff n 1 = n - 1 := by
  refine Nat.eq_of_testBit_eq fun i => ?_
  rw [Nat.testBit_ldiff]
  cases i with
  | zero =>
    rw [Nat.testBit_zero, Nat.testBit_zero, Nat.testBit_zero]
    have : (n - 1) % 2 = 0 := by omega
    simp [h, this]
  | succ i =>
    rw [Nat.testBit_succ, Nat.testBit_succ, Nat.testBit_succ]
    have : (n - 1) / 2 = n / 2 := by omega
    simp [this]

theorem and_one_ne_zero_iff_odd {n : ℕ} : n &&& 1 ≠ 0 ↔ n % 2 = 1 := by
  change n &&& (2 ^ 1 - 1) ≠ 0 ↔ _
  rw [Nat.and_two_pow_sub_one_eq_mod]
  omega

theorem and_seven_eq_zero_iff {n : ℕ} : n &&& 7 = 0 ↔ 8 ∣ n := by
  change n &&& (2 ^ 3 - 1) = 0 ↔ _
  rw [Nat.and_two_pow_sub_one_eq_mod]
  exact Nat.dvd_iff_mod_eq_zero.symm

theorem flags_eq_zero_iff {flags : UInt32} :
    Nat.ldiff flags.toNat Layout.signedImageFlagsAllowedMask.toNat = 0 ↔
      flags &&& ~~~ Layout.signedImageFlagsAllowedMask = 0 := by
  have hmask : flags &&& ~~~ Layout.signedImageFlagsAllowedMask = flags := by
    change flags &&& ~~~ 0 = flags
    simp
  have hzero : Layout.signedImageFlagsAllowedMask.toNat = 0 := rfl
  rw [hmask, hzero, ldiff_zero, ← UInt32.toNat_inj]
  rfl

end Bits

namespace ReleaseArtifacts

theorem validateVectorTable_ok_iff {payload : List UInt8} {payloadEnd vectorAddress flashEnd : ℕ}
    (hend : payloadEnd ≤ flashEnd) :
    (∃ vector, validateVectorTable payload payloadEnd vectorAddress flashEnd = .ok vector) ↔
      Layout.applicationMinSize ≤ payload.length ∧
      (Layout.applicationMspBase.toNat < loadLe32 payload 0 ∧
        loadLe32 payload 0 ≤ Layout.applicationMspEnd.toNat ∧ 8 ∣ loadLe32 payload 0) ∧
      loadLe32 payload 4 % 2 = 1 ∧
      vectorAddress ≤ loadLe32 payload 4 - 1 ∧ loadLe32 payload 4 - 1 < payloadEnd := by
  have halign : Layout.applicationMspAlignment.toNat - 1 = 7 := rfl
  simp only [validateVectorTable, except_bind_eq_ok, require_eq_ok, Unique.exists_iff, halign,
    and_seven_eq_zero_iff, and_one_ne_zero_iff_odd]
  constructor
  · rintro ⟨vector, hmin, ⟨hlow, hhigh⟩, hdvd, hodd, hflash, hreset, -⟩
    rw [ldiff_one_of_odd hodd] at hreset
    exact ⟨hmin, ⟨hlow, hhigh, hdvd⟩, hodd, hreset⟩
  · rintro ⟨hmin, ⟨hlow, hhigh, hdvd⟩, hodd, hreset⟩
    rw [ldiff_one_of_odd hodd]
    exact ⟨_, hmin, ⟨hlow, hhigh⟩, hdvd, hodd, by omega, hreset, rfl⟩

end ReleaseArtifacts

section Verifier

open ReleaseArtifacts

variable {crypto : Crypto} {package publicKey : List UInt8} {slot : BootSlotId}

/-- A manifest with its words as Python integers. -/
def manifestOf (m : SignedManifest) : Manifest where
  magic := m.magic.toNat
  headerVersion := m.headerVersion.toNat
  imageVersion := m.imageVersion.toNat
  vectorAddress := m.vectorAddress.toNat
  imageSize := m.imageSize.toNat
  flags := m.flags.toNat
  reserved0 := m.reserved0.toNat
  reserved1 := m.reserved1.toNat
  payloadSha512 := m.payloadSha512

/-- Both sides decode the same manifest. -/
theorem decodeManifest_take (h : Layout.signedManifestSize ≤ package.length) :
    decodeManifest (package.take Layout.signedManifestSize) =
      .ok (manifestOf (decodeManifestBytes (byteAt package))) := by
  have hlength : (package.take Layout.signedManifestSize).length = Layout.signedManifestSize := by
    rw [List.length_take, min_eq_left h]
  have hhash : slice (byteAt (package.take Layout.signedManifestSize)) 32 64 =
      ((package.take Layout.signedManifestSize).drop 32).take 64 := by
    have hwhole := slice_byteAt (package.take Layout.signedManifestSize)
    rw [hlength] at hwhole
    rw [← hwhole, slice_drop (by decide), slice_take (by decide), hwhole]
  rw [← decodeManifestBytes_take]
  simp only [decodeManifest, except_bind_eq_ok, require_eq_ok, Unique.exists_iff]
  refine ⟨hlength, congrArg Except.ok ?_⟩
  rw [manifestOf, decodeManifestBytes, hhash]
  rfl

/-- Both sides look at the same padding. -/
theorem paddingCanonical_iff (h : Layout.signedImageHeaderSize ≤ package.length) :
    paddingCanonical package = true ↔ paddingIsCanonical package = true := by
  have hslice : (package.take Layout.signedImageHeaderSize).drop
      (Layout.signedManifestSize + Layout.signedSignatureSize) = slice (byteAt package)
      (Layout.signedManifestSize + Layout.signedSignatureSize)
      (Layout.signedImageHeaderSize - (Layout.signedManifestSize + Layout.signedSignatureSize)) := by
    conv_lhs => rw [← slice_byteAt package]
    rw [slice_take h, slice_drop (by decide), Nat.zero_add]
  rw [paddingCanonical, paddingIsCanonical, hslice, slice, List.all_map]
  rfl

theorem slotFromVector_eq_some_iff {vectorAddress : ℕ} :
    slotFromVector vectorAddress = some slot ↔ vectorAddress = (bootSlots slot).payloadBase := by
  rw [slotFromVector]
  cases slot with
  | a =>
    split
    · rename_i h
      simp [h]
    · rename_i h
      split <;> simp [Ne.symm h]
  | b =>
    split
    · rename_i h
      subst h
      decide
    · split
      · rename_i h
        simp [h]
      · rename_i h
        simp [Ne.symm h]

/-- What the host requires of a signed image for a slot, next to what it has inspected. -/
theorem verifySignedImage_ok_iff
    (hlength : package.length = Layout.signedImageHeaderSize +
      (decodeManifestBytes (byteAt package)).imageSize.toNat)
    (hpadding : paddingIsCanonical package = true) :
    (∃ verified, verifySignedImage crypto package publicKey none true (some slot) = .ok verified) ↔
      publicKey.length = firmwarePublicKeySize ∧ PackageAccepted crypto package publicKey slot := by
  obtain ⟨m, hm⟩ : ∃ m, m = decodeManifestBytes (byteAt package) := ⟨_, rfl⟩
  obtain ⟨payload, hpayload⟩ : ∃ payload, payload = package.drop Layout.signedImageHeaderSize :=
    ⟨_, rfl⟩
  have hsize : payload.length = m.imageSize.toNat := by
    rw [hpayload, List.length_drop, hlength, hm]
    omega
  have hslice : slice (byteAt payload) 0 m.imageSize.toNat = payload := by
    rw [← hsize, slice_byteAt]
  have hdecode : decodeManifest (package.take Layout.signedManifestSize) = .ok (manifestOf m) := by
    rw [hm]
    refine decodeManifest_take ?_
    have : Layout.signedManifestSize ≤ Layout.signedImageHeaderSize := by decide
    omega
  have hpadding' : paddingCanonical package = true :=
    (paddingCanonical_iff (by omega)).mpr hpadding
  simp only [verifySignedImage, imageLayout, except_bind_eq_ok, require_eq_ok, Unique.exists_iff,
    hdecode, Except.ok.injEq, exists_eq_left', validateReserved, matchApplication, ← hpayload,
    hpadding', true_and, exists_and_left]
  simp only [manifestOf, UInt32.toNat_inj, flags_eq_zero_iff, ← UInt32.le_iff_toNat_le]
  constructor
  · rintro ⟨-, hmagic, hversion, hfloor, hflags, ⟨htarget, htype⟩, hvector, hmin, hmax, -, hend,
      hhash, hkey, hsig, -, vector, htable, -⟩
    obtain ⟨-, hstack, hodd, hreset⟩ := (validateVectorTable_ok_iff hend).mp ⟨vector, htable⟩
    refine ⟨hkey, hlength, hpadding, ?_⟩
    rw [← hm, ← hpayload]
    exact
      { magic := hmagic
        headerVersion := hversion
        flags := hflags
        target := htarget
        imageType := htype
        version := hfloor
        vector := hvector
        minSize := hmin
        maxSize := le_min hmax le_rfl
        stack := hstack
        odd := hodd
        reset := ⟨hreset.1, hvector ▸ hreset.2⟩
        hash := by rw [hslice]; exact hhash
        signature := hsig }
  · rintro ⟨hkey, -, -, himage⟩
    rw [← hm, ← hpayload] at himage
    have hmax := himage.maxSize.trans (min_le_left _ _)
    have hend : (bootSlots slot).payloadBase + m.imageSize.toNat ≤ (bootSlots slot).slotEnd := by
      have hfits : (bootSlots slot).payloadBase + (bootSlots slot).maximumPayloadSize =
          (bootSlots slot).slotEnd := by cases slot <;> rfl
      omega
    have hmin : Layout.applicationMinSize ≤ m.imageSize.toNat := himage.minSize
    have hhash := himage.hash
    rw [hslice] at hhash
    obtain ⟨vector, htable⟩ := (validateVectorTable_ok_iff hend).mpr
      ⟨hsize.symm ▸ hmin, himage.stack, himage.odd, himage.reset⟩
    rw [himage.vector]
    exact ⟨by rw [hlength, ← hm]; omega, himage.magic, himage.headerVersion, himage.version,
      himage.flags, ⟨himage.target, himage.imageType⟩, rfl, hmin, hmax, hsize, hend, hhash, hkey,
      himage.signature, _, vector, htable, rfl⟩

/-- **The verifier of the host accepts exactly these packages.** -/
theorem verifyPackageBytes_iff :
    (∃ result, verifyPackageBytes crypto package publicKey slot none = .ok result) ↔
      publicKey.length = firmwarePublicKeySize ∧ PackageAccepted crypto package publicKey slot := by
  constructor
  · rintro ⟨result, h⟩
    simp only [verifyPackageBytes, inspectPackageBytes, except_bind_eq_ok, require_eq_ok,
      Unique.exists_iff, mapError_eq_ok] at h
    obtain ⟨inspected, ⟨hheader, manifest, hmanifest, -, -, -, -, slot', -, hlower, hupper, hpadding,
      -⟩, -, verified, hverified, -⟩ := h
    have hle : Layout.signedManifestSize ≤ package.length := le_trans (Nat.le_add_right _ _) hheader
    rw [decodeManifest_take hle] at hmanifest
    cases hmanifest
    have hlength := le_antisymm hupper hlower
    have hpadding' := (paddingCanonical_iff (le_of_add_le_left hlength.ge)).mp hpadding
    exact (verifySignedImage_ok_iff hlength hpadding').mp ⟨verified, hverified⟩
  · rintro ⟨hkey, haccepted⟩
    obtain ⟨verified, hverified⟩ :=
      (verifySignedImage_ok_iff haccepted.length haccepted.padding).mpr ⟨hkey, haccepted⟩
    have hheader : Layout.signedImageHeaderSize ≤ package.length := by
      rw [haccepted.length]
      exact Nat.le_add_right _ _
    have hsizes : Layout.signedManifestSize + Layout.signedSignatureSize ≤
        Layout.signedImageHeaderSize := by decide
    have hslot : slotFromVector (manifestOf (decodeManifestBytes (byteAt package))).vectorAddress =
        some slot := slotFromVector_eq_some_iff.mpr haccepted.image.vector
    have hdecode := decodeManifest_take (le_trans (Nat.le_add_right _ _) (hsizes.trans hheader))
    simp only [verifyPackageBytes, inspectPackageBytes, except_bind_eq_ok, require_eq_ok,
      Unique.exists_iff, mapError_eq_ok, hdecode, Except.ok.injEq, exists_eq_left', hslot,
      requireSlot]
    refine ⟨_, _, ⟨hsizes.trans hheader, ?_, ?_, ?_, ?_, haccepted.length.ge,
      haccepted.length.le, (paddingCanonical_iff hheader).mpr haccepted.padding, rfl⟩, rfl, verified,
      hverified, rfl⟩
    · exact UInt32.toNat_inj.mpr haccepted.image.headerVersion
    · exact UInt32.toNat_inj.mpr haccepted.image.target
    · exact UInt32.toNat_inj.mpr haccepted.image.imageType
    · exact flags_eq_zero_iff.mpr haccepted.image.flags

end Verifier

/-! ### Built packages -/

namespace Signer

theorem requireU32_eq_ok {value : ℤ} {name : String} {u : Unit} :
    requireU32 value name = .ok u ↔ 0 ≤ value ∧ value ≤ uint32Max := by
  rw [requireU32, require_eq_ok]

theorem toNat_ofNat_of_le {n : ℕ} (h : n ≤ uint32Max) : (UInt32.ofNat n).toNat = n :=
  UInt32.toNat_ofNat_of_lt' (Nat.lt_succ_of_le h)

/-- A packed manifest decodes to the fields it was packed from. -/
theorem decodeManifestBytes_pack {fields : ManifestFields} (hhash : fields.payloadHash.length = 64) :
    decodeManifestBytes (byteAt (pack fields)) =
      { magic := signedImageMagic
        headerVersion := UInt32.ofNat fields.headerVersion
        imageVersion := UInt32.ofNat fields.imageVersion.toNat
        vectorAddress := UInt32.ofNat fields.vectorAddress
        imageSize := UInt32.ofNat fields.imageSize
        flags := UInt32.ofNat fields.flags
        reserved0 := UInt32.ofNat fields.reserved0
        reserved1 := UInt32.ofNat fields.reserved1
        payloadSha512 := fields.payloadHash } := by
  have hword : ∀ {ws : List UInt32} {k : ℕ} {v : UInt32}, ws[k]? = some v →
      Stm32SecurityLab.loadLe32 (byteAt (storeWords ws ++ fields.payloadHash)) (4 * k) = v := by
    intro ws k v hv
    rw [← loadLe32_storeWords hv]
    refine loadLe32_congr fun j hj => byteAt_append_left ?_
    have hk := (List.getElem?_eq_some_iff.mp hv).1
    rw [storeWords_length]
    omega
  have hslice : slice (byteAt (pack fields)) 32 64 = fields.payloadHash := by
    rw [pack, ← hhash, slice_eq_iff]
    intro i hi
    rw [byteAt_append_right (n := 32) (storeWords_length _), byteAt_of_lt hi]
  rw [decodeManifestBytes, hslice]
  rw [pack, hword (k := 0) rfl, hword (k := 1) rfl, hword (k := 2) rfl, hword (k := 3) rfl,
    hword (k := 4) rfl, hword (k := 5) rfl, hword (k := 6) rfl, hword (k := 7) rfl]

theorem validateVectorTable_ok {application : List UInt8} {vector : ℕ × ℕ}
    {vectorAddress flashEnd maxPayloadSize : ℕ}
    (h : validateVectorTable application vectorAddress flashEnd maxPayloadSize = .ok vector) :
    Layout.applicationMinSize ≤ application.length ∧ application.length ≤ maxPayloadSize ∧
      (Layout.applicationMspBase.toNat < ReleaseArtifacts.loadLe32 application 0 ∧
        ReleaseArtifacts.loadLe32 application 0 ≤ Layout.applicationMspEnd.toNat ∧
        8 ∣ ReleaseArtifacts.loadLe32 application 0) ∧
      ReleaseArtifacts.loadLe32 application 4 % 2 = 1 ∧
      vectorAddress ≤ ReleaseArtifacts.loadLe32 application 4 - 1 ∧
      ReleaseArtifacts.loadLe32 application 4 - 1 < vectorAddress + application.length := by
  have halign : Layout.applicationMspAlignment.toNat - 1 = 7 := rfl
  simp only [validateVectorTable, validatePayloadSize, checkedU32Add, except_bind_eq_ok,
    require_eq_ok, Unique.exists_iff, halign, and_seven_eq_zero_iff, and_one_ne_zero_iff_odd] at h
  obtain ⟨payloadEnd, ⟨-, -, -, -, -, hmin, hmax, sum, ⟨-, -, -, hsum⟩, -, hend⟩, ⟨hlow, hhigh⟩,
    hdvd, hodd, hreset, -⟩ := h
  cases hsum
  cases hend
  rw [ldiff_one_of_odd hodd] at hreset
  exact ⟨hmin, hmax, ⟨hlow, hhigh, hdvd⟩, hodd, hreset⟩

theorem slotLayout_eq_ok {name : String} {slot : BootSlotDescriptor}
    (h : slotLayout name = .ok slot) : ∃ id, slot = bootSlots id := by
  rw [slotLayout] at h
  split at h
  · exact ⟨.a, (Except.ok.inj h).symm⟩
  · split at h
    · exact ⟨.b, (Except.ok.inj h).symm⟩
    · cases h

/-- The parts of a combined image. -/
theorem combine_parts {manifest signature : List UInt8} (application : List UInt8)
    (hmanifest : manifest.length = Layout.signedManifestSize)
    (hsignature : signature.length = Layout.signedSignatureSize) :
    (combine manifest signature application).take Layout.signedManifestSize = manifest ∧
      ((combine manifest signature application).drop Layout.signedManifestSize).take
        Layout.signedSignatureSize = signature ∧
      (combine manifest signature application).drop Layout.signedImageHeaderSize = application ∧
      (combine manifest signature application).length =
        Layout.signedImageHeaderSize + application.length ∧
      paddingIsCanonical (combine manifest signature application) = true := by
  have hheader : (manifest ++ signature ++ List.replicate (Layout.signedImageHeaderSize -
      Layout.signedManifestSize - Layout.signedSignatureSize) (0xFF : UInt8)).length =
      Layout.signedImageHeaderSize := by
    rw [List.length_append, List.length_append, hmanifest, hsignature, List.length_replicate]
    rfl
  have hlength : (combine manifest signature application).length =
      Layout.signedImageHeaderSize + application.length := by
    rw [combine, List.length_append, hheader]
  refine ⟨?_, ?_, List.drop_left' hheader, hlength, ?_⟩
  · rw [combine, List.append_assoc, List.append_assoc]
    exact List.take_left' hmanifest
  · rw [combine, List.append_assoc, List.append_assoc, List.drop_left' hmanifest]
    exact List.take_left' hsignature
  · rw [← paddingCanonical_iff (by rw [hlength]; exact Nat.le_add_right _ _),
      ReleaseArtifacts.paddingCanonical, combine, List.take_left' hheader, List.drop_left' (by
        rw [List.length_append, hmanifest, hsignature])]
    simp

theorem decodeManifestBytes_combine {manifest signature : List UInt8} (application : List UInt8)
    (hmanifest : manifest.length = Layout.signedManifestSize)
    (hsignature : signature.length = Layout.signedSignatureSize) :
    decodeManifestBytes (byteAt (combine manifest signature application)) =
      decodeManifestBytes (byteAt manifest) := by
  rw [← decodeManifestBytes_take, (combine_parts application hmanifest hsignature).1]

/-- **A built package is what a package must be**, when its version is not below the floor. -/
theorem buildUpdatePackage_accepted {crypto : Crypto} {key : SigningKey}
    (hsign : ∀ seed message,
      crypto.ed25519Check (key.sign seed message) (key.verifyKey seed) message = true)
    {application seed : List UInt8} {name : String} {imageVersion : ℤ} {image : SignedImage}
    (hversion : (minImageVersion.toNat : ℤ) ≤ imageVersion)
    (h : buildUpdatePackage crypto key application seed name imageVersion = .ok image) :
    ∃ slot, slotLayout name = .ok (bootSlots slot) ∧
      PackageAccepted crypto image.combinedImage (key.verifyKey seed) slot := by
  simp only [buildUpdatePackage, buildSignedImage, buildManifest, except_bind_eq_ok, require_eq_ok,
    Unique.exists_iff, requireU32_eq_ok] at h
  obtain ⟨descriptor, hslot, -, vector, hvector, manifest, ⟨-, hrange, hsize, -, -, -, -, -, -, -,
    hhash, hpack, hmanifest⟩, hsignature, -, himage⟩ := h
  obtain ⟨slot, rfl⟩ := slotLayout_eq_ok hslot
  obtain ⟨hmin, hmax, hstack, hodd, hreset⟩ := validateVectorTable_ok hvector
  cases hmanifest
  cases himage
  obtain ⟨htake, hsig, hpayload, hlength, hpadding⟩ := combine_parts application hpack hsignature
  have hdecode := (decodeManifestBytes_combine application hpack hsignature).trans
    (decodeManifestBytes_pack hhash)
  have hmax' : (bootSlots slot).maximumPayloadSize ≤ uint32Max := by cases slot <;> decide
  have hbase : (bootSlots slot).payloadBase ≤ uint32Max := by cases slot <;> decide
  have hsize' : (UInt32.ofNat application.length).toNat = application.length :=
    toNat_ofNat_of_le (hmax.trans hmax')
  have hfloor : minImageVersion ≤ UInt32.ofNat imageVersion.toNat := by
    rw [UInt32.le_iff_toNat_le, toNat_ofNat_of_le (by omega)]
    omega
  have hflags : UInt32.ofNat 0 &&& ~~~ Layout.signedImageFlagsAllowedMask = 0 := by decide
  refine ⟨slot, hslot, ?_, hpadding, ?_⟩
  · rw [hlength, hdecode, hsize']
  · rw [htake, hsig, hpayload, hdecode]
    exact
      { magic := rfl
        headerVersion := rfl
        flags := hflags
        target := rfl
        imageType := rfl
        version := hfloor
        vector := toNat_ofNat_of_le hbase
        minSize := hsize'.symm ▸ hmin
        maxSize := by rw [hsize']; exact le_min hmax le_rfl
        stack := hstack
        odd := hodd
        reset := ⟨hreset.1, by rw [hsize']; exact hreset.2⟩
        hash := by rw [hsize', slice_byteAt]
        signature := hsign seed _ }

end Signer

/-- **The two verifiers accept the same packages, and what the builder builds.** -/
theorem packages_agree (crypto : Crypto) (key : Signer.SigningKey)
    (hsign : ∀ seed message,
      crypto.ed25519Check (key.sign seed message) (key.verifyKey seed) message = true) :
    (∀ (package publicKey : List UInt8) (slot : BootSlotId),
      publicKey.length = firmwarePublicKeySize →
        ((∃ result, verifyPackageBytes crypto package publicKey slot none = .ok result) ↔
          ∃ parsed, (updatePackageVerifyForSlot crypto package publicKey (bootSlots slot)).1 =
            .ok parsed)) ∧
      ∀ (application seed : List UInt8) (name : String) (imageVersion : ℤ)
        (image : Signer.SignedImage), (minImageVersion.toNat : ℤ) ≤ imageVersion →
        Signer.buildUpdatePackage crypto key application seed name imageVersion = .ok image →
        ∃ slot, Signer.slotLayout name = .ok (bootSlots slot) ∧
          (∃ result, verifyPackageBytes crypto image.combinedImage (key.verifyKey seed) slot none =
            .ok result) ∧
          ∃ parsed, (updatePackageVerifyForSlot crypto image.combinedImage (key.verifyKey seed)
            (bootSlots slot)).1 = .ok parsed := by
  constructor
  · intro package publicKey slot hkey
    rw [verifyPackageBytes_iff, updatePackageVerifyForSlot_iff, and_iff_right hkey]
  · intro application seed name imageVersion image hversion h
    obtain ⟨slot, hslot, haccepted⟩ := Signer.buildUpdatePackage_accepted hsign hversion h
    exact ⟨slot, hslot, verifyPackageBytes_iff.mpr ⟨key.verifyKey_length seed, haccepted⟩,
      updatePackageVerifyForSlot_iff.mpr haccepted⟩

/-! ### A key pair

The signatures of the two small manifests are the real ones. -/

/-- Signing under the seed of `factoryKey`. -/
def factorySign (message : List UInt8) : List UInt8 :=
  if message = factoryManifest then factorySignature
  else if message = updateManifest then updateSignature
  else List.replicate 64 0

def factorySigningKey : Signer.SigningKey where
  sign _ message := factorySign message
  verifyKey _ := factoryKey
  verifyKey_length _ := rfl

/-- The digests of the small payloads, and the check that goes with `factorySign`. -/
def signingCrypto : Crypto where
  sha512 := factoryCrypto.sha512
  ed25519Check signature publicKey message :=
    decide (publicKey = factoryKey ∧ signature = factorySign message)
  sha512_length := factoryCrypto.sha512_length

theorem packages_agree_factory : ∃ image,
    Signer.buildUpdatePackage signingCrypto factorySigningKey factoryPayload
      (List.replicate 32 0) "a" 2 = .ok image ∧
    image.combinedImage = factoryHeader ++ factoryPayload ∧
    ((∃ result, verifyPackageBytes signingCrypto image.combinedImage factoryKey .a none =
        .ok result) ↔
      ∃ parsed, (updatePackageVerifyForSlot signingCrypto image.combinedImage factoryKey
        (bootSlots .a)).1 = .ok parsed) ∧
    ∃ slot, Signer.slotLayout "a" = .ok (bootSlots slot) ∧
      (∃ result, verifyPackageBytes signingCrypto image.combinedImage factoryKey slot none =
        .ok result) ∧
      ∃ parsed, (updatePackageVerifyForSlot signingCrypto image.combinedImage factoryKey
        (bootSlots slot)).1 = .ok parsed := by
  obtain ⟨hverifiers, hbuilder⟩ := packages_agree signingCrypto factorySigningKey
    (fun seed message => decide_eq_true ⟨rfl, rfl⟩)
  have hbuild : ∃ image, Signer.buildUpdatePackage signingCrypto factorySigningKey factoryPayload
      (List.replicate 32 0) "a" 2 = .ok image ∧
      image.combinedImage = factoryHeader ++ factoryPayload := by
    refine ⟨⟨factoryHeader ++ factoryPayload, factoryHash, 0x20020000, 0x08020209⟩, ?_, rfl⟩
    decide +kernel
  obtain ⟨image, himage, hcombined⟩ := hbuild
  exact ⟨image, himage, hcombined, hverifiers _ _ .a rfl,
    hbuilder _ _ _ _ image (by decide) himage⟩

end Host

end Stm32SecurityLab
