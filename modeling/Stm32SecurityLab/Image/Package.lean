import Stm32SecurityLab.Image.SignedImage

/-!
# Update packages

`update_package.c`: the 512-byte header of a package (manifest, signature, `0xFF` padding), the
checks on it that need no payload, and the verification of a whole package.

`update_package_verify_header_for_slot` reports two statuses, its own and the `verify_status_t` it
stores through a pointer; the model returns both. An oversized sum cannot wrap a 32-bit `size_t`
because the size has been bounded before, and the check for it is kept.

## Main results

* `updatePackageVerifyHeaderForSlot_ok`, `HeaderAccepted.verify` — a header is accepted exactly
  when it passes the checks
* `decodeManifestBytes_take` — the manifest is in the first 96 bytes
-/

namespace Stm32SecurityLab

open Crash

/-- `update_package_status_t` without `OK`. -/
inductive UpdatePackageError where
  | invalidArgument
  | truncated
  | trailingData
  | oversized
  | unsupportedVersion
  | unknownFlags
  | badTarget
  | badImageType
  | badSize
  | badPadding
  | incompatibleSlot
  | verify
  deriving DecidableEq, Repr

/-- `update_package_header_t`. -/
structure UpdatePackageHeader where
  manifest : SignedManifest
  manifestBytes : List UInt8
  signatureBytes : List UInt8
  payloadSize : ℕ
  packageSize : ℕ
  deriving DecidableEq, Repr

/-- `checked_size_add`. -/
def checkedSizeAdd (left right : ℕ) : Option ℕ :=
  if right > sizeMax - left then none else some (left + right)

/-- `largest_slot_payload_size`. -/
def largestSlotPayloadSize : ℕ :=
  if (bootSlots .a).maximumPayloadSize > (bootSlots .b).maximumPayloadSize then
    (bootSlots .a).maximumPayloadSize
  else
    (bootSlots .b).maximumPayloadSize

/-- `padding_is_canonical`. -/
def paddingIsCanonical (packageBytes : List UInt8) : Bool :=
  (List.range' (Layout.signedManifestSize + Layout.signedSignatureSize)
    (Layout.signedImageHeaderSize - (Layout.signedManifestSize + Layout.signedSignatureSize))).all
    fun i => byteAt packageBytes i == 0xFF

/-- `parse_header_common`. -/
def parseHeaderCommon (headerBytes : List UInt8) : Except UpdatePackageError UpdatePackageHeader := do
  require (Layout.signedImageHeaderSize ≤ headerBytes.length) .truncated
  let manifest := decodeManifestBytes (byteAt headerBytes)
  require (manifest.magic = signedImageMagic) .verify
  require (manifest.headerVersion = updatePackageFormatVersion) .unsupportedVersion
  require (manifest.flags &&& ~~~ Layout.signedImageFlagsAllowedMask = 0) .unknownFlags
  require (manifest.reserved0 = updatePackageTarget) .badTarget
  require (manifest.reserved1 = updatePackageImageTypeApplication) .badImageType
  require (Layout.applicationMinSize ≤ manifest.imageSize.toNat) .badSize
  require (manifest.imageSize.toNat ≤ largestSlotPayloadSize) .oversized
  match checkedSizeAdd Layout.signedImageHeaderSize manifest.imageSize.toNat with
  | none => .error .oversized
  | some expectedSize => do
    require (paddingIsCanonical headerBytes = true) .badPadding
    pure
      { manifest
        manifestBytes := headerBytes.take Layout.signedManifestSize
        signatureBytes :=
          (headerBytes.drop Layout.signedManifestSize).take Layout.signedSignatureSize
        payloadSize := manifest.imageSize.toNat
        packageSize := expectedSize }

/-- `update_package_verify_header_for_slot`. The second component is `*verify_status`. -/
def updatePackageVerifyHeaderForSlot (crypto : Crypto) (headerBytes publicKey : List UInt8)
    (slot : BootSlotDescriptor) :
    Except UpdatePackageError UpdatePackageHeader × Except VerifyError Unit :=
  if headerBytes.length < Layout.signedImageHeaderSize then
    (.error .truncated, .error .badPayloadRange)
  else if headerBytes.length > Layout.signedImageHeaderSize then
    (.error .trailingData, .error .badPayloadRange)
  else
    match parseHeaderCommon headerBytes with
    | .error e => (.error e, .error .badPayloadRange)
    | .ok parsed =>
      if parsed.manifest.vectorAddress.toNat ≠ slot.payloadBase then
        (.error .incompatibleSlot, .error .badVectorAddress)
      else if parsed.manifest.imageSize.toNat > slot.maximumPayloadSize then
        (.error .incompatibleSlot, .error .badSize)
      else if crypto.ed25519Check parsed.signatureBytes publicKey parsed.manifestBytes = false then
        (.error .verify, .error .badSignature)
      else
        (.ok parsed, .ok ())

/-- `update_package_t`. The pointers into the package are the bytes they point to. -/
structure UpdatePackage where
  packageBytes : List UInt8
  packageSize : ℕ
  manifestBytes : List UInt8
  signatureBytes : List UInt8
  payload : List UInt8
  payloadSize : ℕ
  manifest : SignedManifest
  deriving DecidableEq, Repr

/-- `update_package_parse`. -/
def updatePackageParse (packageBytes : List UInt8) : Except UpdatePackageError UpdatePackage := do
  let header ← parseHeaderCommon packageBytes
  require (header.packageSize ≤ packageBytes.length) .truncated
  require (packageBytes.length ≤ header.packageSize) .trailingData
  pure
    { packageBytes
      packageSize := packageBytes.length
      manifestBytes := packageBytes.take Layout.signedManifestSize
      signatureBytes :=
        (packageBytes.drop Layout.signedManifestSize).take Layout.signedSignatureSize
      payload := packageBytes.drop Layout.signedImageHeaderSize
      payloadSize := header.payloadSize
      manifest := header.manifest }

/-- `update_package_verify_for_slot`. The second component is `*verify_status`. -/
def updatePackageVerifyForSlot (crypto : Crypto) (packageBytes publicKey : List UInt8)
    (slot : BootSlotDescriptor) :
    Except UpdatePackageError UpdatePackage × Except VerifyError Unit :=
  match updatePackageParse packageBytes with
  | .error e => (.error e, .error .badPayloadRange)
  | .ok parsed =>
    if parsed.manifest.vectorAddress.toNat ≠ slot.payloadBase ∨
        parsed.manifest.imageSize.toNat > slot.maximumPayloadSize then
      (.error .incompatibleSlot, .error .badPayloadRange)
    else
      match signedImageVerifyUpdateSlotBuffer crypto parsed.manifestBytes parsed.signatureBytes
          (byteAt parsed.payload) parsed.payloadSize publicKey slot with
      | .error e => (.error .verify, .error e)
      | .ok () => (.ok parsed, .ok ())

/-! ### What an accepted header has passed -/

/-- The manifest is a function of the first 96 bytes. -/
theorem decodeManifestBytes_take (l : List UInt8) :
    decodeManifestBytes (byteAt (l.take Layout.signedManifestSize)) =
      decodeManifestBytes (byteAt l) := by
  have hb : ∀ i < 96, byteAt (l.take Layout.signedManifestSize) i = byteAt l i := by
    intro i hi
    unfold byteAt
    rw [List.getD, List.getD, List.getElem?_take_of_lt (show i < Layout.signedManifestSize from hi)]
  have hw : ∀ k, k + 4 ≤ 96 →
      loadLe32 (byteAt (l.take Layout.signedManifestSize)) k = loadLe32 (byteAt l) k :=
    fun k hk => loadLe32_congr fun j hj => hb (k + j) (by omega)
  unfold decodeManifestBytes
  rw [hw 0 (by omega), hw 4 (by omega), hw 8 (by omega), hw 12 (by omega), hw 16 (by omega),
    hw 20 (by omega), hw 24 (by omega), hw 28 (by omega), slice_congr fun x _ hx => hb x (by omega)]

/-- The header of an accepted package: canonical, for this slot, fitting it, and signed. -/
structure HeaderAccepted (crypto : Crypto) (publicKey headerBytes : List UInt8)
    (slot : BootSlotDescriptor) (header : UpdatePackageHeader) : Prop where
  length : headerBytes.length = Layout.signedImageHeaderSize
  manifest : header.manifest = decodeManifestBytes (byteAt headerBytes)
  manifestBytes : header.manifestBytes = headerBytes.take Layout.signedManifestSize
  signatureBytes : header.signatureBytes =
    (headerBytes.drop Layout.signedManifestSize).take Layout.signedSignatureSize
  payloadSize : header.payloadSize = header.manifest.imageSize.toNat
  packageSize : header.packageSize = Layout.signedImageHeaderSize + header.payloadSize
  magic : header.manifest.magic = signedImageMagic
  version : header.manifest.headerVersion = updatePackageFormatVersion
  flags : header.manifest.flags &&& ~~~ Layout.signedImageFlagsAllowedMask = 0
  target : header.manifest.reserved0 = updatePackageTarget
  imageType : header.manifest.reserved1 = updatePackageImageTypeApplication
  minSize : Layout.applicationMinSize ≤ header.payloadSize
  padding : paddingIsCanonical headerBytes = true
  vector : header.manifest.vectorAddress.toNat = slot.payloadBase
  fits : header.payloadSize ≤ slot.maximumPayloadSize
  signature : crypto.ed25519Check header.signatureBytes publicKey header.manifestBytes = true

/-- Parsing looks at the header, of which only the least length is fixed. -/
theorem parseHeaderCommon_eq_ok_iff {headerBytes : List UInt8} {header : UpdatePackageHeader} :
    parseHeaderCommon headerBytes = .ok header ↔
      Layout.signedImageHeaderSize ≤ headerBytes.length ∧
      (decodeManifestBytes (byteAt headerBytes)).magic = signedImageMagic ∧
      (decodeManifestBytes (byteAt headerBytes)).headerVersion = updatePackageFormatVersion ∧
      (decodeManifestBytes (byteAt headerBytes)).flags &&& ~~~ Layout.signedImageFlagsAllowedMask = 0 ∧
      (decodeManifestBytes (byteAt headerBytes)).reserved0 = updatePackageTarget ∧
      (decodeManifestBytes (byteAt headerBytes)).reserved1 = updatePackageImageTypeApplication ∧
      Layout.applicationMinSize ≤ (decodeManifestBytes (byteAt headerBytes)).imageSize.toNat ∧
      (decodeManifestBytes (byteAt headerBytes)).imageSize.toNat ≤ largestSlotPayloadSize ∧
      paddingIsCanonical headerBytes = true ∧
      header =
        { manifest := decodeManifestBytes (byteAt headerBytes)
          manifestBytes := headerBytes.take Layout.signedManifestSize
          signatureBytes :=
            (headerBytes.drop Layout.signedManifestSize).take Layout.signedSignatureSize
          payloadSize := (decodeManifestBytes (byteAt headerBytes)).imageSize.toNat
          packageSize := Layout.signedImageHeaderSize +
            (decodeManifestBytes (byteAt headerBytes)).imageSize.toNat } := by
  simp only [parseHeaderCommon, except_bind_eq_ok, require_eq_ok, Unique.exists_iff]
  refine and_congr_right fun _ => and_congr_right fun _ => and_congr_right fun _ =>
    and_congr_right fun _ => and_congr_right fun _ => and_congr_right fun _ =>
    and_congr_right fun _ => and_congr_right fun hmax => ?_
  have hsum : checkedSizeAdd Layout.signedImageHeaderSize
      (decodeManifestBytes (byteAt headerBytes)).imageSize.toNat =
      some (Layout.signedImageHeaderSize +
        (decodeManifestBytes (byteAt headerBytes)).imageSize.toNat) := by
    have hlarge : largestSlotPayloadSize = 0x5FE00 := by decide
    rw [checkedSizeAdd, if_neg]
    simp only [sizeMax, Layout.signedImageHeaderSize]
    omega
  simp only [hsum, except_bind_eq_ok, require_eq_ok, Unique.exists_iff]
  refine and_congr_right fun _ => ?_
  exact ⟨fun h => (Except.ok.inj h).symm, fun h => congrArg Except.ok h.symm⟩

theorem parseHeaderCommon_ok {headerBytes : List UInt8} {header : UpdatePackageHeader}
    (h : parseHeaderCommon headerBytes = .ok header) :
    header.manifest = decodeManifestBytes (byteAt headerBytes) ∧
      header.manifestBytes = headerBytes.take Layout.signedManifestSize ∧
      header.signatureBytes =
        (headerBytes.drop Layout.signedManifestSize).take Layout.signedSignatureSize ∧
      header.payloadSize = header.manifest.imageSize.toNat ∧
      header.packageSize = Layout.signedImageHeaderSize + header.payloadSize ∧
      header.manifest.magic = signedImageMagic ∧
      header.manifest.headerVersion = updatePackageFormatVersion ∧
      header.manifest.flags &&& ~~~ Layout.signedImageFlagsAllowedMask = 0 ∧
      header.manifest.reserved0 = updatePackageTarget ∧
      header.manifest.reserved1 = updatePackageImageTypeApplication ∧
      Layout.applicationMinSize ≤ header.payloadSize ∧
      paddingIsCanonical headerBytes = true := by
  obtain ⟨-, hmagic, hver, hflags, htarget, htype, hmin, -, hpad, rfl⟩ :=
    parseHeaderCommon_eq_ok_iff.mp h
  exact ⟨rfl, rfl, rfl, rfl, rfl, hmagic, hver, hflags, htarget, htype, hmin, hpad⟩

/-- **Acceptance.** -/
theorem updatePackageVerifyHeaderForSlot_ok {crypto : Crypto} {headerBytes publicKey : List UInt8}
    {slot : BootSlotDescriptor} {header : UpdatePackageHeader}
    (h : (updatePackageVerifyHeaderForSlot crypto headerBytes publicKey slot).1 = .ok header) :
    HeaderAccepted crypto publicKey headerBytes slot header := by
  rw [updatePackageVerifyHeaderForSlot] at h
  split at h
  · cases h
  rename_i hlt
  split at h
  · cases h
  rename_i hgt
  split at h
  · cases h
  rename_i parsed hparse
  split at h
  · cases h
  rename_i hvec
  split at h
  · cases h
  rename_i hfit
  split at h
  · cases h
  rename_i hsig
  cases h
  obtain ⟨hman, hmb, hsb, hps, hpk, hmagic, hver, hflags, htarget, htype, hmin, hpad⟩ :=
    parseHeaderCommon_ok hparse
  exact
    { length := by omega
      manifest := hman
      manifestBytes := hmb
      signatureBytes := hsb
      payloadSize := hps
      packageSize := hpk
      magic := hmagic
      version := hver
      flags := hflags
      target := htarget
      imageType := htype
      minSize := hmin
      padding := hpad
      vector := not_not.mp hvec
      fits := by omega
      signature := by simpa using hsig }

/-- Every slot takes as much as the largest one. -/
theorem maximumPayloadSize_le (s : BootSlotId) :
    (bootSlots s).maximumPayloadSize ≤ largestSlotPayloadSize := by
  cases s <;> decide

theorem HeaderAccepted.parse {crypto : Crypto} {headerBytes publicKey : List UInt8}
    {slot : BootSlotId} {header : UpdatePackageHeader}
    (h : HeaderAccepted crypto publicKey headerBytes (bootSlots slot) header) :
    parseHeaderCommon headerBytes = .ok header := by
  obtain ⟨hlen, hman, hmb, hsb, hps, hpk, hmagic, hver, hflags, htarget, htype, hmin, hpad, -, hfits,
    -⟩ := h
  obtain ⟨manifest, manifestBytes, signatureBytes, payloadSize, packageSize⟩ := header
  simp only at hman hmb hsb hps hpk hmagic hver hflags htarget htype hmin hfits
  subst hman hmb hsb hps hpk
  have hmax := Nat.le_trans hfits (maximumPayloadSize_le slot)
  exact parseHeaderCommon_eq_ok_iff.mpr
    ⟨hlen.ge, hmagic, hver, hflags, htarget, htype, hmin, hmax, hpad, rfl⟩

/-- What passes every check is accepted. -/
theorem HeaderAccepted.verify {crypto : Crypto} {headerBytes publicKey : List UInt8}
    {slot : BootSlotId} {header : UpdatePackageHeader}
    (h : HeaderAccepted crypto publicKey headerBytes (bootSlots slot) header) :
    updatePackageVerifyHeaderForSlot crypto headerBytes publicKey (bootSlots slot) =
      (.ok header, .ok ()) := by
  rw [updatePackageVerifyHeaderForSlot]
  rw [if_neg (by rw [h.length]; exact Nat.lt_irrefl _),
    if_neg (by rw [h.length]; exact Nat.lt_irrefl _), h.parse]
  simp only
  have hfits := h.fits
  rw [h.payloadSize] at hfits
  rw [if_neg (not_not.mpr h.vector), if_neg (Nat.not_lt.mpr hfits), if_neg (by simp [h.signature])]

end Stm32SecurityLab
