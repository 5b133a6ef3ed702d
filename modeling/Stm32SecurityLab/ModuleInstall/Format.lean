import Stm32SecurityLab.Crash.Prog
import Stm32SecurityLab.Metadata.Record

/-!
# Module packages

The package format of `tools/module_format.py`: a header of 240 bytes, the capabilities and the
payload, with nothing between them and nothing behind.

`parse_package` is a chain of checks, and a package that passes all of them has one reading. What
the installer relies on is in `parsePackage_ok`: the identity it reports is the one in the header,
and the key that the header names is the one the signature was checked with.

The hash functions and the signature check are parameters.

## Main definitions

* `Header`, `unpack`, `parsePackage`

## Main results

* `parsePackage_ok` — what an accepted package satisfies
-/

namespace Stm32SecurityLab.ModuleInstall

open Crash

/-- The hash functions and the signature check. -/
structure ModuleCrypto where
  sha256 : List UInt8 → List UInt8
  sha512 : List UInt8 → List UInt8
  /-- `VerifyKey(public_key).verify(signed, signature)` does not raise. -/
  verify : (publicKey signed signature : List UInt8) → Bool
  sha256_length : ∀ data, (sha256 data).length = 32
  sha512_length : ∀ data, (sha512 data).length = 64

/-! ### Fields of a string of bytes -/

/-- The bytes `data[off : off + len]`. -/
def field (data : List UInt8) (off len : ℕ) : List UInt8 := (data.drop off).take len

theorem field_add (raw : List UInt8) (off m n : ℕ) :
    field raw off (m + n) = field raw off m ++ field raw (off + m) n := by
  rw [field, field, field, List.take_add, List.drop_drop]

theorem field_length {raw : List UInt8} {off len : ℕ} (h : off + len ≤ raw.length) :
    (field raw off len).length = len := by
  rw [field, List.length_take, List.length_drop]
  omega

theorem slice_byteAt_field {raw : List UInt8} {off len : ℕ} (h : off + len ≤ raw.length) :
    slice (byteAt raw) off len = field raw off len := by
  have hlen := field_length h
  have := (slice_eq_iff (p := byteAt raw) (a := off) (l := field raw off len)).mpr fun i hi => by
    rw [hlen] at hi
    rw [byteAt_of_lt (by omega), show (field raw off len)[i] = _ from List.getElem_take,
      List.getElem_drop]
  rwa [hlen] at this

theorem storeLe32_field {raw : List UInt8} {off : ℕ} (h : off + 4 ≤ raw.length) :
    storeLe32 (loadLe32 (byteAt raw) off) = field raw off 4 := by
  rw [storeLe32_loadLe32, slice_byteAt_field h]

theorem storeLe16_field {raw : List UInt8} {off : ℕ} (h : off + 2 ≤ raw.length) :
    storeLe16 (loadLe16 (byteAt raw) off) = field raw off 2 := by
  rw [storeLe16_loadLe16, slice_byteAt_field h]

/-- Words read out of a string and stored again. -/
theorem storeWords_wordsAt {raw : List UInt8} {off n : ℕ} (h : off + 4 * n ≤ raw.length) :
    storeWords ((List.range n).map fun k => loadLe32 (byteAt raw) (off + 4 * k)) =
      field raw off (4 * n) := by
  rw [storeWords_loadLe32, slice_byteAt_field h]

/-! ### The format -/

def moduleMagic : List UInt8 := [0x4D, 0x4F, 0x44, 0x31]
def formatVersion : UInt16 := 1
def typeBytecode : UInt32 := 1
def typeNative : UInt32 := 2
def supportedTypes : List UInt32 := [typeBytecode, typeNative]
def maxPackage : ℕ := 1024 * 1024
def maxCapabilities : ℕ := 64
def headerSize : ℕ := 240

/-- `Header`. -/
structure Header where
  magic : List UInt8
  formatVersion : UInt16
  headerSize : UInt16
  totalSize : UInt32
  moduleId : UInt32
  moduleVersion : UInt32
  minPlatform : UInt32
  abiVersion : UInt32
  moduleType : UInt32
  flags : UInt32
  codeSize : UInt32
  rodataSize : UInt32
  dataSize : UInt32
  bssSize : UInt32
  stackSize : UInt32
  entryOffset : UInt32
  capabilityOffset : UInt32
  capabilitySize : UInt32
  payloadOffset : UInt32
  payloadSize : UInt32
  payloadHash : List UInt8
  keyId : List UInt8
  headerCrc32 : UInt32
  signature : List UInt8
  reserved : List UInt8
  deriving DecidableEq, Repr

/-- `Manifest`. -/
structure Manifest where
  header : Header
  capabilities : List UInt32
  deriving DecidableEq, Repr

/-- The messages of the `ValueError`s of `module_format.py`. -/
inductive PackageError where
  | truncatedHeader
  | invalidTotalSize
  | invalidHeaderIdentity
  | invalidVersionOrModuleId
  | unsupportedType
  | unsupportedFlags
  | reservedOrKeyField
  | incompatiblePlatform
  | incompatibleAbi
  | rollbackVersion
  | noncanonicalRegionLayout
  | invalidCapabilityRange
  | invalidPayloadRange
  | unexpectedDataBetweenRegions
  | unexpectedDataAfterPayload
  | overlappingRegions
  | invalidCodeSize
  | invalidEntryOffset
  | capabilityAlignment
  | tooManyCapabilities
  | invalidCapability
  | duplicateCapability
  | unsupportedCapability
  | payloadHash
  | headerCrc
  | publicKeyLength
  | keyIdMismatch
  | invalidSignature
  deriving DecidableEq, Repr

/-- `_unpack`. -/
def unpack (blob : List UInt8) : Header where
  magic := field blob 0 4
  formatVersion := loadLe16 (byteAt blob) 4
  headerSize := loadLe16 (byteAt blob) 6
  totalSize := loadLe32 (byteAt blob) 8
  moduleId := loadLe32 (byteAt blob) 12
  moduleVersion := loadLe32 (byteAt blob) 16
  minPlatform := loadLe32 (byteAt blob) 20
  abiVersion := loadLe32 (byteAt blob) 24
  moduleType := loadLe32 (byteAt blob) 28
  flags := loadLe32 (byteAt blob) 32
  codeSize := loadLe32 (byteAt blob) 36
  rodataSize := loadLe32 (byteAt blob) 40
  dataSize := loadLe32 (byteAt blob) 44
  bssSize := loadLe32 (byteAt blob) 48
  stackSize := loadLe32 (byteAt blob) 52
  entryOffset := loadLe32 (byteAt blob) 56
  capabilityOffset := loadLe32 (byteAt blob) 60
  capabilitySize := loadLe32 (byteAt blob) 64
  payloadOffset := loadLe32 (byteAt blob) 68
  payloadSize := loadLe32 (byteAt blob) 72
  payloadHash := field blob 76 64
  keyId := field blob 140 16
  headerCrc32 := loadLe32 (byteAt blob) 156
  signature := field blob 160 64
  reserved := field blob 224 16

/-- `_pack_header`, with the CRC and the signature it is told to put in. -/
def packHeader (header : Header) (crc : UInt32) (signature : List UInt8) : List UInt8 :=
  header.magic ++ storeLe16 header.formatVersion ++ storeLe16 header.headerSize ++
    storeWords [header.totalSize, header.moduleId, header.moduleVersion, header.minPlatform,
      header.abiVersion, header.moduleType, header.flags, header.codeSize, header.rodataSize,
      header.dataSize, header.bssSize, header.stackSize, header.entryOffset,
      header.capabilityOffset, header.capabilitySize, header.payloadOffset, header.payloadSize] ++
    header.payloadHash ++ header.keyId ++ storeLe32 crc ++ signature ++ header.reserved

/-- `_header_for_crc`. -/
def headerForCrc (header : Header) : List UInt8 := packHeader header 0 (List.replicate 64 0)

/-- `_header_for_signature`. -/
def headerForSignature (header : Header) : List UInt8 :=
  packHeader header header.headerCrc32 (List.replicate 64 0)

/-- `_region_end`. -/
def regionEnd (error : PackageError) (offset size total : UInt32) : Except PackageError ℕ :=
  if offset.toNat < headerSize then .error error
  else if offset.toNat > total.toNat ∨ size.toNat > total.toNat - offset.toNat then .error error
  else .ok (offset.toNat + size.toNat)

/-- The loop of `_decode_capabilities`, with the capabilities already seen. -/
def decodeCapabilitiesLoop (blob : List UInt8) (offset : ℕ) (supported : Option (List UInt32)) :
    ℕ → List UInt32 → Except PackageError (List UInt32)
  | 0, caps => .ok caps
  | count + 1, caps => do
    let cap := loadLe32 (byteAt blob) offset
    require (cap ≠ 0) PackageError.invalidCapability
    require (cap ∉ caps) PackageError.duplicateCapability
    require (∀ list ∈ supported, cap ∈ list) PackageError.unsupportedCapability
    decodeCapabilitiesLoop blob (offset + 4) supported count (caps ++ [cap])

/-- `_decode_capabilities`. -/
def decodeCapabilities (blob : List UInt8) (offset size : UInt32)
    (supported : Option (List UInt32)) : Except PackageError (List UInt32) := do
  require (size.toNat % 4 = 0) PackageError.capabilityAlignment
  require (size.toNat / 4 ≤ maxCapabilities) PackageError.tooManyCapabilities
  decodeCapabilitiesLoop blob offset.toNat supported (size.toNat / 4) []

/-- The last checks of `parse_package`: the key that the header names, and the signature. -/
def checkSignature (crypto : ModuleCrypto) (header : Header) (publicKey body : List UInt8) :
    Except PackageError Unit := do
  require (publicKey.length = 32) PackageError.publicKeyLength
  require ((crypto.sha256 publicKey).take 16 = header.keyId) PackageError.keyIdMismatch
  require (crypto.verify publicKey (headerForSignature header ++ body) header.signature = true)
    PackageError.invalidSignature

/-- `parse_package`. -/
def parsePackage (crypto : ModuleCrypto) (blob : List UInt8) (publicKey : Option (List UInt8))
    (minPlatform abiVersion minModuleVersion : ℤ) (supported : Option (List UInt32)) :
    Except PackageError Manifest := do
  require (headerSize ≤ blob.length) PackageError.truncatedHeader
  require (blob.length ≤ maxPackage) PackageError.invalidTotalSize
  let header := unpack blob
  require (header.magic = moduleMagic ∧ header.formatVersion = formatVersion ∧
    header.headerSize.toNat = headerSize) PackageError.invalidHeaderIdentity
  require (header.totalSize.toNat = blob.length) PackageError.invalidTotalSize
  require (header.moduleId ≠ 0 ∧ header.moduleVersion ≠ 0 ∧ header.minPlatform ≠ 0 ∧
    header.abiVersion ≠ 0) PackageError.invalidVersionOrModuleId
  require (header.moduleType ∈ supportedTypes) PackageError.unsupportedType
  require (header.flags = 0) PackageError.unsupportedFlags
  require (header.reserved = List.replicate 16 0 ∧ header.payloadHash.length = 64 ∧
    header.signature.length = 64 ∧ header.keyId.length = 16) PackageError.reservedOrKeyField
  require ((header.minPlatform.toNat : ℤ) ≤ minPlatform) PackageError.incompatiblePlatform
  require ((header.abiVersion.toNat : ℤ) = abiVersion) PackageError.incompatibleAbi
  require (minModuleVersion ≤ (header.moduleVersion.toNat : ℤ)) PackageError.rollbackVersion
  require (header.capabilityOffset.toNat = headerSize) PackageError.noncanonicalRegionLayout
  let capabilityEnd ← regionEnd .invalidCapabilityRange header.capabilityOffset
    header.capabilitySize header.totalSize
  let payloadEnd ← regionEnd .invalidPayloadRange header.payloadOffset header.payloadSize
    header.totalSize
  require (capabilityEnd = header.payloadOffset.toNat) PackageError.unexpectedDataBetweenRegions
  require (payloadEnd = header.totalSize.toNat) PackageError.unexpectedDataAfterPayload
  require (capabilityEnd ≤ header.payloadOffset.toNat) PackageError.overlappingRegions
  require (header.codeSize ≤ header.payloadSize) PackageError.invalidCodeSize
  require (header.entryOffset ≤ header.codeSize) PackageError.invalidEntryOffset
  let capabilities ← decodeCapabilities blob header.capabilityOffset header.capabilitySize supported
  let payload := field blob header.payloadOffset.toNat (payloadEnd - header.payloadOffset.toNat)
  require (crypto.sha512 payload = header.payloadHash) PackageError.payloadHash
  require (crc32Update 0 (headerForCrc header) = header.headerCrc32) PackageError.headerCrc
  let capabilityBytes := field blob header.capabilityOffset.toNat
    (capabilityEnd - header.capabilityOffset.toNat)
  match publicKey with
  | none => pure ()
  | some publicKey => checkSignature crypto header publicKey (capabilityBytes ++ payload)
  return ⟨header, capabilities⟩

/-- What an accepted package satisfies: it is read as its header says, it has a name and a version,
and its header names the key its signature was checked with. -/
theorem parsePackage_ok {crypto : ModuleCrypto} {blob publicKey : List UInt8}
    {minPlatform abiVersion minModuleVersion : ℤ} {supported : Option (List UInt32)}
    {manifest : Manifest}
    (h : parsePackage crypto blob (some publicKey) minPlatform abiVersion minModuleVersion
      supported = .ok manifest) :
    manifest.header = unpack blob ∧ manifest.header.moduleId ≠ 0 ∧
      manifest.header.moduleVersion ≠ 0 ∧
      manifest.header.keyId = (crypto.sha256 publicKey).take 16 := by
  simp only [parsePackage, checkSignature, except_bind_eq_ok, require_eq_ok, exists_const] at h
  obtain ⟨-, -, -, -, ⟨hid, hversion, -, -⟩, -, -, -, -, -, -, -, _, -, _, -, -, -, -, -, -,
    capabilities, -, -, -, ⟨-, hkey, -⟩, h⟩ := h
  obtain rfl := Except.ok.inj h
  exact ⟨rfl, hid, hversion, hkey.symm⟩

end Stm32SecurityLab.ModuleInstall
