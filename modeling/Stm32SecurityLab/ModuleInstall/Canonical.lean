import Stm32SecurityLab.ModuleInstall.Completed

/-!
# Building module packages

`build_package` of `tools/module_format.py`, and the package format in both directions. The header
is packed three times: for its CRC with CRC and signature zero, for the signature with the signature
zero, and for the package. So every byte of a package but the signature is signed.

The arguments of `build_package` are Python integers; `_validate_u32` returns the word.

## Main definitions

* `BuildArgs`, `buildPackage`
* `Accepted` — what `parse_package` asks for
* `signedMessage` — what the signature of a package is about

## Main results

* `parsePackage_eq_ok_iff` — `parse_package` accepts exactly that
* `modulePackage_canonical` — building and parsing are inverse, and everything is signed
-/

namespace Stm32SecurityLab.ModuleInstall

open Crash

/-! ### Building -/

/-- `nacl.signing.SigningKey`: the public key of a seed, and the signature of a message. -/
structure ModuleSigner where
  verifyKey : List UInt8 → List UInt8
  sign : (seed message : List UInt8) → List UInt8
  verifyKey_length : ∀ seed, (verifyKey seed).length = 32
  sign_length : ∀ seed message, (sign seed message).length = 64

/-- The messages of `build_package`, and the error of its self-check. -/
inductive BuildError where
  | seedLength
  | mustFit (name : String)
  | mustBeNonzero (name : String)
  | unsupportedType
  | codeSizeExceedsPayload
  | entryOffsetExceedsCode
  | tooManyCapabilities
  | duplicateCapability
  | unsupportedCapability
  | packageTooLarge
  | selfCheck (error : PackageError)
  deriving DecidableEq, Repr

/-- `_validate_u32`. -/
def validateU32 (name : String) (value : ℤ) (nonzero : Bool) : Except BuildError UInt32 := do
  require (0 ≤ value ∧ value ≤ 0xFFFFFFFF) (.mustFit name)
  require (¬ (nonzero = true ∧ value = 0)) (.mustBeNonzero name)
  pure (UInt32.ofNat value.toNat)

-- A test of every element of a list runs over the list, not over the type of its elements.
local instance (priority := 2000) decidableForallMem {α : Type} (l : List α) (p : α → Prop)
    [DecidablePred p] : Decidable (∀ a ∈ l, p a) :=
  List.decidableBAll p l

/-- `_encode_capabilities`. A set of the capabilities is as large as the list if none is repeated. -/
def encodeCapabilities (capabilities : List ℤ) (supported : Option (List UInt32)) :
    Except BuildError (List UInt32 × List UInt8) := do
  let caps ← capabilities.mapM fun cap => validateU32 "capability" cap true
  require (caps.length ≤ maxCapabilities) .tooManyCapabilities
  require caps.Nodup .duplicateCapability
  require (∀ list ∈ supported, ∀ cap ∈ caps, cap ∈ list) .unsupportedCapability
  pure (caps, storeWords caps)

/-- The arguments of `build_package`. -/
structure BuildArgs where
  payload : List UInt8
  moduleId : ℤ
  version : ℤ
  seed : List UInt8
  capabilities : List ℤ := []
  moduleType : ℤ := 1
  minPlatform : ℤ := 1
  abiVersion : ℤ := 1
  supportedCapabilities : Option (List UInt32) := none
  codeSize : Option ℤ := none
  rodataSize : ℤ := 0
  dataSize : ℤ := 0
  bssSize : ℤ := 0
  stackSize : ℤ := 0
  entryOffset : ℤ := 0

/-- `effective_code_size`. -/
def BuildArgs.effectiveCodeSize (args : BuildArgs) : ℤ := args.codeSize.getD args.payload.length

/-- The checks of `build_package` up to the size of the package, and the header they lead to, with
CRC and signature zero, beside the encoded capabilities. -/
def buildHeader (crypto : ModuleCrypto) (signer : ModuleSigner) (args : BuildArgs) :
    Except BuildError (Header × List UInt8) := do
  require (args.seed.length = 32) .seedLength
  let moduleId ← validateU32 "module_id" args.moduleId true
  let version ← validateU32 "version" args.version true
  let minPlatform ← validateU32 "min_platform" args.minPlatform true
  let abiVersion ← validateU32 "abi_version" args.abiVersion true
  require (∃ moduleType ∈ supportedTypes, (moduleType.toNat : ℤ) = args.moduleType) .unsupportedType
  let codeSize ← validateU32 "code_size" args.effectiveCodeSize false
  let rodataSize ← validateU32 "rodata_size" args.rodataSize false
  let dataSize ← validateU32 "data_size" args.dataSize false
  let bssSize ← validateU32 "bss_size" args.bssSize false
  let stackSize ← validateU32 "stack_size" args.stackSize false
  let entryOffset ← validateU32 "entry_offset" args.entryOffset false
  require (args.effectiveCodeSize ≤ args.payload.length) .codeSizeExceedsPayload
  require (args.entryOffset ≤ args.effectiveCodeSize) .entryOffsetExceedsCode
  let (_, capabilityBlob) ← encodeCapabilities args.capabilities args.supportedCapabilities
  let payloadOffset := headerSize + capabilityBlob.length
  let totalSize := payloadOffset + args.payload.length
  require (totalSize ≤ maxPackage) .packageTooLarge
  let publicKey := signer.verifyKey args.seed
  let header : Header :=
    { magic := moduleMagic
      formatVersion := formatVersion
      headerSize := UInt16.ofNat headerSize
      totalSize := UInt32.ofNat totalSize
      moduleId
      moduleVersion := version
      minPlatform
      abiVersion
      moduleType := UInt32.ofNat args.moduleType.toNat
      flags := 0
      codeSize
      rodataSize
      dataSize
      bssSize
      stackSize
      entryOffset
      capabilityOffset := UInt32.ofNat headerSize
      capabilitySize := UInt32.ofNat capabilityBlob.length
      payloadOffset := UInt32.ofNat payloadOffset
      payloadSize := UInt32.ofNat args.payload.length
      payloadHash := crypto.sha512 args.payload
      keyId := (crypto.sha256 publicKey).take 16
      headerCrc32 := 0
      signature := List.replicate 64 0
      reserved := List.replicate 16 0 }
  pure (header, capabilityBlob)

/-- The header with its CRC and its signature. -/
def signHeader (signer : ModuleSigner) (seed : List UInt8) (header : Header) (body : List UInt8) :
    Header :=
  let header := { header with headerCrc32 := crc32Update 0 (headerForCrc header) }
  { header with signature := signer.sign seed (headerForSignature header ++ body) }

/-- A header packed as it is. -/
def packAll (header : Header) : List UInt8 := packHeader header header.headerCrc32 header.signature

/-- `build_package`. -/
def buildPackage (crypto : ModuleCrypto) (signer : ModuleSigner) (args : BuildArgs) :
    Except BuildError (List UInt8) := do
  let (header, capabilityBlob) ← buildHeader crypto signer args
  let header := signHeader signer args.seed header (capabilityBlob ++ args.payload)
  let package := packAll header ++ capabilityBlob ++ args.payload
  let _ ← (parsePackage crypto package (some (signer.verifyKey args.seed)) args.minPlatform
    args.abiVersion args.version args.supportedCapabilities).mapError .selfCheck
  pure package

/-! ### Capabilities -/

section Capabilities

variable {blob : List UInt8} {supported : Option (List UInt32)}

/-- The words at an offset. -/
def wordsAt (blob : List UInt8) (offset count : ℕ) : List UInt32 :=
  (List.range count).map fun k => loadLe32 (byteAt blob) (offset + 4 * k)

theorem wordsAt_length (offset count : ℕ) : (wordsAt blob offset count).length = count := by
  rw [wordsAt, List.length_map, List.length_range]

theorem wordsAt_succ (offset count : ℕ) :
    wordsAt blob offset (count + 1) =
      loadLe32 (byteAt blob) offset :: wordsAt blob (offset + 4) count := by
  rw [wordsAt, wordsAt, List.range_succ_eq_map, List.map_cons, List.map_map, Nat.mul_zero,
    Nat.add_zero]
  refine congrArg _ (List.map_congr_left fun k _ => ?_)
  change loadLe32 _ (offset + 4 * (k + 1)) = _
  rw [Nat.mul_succ, ← Nat.add_assoc, Nat.add_right_comm]

/-- A list of capabilities that both directions accept. -/
structure CapabilitiesValid (supported : Option (List UInt32)) (caps : List UInt32) : Prop where
  count : caps.length ≤ maxCapabilities
  nonzero : ∀ cap ∈ caps, cap ≠ 0
  nodup : caps.Nodup
  supported : ∀ list ∈ supported, ∀ cap ∈ caps, cap ∈ list

theorem decodeCapabilitiesLoop_eq_ok_iff {offset count : ℕ} {seen out : List UInt32} :
    decodeCapabilitiesLoop blob offset supported count seen = .ok out ↔
      out = seen ++ wordsAt blob offset count ∧
      (∀ cap ∈ wordsAt blob offset count, cap ≠ 0) ∧
      (wordsAt blob offset count).Nodup ∧ (∀ cap ∈ wordsAt blob offset count, cap ∉ seen) ∧
      ∀ list ∈ supported, ∀ cap ∈ wordsAt blob offset count, cap ∈ list := by
  induction count generalizing offset seen with
  | zero =>
    rw [decodeCapabilitiesLoop]
    simp [wordsAt, eq_comm]
  | succ count ih =>
    rw [decodeCapabilitiesLoop, wordsAt_succ]
    simp only [except_bind_eq_ok, require_eq_ok, exists_const, ih, List.forall_mem_cons,
      List.nodup_cons, List.mem_append, List.mem_singleton, not_or, List.append_assoc,
      List.singleton_append, forall_and]
    constructor
    · rintro ⟨hzero, hseen, hsupported, rfl, hzeros, hnodup, ⟨hold, hnew⟩, hrest⟩
      exact ⟨rfl, ⟨hzero, hzeros⟩, ⟨fun hmem => hnew _ hmem rfl, hnodup⟩, ⟨hseen, hold⟩,
        hsupported, hrest⟩
    · rintro ⟨rfl, ⟨hzero, hzeros⟩, ⟨hmem, hnodup⟩, ⟨hseen, hold⟩, hsupported, hrest⟩
      refine ⟨hzero, hseen, hsupported, rfl, hzeros, hnodup, ⟨hold, fun cap hcap heq => ?_⟩, hrest⟩
      rw [heq] at hcap
      exact hmem hcap

theorem decodeCapabilities_eq_ok_iff {offset size : UInt32} {caps : List UInt32} :
    decodeCapabilities blob offset size supported = .ok caps ↔
      size.toNat % 4 = 0 ∧ caps = wordsAt blob offset.toNat (size.toNat / 4) ∧
        CapabilitiesValid supported caps := by
  simp only [decodeCapabilities, except_bind_eq_ok, require_eq_ok, exists_const,
    decodeCapabilitiesLoop_eq_ok_iff, List.nil_append]
  refine and_congr_right fun _ => ?_
  constructor
  · rintro ⟨hcount, rfl, hzero, hnodup, -, hsupported⟩
    exact ⟨rfl, by rwa [wordsAt_length], hzero, hnodup, hsupported⟩
  · rintro ⟨rfl, hcount, hzero, hnodup, hsupported⟩
    rw [wordsAt_length] at hcount
    exact ⟨hcount, rfl, hzero, hnodup, fun _ _ => List.not_mem_nil, hsupported⟩

theorem validateU32_eq_ok_iff {name : String} {value : ℤ} {nonzero : Bool} {word : UInt32} :
    validateU32 name value nonzero = .ok word ↔
      (word.toNat : ℤ) = value ∧ (nonzero = true → word ≠ 0) := by
  have hlt := word.toNat_lt
  simp only [validateU32, except_bind_eq_ok, require_eq_ok, exists_const]
  constructor
  · rintro ⟨hrange, hnonzero, h⟩
    obtain rfl := Except.ok.inj h
    have hword : (UInt32.ofNat value.toNat).toNat = value.toNat :=
      UInt32.toNat_ofNat_of_lt' (by change _ < 2 ^ 32; omega)
    refine ⟨by omega, fun htrue hzero => hnonzero ⟨htrue, ?_⟩⟩
    rw [hzero] at hword
    have hzero' : (0 : UInt32).toNat = 0 := rfl
    omega
  · rintro ⟨rfl, hnonzero⟩
    refine ⟨by omega, fun h => hnonzero h.1 (UInt32.toNat_inj.mp ?_), ?_⟩
    · have hzero' : (0 : UInt32).toNat = 0 := rfl
      omega
    · rw [Int.toNat_natCast, UInt32.ofNat_toNat]
      rfl

theorem mapM_validateU32_eq_ok_iff {capabilities : List ℤ} {caps : List UInt32} :
    (capabilities.mapM fun cap => validateU32 "capability" cap true) = .ok caps ↔
      capabilities = caps.map (fun cap => (cap.toNat : ℤ)) ∧ ∀ cap ∈ caps, cap ≠ 0 := by
  induction capabilities generalizing caps with
  | nil =>
    rw [List.mapM_nil]
    cases caps with
    | nil => exact ⟨fun _ => ⟨rfl, List.forall_mem_nil _⟩, fun _ => rfl⟩
    | cons cap caps => exact ⟨fun h => (nomatch h), fun h => (nomatch h.1)⟩
  | cons value capabilities ih =>
    simp only [List.mapM_cons, except_bind_eq_ok, validateU32_eq_ok_iff, ih]
    constructor
    · rintro ⟨word, ⟨rfl, hword⟩, words, ⟨rfl, hwords⟩, h⟩
      obtain rfl := Except.ok.inj h
      exact ⟨rfl, List.forall_mem_cons.mpr ⟨hword trivial, hwords⟩⟩
    · rintro ⟨heq, hcaps⟩
      cases caps with
      | nil => cases heq
      | cons word words =>
        obtain ⟨rfl, rfl⟩ := List.cons.inj heq
        obtain ⟨hword, hwords⟩ := List.forall_mem_cons.mp hcaps
        exact ⟨word, ⟨rfl, fun _ => hword⟩, words, ⟨rfl, hwords⟩, rfl⟩

theorem encodeCapabilities_eq_ok_iff {capabilities : List ℤ} {caps : List UInt32}
    {bytes : List UInt8} :
    encodeCapabilities capabilities supported = .ok (caps, bytes) ↔
      capabilities = caps.map (fun cap => (cap.toNat : ℤ)) ∧ bytes = storeWords caps ∧
        CapabilitiesValid supported caps := by
  simp only [encodeCapabilities, except_bind_eq_ok, require_eq_ok, exists_const,
    mapM_validateU32_eq_ok_iff]
  constructor
  · rintro ⟨words, ⟨rfl, hnonzero⟩, hcount, hnodup, hsupported, h⟩
    obtain ⟨rfl, rfl⟩ := Prod.mk.inj (Except.ok.inj h)
    exact ⟨rfl, rfl, hcount, hnonzero, hnodup, hsupported⟩
  · rintro ⟨rfl, rfl, hcount, hnonzero, hnodup, hsupported⟩
    exact ⟨caps, ⟨rfl, hnonzero⟩, hcount, hnodup, hsupported, rfl⟩

end Capabilities

/-! ### Headers -/

section Header

variable {blob rest : List UInt8} {header header' : Header}

/-- The fields of a header that are not words have their sizes. -/
structure Header.Fits (header : Header) : Prop where
  magic : header.magic.length = 4
  payloadHash : header.payloadHash.length = 64
  keyId : header.keyId.length = 16
  signature : header.signature.length = 64
  reserved : header.reserved.length = 16

/-- The bytes of a header in front of its signature. -/
def headerStart (header : Header) (crc : UInt32) : List UInt8 :=
  header.magic ++ storeLe16 header.formatVersion ++ storeLe16 header.headerSize ++
    storeWords [header.totalSize, header.moduleId, header.moduleVersion, header.minPlatform,
      header.abiVersion, header.moduleType, header.flags, header.codeSize, header.rodataSize,
      header.dataSize, header.bssSize, header.stackSize, header.entryOffset,
      header.capabilityOffset, header.capabilitySize, header.payloadOffset, header.payloadSize] ++
    header.payloadHash ++ header.keyId ++ storeLe32 crc

theorem packHeader_eq (crc : UInt32) (signature : List UInt8) :
    packHeader header crc signature = headerStart header crc ++ signature ++ header.reserved := rfl

theorem headerStart_length (h : header.Fits) (crc : UInt32) :
    (headerStart header crc).length = 160 := by
  simp only [headerStart, List.length_append, h.magic, h.payloadHash, h.keyId, storeLe16_length,
    storeLe32_length, storeWords_length, List.length_cons, List.length_nil]

theorem packHeader_length (h : header.Fits) (crc : UInt32) {signature : List UInt8}
    (hsignature : signature.length = 64) :
    (packHeader header crc signature).length = headerSize := by
  rw [packHeader_eq, List.length_append, List.length_append, headerStart_length h, hsignature,
    h.reserved]
  rfl

theorem packAll_injective (h : header.Fits) (h' : header'.Fits)
    (heq : packAll header = packAll header') : header = header' := by
  simp only [packAll, packHeader, List.append_assoc] at heq
  obtain ⟨hmagic, heq⟩ := List.append_inj heq (h.magic.trans h'.magic.symm)
  obtain ⟨hversion, heq⟩ := List.append_inj heq rfl
  obtain ⟨hsize, heq⟩ := List.append_inj heq rfl
  obtain ⟨hwords, heq⟩ := List.append_inj heq (by rw [storeWords_length, storeWords_length]; rfl)
  obtain ⟨hhash, heq⟩ := List.append_inj heq (h.payloadHash.trans h'.payloadHash.symm)
  obtain ⟨hkey, heq⟩ := List.append_inj heq (h.keyId.trans h'.keyId.symm)
  obtain ⟨hcrc, heq⟩ := List.append_inj heq rfl
  obtain ⟨hsignature, hreserved⟩ := List.append_inj heq (h.signature.trans h'.signature.symm)
  have hversion' := storeLe16_injective hversion
  have hsize' := storeLe16_injective hsize
  have hcrc' := storeLe32_injective hcrc
  have hwords' := storeWords_injective hwords
  obtain ⟨⟩ := header
  obtain ⟨⟩ := header'
  simp only [List.cons.injEq, and_true] at hwords'
  simp only [Header.mk.injEq]
  tauto

/-- What was unpacked packs into the bytes it came from. -/
theorem packAll_unpack (hlength : headerSize ≤ blob.length) :
    (unpack blob).Fits ∧ packAll (unpack blob) = field blob 0 headerSize := by
  have hlength' : 240 ≤ blob.length := hlength
  refine ⟨⟨?_, ?_, ?_, ?_, ?_⟩, ?_⟩
  · exact field_length (by omega)
  · exact field_length (by omega)
  · exact field_length (by omega)
  · exact field_length (by omega)
  · exact field_length (by omega)
  · have hsplit : field blob 0 headerSize = field blob 0 4 ++ field blob 4 2 ++ field blob 6 2 ++
        field blob 8 (4 * 17) ++ field blob 76 64 ++ field blob 140 16 ++ field blob 156 4 ++
        field blob 160 64 ++ field blob 224 16 := by
      rw [← field_add, ← field_add, ← field_add, ← field_add, ← field_add, ← field_add, ← field_add,
        ← field_add]
      rfl
    rw [hsplit, ← storeLe16_field (by omega), ← storeLe16_field (by omega),
      ← storeWords_wordsAt (by omega), ← storeLe32_field (show 156 + 4 ≤ blob.length by omega)]
    rfl

/-- What was packed unpacks into what it came from. -/
theorem unpack_packAll (h : header.Fits) : unpack (packAll header ++ rest) = header := by
  have hlength : (packAll header).length = headerSize := packHeader_length h _ h.signature
  have hle : headerSize ≤ (packAll header ++ rest).length := by
    rw [List.length_append]
    omega
  obtain ⟨hfits, hpack⟩ := packAll_unpack hle
  rw [field, List.drop_zero, ← hlength, List.take_left] at hpack
  exact packAll_injective hfits h hpack

end Header

/-! ### Accepted packages -/

/-- What `parse_package` asks of a package, and what it returns. -/
structure Accepted (crypto : ModuleCrypto) (blob : List UInt8) (publicKey : Option (List UInt8))
    (minPlatform abiVersion minModuleVersion : ℤ) (supported : Option (List UInt32))
    (header : Header) (capabilities : List UInt32) : Prop where
  length : headerSize ≤ blob.length ∧ blob.length ≤ maxPackage
  header_eq : header = unpack blob
  identity : header.magic = moduleMagic ∧ header.formatVersion = formatVersion ∧
    header.headerSize.toNat = headerSize
  totalSize : header.totalSize.toNat = blob.length
  nonzero : header.moduleId ≠ 0 ∧ header.moduleVersion ≠ 0 ∧ header.minPlatform ≠ 0 ∧
    header.abiVersion ≠ 0
  moduleType : header.moduleType ∈ supportedTypes
  flags : header.flags = 0
  reserved : header.reserved = List.replicate 16 0
  platform : (header.minPlatform.toNat : ℤ) ≤ minPlatform
  abi : (header.abiVersion.toNat : ℤ) = abiVersion
  rollback : minModuleVersion ≤ (header.moduleVersion.toNat : ℤ)
  capabilityOffset : header.capabilityOffset.toNat = headerSize
  payloadOffset : header.payloadOffset.toNat = headerSize + header.capabilitySize.toNat
  payloadEnd : header.payloadOffset.toNat + header.payloadSize.toNat = blob.length
  codeSize : header.codeSize ≤ header.payloadSize
  entryOffset : header.entryOffset ≤ header.codeSize
  alignment : header.capabilitySize.toNat % 4 = 0
  capabilities_eq : capabilities = wordsAt blob headerSize (header.capabilitySize.toNat / 4)
  capabilities_valid : CapabilitiesValid supported capabilities
  payloadHash : crypto.sha512 (field blob header.payloadOffset.toNat header.payloadSize.toNat) =
    header.payloadHash
  crc : crc32Update 0 (headerForCrc header) = header.headerCrc32
  signed : ∀ key ∈ publicKey, key.length = 32 ∧ (crypto.sha256 key).take 16 = header.keyId ∧
    crypto.verify key (headerForSignature header ++
      (field blob headerSize header.capabilitySize.toNat ++
        field blob header.payloadOffset.toNat header.payloadSize.toNat)) header.signature = true

section Parse

variable {crypto : ModuleCrypto} {blob : List UInt8} {publicKey : Option (List UInt8)}
  {minPlatform abiVersion minModuleVersion : ℤ} {supported : Option (List UInt32)}
  {manifest : Manifest}

theorem regionEnd_eq_ok_iff {error : PackageError} {offset size total : UInt32} {stop : ℕ} :
    regionEnd error offset size total = .ok stop ↔
      headerSize ≤ offset.toNat ∧ offset.toNat + size.toNat ≤ total.toNat ∧
        stop = offset.toNat + size.toNat := by
  rw [regionEnd]
  split
  · simp only [false_iff, reduceCtorEq]
    omega
  · split
    · simp only [false_iff, reduceCtorEq]
      omega
    · rw [Except.ok.injEq]
      omega

/-- The optional check at the end of `parse_package`. -/
theorem optionalCheck_eq_ok_iff {α : Type} {check : List UInt8 → Except PackageError Unit}
    {value out : α} :
    (match publicKey with
      | none => pure value
      | some key => do
        check key
        pure value) = Except.ok out ↔ value = out ∧ ∀ key ∈ publicKey, check key = .ok () := by
  cases publicKey with
  | none => exact ⟨fun h => ⟨Except.ok.inj h, fun _ h => (nomatch h)⟩, fun h => congrArg _ h.1⟩
  | some key =>
    simp only [except_bind_eq_ok, Option.mem_some_iff, forall_eq']
    constructor
    · rintro ⟨_, hcheck, h⟩
      exact ⟨Except.ok.inj h, hcheck⟩
    · rintro ⟨rfl, hcheck⟩
      exact ⟨(), hcheck, rfl⟩

theorem checkSignature_eq_ok_iff {header : Header} {key body : List UInt8} :
    checkSignature crypto header key body = .ok () ↔ key.length = 32 ∧
      (crypto.sha256 key).take 16 = header.keyId ∧
      crypto.verify key (headerForSignature header ++ body) header.signature = true := by
  simp only [checkSignature, except_bind_eq_ok, require_eq_ok, exists_const]

/-- **`parse_package` accepts exactly that.** -/
theorem parsePackage_eq_ok_iff :
    parsePackage crypto blob publicKey minPlatform abiVersion minModuleVersion supported =
      .ok manifest ↔ Accepted crypto blob publicKey minPlatform abiVersion minModuleVersion supported
        manifest.header manifest.capabilities := by
  simp only [parsePackage, except_bind_eq_ok, require_eq_ok, exists_const, regionEnd_eq_ok_iff,
    decodeCapabilities_eq_ok_iff]
  constructor
  · rintro ⟨hmin, hmax, hidentity, htotal, hnonzero, htype, hflags, ⟨hreserved, -⟩, hplatform, habi,
      hrollback, hcap, capEnd, ⟨-, -, rfl⟩, payloadEnd, ⟨-, -, rfl⟩, hbetween, hafter, -, hcode,
      hentry, caps, ⟨halign, hcaps, hvalid⟩, hhash, hcrc, hkey⟩
    obtain ⟨rfl, hsigned⟩ := optionalCheck_eq_ok_iff.mp hkey
    simp only [checkSignature_eq_ok_iff, Nat.add_sub_cancel_left, hcap] at hsigned
    rw [hcap] at hbetween hcaps
    rw [Nat.add_sub_cancel_left] at hhash
    exact
      { length := ⟨hmin, hmax⟩
        header_eq := rfl
        identity := hidentity
        totalSize := htotal
        nonzero := hnonzero
        moduleType := htype
        flags := hflags
        reserved := hreserved
        platform := hplatform
        abi := habi
        rollback := hrollback
        capabilityOffset := hcap
        payloadOffset := hbetween.symm
        payloadEnd := hafter.trans htotal
        codeSize := hcode
        entryOffset := hentry
        alignment := halign
        capabilities_eq := hcaps
        capabilities_valid := hvalid
        payloadHash := hhash
        crc := hcrc
        signed := hsigned }
  · intro h
    obtain ⟨header, capabilities⟩ := manifest
    obtain rfl : header = unpack blob := h.header_eq
    have hfits := (packAll_unpack h.length.1).1
    have hoffset : (unpack blob).payloadOffset.toNat =
        headerSize + (unpack blob).capabilitySize.toNat := h.payloadOffset
    have hend : (unpack blob).payloadOffset.toNat + (unpack blob).payloadSize.toNat = blob.length :=
      h.payloadEnd
    have htotal : (unpack blob).totalSize.toNat = blob.length := h.totalSize
    have hcap : (unpack blob).capabilityOffset.toNat = headerSize := h.capabilityOffset
    refine ⟨h.length.1, h.length.2, h.identity, htotal, h.nonzero, h.moduleType, h.flags,
      ⟨h.reserved, hfits.payloadHash, hfits.signature, hfits.keyId⟩, h.platform, h.abi, h.rollback,
      hcap, _, ⟨by omega, by omega, rfl⟩, _, ⟨by omega, by omega, rfl⟩, by omega, by omega, by omega,
      h.codeSize, h.entryOffset, capabilities, ⟨h.alignment, ?_, h.capabilities_valid⟩, ?_, h.crc, ?_⟩
    · rw [hcap]
      exact h.capabilities_eq
    · rw [Nat.add_sub_cancel_left]
      exact h.payloadHash
    · refine optionalCheck_eq_ok_iff.mpr ⟨rfl, ?_⟩
      simp only [checkSignature_eq_ok_iff, Nat.add_sub_cancel_left, hcap]
      exact h.signed

/-- The bytes of the capabilities are the words. -/
theorem Accepted.capabilityBytes {header : Header} {capabilities : List UInt32}
    (h : Accepted crypto blob publicKey minPlatform abiVersion minModuleVersion supported header
      capabilities) :
    field blob headerSize header.capabilitySize.toNat = storeWords capabilities := by
  have hoffset := h.payloadOffset
  have hend := h.payloadEnd
  have halign : 4 * (header.capabilitySize.toNat / 4) = header.capabilitySize.toNat :=
    Nat.mul_div_cancel' (Nat.dvd_of_mod_eq_zero h.alignment)
  rw [h.capabilities_eq, wordsAt, storeWords_wordsAt (by omega), halign]

/-- A package is its header, its capabilities and its payload. -/
theorem Accepted.split {header : Header} {capabilities : List UInt32}
    (h : Accepted crypto blob publicKey minPlatform abiVersion minModuleVersion supported header
      capabilities) :
    blob = packAll header ++ (storeWords capabilities ++
      field blob header.payloadOffset.toNat header.payloadSize.toNat) := by
  have hwhole : field blob 0 blob.length = blob := by
    rw [field, List.drop_zero, List.take_length]
  rw [← h.capabilityBytes, h.payloadOffset, ← field_add, h.header_eq, (packAll_unpack h.length.1).2]
  nth_rewrite 1 [← hwhole]
  have hsum : blob.length = headerSize +
      ((unpack blob).capabilitySize.toNat + (unpack blob).payloadSize.toNat) := by
    rw [← h.payloadEnd, h.payloadOffset, h.header_eq, Nat.add_assoc]
  rw [hsum, field_add, Nat.zero_add]

end Parse

/-! ### What is signed -/

/-- The message that the signature of a package is checked against. -/
def signedMessage (blob : List UInt8) : List UInt8 :=
  headerForSignature (unpack blob) ++
    (field blob (unpack blob).capabilityOffset.toNat (unpack blob).capabilitySize.toNat ++
      field blob (unpack blob).payloadOffset.toNat (unpack blob).payloadSize.toNat)

section Signed

variable {crypto : ModuleCrypto} {blob : List UInt8} {publicKey : Option (List UInt8)}
  {minPlatform abiVersion minModuleVersion : ℤ} {supported : Option (List UInt32)}
  {header : Header} {capabilities : List UInt32}

/-- The message is the package with zeros in the place of the signature. -/
theorem Accepted.signedMessage_eq
    (h : Accepted crypto blob publicKey minPlatform abiVersion minModuleVersion supported header
      capabilities) :
    signedMessage blob = blob.take 160 ++ (List.replicate 64 0 ++ blob.drop 224) := by
  have hfits := (packAll_unpack h.length.1).1
  have hstart := headerStart_length hfits (unpack blob).headerCrc32
  have hsplit := h.split
  rw [← h.capabilityBytes, ← h.capabilityOffset, h.header_eq, packAll, packHeader_eq,
    List.append_assoc] at hsplit
  have htake : blob.take 160 = headerStart (unpack blob) (unpack blob).headerCrc32 := by
    refine (congrArg (List.take 160) hsplit).trans ?_
    rw [List.append_assoc, List.take_left' hstart]
  have hdrop : blob.drop 224 = (unpack blob).reserved ++
      (field blob (unpack blob).capabilityOffset.toNat (unpack blob).capabilitySize.toNat ++
        field blob (unpack blob).payloadOffset.toNat (unpack blob).payloadSize.toNat) := by
    refine (congrArg (List.drop 224) hsplit).trans (List.drop_left' ?_)
    rw [List.length_append, hstart, hfits.signature]
  rw [signedMessage, headerForSignature, packHeader_eq, htake, hdrop, List.append_assoc,
    List.append_assoc]

/-- What is signed determines a package up to its signature. -/
theorem Accepted.eq_of_signedMessage {blob' : List UInt8} {publicKey' : Option (List UInt8)}
    {minPlatform' abiVersion' minModuleVersion' : ℤ} {supported' : Option (List UInt32)}
    {header' : Header} {capabilities' : List UInt32}
    (h : Accepted crypto blob publicKey minPlatform abiVersion minModuleVersion supported header
      capabilities)
    (h' : Accepted crypto blob' publicKey' minPlatform' abiVersion' minModuleVersion' supported'
      header' capabilities')
    (heq : signedMessage blob = signedMessage blob') :
    blob.take 160 = blob'.take 160 ∧ blob.drop 224 = blob'.drop 224 := by
  have hmin : 240 ≤ blob.length := h.length.1
  have hmin' : 240 ≤ blob'.length := h'.length.1
  rw [h.signedMessage_eq, h'.signedMessage_eq] at heq
  obtain ⟨htake, hrest⟩ := List.append_inj heq (by
    rw [List.length_take, List.length_take]
    omega)
  exact ⟨htake, (List.append_inj hrest rfl).2⟩

end Signed

/-! ### What is built -/

section Build

variable {crypto : ModuleCrypto} {signer : ModuleSigner} {args : BuildArgs} {header : Header}
  {capabilityBlob : List UInt8}

/-- The fields of a header that come from the arguments, or from the sizes. -/
structure HeaderOf (crypto : ModuleCrypto) (signer : ModuleSigner) (args : BuildArgs)
    (capabilities : List UInt32) (header : Header) : Prop where
  identity : header.magic = moduleMagic ∧ header.formatVersion = formatVersion ∧
    header.headerSize.toNat = headerSize
  totalSize : header.totalSize.toNat =
    headerSize + (storeWords capabilities).length + args.payload.length
  fits : headerSize + (storeWords capabilities).length + args.payload.length ≤ maxPackage
  moduleId : (header.moduleId.toNat : ℤ) = args.moduleId
  moduleVersion : (header.moduleVersion.toNat : ℤ) = args.version
  minPlatform : (header.minPlatform.toNat : ℤ) = args.minPlatform
  abiVersion : (header.abiVersion.toNat : ℤ) = args.abiVersion
  nonzero : header.moduleId ≠ 0 ∧ header.moduleVersion ≠ 0 ∧ header.minPlatform ≠ 0 ∧
    header.abiVersion ≠ 0
  moduleType : header.moduleType ∈ supportedTypes ∧
    (header.moduleType.toNat : ℤ) = args.moduleType
  flags : header.flags = 0
  codeSize : (header.codeSize.toNat : ℤ) = args.effectiveCodeSize
  rodataSize : (header.rodataSize.toNat : ℤ) = args.rodataSize
  dataSize : (header.dataSize.toNat : ℤ) = args.dataSize
  bssSize : (header.bssSize.toNat : ℤ) = args.bssSize
  stackSize : (header.stackSize.toNat : ℤ) = args.stackSize
  entryOffset : (header.entryOffset.toNat : ℤ) = args.entryOffset
  capabilityOffset : header.capabilityOffset.toNat = headerSize
  capabilitySize : header.capabilitySize.toNat = (storeWords capabilities).length
  payloadOffset : header.payloadOffset.toNat = headerSize + (storeWords capabilities).length
  payloadSize : header.payloadSize.toNat = args.payload.length
  inPayload : header.codeSize ≤ header.payloadSize ∧ header.entryOffset ≤ header.codeSize
  payloadHash : header.payloadHash = crypto.sha512 args.payload
  keyId : header.keyId = (crypto.sha256 (signer.verifyKey args.seed)).take 16
  reserved : header.reserved = List.replicate 16 0

theorem toNat_ofNat_of_fits {n : ℕ} (h : n ≤ maxPackage) : (UInt32.ofNat n).toNat = n :=
  UInt32.toNat_ofNat_of_lt' (Nat.lt_of_le_of_lt h (by decide))

theorem buildHeader_ok (h : buildHeader crypto signer args = .ok (header, capabilityBlob)) :
    ∃ capabilities, args.capabilities = capabilities.map (fun cap => (cap.toNat : ℤ)) ∧
      capabilityBlob = storeWords capabilities ∧
      CapabilitiesValid args.supportedCapabilities capabilities ∧
      HeaderOf crypto signer args capabilities header := by
  simp only [buildHeader, except_bind_eq_ok, require_eq_ok, exists_const, validateU32_eq_ok_iff] at h
  obtain ⟨-, moduleId, ⟨hid, hid'⟩, version, ⟨hversion, hversion'⟩, platform, ⟨hplatform, hplatform'⟩,
    abi, ⟨habi, habi'⟩, ⟨moduleType, hsupported, htype⟩, code, ⟨hcode, -⟩, rodata, ⟨hrodata, -⟩, data,
    ⟨hdata, -⟩, bss, ⟨hbss, -⟩, stack, ⟨hstack, -⟩, entry, ⟨hentry, -⟩, hpayload, hinside,
    ⟨caps, bytes⟩, hcaps, hfits, h⟩ := h
  obtain ⟨rfl, rfl⟩ := Prod.mk.inj (Except.ok.inj h)
  obtain ⟨hlist, rfl, hvalid⟩ := encodeCapabilities_eq_ok_iff.mp hcaps
  have hsize : (UInt32.ofNat args.payload.length).toNat = args.payload.length :=
    toNat_ofNat_of_fits (by omega)
  have hinside' : code ≤ UInt32.ofNat args.payload.length ∧ entry ≤ code := by
    rw [UInt32.le_iff_toNat_le, UInt32.le_iff_toNat_le, hsize]
    omega
  refine ⟨caps, hlist, rfl, hvalid, ?_⟩
  exact
    { identity := ⟨rfl, rfl, rfl⟩
      totalSize := toNat_ofNat_of_fits hfits
      fits := hfits
      moduleId := hid
      moduleVersion := hversion
      minPlatform := hplatform
      abiVersion := habi
      nonzero := ⟨hid' trivial, hversion' trivial, hplatform' trivial, habi' trivial⟩
      moduleType := by
        rw [← htype, Int.toNat_natCast, UInt32.ofNat_toNat]
        exact ⟨hsupported, rfl⟩
      flags := rfl
      codeSize := hcode
      rodataSize := hrodata
      dataSize := hdata
      bssSize := hbss
      stackSize := hstack
      entryOffset := hentry
      capabilityOffset := rfl
      capabilitySize := toNat_ofNat_of_fits (by omega)
      payloadOffset := toNat_ofNat_of_fits (by omega)
      payloadSize := hsize
      inPayload := hinside'
      payloadHash := rfl
      keyId := rfl
      reserved := rfl }

theorem HeaderOf.sign {capabilities : List UInt32}
    (h : HeaderOf crypto signer args capabilities header) (body : List UInt8) :
    HeaderOf crypto signer args capabilities (signHeader signer args.seed header body) :=
  { h with flags := h.flags }

theorem HeaderOf.signed_fits {capabilities : List UInt32}
    (h : HeaderOf crypto signer args capabilities header) (body : List UInt8) :
    (signHeader signer args.seed header body).Fits where
  magic := by
    rw [(h.sign body).identity.1]
    rfl
  payloadHash := by rw [(h.sign body).payloadHash, crypto.sha512_length]
  keyId := by rw [(h.sign body).keyId, List.length_take, crypto.sha256_length]; rfl
  signature := signer.sign_length _ _
  reserved := by rw [(h.sign body).reserved, List.length_replicate]

/-- A package that is built is accepted under its key. -/
theorem HeaderOf.accepted {capabilities : List UInt32}
    (hsign : ∀ seed message, crypto.verify (signer.verifyKey seed) message (signer.sign seed message) =
      true)
    (hvalid : CapabilitiesValid args.supportedCapabilities capabilities)
    (h : HeaderOf crypto signer args capabilities header) :
    Accepted crypto
      (packAll (signHeader signer args.seed header (storeWords capabilities ++ args.payload)) ++
        storeWords capabilities ++ args.payload)
      (some (signer.verifyKey args.seed)) args.minPlatform args.abiVersion args.version
      args.supportedCapabilities
      (signHeader signer args.seed header (storeWords capabilities ++ args.payload)) capabilities := by
  have hfits := h.signed_fits (storeWords capabilities ++ args.payload)
  have hof := h.sign (storeWords capabilities ++ args.payload)
  have hcrc : crc32Update 0 (headerForCrc
      (signHeader signer args.seed header (storeWords capabilities ++ args.payload))) =
      (signHeader signer args.seed header (storeWords capabilities ++ args.payload)).headerCrc32 := rfl
  have hsignature := hsign args.seed (headerForSignature
    (signHeader signer args.seed header (storeWords capabilities ++ args.payload)) ++
    (storeWords capabilities ++ args.payload))
  have hsame : (signHeader signer args.seed header (storeWords capabilities ++ args.payload)).signature =
      signer.sign args.seed (headerForSignature
        (signHeader signer args.seed header (storeWords capabilities ++ args.payload)) ++
        (storeWords capabilities ++ args.payload)) := rfl
  rw [← hsame] at hsignature
  obtain ⟨signed, hsigned⟩ : ∃ signed,
      signed = signHeader signer args.seed header (storeWords capabilities ++ args.payload) := ⟨_, rfl⟩
  rw [← hsigned] at hfits hof hcrc hsignature ⊢
  have hlength : (packAll signed).length = headerSize :=
    packHeader_length hfits _ hfits.signature
  obtain ⟨blob, hblob⟩ : ∃ blob, blob = packAll signed ++ storeWords capabilities ++ args.payload :=
    ⟨_, rfl⟩
  have hpackage : (packAll signed ++ storeWords capabilities).length = signed.payloadOffset.toNat := by
    rw [List.length_append, hlength, hof.payloadOffset]
  have htotal : blob.length = headerSize + (storeWords capabilities).length + args.payload.length := by
    rw [hblob, List.length_append, List.length_append, hlength]
  have hcapabilities : field blob headerSize signed.capabilitySize.toNat = storeWords capabilities := by
    rw [hblob, List.append_assoc, field, List.drop_left' hlength, hof.capabilitySize, List.take_left]
  have hpayload : field blob signed.payloadOffset.toNat signed.payloadSize.toNat = args.payload := by
    rw [hblob, field, List.drop_left' hpackage, hof.payloadSize, List.take_length]
  have hcount : signed.capabilitySize.toNat = 4 * capabilities.length := by
    rw [hof.capabilitySize, storeWords_length]
  have hheader : unpack blob = signed := by
    rw [hblob, List.append_assoc, unpack_packAll hfits]
  rw [← hblob]
  exact
    { length := by
        rw [htotal]
        exact ⟨by omega, hof.fits⟩
      header_eq := hheader.symm
      identity := hof.identity
      totalSize := hof.totalSize.trans htotal.symm
      nonzero := hof.nonzero
      moduleType := hof.moduleType.1
      flags := hof.flags
      reserved := hof.reserved
      platform := hof.minPlatform.le
      abi := hof.abiVersion
      rollback := hof.moduleVersion.ge
      capabilityOffset := hof.capabilityOffset
      payloadOffset := by rw [hof.payloadOffset, hof.capabilitySize]
      payloadEnd := by rw [hof.payloadOffset, hof.payloadSize, htotal]
      codeSize := hof.inPayload.1
      entryOffset := hof.inPayload.2
      alignment := by
        rw [hcount]
        exact Nat.mul_mod_right 4 _
      capabilities_eq := by
        refine storeWords_injective ?_
        have hle : headerSize + 4 * capabilities.length ≤ blob.length := by
          rw [htotal, storeWords_length]
          omega
        rw [hcount, Nat.mul_div_cancel_left _ (by decide), wordsAt, storeWords_wordsAt hle, ← hcount,
          hcapabilities]
      capabilities_valid := hvalid
      payloadHash := by rw [hpayload, hof.payloadHash]
      crc := hcrc
      signed := by
        rintro key hkey
        obtain rfl := Option.mem_some_iff.mp hkey
        rw [hcapabilities, hpayload]
        exact ⟨signer.verifyKey_length _, hof.keyId.symm, hsignature⟩ }

/-- What passes the checks is built, and is accepted as what it was built from. -/
theorem buildPackage_ok
    (hsign : ∀ seed message, crypto.verify (signer.verifyKey seed) message (signer.sign seed message) =
      true)
    (h : buildHeader crypto signer args = .ok (header, capabilityBlob)) :
    ∃ blob signed capabilities, buildPackage crypto signer args = .ok blob ∧
      parsePackage crypto blob (some (signer.verifyKey args.seed)) args.minPlatform args.abiVersion
        args.version args.supportedCapabilities = .ok ⟨signed, capabilities⟩ ∧
      args.capabilities = capabilities.map (fun cap => (cap.toNat : ℤ)) ∧
      HeaderOf crypto signer args capabilities signed ∧ signed.totalSize.toNat = blob.length ∧
      blob.drop signed.payloadOffset.toNat = args.payload := by
  obtain ⟨caps, hcaps, rfl, hvalid, hof⟩ := buildHeader_ok h
  have haccepted := hof.accepted hsign hvalid
  have hsigned := hof.sign (storeWords caps ++ args.payload)
  have hfits := hof.signed_fits (storeWords caps ++ args.payload)
  have hbuild : buildPackage crypto signer args =
      (do
        let _ ← (parsePackage crypto (packAll (signHeader signer args.seed header
          (storeWords caps ++ args.payload)) ++ storeWords caps ++ args.payload)
          (some (signer.verifyKey args.seed)) args.minPlatform args.abiVersion args.version
          args.supportedCapabilities).mapError .selfCheck
        pure (packAll (signHeader signer args.seed header (storeWords caps ++ args.payload)) ++
          storeWords caps ++ args.payload)) := by
    rw [buildPackage, h]
    rfl
  obtain ⟨signed, heq⟩ : ∃ signed,
      signed = signHeader signer args.seed header (storeWords caps ++ args.payload) := ⟨_, rfl⟩
  rw [← heq] at haccepted hsigned hfits hbuild
  have hparse : parsePackage crypto _ _ args.minPlatform args.abiVersion args.version
      args.supportedCapabilities = .ok ⟨signed, caps⟩ := parsePackage_eq_ok_iff.mpr haccepted
  refine ⟨_, signed, caps, ?_, hparse, hcaps, hsigned, haccepted.totalSize, List.drop_left' ?_⟩
  · rw [hbuild, hparse]
    rfl
  · rw [List.length_append, hsigned.payloadOffset]
    exact congrArg (· + (storeWords caps).length) (packHeader_length hfits _ hfits.signature)

end Build

/-- **Module packages are canonical and signed.** What passes the checks of `build_package` is built,
and is read back as what it was built from. What is accepted is its header, its capabilities and its
payload, packed. And two accepted packages with the same signed message differ in their signatures
at most. -/
theorem modulePackage_canonical (crypto : ModuleCrypto) (signer : ModuleSigner)
    (hsign : ∀ seed message, crypto.verify (signer.verifyKey seed) message (signer.sign seed message) =
      true) :
    (∀ args built, buildHeader crypto signer args = .ok built →
      ∃ blob manifest, buildPackage crypto signer args = .ok blob ∧
        parsePackage crypto blob (some (signer.verifyKey args.seed)) args.minPlatform args.abiVersion
          args.version args.supportedCapabilities = .ok manifest ∧
        (manifest.header.moduleId.toNat : ℤ) = args.moduleId ∧
        (manifest.header.moduleVersion.toNat : ℤ) = args.version ∧
        (manifest.header.minPlatform.toNat : ℤ) = args.minPlatform ∧
        (manifest.header.abiVersion.toNat : ℤ) = args.abiVersion ∧
        (manifest.header.moduleType.toNat : ℤ) = args.moduleType ∧
        (manifest.header.codeSize.toNat : ℤ) = args.effectiveCodeSize ∧
        (manifest.header.rodataSize.toNat : ℤ) = args.rodataSize ∧
        (manifest.header.dataSize.toNat : ℤ) = args.dataSize ∧
        (manifest.header.bssSize.toNat : ℤ) = args.bssSize ∧
        (manifest.header.stackSize.toNat : ℤ) = args.stackSize ∧
        (manifest.header.entryOffset.toNat : ℤ) = args.entryOffset ∧
        manifest.header.totalSize.toNat = blob.length ∧
        manifest.capabilities.map (fun cap => (cap.toNat : ℤ)) = args.capabilities ∧
        blob.drop manifest.header.payloadOffset.toNat = args.payload ∧
        manifest.header.payloadSize.toNat = args.payload.length) ∧
    (∀ blob publicKey minPlatform abiVersion minModuleVersion supported manifest,
      parsePackage crypto blob publicKey minPlatform abiVersion minModuleVersion supported =
        .ok manifest →
      ∃ bytes, encodeCapabilities (manifest.capabilities.map fun cap => (cap.toNat : ℤ)) supported =
          .ok (manifest.capabilities, bytes) ∧
        packHeader manifest.header manifest.header.headerCrc32 manifest.header.signature ++
          (bytes ++ field blob manifest.header.payloadOffset.toNat
            manifest.header.payloadSize.toNat) = blob) ∧
    ∀ blob publicKey minPlatform abiVersion minModuleVersion supported manifest blob' publicKey'
      minPlatform' abiVersion' minModuleVersion' supported' manifest',
      parsePackage crypto blob publicKey minPlatform abiVersion minModuleVersion supported =
        .ok manifest →
      parsePackage crypto blob' publicKey' minPlatform' abiVersion' minModuleVersion' supported' =
        .ok manifest' →
      signedMessage blob = signedMessage blob' →
      blob.take 160 = blob'.take 160 ∧ blob.drop 224 = blob'.drop 224 := by
  refine ⟨fun args built hbuilt => ?_, fun blob publicKey minPlatform abiVersion minModuleVersion
    supported manifest h => ?_, ?_⟩
  · obtain ⟨header, bytes⟩ := built
    obtain ⟨blob, signed, caps, hbuild, hparse, hcaps, hof, htotal, hpayload⟩ :=
      buildPackage_ok hsign hbuilt
    exact ⟨blob, ⟨signed, caps⟩, hbuild, hparse, hof.moduleId, hof.moduleVersion, hof.minPlatform,
      hof.abiVersion, hof.moduleType.2, hof.codeSize, hof.rodataSize, hof.dataSize, hof.bssSize,
      hof.stackSize, hof.entryOffset, htotal, hcaps.symm, hpayload, hof.payloadSize⟩
  · have haccepted := parsePackage_eq_ok_iff.mp h
    exact ⟨_, encodeCapabilities_eq_ok_iff.mpr ⟨rfl, rfl, haccepted.capabilities_valid⟩,
      haccepted.split.symm⟩
  · intro blob publicKey minPlatform abiVersion minModuleVersion supported manifest blob' publicKey'
      minPlatform' abiVersion' minModuleVersion' supported' manifest' h h' heq
    exact (parsePackage_eq_ok_iff.mp h).eq_of_signedMessage (parsePackage_eq_ok_iff.mp h') heq

/-- Signing under the seed of `moduleKey`. -/
def moduleSign (message : List UInt8) : List UInt8 :=
  if message = headerForSignature firstHeader ++ [0] then firstSignature
  else if message = headerForSignature secondHeader ++ [0] then secondSignature
  else List.replicate 64 0

def smallSigner : ModuleSigner where
  verifyKey _ := moduleKey
  sign _ message := moduleSign message
  verifyKey_length _ := rfl
  sign_length _ message := by
    rw [moduleSign]
    split
    · rfl
    · split <;> rfl

/-- The hash functions at the small packages, and the check that goes with `moduleSign`. -/
def signingCrypto : ModuleCrypto where
  sha256 := smallCrypto.sha256
  sha512 := smallCrypto.sha512
  verify publicKey signed signature :=
    decide (publicKey = moduleKey ∧ signature = moduleSign signed)
  sha256_length := smallCrypto.sha256_length
  sha512_length := smallCrypto.sha512_length

/-- The arguments of the first small package. -/
def firstArgs : BuildArgs where
  payload := [0]
  moduleId := 0x7001
  version := 1
  seed := List.replicate 32 0

theorem modulePackage_canonical_first :
    buildPackage signingCrypto smallSigner firstArgs = .ok firstPackage ∧
      ∃ manifest, parsePackage signingCrypto firstPackage (some moduleKey) 1 1 1 none =
          .ok manifest ∧
        (manifest.header.moduleId.toNat : ℤ) = 0x7001 ∧ manifest.capabilities = [] ∧
        firstPackage.drop manifest.header.payloadOffset.toNat = [0] := by
  have hbuild : buildPackage signingCrypto smallSigner firstArgs = .ok firstPackage := by
    decide +kernel
  have hheader : ∃ built, buildHeader signingCrypto smallSigner firstArgs = .ok built := by
    simp only [buildPackage, except_bind_eq_ok] at hbuild
    obtain ⟨built, hbuilt, -⟩ := hbuild
    exact ⟨built, hbuilt⟩
  obtain ⟨built, hbuilt⟩ := hheader
  obtain ⟨blob, manifest, hblob, hparse, hid, -, -, -, -, -, -, -, -, -, -, -, hcaps, hpayload, -⟩ :=
    (modulePackage_canonical signingCrypto smallSigner
      (fun seed message => decide_eq_true ⟨rfl, rfl⟩)).1 firstArgs built hbuilt
  obtain rfl := Except.ok.inj (hbuild.symm.trans hblob)
  exact ⟨hbuild, manifest, hparse, hid, List.map_eq_nil_iff.mp hcaps, hpayload⟩

end Stm32SecurityLab.ModuleInstall
