import Stm32SecurityLab.ModuleInstall.Format
import Mathlib.Data.Nat.Bitwise

/-!
# Native payloads

The payload format of `tools/native_loader.py`: a header of 76 bytes, then code, read-only data and
initial data, each at the next multiple of four.

The integers that `build_native_payload` is given are Python integers. `struct.pack` raises for one
that does not fit its field, which is `structU32`. What `struct.unpack` returns fits, so the fields
of a header are words.

## Main definitions

* `NativeHeader`, `buildNativePayload`, `validateNativePayload`
* `Canonical` — a payload with its header and regions

## Main results

* `canonical_of_validate` — what an accepted payload is
* `nativePayload_canonical` — building and validating are inverse
-/

namespace Stm32SecurityLab.Native

open Crash ModuleInstall

/-! ### The format -/

def nativeMagic : List UInt8 := [0x4E, 0x4D, 0x56, 0x31]
def nativeVersion : UInt16 := 1
def nativeHeaderSize : ℕ := 76
def platformApiVersion : UInt32 := 1

def maxCodeSize : ℕ := 4096
def maxRodataSize : ℕ := 2048
def maxDataSize : ℕ := 1024
def maxBssSize : ℕ := 1024
def maxStackSize : ℕ := 1024
def maxTotalRam : ℕ := 1024
def maxTotalPayload : ℕ := maxCodeSize + maxRodataSize + maxDataSize + nativeHeaderSize

def simNone : UInt32 := 0
def simRccAnalysis : UInt32 := 1

/-- The names that `_region` puts into its messages. -/
inductive RegionName where
  | code
  | rodata
  | data
  deriving DecidableEq, Repr

/-- The messages of `NativeLoaderError`, and the `struct.error` of `pack_native_header`. -/
inductive NativeLoaderError where
  | structError
  | truncatedHeader
  | invalidIdentity
  | reservedField
  | invalidTotalSize
  | malformedApiTable
  | unknownNativeSimulation
  | malformedOffsets
  | unaligned (name : RegionName)
  | invalidRange (name : RegionName)
  | overlappingRegions
  | trailingData
  | nonzeroPadding
  | invalidCodeSize
  | unalignedCode
  | excessiveRodata
  | excessiveData
  | excessiveBss
  | excessiveStack
  | excessiveRam
  | unalignedEntry
  | entryOutsideCode
  | payloadSizeMismatch
  | missingCapability (capability : ℤ)
  | unknownApiService
  | invalidRccIndex
  | outputUnavailable
  | unknownSimulation
  | notReadyToInitialize
  | quarantined
  | noLoadedModule
  deriving DecidableEq, Repr

/-- `NativeHeader`. -/
structure NativeHeader where
  magic : List UInt8
  formatVersion : UInt16
  headerSize : UInt16
  totalSize : UInt32
  codeOffset : UInt32
  codeSize : UInt32
  rodataOffset : UInt32
  rodataSize : UInt32
  dataOffset : UInt32
  dataSize : UInt32
  bssSize : UInt32
  stackSize : UInt32
  entryOffset : UInt32
  apiVersion : UInt32
  simulationId : UInt32
  reserved0 : UInt32
  reserved : List UInt8
  deriving DecidableEq, Repr

/-- `NativeImage`. -/
structure NativeImage where
  header : NativeHeader
  code : List UInt8
  rodata : List UInt8
  dataInitial : List UInt8
  deriving DecidableEq, Repr

/-- `_align4`. `Nat.ldiff a b` is `a & ~b`. -/
def align4 (value : ℕ) : ℕ := Nat.ldiff (value + 3) 3

/-- `_region`: the end of a region. -/
def region (name : RegionName) (offset size total alignment : ℕ) : Except NativeLoaderError ℕ := do
  require (offset % alignment = 0) (.unaligned name)
  require (nativeHeaderSize ≤ offset) (.invalidRange name)
  require (¬ (offset > total ∨ size > total - offset)) (.invalidRange name)
  pure (offset + size)

/-- The words of a header, in order. -/
def NativeHeader.words (header : NativeHeader) : List UInt32 :=
  [header.totalSize, header.codeOffset, header.codeSize, header.rodataOffset, header.rodataSize,
    header.dataOffset, header.dataSize, header.bssSize, header.stackSize, header.entryOffset,
    header.apiVersion, header.simulationId, header.reserved0]

/-- `pack_native_header`. -/
def packNativeHeader (header : NativeHeader) : List UInt8 :=
  header.magic ++ (storeLe16 header.formatVersion ++ (storeLe16 header.headerSize ++
    (storeWords header.words ++ header.reserved)))

/-- `unpack_native_header`. -/
def unpackNativeHeader (blob : List UInt8) : Except NativeLoaderError NativeHeader := do
  require (nativeHeaderSize ≤ blob.length) .truncatedHeader
  pure
    { magic := field blob 0 4
      formatVersion := loadLe16 (byteAt blob) 4
      headerSize := loadLe16 (byteAt blob) 6
      totalSize := loadLe32 (byteAt blob) 8
      codeOffset := loadLe32 (byteAt blob) 12
      codeSize := loadLe32 (byteAt blob) 16
      rodataOffset := loadLe32 (byteAt blob) 20
      rodataSize := loadLe32 (byteAt blob) 24
      dataOffset := loadLe32 (byteAt blob) 28
      dataSize := loadLe32 (byteAt blob) 32
      bssSize := loadLe32 (byteAt blob) 36
      stackSize := loadLe32 (byteAt blob) 40
      entryOffset := loadLe32 (byteAt blob) 44
      apiVersion := loadLe32 (byteAt blob) 48
      simulationId := loadLe32 (byteAt blob) 52
      reserved0 := loadLe32 (byteAt blob) 56
      reserved := field blob 60 16 }

/-- The zero bytes `validate_native_payload` asks for between two regions. -/
def paddingIsZero (payload : List UInt8) (start stop : ℕ) : Prop :=
  field payload start (stop - start) = List.replicate (stop - start) 0

instance (payload : List UInt8) (start stop : ℕ) : Decidable (paddingIsZero payload start stop) :=
  inferInstanceAs (Decidable (_ = _))

/-- `validate_native_payload`. -/
def validateNativePayload (payload : List UInt8) : Except NativeLoaderError NativeImage := do
  let header ← unpackNativeHeader payload
  require (header.magic = nativeMagic ∧ header.formatVersion = nativeVersion ∧
    header.headerSize.toNat = nativeHeaderSize) .invalidIdentity
  require (header.reserved0 = 0 ∧ header.reserved = List.replicate 16 0) .reservedField
  require (header.totalSize.toNat = payload.length ∧ header.totalSize.toNat ≤ maxTotalPayload)
    .invalidTotalSize
  require (header.apiVersion = platformApiVersion) .malformedApiTable
  require (header.simulationId = simNone ∨ header.simulationId = simRccAnalysis)
    .unknownNativeSimulation
  require (header.codeOffset.toNat = nativeHeaderSize) .malformedOffsets
  let codeEnd ← region .code header.codeOffset.toNat header.codeSize.toNat header.totalSize.toNat 4
  let rodataEnd ← region .rodata header.rodataOffset.toNat header.rodataSize.toNat
    header.totalSize.toNat 4
  let dataEnd ← region .data header.dataOffset.toNat header.dataSize.toNat header.totalSize.toNat 4
  require (codeEnd ≤ header.rodataOffset.toNat ∧ rodataEnd ≤ header.dataOffset.toNat)
    .overlappingRegions
  require (header.rodataOffset.toNat = align4 codeEnd ∧ header.dataOffset.toNat = align4 rodataEnd)
    .malformedOffsets
  require (dataEnd = header.totalSize.toNat) .trailingData
  require (paddingIsZero payload codeEnd header.rodataOffset.toNat) .nonzeroPadding
  require (paddingIsZero payload rodataEnd header.dataOffset.toNat) .nonzeroPadding
  require (header.codeSize ≠ 0 ∧ header.codeSize.toNat ≤ maxCodeSize) .invalidCodeSize
  require (header.codeSize.toNat % 2 = 0) .unalignedCode
  require (header.rodataSize.toNat ≤ maxRodataSize) .excessiveRodata
  require (header.dataSize.toNat ≤ maxDataSize) .excessiveData
  require (header.bssSize.toNat ≤ maxBssSize) .excessiveBss
  require (header.stackSize ≠ 0 ∧ header.stackSize.toNat ≤ maxStackSize ∧
    header.stackSize.toNat % 8 = 0) .excessiveStack
  require (header.dataSize.toNat + header.bssSize.toNat + header.stackSize.toNat ≤ maxTotalRam)
    .excessiveRam
  require (header.entryOffset.toNat % 2 = 0) .unalignedEntry
  require (header.entryOffset < header.codeSize) .entryOutsideCode
  pure
    { header
      code := field payload header.codeOffset.toNat (codeEnd - header.codeOffset.toNat)
      rodata := field payload header.rodataOffset.toNat (rodataEnd - header.rodataOffset.toNat)
      dataInitial := field payload header.dataOffset.toNat (dataEnd - header.dataOffset.toNat) }

/-- One `I` of a `struct.pack`. -/
def structU32 (value : ℤ) : Except NativeLoaderError UInt32 :=
  if 0 ≤ value ∧ value ≤ 0xFFFFFFFF then .ok (UInt32.ofNat value.toNat) else .error .structError

/-- The arguments of `build_native_payload`. -/
structure NativeArgs where
  code : List UInt8
  rodata : List UInt8 := []
  data : List UInt8 := []
  bssSize : ℤ := 0
  stackSize : ℤ := 256
  entryOffset : ℤ := 0
  apiVersion : ℤ := 1
  simulationId : ℤ := 0
  deriving DecidableEq, Repr

/-- Where `build_native_payload` puts the read-only data. -/
def NativeArgs.rodataOffset (args : NativeArgs) : ℕ := align4 (nativeHeaderSize + args.code.length)

/-- Where `build_native_payload` puts the initial data. -/
def NativeArgs.dataOffset (args : NativeArgs) : ℕ := align4 (args.rodataOffset + args.rodata.length)

/-- The header of `build_native_payload`, once its fields have been found to fit. -/
def NativeArgs.header (args : NativeArgs) : Except NativeLoaderError NativeHeader := do
  pure
    { magic := nativeMagic
      formatVersion := nativeVersion
      headerSize := UInt16.ofNat nativeHeaderSize
      totalSize := ← structU32 (args.dataOffset + args.data.length)
      codeOffset := ← structU32 nativeHeaderSize
      codeSize := ← structU32 args.code.length
      rodataOffset := ← structU32 args.rodataOffset
      rodataSize := ← structU32 args.rodata.length
      dataOffset := ← structU32 args.dataOffset
      dataSize := ← structU32 args.data.length
      bssSize := ← structU32 args.bssSize
      stackSize := ← structU32 args.stackSize
      entryOffset := ← structU32 args.entryOffset
      apiVersion := ← structU32 args.apiVersion
      simulationId := ← structU32 args.simulationId
      reserved0 := 0
      reserved := List.replicate 16 0 }

/-- A buffer, filled with zeros up to an offset. -/
def padTo (payload : List UInt8) (offset : ℕ) : List UInt8 :=
  payload ++ List.replicate (offset - payload.length) 0

/-- `build_native_payload`. -/
def buildNativePayload (args : NativeArgs) : Except NativeLoaderError (List UInt8) := do
  let header ← args.header
  let payload := padTo (packNativeHeader header ++ args.code) args.rodataOffset
  let payload := padTo (payload ++ args.rodata) args.dataOffset ++ args.data
  require (payload.length = args.dataOffset + args.data.length) .payloadSizeMismatch
  let _ ← validateNativePayload payload
  pure payload

/-- `build_rcc_analysis_native_payload`. -/
def buildRccAnalysisNativePayload : Except NativeLoaderError (List UInt8) :=
  buildNativePayload
    { code := [0x00, 0xB5, 0x00, 0xBD]
      rodata := [0x45, 0x58, 0x50, 0x30, 0x36, 0x39, 0x20, 0x52, 0x43, 0x43, 0x20, 0x61, 0x6E, 0x61,
        0x6C, 0x79, 0x73, 0x69, 0x73, 0x00]
      bssSize := 64
      simulationId := 1 }

/-! ### Alignment -/

theorem align4_eq (value : ℕ) : align4 value = (value + 3) / 4 * 4 := by
  refine Nat.eq_of_testBit_eq fun i => ?_
  have hshift : (value + 3) / 4 * 4 = (value + 3) >>> 2 <<< 2 := by
    rw [Nat.shiftLeft_eq, Nat.shiftRight_eq_div_pow]
  rw [align4, Nat.testBit_ldiff, hshift, Nat.testBit_shiftLeft, Nat.testBit_shiftRight]
  match i with
  | 0 => simp
  | 1 => simp [Nat.testBit]
  | i + 2 =>
    have hhigh : Nat.testBit 3 (i + 2) = false :=
      Nat.testBit_lt_two_pow (Nat.lt_of_lt_of_le (by decide) (Nat.pow_le_pow_right (by decide)
        (Nat.le_add_left 2 i)))
    rw [hhigh, Nat.add_comm i 2]
    simp

/-- The next multiple of four. -/
theorem align4_spec (value : ℕ) :
    value ≤ align4 value ∧ align4 value ≤ value + 3 ∧ 4 ∣ align4 value := by
  rw [align4_eq]
  omega

/-! ### Headers -/

section Header

variable {blob rest : List UInt8} {header header' : NativeHeader}

/-- What every header that is packed or unpacked satisfies. -/
structure NativeHeader.Fits (header : NativeHeader) : Prop where
  magic : header.magic.length = 4
  reserved : header.reserved.length = 16

theorem packNativeHeader_length (h : header.Fits) :
    (packNativeHeader header).length = nativeHeaderSize := by
  simp only [packNativeHeader, List.length_append, h.magic, h.reserved, storeLe16_length,
    storeWords_length, NativeHeader.words, List.length_cons, List.length_nil, nativeHeaderSize]

theorem packNativeHeader_injective (h : header.Fits) (h' : header'.Fits)
    (heq : packNativeHeader header = packNativeHeader header') : header = header' := by
  rw [packNativeHeader, packNativeHeader] at heq
  obtain ⟨hmagic, heq⟩ := List.append_inj heq (h.magic.trans h'.magic.symm)
  obtain ⟨hversion, heq⟩ := List.append_inj heq rfl
  obtain ⟨hsize, heq⟩ := List.append_inj heq rfl
  obtain ⟨hwords, hreserved⟩ := List.append_inj' heq (h.reserved.trans h'.reserved.symm)
  have hversion' := storeLe16_injective hversion
  have hsize' := storeLe16_injective hsize
  have hwords' := storeWords_injective hwords
  obtain ⟨⟩ := header
  obtain ⟨⟩ := header'
  simp only [NativeHeader.words, List.cons.injEq, and_true] at hwords'
  simp only [NativeHeader.mk.injEq]
  exact ⟨hmagic, hversion', hsize', hwords'.1, hwords'.2.1, hwords'.2.2.1, hwords'.2.2.2.1,
    hwords'.2.2.2.2.1, hwords'.2.2.2.2.2.1, hwords'.2.2.2.2.2.2.1, hwords'.2.2.2.2.2.2.2.1,
    hwords'.2.2.2.2.2.2.2.2.1, hwords'.2.2.2.2.2.2.2.2.2.1, hwords'.2.2.2.2.2.2.2.2.2.2.1,
    hwords'.2.2.2.2.2.2.2.2.2.2.2.1, hwords'.2.2.2.2.2.2.2.2.2.2.2.2, hreserved⟩

/-- What was unpacked packs into the bytes it came from. -/
theorem pack_of_unpack (h : unpackNativeHeader blob = .ok header) :
    header.Fits ∧ nativeHeaderSize ≤ blob.length ∧
      packNativeHeader header = field blob 0 nativeHeaderSize := by
  simp only [unpackNativeHeader, except_bind_eq_ok, require_eq_ok, exists_const] at h
  obtain ⟨hlength, h⟩ := h
  have hlength' : 76 ≤ blob.length := hlength
  obtain rfl := Except.ok.inj h
  refine ⟨⟨?_, ?_⟩, hlength, ?_⟩
  · exact field_length (by omega)
  · exact field_length (by omega)
  · have hsplit : field blob 0 nativeHeaderSize = field blob 0 4 ++ (field blob 4 2 ++
        (field blob 6 2 ++ (field blob 8 (4 * 13) ++ field blob 60 16))) := by
      rw [← field_add, ← field_add, ← field_add, ← field_add]
      rfl
    rw [hsplit, ← storeLe16_field (by omega), ← storeLe16_field (by omega),
      ← storeWords_wordsAt (by omega)]
    rfl

/-- What was packed unpacks into what it came from. -/
theorem unpack_pack (h : header.Fits) :
    unpackNativeHeader (packNativeHeader header ++ rest) = .ok header := by
  have hlength := packNativeHeader_length h
  have hle : nativeHeaderSize ≤ (packNativeHeader header ++ rest).length := by
    rw [List.length_append]
    omega
  obtain ⟨other, hother⟩ : ∃ other,
      unpackNativeHeader (packNativeHeader header ++ rest) = .ok other := by
    simp only [unpackNativeHeader, except_bind_eq_ok, require_eq_ok, exists_const]
    exact ⟨_, hle, rfl⟩
  obtain ⟨hfits, -, hpack⟩ := pack_of_unpack hother
  rw [field, List.drop_zero, ← hlength, List.take_left] at hpack
  rw [hother, packNativeHeader_injective hfits h hpack]

end Header

/-! ### Accepted payloads -/

/-- An accepted payload: the header says where the regions are, they follow each other at the next
multiple of four, and there are zeros between them. -/
structure Canonical (payload : List UInt8) (image : NativeImage) : Prop where
  header : unpackNativeHeader payload = .ok image.header
  identity : image.header.magic = nativeMagic ∧ image.header.formatVersion = nativeVersion ∧
    image.header.headerSize.toNat = nativeHeaderSize
  reserved : image.header.reserved0 = 0 ∧ image.header.reserved = List.replicate 16 0
  totalSize : image.header.totalSize.toNat = payload.length
  codeOffset : image.header.codeOffset.toNat = nativeHeaderSize
  rodataOffset : image.header.rodataOffset.toNat =
    align4 (nativeHeaderSize + image.header.codeSize.toNat)
  dataOffset : image.header.dataOffset.toNat =
    align4 (image.header.rodataOffset.toNat + image.header.rodataSize.toNat)
  dataEnd : image.header.dataOffset.toNat + image.header.dataSize.toNat = payload.length
  code : image.code = field payload nativeHeaderSize image.header.codeSize.toNat
  rodata : image.rodata =
    field payload image.header.rodataOffset.toNat image.header.rodataSize.toNat
  data : image.dataInitial = field payload image.header.dataOffset.toNat image.header.dataSize.toNat
  codePadding : paddingIsZero payload (nativeHeaderSize + image.header.codeSize.toNat)
    image.header.rodataOffset.toNat
  rodataPadding : paddingIsZero payload
    (image.header.rodataOffset.toNat + image.header.rodataSize.toNat)
    image.header.dataOffset.toNat
  entry : image.header.entryOffset.toNat % 2 = 0 ∧
    image.header.entryOffset.toNat < image.header.codeSize.toNat
  ram : image.header.dataSize.toNat + image.header.bssSize.toNat + image.header.stackSize.toNat ≤
    maxTotalRam

section Canonical

variable {payload : List UInt8} {image : NativeImage}

theorem region_eq_ok_iff {name : RegionName} {offset size total alignment stop : ℕ} :
    region name offset size total alignment = .ok stop ↔
      offset % alignment = 0 ∧ nativeHeaderSize ≤ offset ∧
        ¬ (offset > total ∨ size > total - offset) ∧ stop = offset + size := by
  simp only [region, except_bind_eq_ok, require_eq_ok, exists_const]
  refine and_congr_right fun _ => and_congr_right fun _ => and_congr_right fun _ => ?_
  exact ⟨fun h => (Except.ok.inj h).symm, fun h => congrArg Except.ok h.symm⟩

theorem canonical_of_validate (h : validateNativePayload payload = .ok image) :
    Canonical payload image := by
  simp only [validateNativePayload, except_bind_eq_ok, require_eq_ok, exists_const,
    region_eq_ok_iff] at h
  obtain ⟨header, hheader, hidentity, hreserved, ⟨htotal, -⟩, -, -, hcode, codeEnd,
    ⟨-, -, -, rfl⟩, rodataEnd, ⟨-, -, -, rfl⟩, dataEnd, ⟨-, -, -, rfl⟩, -,
    ⟨hrodata, hdata⟩, hend, hpadding₁, hpadding₂, -, -, -, -, -, -, hram, heven, hentry, h⟩ := h
  simp only [Nat.add_sub_cancel_left, hcode] at h
  obtain rfl := Except.ok.inj h
  rw [hcode] at hrodata hpadding₁
  exact
    { header := hheader
      identity := hidentity
      reserved := hreserved
      totalSize := htotal
      codeOffset := hcode
      rodataOffset := hrodata
      dataOffset := hdata
      dataEnd := hend.trans htotal
      code := rfl
      rodata := rfl
      data := rfl
      codePadding := hpadding₁
      rodataPadding := hpadding₂
      entry := ⟨heven, UInt32.lt_iff_toNat_lt.mp hentry⟩
      ram := hram }

/-- The regions are in order. -/
theorem Canonical.ordered (h : Canonical payload image) :
    nativeHeaderSize + image.header.codeSize.toNat ≤ image.header.rodataOffset.toNat ∧
      image.header.rodataOffset.toNat + image.header.rodataSize.toNat ≤
        image.header.dataOffset.toNat ∧
      image.header.dataOffset.toNat ≤ payload.length := by
  refine ⟨?_, ?_, ?_⟩
  · rw [h.rodataOffset]
    exact (align4_spec _).1
  · rw [h.dataOffset]
    exact (align4_spec _).1
  · rw [← h.dataEnd]
    exact Nat.le_add_right _ _

theorem Canonical.code_length (h : Canonical payload image) :
    image.code.length = image.header.codeSize.toNat := by
  have hordered := h.ordered
  rw [h.code, field_length (by omega)]

theorem Canonical.rodata_length (h : Canonical payload image) :
    image.rodata.length = image.header.rodataSize.toNat := by
  have hordered := h.ordered
  rw [h.rodata, field_length (by omega)]

theorem Canonical.data_length (h : Canonical payload image) :
    image.dataInitial.length = image.header.dataSize.toNat := by
  rw [h.data, field_length h.dataEnd.le]

/-- Zeros up to the next region. -/
theorem padTo_field {start stop : ℕ} (hstart : start ≤ stop) (hstop : stop ≤ payload.length)
    (h : paddingIsZero payload start stop) :
    padTo (field payload 0 start) stop = field payload 0 stop := by
  obtain ⟨gap, rfl⟩ := Nat.exists_eq_add_of_le hstart
  have hzeros : field payload start gap = List.replicate gap 0 := by
    rw [paddingIsZero, Nat.add_sub_cancel_left] at h
    exact h
  rw [padTo, field_length (by omega), Nat.add_sub_cancel_left, ← hzeros, field_add, Nat.zero_add]

end Canonical

/-! ### Building -/

section Build

variable {args : NativeArgs} {payload : List UInt8} {image : NativeImage} {header : NativeHeader}

theorem structU32_eq_ok_iff {value : ℤ} {word : UInt32} :
    structU32 value = .ok word ↔ (word.toNat : ℤ) = value := by
  have hlt := word.toNat_lt
  rw [structU32]
  split
  · rename_i h
    rw [Except.ok.injEq, ← UInt32.toNat_inj, UInt32.toNat_ofNat_of_lt']
    · omega
    · change _ < 2 ^ 32
      omega
  · constructor
    · intro h
      cases h
    · omega

/-- The header that is built, field by field. -/
theorem NativeArgs.header_eq_ok_iff :
    args.header = .ok header ↔
      header.magic = nativeMagic ∧ header.formatVersion = nativeVersion ∧
      header.headerSize = UInt16.ofNat nativeHeaderSize ∧
      header.totalSize.toNat = args.dataOffset + args.data.length ∧
      header.codeOffset.toNat = nativeHeaderSize ∧ header.codeSize.toNat = args.code.length ∧
      header.rodataOffset.toNat = args.rodataOffset ∧
      header.rodataSize.toNat = args.rodata.length ∧
      header.dataOffset.toNat = args.dataOffset ∧ header.dataSize.toNat = args.data.length ∧
      (header.bssSize.toNat : ℤ) = args.bssSize ∧ (header.stackSize.toNat : ℤ) = args.stackSize ∧
      (header.entryOffset.toNat : ℤ) = args.entryOffset ∧
      (header.apiVersion.toNat : ℤ) = args.apiVersion ∧
      (header.simulationId.toNat : ℤ) = args.simulationId ∧
      header.reserved0 = 0 ∧ header.reserved = List.replicate 16 0 := by
  simp only [NativeArgs.header, except_bind_eq_ok, structU32_eq_ok_iff]
  constructor
  · rintro ⟨_, h₁, _, h₂, _, h₃, _, h₄, _, h₅, _, h₆, _, h₇, _, h₈, _, h₉, _, h₁₀, _, h₁₁, _, h₁₂, h⟩
    obtain rfl := Except.ok.inj h
    exact ⟨rfl, rfl, rfl, by exact_mod_cast h₁, by exact_mod_cast h₂, by exact_mod_cast h₃,
      by exact_mod_cast h₄, by exact_mod_cast h₅, by exact_mod_cast h₆, by exact_mod_cast h₇, h₈, h₉,
      h₁₀, h₁₁, h₁₂, rfl, rfl⟩
  · obtain ⟨⟩ := header
    rintro ⟨rfl, rfl, rfl, h₁, h₂, h₃, h₄, h₅, h₆, h₇, h₈, h₉, h₁₀, h₁₁, h₁₂, rfl, rfl⟩
    exact ⟨_, by exact_mod_cast h₁, _, by exact_mod_cast h₂, _, by exact_mod_cast h₃, _,
      by exact_mod_cast h₄, _, by exact_mod_cast h₅, _, by exact_mod_cast h₆, _,
      by exact_mod_cast h₇, _, h₈, _, h₉, _, h₁₀, _, h₁₁, _, h₁₂, rfl⟩

/-- The bytes that are built, and what they are validated as. -/
theorem buildNativePayload_eq_ok_iff :
    buildNativePayload args = .ok payload ↔ ∃ header, args.header = .ok header ∧
      payload = padTo (padTo (packNativeHeader header ++ args.code) args.rodataOffset ++
        args.rodata) args.dataOffset ++ args.data ∧
      payload.length = args.dataOffset + args.data.length ∧
      ∃ image, validateNativePayload payload = .ok image := by
  simp only [buildNativePayload, except_bind_eq_ok, require_eq_ok, exists_const]
  refine exists_congr fun header => and_congr_right fun _ => ?_
  constructor
  · rintro ⟨hlength, image, himage, h⟩
    obtain rfl := Except.ok.inj h
    exact ⟨rfl, hlength, image, himage⟩
  · rintro ⟨rfl, hlength, image, himage⟩
    exact ⟨hlength, image, himage, rfl⟩

theorem padTo_length {offset : ℕ} (h : payload.length ≤ offset) :
    (padTo payload offset).length = offset := by
  rw [padTo, List.length_append, List.length_replicate]
  omega

/-- The regions of what was built are those it was built from. -/
theorem validate_of_build (h : buildNativePayload args = .ok payload) :
    ∃ image, validateNativePayload payload = .ok image ∧ image.code = args.code ∧
      image.rodata = args.rodata ∧ image.dataInitial = args.data ∧
      args.header = .ok image.header := by
  obtain ⟨header, hheader, hpayload, -, image, himage⟩ := buildNativePayload_eq_ok_iff.mp h
  have hcanonical := canonical_of_validate himage
  obtain ⟨hmagic, -, -, -, -, hcodeSize, hrodataOffset, hrodataSize, hdataOffset, hdataSize, -, -, -,
    -, -, -, hreserved⟩ := NativeArgs.header_eq_ok_iff.mp hheader
  have hfits : header.Fits := ⟨by rw [hmagic]; rfl, by rw [hreserved]; rfl⟩
  have hlength := packNativeHeader_length hfits
  -- the three places where a region starts
  have hcode : (packNativeHeader header ++ args.code).length ≤ args.rodataOffset := by
    rw [List.length_append, hlength]
    exact (align4_spec _).1
  have hrodata := padTo_length hcode
  have hdata : (padTo (padTo (packNativeHeader header ++ args.code) args.rodataOffset ++
      args.rodata) args.dataOffset).length = args.dataOffset := by
    refine padTo_length ?_
    rw [List.length_append, hrodata]
    exact (align4_spec _).1
  have hsame : image.header = header := by
    have hunpack := hcanonical.header
    rw [hpayload, padTo, padTo] at hunpack
    simp only [List.append_assoc] at hunpack
    rw [unpack_pack hfits] at hunpack
    exact (Except.ok.inj hunpack).symm
  refine ⟨image, himage, ?_, ?_, ?_, by rw [hsame, hheader]⟩
  · rw [hcanonical.code, hsame, hcodeSize, hpayload, padTo, padTo, field]
    simp only [List.append_assoc]
    rw [← hlength, List.drop_left, List.take_left]
  · rw [hcanonical.rodata, hsame, hrodataSize, hrodataOffset, hpayload, field]
    rw [padTo]
    simp only [List.append_assoc]
    rw [List.drop_left' hrodata, List.take_left]
  · rw [hcanonical.data, hsame, hdataSize, hdataOffset, hpayload, field, List.drop_left' hdata,
      List.take_length]

/-- The arguments that build an image. -/
def NativeImage.buildArgs (image : NativeImage) : NativeArgs where
  code := image.code
  rodata := image.rodata
  data := image.dataInitial
  bssSize := image.header.bssSize.toNat
  stackSize := image.header.stackSize.toNat
  entryOffset := image.header.entryOffset.toNat
  apiVersion := image.header.apiVersion.toNat
  simulationId := image.header.simulationId.toNat

/-- What was validated is built again, byte for byte. -/
theorem build_of_validate (h : validateNativePayload payload = .ok image) :
    buildNativePayload image.buildArgs = .ok payload := by
  have hcanonical := canonical_of_validate h
  obtain ⟨hordered₁, hordered₂, hordered₃⟩ := hcanonical.ordered
  obtain ⟨-, -, hpack⟩ := pack_of_unpack hcanonical.header
  have hrodataOffset : image.buildArgs.rodataOffset = image.header.rodataOffset.toNat := by
    rw [NativeArgs.rodataOffset, hcanonical.rodataOffset]
    exact congrArg (fun size => align4 (nativeHeaderSize + size)) hcanonical.code_length
  have hdataOffset : image.buildArgs.dataOffset = image.header.dataOffset.toNat := by
    rw [NativeArgs.dataOffset, hrodataOffset, hcanonical.dataOffset]
    exact congrArg (fun size => align4 (image.header.rodataOffset.toNat + size))
      hcanonical.rodata_length
  have hlength : image.buildArgs.dataOffset + image.buildArgs.data.length = payload.length := by
    rw [hdataOffset, ← hcanonical.dataEnd]
    exact congrArg (image.header.dataOffset.toNat + ·) hcanonical.data_length
  refine buildNativePayload_eq_ok_iff.mpr ⟨image.header, ?_, ?_, hlength.symm, image, h⟩
  · refine NativeArgs.header_eq_ok_iff.mpr ⟨hcanonical.identity.1, hcanonical.identity.2.1, ?_,
      by rw [hlength, hcanonical.totalSize], hcanonical.codeOffset, hcanonical.code_length.symm,
      hrodataOffset.symm, hcanonical.rodata_length.symm, hdataOffset.symm,
      hcanonical.data_length.symm, rfl, rfl, rfl, rfl, rfl, hcanonical.reserved⟩
    rw [← UInt16.toNat_inj, hcanonical.identity.2.2]
    rfl
  · have hcode : packNativeHeader image.header ++ image.code =
        field payload 0 (nativeHeaderSize + image.header.codeSize.toNat) := by
      rw [hpack, hcanonical.code, field_add, Nat.zero_add]
    have hrodata : padTo (packNativeHeader image.header ++ image.code)
        image.header.rodataOffset.toNat ++ image.rodata =
        field payload 0 (image.header.rodataOffset.toNat + image.header.rodataSize.toNat) := by
      rw [hcode, padTo_field hordered₁ (by omega) hcanonical.codePadding, hcanonical.rodata,
        field_add, Nat.zero_add]
    rw [hrodataOffset, hdataOffset]
    change payload = padTo (padTo (packNativeHeader image.header ++ image.code)
      image.header.rodataOffset.toNat ++ image.rodata) image.header.dataOffset.toNat ++
      image.dataInitial
    have hwhole : field payload 0 payload.length = payload := by
      rw [field, List.drop_zero, List.take_length]
    rw [hrodata, padTo_field hordered₂ hordered₃ hcanonical.rodataPadding, hcanonical.data]
    nth_rewrite 1 [← hwhole]
    rw [← hcanonical.dataEnd, field_add, Nat.zero_add]

end Build

/-- **Native payloads are canonical.** What is built validates as what it was built from, what
validates is built again from what it validates as, and its regions cover it, in order, up to zeros
of at most three bytes each. -/
theorem nativePayload_canonical :
    (∀ args payload, buildNativePayload args = .ok payload →
      ∃ image, validateNativePayload payload = .ok image ∧ image.code = args.code ∧
        image.rodata = args.rodata ∧ image.dataInitial = args.data ∧
        (image.header.bssSize.toNat : ℤ) = args.bssSize ∧
        (image.header.stackSize.toNat : ℤ) = args.stackSize ∧
        (image.header.entryOffset.toNat : ℤ) = args.entryOffset ∧
        (image.header.apiVersion.toNat : ℤ) = args.apiVersion ∧
        (image.header.simulationId.toNat : ℤ) = args.simulationId) ∧
    (∀ payload image, validateNativePayload payload = .ok image →
      buildNativePayload image.buildArgs = .ok payload) ∧
    ∀ payload image, validateNativePayload payload = .ok image →
      image.header.codeOffset.toNat = nativeHeaderSize ∧
      image.header.codeOffset.toNat + image.code.length ≤ image.header.rodataOffset.toNat ∧
      image.header.rodataOffset.toNat ≤ image.header.codeOffset.toNat + image.code.length + 3 ∧
      image.header.rodataOffset.toNat + image.rodata.length ≤ image.header.dataOffset.toNat ∧
      image.header.dataOffset.toNat ≤ image.header.rodataOffset.toNat + image.rodata.length + 3 ∧
      image.header.dataOffset.toNat + image.dataInitial.length = payload.length ∧
      4 ∣ image.header.codeOffset.toNat ∧ 4 ∣ image.header.rodataOffset.toNat ∧
      4 ∣ image.header.dataOffset.toNat ∧
      payload.take nativeHeaderSize = packNativeHeader image.header ∧
      field payload image.header.codeOffset.toNat image.code.length = image.code ∧
      field payload image.header.rodataOffset.toNat image.rodata.length = image.rodata ∧
      field payload image.header.dataOffset.toNat image.dataInitial.length = image.dataInitial ∧
      paddingIsZero payload (image.header.codeOffset.toNat + image.code.length)
        image.header.rodataOffset.toNat ∧
      paddingIsZero payload (image.header.rodataOffset.toNat + image.rodata.length)
        image.header.dataOffset.toNat ∧
      image.header.entryOffset.toNat % 2 = 0 ∧
      image.header.entryOffset.toNat < image.code.length ∧
      image.dataInitial.length + image.header.bssSize.toNat + image.header.stackSize.toNat ≤
        maxTotalRam := by
  refine ⟨fun args payload h => ?_, fun payload image => build_of_validate,
    fun payload image h => ?_⟩
  · obtain ⟨image, himage, hcode, hrodata, hdata, hheader⟩ := validate_of_build h
    obtain ⟨-, -, -, -, -, -, -, -, -, -, hbss, hstack, hentry, hapi, hsimulation, -, -⟩ :=
      NativeArgs.header_eq_ok_iff.mp hheader
    exact ⟨image, himage, hcode, hrodata, hdata, hbss, hstack, hentry, hapi, hsimulation⟩
  · have hcanonical := canonical_of_validate h
    obtain ⟨hordered₁, hordered₂, -⟩ := hcanonical.ordered
    have halign₁ := align4_spec (nativeHeaderSize + image.header.codeSize.toNat)
    have halign₂ :=
      align4_spec (image.header.rodataOffset.toNat + image.header.rodataSize.toNat)
    rw [← hcanonical.rodataOffset] at halign₁
    rw [← hcanonical.dataOffset] at halign₂
    rw [hcanonical.codeOffset, hcanonical.code_length, hcanonical.rodata_length,
      hcanonical.data_length]
    exact ⟨rfl, hordered₁, halign₁.2.1, hordered₂, halign₂.2.1, hcanonical.dataEnd, by decide,
      halign₁.2.2, halign₂.2.2, (pack_of_unpack hcanonical.header).2.2.symm, hcanonical.code.symm,
      hcanonical.rodata.symm, hcanonical.data.symm, hcanonical.codePadding,
      hcanonical.rodataPadding, hcanonical.entry.1, hcanonical.entry.2, hcanonical.ram⟩

example : buildRccAnalysisNativePayload.toOption.map List.length = some 100 := by decide +kernel

end Stm32SecurityLab.Native
