import Stm32SecurityLab.Bytes
import Stm32SecurityLab.Crash.Prog
import Stm32SecurityLab.Layout
import Mathlib.Data.List.Nodup

/-!
# Comparing flash dumps

`tools/memory_integrity.py`: a reference manifest is made from a dump of the flash, region by region,
and later dumps are compared with it. The regions are a list written by hand, to which laboratory
canary regions can be added on the command line.

The list leaves out the padding of the two image headers, between the signature and the payload.
Canary regions must not overlap the list, so the padding is also the only place they can be. The
manifest holds a digest of the whole dump, and the comparison does not read it.

SHA-256 and SHA-512 are parameters. The JSON file between the two commands is the manifest itself.
Checksums, sector digests, decoded manifests and the heuristic labels of changed regions are
written to the reports and read by nothing; they are left out.

## Main definitions

* `Region`, `defaultRegions`, `Reference`
* `createReference`, `compareReference`
* `HeaderPadding` — what the list leaves out

## Main results

* `covered_defaultRegions_iff` — the list covers the flash up to the padding
* `compareReference_complete_iff` — when the comparison is right
-/

namespace Stm32SecurityLab

open Crash

namespace MemoryIntegrity

/-! ### Types -/

/-- The patterns that `require_pattern` accepts. -/
inductive CanaryPattern where
  | all00
  | allff
  | aa55
  | address
  | prng
  | walkingOne
  | walkingZero
  deriving DecidableEq, Repr

/-- `Region`. -/
structure Region where
  name : String
  start : ℕ
  endAddr : ℕ
  pattern : Option CanaryPattern := none
  seed : Option String := none
  deriving DecidableEq, Repr

/-- The parts of a region argument `name:start:end[:pattern[:seed]]`. -/
structure RegionSpec where
  name : String
  start : ℤ
  endAddr : ℤ
  pattern : Option CanaryPattern := none
  seed : Option String := none

/-- The texts of `IntegrityError`. -/
inductive IntegrityError where
  | truncatedDump
  | oversizedDump
  | wrongFlashBase
  | wrongTarget
  | addressOutsideFlash
  | regionName
  | regionOverflow
  | regionOrder
  | duplicateRegion
  | invalidRegionRange
  | regionOutsideFlash
  | overlappingRegions
  | snapshotName
  | duplicateSnapshot
  | snapshotValue
  | blockSize
  | canarySeedHex
  | canarySeedEmpty
  | diffLength
  | blockCount
  | regionKey
  deriving DecidableEq, Repr

/-- `hashlib`. -/
structure Hashlib where
  sha256 : List UInt8 → List UInt8
  sha512 : List UInt8 → List UInt8

/-- `LAYOUT["target"]`. -/
def layoutTarget : String := "STM32F429IGT6"

/-- `PUBLIC_TEST_SEED_HEX`. -/
def publicTestSeedHex : String := "73746d3332663432392d63616e6172792d7631"

/-! ### Reading the arguments -/

/-- `str.isspace` on one character. -/
def isSpace (c : Char) : Bool :=
  let n := c.toNat
  (0x09 ≤ n && n ≤ 0x0D) || (0x1C ≤ n && n ≤ 0x20) || n == 0x85 || n == 0xA0 || n == 0x1680 ||
    (0x2000 ≤ n && n ≤ 0x200A) || n == 0x2028 || n == 0x2029 || n == 0x202F || n == 0x205F ||
    n == 0x3000

/-- A name is nonempty and contains no whitespace. -/
def nameIsValid (name : String) : Bool := !name.isEmpty && !name.toList.any isSpace

/-- `load_flash_dump`. -/
def loadFlashDump (data : List UInt8) : Except IntegrityError Unit := do
  require (Layout.flashTotalSize ≤ data.length) .truncatedDump
  require (data.length ≤ Layout.flashTotalSize) .oversizedDump

/-- `parse_region_spec`. -/
def parseRegionSpec (spec : RegionSpec) : Except IntegrityError Region := do
  require (nameIsValid spec.name = true) .regionName
  require (0 ≤ spec.start ∧ 0 ≤ spec.endAddr - spec.start ∧ spec.start ≤ uint32Max ∧
    spec.endAddr - spec.start ≤ uint32Max) .regionOverflow
  require (spec.endAddr - spec.start ≤ uint32Max - spec.start) .regionOverflow
  require (spec.start < spec.endAddr) .regionOrder
  pure
    { name := spec.name
      start := spec.start.toNat
      endAddr := spec.endAddr.toNat
      pattern := spec.pattern
      seed := spec.seed }

/-- The loop of `create_reference` over the region arguments. -/
def parseRegionSpecs : List RegionSpec → Except IntegrityError (List Region)
  | [] => .ok []
  | spec :: specs => do
    let region ← parseRegionSpec spec
    let regions ← parseRegionSpecs specs
    pure (region :: regions)

/-- The loop of `parse_snapshot_specs`, with the snapshots it has read. -/
def parseSnapshotLoop : List (String × ℕ) → List (String × ℤ) →
    Except IntegrityError (List (String × ℕ))
  | snapshots, [] => .ok snapshots
  | snapshots, (name, value) :: specs => do
    require (nameIsValid name = true) .snapshotName
    require (name ∉ snapshots.map Prod.fst) .duplicateSnapshot
    require (0 ≤ value ∧ value ≤ uint32Max) .snapshotValue
    parseSnapshotLoop (snapshots ++ [(name, value.toNat)]) specs

/-- `parse_snapshot_specs`. -/
def parseSnapshotSpecs (specs : List (String × ℤ)) : Except IntegrityError (List (String × ℕ)) :=
  parseSnapshotLoop [] specs

/-- `require_block_size`. -/
def requireBlockSize (value : ℕ) : Except IntegrityError ℕ := do
  require (¬ (value ≤ 0 ∨ 65536 < value ∨ value &&& (value - 1) ≠ 0)) .blockSize
  pure value

/-! ### Regions -/

/-- `default_regions`. -/
def defaultRegions : List Region :=
  let headerSize := Layout.signedManifestSize + Layout.signedSignatureSize
  [{ name := "stage0", start := Layout.bootloaderBase, endAddr := Layout.bootloaderEnd },
    { name := "metadata_copy_0", start := Layout.bootMetadataABase,
      endAddr := Layout.bootMetadataAEnd },
    { name := "metadata_copy_1", start := Layout.bootMetadataBBase,
      endAddr := Layout.bootMetadataBEnd },
    { name := "update_metadata", start := Layout.updateMetadataBase,
      endAddr := Layout.updateMetadataEnd },
    { name := "slot_a_manifest_signature", start := (bootSlots .a).manifestAddress,
      endAddr := (bootSlots .a).manifestAddress + headerSize },
    { name := "slot_a_payload", start := (bootSlots .a).payloadBase,
      endAddr := Layout.slotAEnd },
    { name := "slot_b_manifest_signature", start := (bootSlots .b).manifestAddress,
      endAddr := (bootSlots .b).manifestAddress + headerSize },
    { name := "slot_b_payload", start := (bootSlots .b).payloadBase,
      endAddr := Layout.slotBEnd },
    { name := "recovery", start := Layout.recoveryBase, endAddr := Layout.recoveryEnd }]

/-- `ranges_overlap`. -/
def rangesOverlap (left right : Region) : Prop := left.start < right.endAddr ∧ right.start < left.endAddr

instance (left right : Region) : Decidable (rangesOverlap left right) :=
  inferInstanceAs (Decidable (_ ∧ _))

/-- The first loop of `validate_regions`, with the names it has seen. -/
def validateRanges : List String → List Region → Except IntegrityError Unit
  | _, [] => .ok ()
  | seen, region :: regions => do
    require (region.name ∉ seen) .duplicateRegion
    require (region.start < region.endAddr) .invalidRegionRange
    require (Layout.flashBase ≤ region.start ∧ region.endAddr ≤ Layout.flashEnd)
      .regionOutsideFlash
    validateRanges (region.name :: seen) regions

/-- The second loop of `validate_regions`. -/
def validateApart : List Region → Except IntegrityError Unit
  | [] => .ok ()
  | left :: regions => do
    require (∀ right ∈ regions, ¬ rangesOverlap left right) .overlappingRegions
    validateApart regions

/-- `validate_regions`. -/
def validateRegions (regions : List Region) : Except IntegrityError Unit := do
  validateRanges [] regions
  validateApart regions

/-- `flash_offset`. -/
def flashOffset (address : ℕ) : Except IntegrityError ℕ := do
  require (Layout.flashBase ≤ address ∧ address ≤ Layout.flashEnd) .addressOutsideFlash
  pure (address - Layout.flashBase)

/-- `region_slice`. -/
def regionSlice (dump : List UInt8) (region : Region) : Except IntegrityError (List UInt8) := do
  let start ← flashOffset region.start
  let stop ← flashOffset region.endAddr
  pure ((dump.drop start).take (stop - start))

/-! ### Patterns -/

/-- `seed or PUBLIC_TEST_SEED_HEX`. -/
def seedOrPublic : Option String → String
  | none => publicTestSeedHex
  | some seed => if seed.isEmpty then publicTestSeedHex else seed

/-- The value of a hexadecimal digit. -/
def hexDigit (c : Char) : Option ℕ :=
  if '0' ≤ c ∧ c ≤ '9' then some (c.toNat - '0'.toNat)
  else if 'a' ≤ c ∧ c ≤ 'f' then some (c.toNat - 'a'.toNat + 10)
  else if 'A' ≤ c ∧ c ≤ 'F' then some (c.toNat - 'A'.toNat + 10)
  else none

/-- `bytes.fromhex`: pairs of digits, with whitespace between them. -/
def fromHex : List Char → Option (List UInt8)
  | [] => some []
  | c :: cs =>
    if (0x09 ≤ c.toNat ∧ c.toNat ≤ 0x0D) ∨ c.toNat = 0x20 then fromHex cs
    else
      match cs with
      | [] => none
      | c' :: cs' =>
        match hexDigit c, hexDigit c', fromHex cs' with
        | some high, some low, some bytes => some (UInt8.ofNat (16 * high + low) :: bytes)
        | _, _, _ => none

/-- `seed_bytes`. -/
def seedBytes (seed : Option String) : Except IntegrityError (List UInt8) :=
  match fromHex (seedOrPublic seed).toList with
  | none => .error .canarySeedHex
  | some data => do
    require (data.length ≠ 0) .canarySeedEmpty
    pure data

/-- `pattern_byte`. -/
def patternByte (hashlib : Hashlib) (pattern : CanaryPattern) (address regionStart : ℕ)
    (seed : Option String) : Except IntegrityError UInt8 :=
  match pattern with
  | .all00 => .ok 0x00
  | .allff => .ok 0xFF
  | .aa55 => .ok (if (address - regionStart) % 2 = 0 then 0xAA else 0x55)
  | .address => .ok (UInt8.ofNat (address % 256))
  | .walkingOne => .ok (UInt8.ofNat (2 ^ ((address - regionStart) % 8)))
  | .walkingZero => .ok (UInt8.ofNat (255 - 2 ^ ((address - regionStart) % 8)))
  | .prng => do
    let data ← seedBytes seed
    pure ((hashlib.sha256 (data ++ storeLe32 (UInt32.ofNat address))).headD 0)

/-- The pattern from the address `address` on, for `count` addresses. -/
def patternBytes (hashlib : Hashlib) (pattern : CanaryPattern) (regionStart : ℕ)
    (seed : Option String) : ℕ → ℕ → Except IntegrityError (List UInt8)
  | 0, _ => .ok []
  | count + 1, address => do
    let byte ← patternByte hashlib pattern address regionStart seed
    let bytes ← patternBytes hashlib pattern regionStart seed count (address + 1)
    pure (byte :: bytes)

/-- `expected_pattern_bytes`. -/
def expectedPatternBytes (hashlib : Hashlib) (region : Region) :
    Except IntegrityError (Option (List UInt8)) :=
  match region.pattern with
  | none => .ok none
  | some pattern => do
    let bytes ← patternBytes hashlib pattern region.start region.seed
      (region.endAddr - region.start) region.start
    pure (some bytes)

/-! ### Manifests -/

/-- An entry of `block_hashes`. -/
structure Block where
  index : ℕ
  start : ℕ
  endAddr : ℕ
  size : ℕ
  sha512 : List UInt8
  deriving DecidableEq, Repr

/-- `block_hashes`. -/
def blockHashes (hashlib : Hashlib) (region : Region) (data : List UInt8) (blockSize : ℕ) :
    List Block :=
  (List.range ((data.length + blockSize - 1) / blockSize)).map fun k =>
    let offset := k * blockSize
    let chunk := (data.drop offset).take blockSize
    { index := offset / blockSize
      start := region.start + offset
      endAddr := region.start + offset + chunk.length
      size := chunk.length
      sha512 := hashlib.sha512 chunk }

/-- The entry of `region_record`, with `expected_pattern` as its type and seed. -/
structure RegionRecord where
  name : String
  start : ℕ
  endAddr : ℕ
  sha512 : List UInt8
  blocks : List Block
  expectedPattern : Option (CanaryPattern × String)
  deriving DecidableEq, Repr

/-- `region_record`. -/
def regionRecord (hashlib : Hashlib) (region : Region) (dump : List UInt8) (blockSize : ℕ) :
    Except IntegrityError RegionRecord := do
  let data ← regionSlice dump region
  pure
    { name := region.name
      start := region.start
      endAddr := region.endAddr
      sha512 := hashlib.sha512 data
      blocks := blockHashes hashlib region data blockSize
      expectedPattern := region.pattern.map fun pattern => (pattern, seedOrPublic region.seed) }

/-- The entries of the manifest, one after the other. -/
def regionRecords (hashlib : Hashlib) (dump : List UInt8) (blockSize : ℕ) :
    List Region → Except IntegrityError (List RegionRecord)
  | [] => .ok []
  | region :: regions => do
    let record ← regionRecord hashlib region dump blockSize
    let records ← regionRecords hashlib dump blockSize regions
    pure (record :: records)

/-- The manifest of `create_reference`. -/
structure Reference where
  target : String
  flashBase : ℕ
  blockSize : ℕ
  referenceFlashSha512 : List UInt8
  optionByteSnapshot : List (String × ℕ)
  bootStateRegisterSnapshot : List (String × ℕ)
  regions : List RegionRecord
  deriving DecidableEq, Repr

/-- The arguments of `create-reference`. -/
structure CreateArgs where
  flashDump : List UInt8
  target : String := layoutTarget
  flashBase : ℕ := Layout.flashBase
  blockSize : ℕ := 4096
  canaryRegion : List RegionSpec := []
  optionSnapshot : List (String × ℤ) := []
  bootRegisterSnapshot : List (String × ℤ) := []

/-- `create_reference`. -/
def createReference (hashlib : Hashlib) (args : CreateArgs) : Except IntegrityError Reference := do
  loadFlashDump args.flashDump
  require (args.flashBase = Layout.flashBase) .wrongFlashBase
  require (args.target = layoutTarget) .wrongTarget
  let canaries ← parseRegionSpecs args.canaryRegion
  validateRegions (defaultRegions ++ canaries)
  let optionSnapshot ← parseSnapshotSpecs args.optionSnapshot
  let bootRegisterSnapshot ← parseSnapshotSpecs args.bootRegisterSnapshot
  let blockSize ← requireBlockSize args.blockSize
  let records ← regionRecords hashlib args.flashDump blockSize (defaultRegions ++ canaries)
  pure
    { target := args.target
      flashBase := Layout.flashBase
      blockSize := blockSize
      referenceFlashSha512 := hashlib.sha512 args.flashDump
      optionByteSnapshot := optionSnapshot
      bootStateRegisterSnapshot := bootRegisterSnapshot
      regions := records }

/-- The region of a manifest entry. -/
def referenceRegion (record : RegionRecord) : Region where
  name := record.name
  start := record.start
  endAddr := record.endAddr
  pattern := record.expectedPattern.map Prod.fst
  seed := record.expectedPattern.map Prod.snd

/-- `reference_regions`. -/
def referenceRegions (reference : Reference) : List Region := reference.regions.map referenceRegion

/-- `validate_snapshot_map`. -/
def validateSnapshotMap (snapshot : List (String × ℕ)) : Except IntegrityError Unit := do
  require (∀ entry ∈ snapshot, nameIsValid entry.1 = true) .snapshotName
  require (∀ entry ∈ snapshot, entry.2 ≤ uint32Max) .snapshotValue

/-- `validate_reference`. -/
def validateReference (reference : Reference) : Except IntegrityError Unit := do
  require (reference.target = layoutTarget) .wrongTarget
  validateSnapshotMap reference.optionByteSnapshot
  validateSnapshotMap reference.bootStateRegisterSnapshot
  validateRegions (referenceRegions reference)

/-! ### Reports -/

/-- The statuses of a snapshot change. -/
inductive SnapshotStatus where
  | missingObservation (expected : ℕ)
  | modified (expected observed : ℕ)
  | unexpectedObservation (observed : ℕ)
  deriving DecidableEq, Repr

/-- The kinds of a snapshot change. -/
inductive SnapshotKind where
  | optionByteSnapshot
  | bootStateRegisterSnapshot
  deriving DecidableEq, Repr

/-- A change of `compare_snapshot_map`. -/
structure SnapshotChange where
  kind : SnapshotKind
  name : String
  status : SnapshotStatus
  deriving DecidableEq, Repr

/-- `compare_snapshot_map`. -/
def compareSnapshotMap (kind : SnapshotKind) (reference observed : List (String × ℕ)) :
    List SnapshotChange :=
  (reference.filterMap fun entry =>
    match observed.lookup entry.1 with
    | none => some ⟨kind, entry.1, .missingObservation entry.2⟩
    | some actual =>
      if actual ≠ entry.2 then some ⟨kind, entry.1, .modified entry.2 actual⟩ else none) ++
  observed.filterMap fun entry =>
    if entry.1 ∈ reference.map Prod.fst then none
    else some ⟨kind, entry.1, .unexpectedObservation entry.2⟩

/-- The counters of `diff_metrics`. -/
structure Differences where
  byteDifferenceCount : ℕ := 0
  bitDifferenceCount : ℕ := 0
  oneToZeroCount : ℕ := 0
  zeroToOneCount : ℕ := 0
  firstDifferingAddress : Option ℕ := none
  lastDifferingAddress : Option ℕ := none
  examples : List (ℕ × UInt8 × UInt8) := []
  deriving DecidableEq, Repr

/-- `count_bits`. -/
def countBits (value : UInt8) : ℕ := (List.range 8).countP fun i => value.toNat.testBit i

/-- The loop of `diff_metrics` from the address `address` on. -/
def diffLoop (maxExamples : ℕ) : Differences → ℕ → List UInt8 → List UInt8 → Differences
  | diff, address, exp :: expected, obs :: observed =>
    if exp = obs then diffLoop maxExamples diff (address + 1) expected observed
    else
      diffLoop maxExamples
        { byteDifferenceCount := diff.byteDifferenceCount + 1
          bitDifferenceCount := diff.bitDifferenceCount + countBits (exp ^^^ obs)
          oneToZeroCount := diff.oneToZeroCount + countBits (exp &&& ~~~obs)
          zeroToOneCount := diff.zeroToOneCount + countBits (~~~exp &&& obs)
          firstDifferingAddress := diff.firstDifferingAddress <|> some address
          lastDifferingAddress := some address
          examples :=
            if diff.examples.length < maxExamples then diff.examples ++ [(address, exp, obs)]
            else diff.examples }
        (address + 1) expected observed
  | diff, _, _, _ => diff

/-- `diff_metrics`. -/
def diffMetrics (region : Region) (expected : Option (List UInt8)) (observed : List UInt8)
    (maxExamples : ℕ) : Except IntegrityError (Option Differences) :=
  match expected with
  | none => .ok none
  | some expected => do
    require (expected.length = observed.length) .diffLength
    pure (some (diffLoop maxExamples {} region.start expected observed))

/-- `affected_sectors`. -/
def affectedSectors (region : Region) (changedBlocks : List ℕ) (blockSize : ℕ) : List ℕ :=
  (List.range bootFlashSectors.length).filter fun id =>
    match bootFlashSectors[id]? with
    | none => false
    | some sector =>
      changedBlocks.any fun block =>
        let start := region.start + block * blockSize
        decide (start < sector.endAddr ∧ sector.base < min region.endAddr (start + blockSize))

/-- An entry of `changed_regions`. -/
structure ChangedRegion where
  name : String
  start : ℕ
  endAddr : ℕ
  referenceSha512 : List UInt8
  observedSha512 : List UInt8
  changedBlocks : List ℕ
  affectedSectors : List ℕ
  differences : Option Differences
  deriving DecidableEq, Repr

/-- The arguments of `compare`, with the manifest in the reference file. -/
structure CompareArgs where
  reference : Reference
  flashDump : List UInt8
  referenceDump : Option (List UInt8) := none
  flashBase : ℕ := Layout.flashBase
  maxExamples : ℕ := 8
  optionSnapshot : List (String × ℤ) := []
  bootRegisterSnapshot : List (String × ℤ) := []

/-- What a region should hold: its pattern, or its bytes in the reference dump. -/
def expectedBytes (hashlib : Hashlib) (args : CompareArgs) (region : Region) :
    Except IntegrityError (Option (List UInt8)) := do
  let expected ← expectedPatternBytes hashlib region
  match expected, args.referenceDump with
  | none, some dump => do
    let bytes ← regionSlice dump region
    pure (some bytes)
  | expected, _ => pure expected

/-- One turn of the loop of `compare_reference`: the entry, when the region changed. -/
def compareRegion (hashlib : Hashlib) (args : CompareArgs) (blockSize : ℕ) (region : Region) :
    Except IntegrityError (Option ChangedRegion) := do
  let expected ← expectedBytes hashlib args region
  let observed ← regionSlice args.flashDump region
  -- The dictionary keeps the last entry of a name.
  match args.reference.regions.reverse.find? fun record => record.name = region.name with
  | none => .error .regionKey
  | some record => do
    let observedBlocks := blockHashes hashlib region observed blockSize
    require (observedBlocks.length = record.blocks.length) .blockCount
    let changedBlocks := ((observedBlocks.zip record.blocks).filter fun pair =>
      pair.1.sha512 ≠ pair.2.sha512).map fun pair => pair.1.index
    let differences ← diffMetrics region expected observed args.maxExamples
    let entry : ChangedRegion :=
      { name := region.name
        start := region.start
        endAddr := region.endAddr
        referenceSha512 := record.sha512
        observedSha512 := hashlib.sha512 observed
        changedBlocks := changedBlocks
        affectedSectors := affectedSectors region changedBlocks blockSize
        differences := differences }
    pure (if entry.observedSha512 ≠ entry.referenceSha512 then some entry else none)

/-- The loop of `compare_reference`. -/
def compareRegions (hashlib : Hashlib) (args : CompareArgs) (blockSize : ℕ) :
    List Region → Except IntegrityError (List ChangedRegion)
  | [] => .ok []
  | region :: regions => do
    let entry ← compareRegion hashlib args blockSize region
    let entries ← compareRegions hashlib args blockSize regions
    pure (entry.toList ++ entries)

/-- The report of `compare_reference`. -/
structure Report where
  changedRegions : List ChangedRegion
  snapshotChanges : List SnapshotChange
  deriving DecidableEq, Repr

/-- The results of a report. -/
inductive CompareResult where
  | ok
  | changed
  | failed
  deriving DecidableEq, Repr

/-- The dump of `--reference-dump`, when there is one. -/
def loadReferenceDump : Option (List UInt8) → Except IntegrityError Unit
  | none => .ok ()
  | some dump => loadFlashDump dump

/-- The body of `compare_reference`. -/
def compareReport (hashlib : Hashlib) (args : CompareArgs) : Except IntegrityError Report := do
  validateReference args.reference
  require (args.flashBase = args.reference.flashBase) .wrongFlashBase
  loadFlashDump args.flashDump
  loadReferenceDump args.referenceDump
  let blockSize ← requireBlockSize args.reference.blockSize
  let optionSnapshot ← parseSnapshotSpecs args.optionSnapshot
  let bootRegisterSnapshot ← parseSnapshotSpecs args.bootRegisterSnapshot
  let changedRegions ← compareRegions hashlib args blockSize (referenceRegions args.reference)
  pure
    { changedRegions := changedRegions
      snapshotChanges :=
        compareSnapshotMap .optionByteSnapshot args.reference.optionByteSnapshot optionSnapshot ++
        compareSnapshotMap .bootStateRegisterSnapshot args.reference.bootStateRegisterSnapshot
          bootRegisterSnapshot }

/-- `compare_reference`: the result it writes and its exit code. -/
def compareReference (hashlib : Hashlib) (args : CompareArgs) : CompareResult × ℕ :=
  match compareReport hashlib args with
  | .error _ => (.failed, 2)
  | .ok report =>
    if report.changedRegions = [] ∧ report.snapshotChanges = [] then (.ok, 0) else (.changed, 1)

/-! ### What the list of regions covers -/

/-- A region lies in the flash. -/
def Region.InFlash (region : Region) : Prop :=
  Layout.flashBase ≤ region.start ∧ region.start < region.endAddr ∧
    region.endAddr ≤ Layout.flashEnd

/-- An address lies in one of the regions. -/
def Covered (regions : List Region) (address : ℕ) : Prop :=
  ∃ region ∈ regions, region.start ≤ address ∧ address < region.endAddr

/-- The bytes of an image header after the signature. -/
def HeaderPadding (address : ℕ) : Prop :=
  ∃ slot, (bootSlots slot).manifestAddress + Layout.signedManifestSize + Layout.signedSignatureSize
    ≤ address ∧ address < (bootSlots slot).payloadBase

theorem headerPadding_iff {address : ℕ} :
    HeaderPadding address ↔ (0x080200A0 ≤ address ∧ address < 0x08020200) ∨
      (0x080800A0 ≤ address ∧ address < 0x08080200) := by
  constructor
  · rintro ⟨slot, h⟩
    cases slot with
    | a => exact .inl h
    | b => exact .inr h
  · rintro (h | h)
    · exact ⟨.a, h⟩
    · exact ⟨.b, h⟩

/-- The list covers the flash, up to the padding of the two headers. -/
theorem covered_defaultRegions_iff {address : ℕ} :
    Covered defaultRegions address ↔
      (Layout.flashBase ≤ address ∧ address < Layout.flashEnd) ∧ ¬ HeaderPadding address := by
  rw [headerPadding_iff]
  simp only [Covered, defaultRegions, List.mem_cons, List.not_mem_nil, or_false,
    exists_eq_or_imp, exists_eq_left, Layout.bootloaderBase, Layout.bootloaderEnd, Layout.bootMetadataABase,
    Layout.bootMetadataAEnd, Layout.bootMetadataBBase, Layout.bootMetadataBEnd,
    Layout.updateMetadataBase, Layout.updateMetadataEnd, bootSlots, Layout.signedManifestSize,
    Layout.signedSignatureSize, Layout.slotAEnd, Layout.slotBEnd, Layout.recoveryBase,
    Layout.recoveryEnd, Layout.flashBase, Layout.flashEnd]
  omega

theorem validateRanges_eq_ok {seen : List String} {regions : List Region} {u : Unit} :
    validateRanges seen regions = .ok u ↔
      (∀ region ∈ regions, region.name ∉ seen ∧ region.InFlash) ∧
        (regions.map Region.name).Nodup := by
  induction regions generalizing seen with
  | nil => simp [validateRanges]
  | cons region regions ih =>
    simp only [validateRanges, except_bind_eq_ok, require_eq_ok, Unique.exists_iff, ih,
      List.map_cons, List.nodup_cons, List.mem_cons, forall_eq_or_imp, List.mem_map, not_or,
      not_exists, not_and, Region.InFlash]
    constructor
    · rintro ⟨hname, hlt, ⟨hbase, hend⟩, hrest, hnodup⟩
      exact ⟨⟨⟨hname, hbase, hlt, hend⟩, fun r hr => ⟨(hrest r hr).1.2, (hrest r hr).2⟩⟩,
        fun r hr => (hrest r hr).1.1, hnodup⟩
    · rintro ⟨⟨⟨hname, hbase, hlt, hend⟩, hrest⟩, hne, hnodup⟩
      exact ⟨hname, hlt, ⟨hbase, hend⟩, fun r hr => ⟨⟨hne r hr, (hrest r hr).1⟩, (hrest r hr).2⟩,
        hnodup⟩

theorem validateApart_eq_ok {regions : List Region} {u : Unit} :
    validateApart regions = .ok u ↔
      regions.Pairwise fun left right => ¬ rangesOverlap left right := by
  induction regions with
  | nil => simp [validateApart]
  | cons region regions ih =>
    simp only [validateApart, except_bind_eq_ok, require_eq_ok, Unique.exists_iff, ih,
      List.pairwise_cons]

/-- The regions that `validate_regions` accepts. -/
theorem validateRegions_eq_ok {regions : List Region} {u : Unit} :
    validateRegions regions = .ok u ↔ (∀ region ∈ regions, region.InFlash) ∧
      (regions.map Region.name).Nodup ∧
      regions.Pairwise fun left right => ¬ rangesOverlap left right := by
  simp only [validateRegions, except_bind_eq_ok, Unique.exists_iff, validateRanges_eq_ok,
    validateApart_eq_ok, List.not_mem_nil, not_false_eq_true, true_and, and_assoc]

/-! ### Windows of a dump -/

/-- The bytes of a region. -/
def window (dump : List UInt8) (region : Region) : List UInt8 :=
  (dump.drop (region.start - Layout.flashBase)).take
    (region.endAddr - Layout.flashBase - (region.start - Layout.flashBase))

theorem regionSlice_eq {region : Region} (h : region.InFlash) (dump : List UInt8) :
    regionSlice dump region = .ok (window dump region) := by
  obtain ⟨hbase, hlt, hend⟩ := h
  have hstart : flashOffset region.start = .ok (region.start - Layout.flashBase) := by
    simp only [flashOffset, except_bind_eq_ok, require_eq_ok, Unique.exists_iff]
    exact ⟨⟨hbase, by omega⟩, rfl⟩
  have hstop : flashOffset region.endAddr = .ok (region.endAddr - Layout.flashBase) := by
    simp only [flashOffset, except_bind_eq_ok, require_eq_ok, Unique.exists_iff]
    exact ⟨⟨by omega, hend⟩, rfl⟩
  rw [regionSlice, hstart, hstop]
  rfl

theorem length_window {region : Region} (h : region.InFlash) {dump : List UInt8}
    (hsize : dump.length = Layout.flashTotalSize) :
    (window dump region).length = region.endAddr - region.start := by
  obtain ⟨hbase, hlt, hend⟩ := h
  have hflash : Layout.flashEnd = Layout.flashBase + Layout.flashTotalSize := rfl
  rw [window, List.length_take, List.length_drop, hsize]
  omega

/-- Two dumps agree on a region when they agree at its addresses. -/
theorem window_eq_iff {region : Region} (h : region.InFlash) {left right : List UInt8} :
    window left region = window right region ↔
      ∀ address, region.start ≤ address → address < region.endAddr →
        left[address - Layout.flashBase]? = right[address - Layout.flashBase]? := by
  obtain ⟨hbase, hlt, hend⟩ := h
  rw [List.ext_getElem?_iff]
  simp only [window, List.getElem?_take, List.getElem?_drop]
  constructor
  · intro heq address hle hlt'
    have h' := heq (address - region.start)
    rw [if_pos (by omega), if_pos (by omega)] at h'
    rwa [show region.start - Layout.flashBase + (address - region.start) =
      address - Layout.flashBase by omega] at h'
  · intro heq i
    by_cases hi : i < region.endAddr - Layout.flashBase - (region.start - Layout.flashBase)
    · rw [if_pos hi, if_pos hi]
      have h' := heq (region.start + i) (by omega) (by omega)
      rwa [show region.start + i - Layout.flashBase = region.start - Layout.flashBase + i
        by omega] at h'
    · rw [if_neg hi, if_neg hi]

/-! ### Manifest entries -/

section

variable {hashlib : Hashlib} {dump : List UInt8} {blockSize : ℕ} {regions : List Region}

/-- The manifest entry of a region in the flash. -/
def recordOf (hashlib : Hashlib) (dump : List UInt8) (blockSize : ℕ) (region : Region) :
    RegionRecord where
  name := region.name
  start := region.start
  endAddr := region.endAddr
  sha512 := hashlib.sha512 (window dump region)
  blocks := blockHashes hashlib region (window dump region) blockSize
  expectedPattern := region.pattern.map fun pattern => (pattern, seedOrPublic region.seed)

theorem regionRecords_eq (h : ∀ region ∈ regions, region.InFlash) :
    regionRecords hashlib dump blockSize regions =
      .ok (regions.map (recordOf hashlib dump blockSize)) := by
  induction regions with
  | nil => rfl
  | cons region regions ih =>
    rw [List.forall_mem_cons] at h
    rw [regionRecords, regionRecord, regionSlice_eq h.1, ih h.2]
    rfl

/-- A region as it is read back from the manifest: the default seed is written out. -/
def stored (region : Region) : Region :=
  { region with seed := region.pattern.map fun _ => seedOrPublic region.seed }

theorem referenceRegion_recordOf (region : Region) :
    referenceRegion (recordOf hashlib dump blockSize region) = stored region := by
  cases hpattern : region.pattern <;> simp [referenceRegion, recordOf, stored, hpattern]

theorem validateRegions_stored {u : Unit} (h : validateRegions regions = .ok u) :
    validateRegions (regions.map stored) = .ok u := by
  rw [validateRegions_eq_ok] at h ⊢
  obtain ⟨hflash, hnames, hapart⟩ := h
  refine ⟨?_, ?_, ?_⟩
  · intro region hregion
    obtain ⟨region', hmem, rfl⟩ := List.mem_map.mp hregion
    exact hflash region' hmem
  · rw [List.map_map]
    exact hnames
  · rw [List.pairwise_map]
    exact hapart

theorem window_stored (dump : List UInt8) (region : Region) :
    window dump (stored region) = window dump region := rfl

theorem blockHashes_stored (hashlib : Hashlib) (region : Region) (data : List UInt8)
    (blockSize : ℕ) :
    blockHashes hashlib (stored region) data blockSize = blockHashes hashlib region data blockSize :=
  rfl

theorem length_blockHashes (hashlib : Hashlib) (blockSize : ℕ) (region : Region) {left right : List UInt8}
    (h : left.length = right.length) :
    (blockHashes hashlib region left blockSize).length =
      (blockHashes hashlib region right blockSize).length := by
  rw [blockHashes, blockHashes, List.length_map, List.length_map, h]

/-- An element that is the only one of its kind is found. -/
theorem find?_eq_some_of_unique {α : Type*} {l : List α} {p : α → Bool} {a : α} (ha : a ∈ l)
    (hp : p a = true) (hunique : ∀ b ∈ l, p b = true → b = a) : l.find? p = some a := by
  cases hfind : l.find? p with
  | none => exact absurd hp (List.find?_eq_none.mp hfind a ha)
  | some b =>
    rw [hunique b (List.mem_of_find?_eq_some hfind) (List.find?_some hfind)]

/-- With distinct names the dictionary holds the entry of each region. -/
theorem find_recordOf (hnames : (regions.map Region.name).Nodup) {region : Region}
    (hregion : region ∈ regions) :
    ((regions.map (recordOf hashlib dump blockSize)).reverse.find? fun record =>
      record.name = region.name) = some (recordOf hashlib dump blockSize region) := by
  refine find?_eq_some_of_unique ?_ ?_ ?_
  · exact List.mem_reverse.mpr (List.mem_map_of_mem hregion)
  · exact decide_eq_true rfl
  · intro record hrecord hname
    obtain ⟨region', hregion', rfl⟩ := List.mem_map.mp (List.mem_reverse.mp hrecord)
    have heq : region'.name = region.name := of_decide_eq_true hname
    rw [List.inj_on_of_nodup_map hnames hregion' hregion heq]

end

/-! ### Patterns that can be computed -/

/-- The pattern of a region can be computed: a pseudorandom one has a seed. -/
def PatternComputable (pattern : Option CanaryPattern) (seed : Option String) : Prop :=
  pattern = some .prng → ∃ data, seedBytes seed = .ok data

theorem seedBytes_seedOrPublic (seed : Option String) :
    seedBytes (some (seedOrPublic seed)) = seedBytes seed := by
  have h : seedOrPublic (some (seedOrPublic seed)) = seedOrPublic seed := by
    cases seed with
    | none => decide
    | some seed =>
      by_cases hempty : seed.isEmpty = true
      · simp only [seedOrPublic, hempty, if_true]
        decide
      · have hseed : seedOrPublic (some seed) = seed := if_neg hempty
        rw [hseed, hseed]
  rw [seedBytes, h, seedBytes]

theorem patternByte_computable {pattern : CanaryPattern} {seed : Option String}
    (h : PatternComputable (some pattern) seed) (hashlib : Hashlib) (address regionStart : ℕ) :
    ∃ byte, patternByte hashlib pattern address regionStart seed = .ok byte := by
  cases pattern with
  | prng =>
    obtain ⟨data, hdata⟩ := h rfl
    rw [patternByte, hdata]
    exact ⟨_, rfl⟩
  | all00 => exact ⟨_, rfl⟩
  | allff => exact ⟨_, rfl⟩
  | aa55 => exact ⟨_, rfl⟩
  | address => exact ⟨_, rfl⟩
  | walkingOne => exact ⟨_, rfl⟩
  | walkingZero => exact ⟨_, rfl⟩

theorem patternBytes_computable {pattern : CanaryPattern} {seed : Option String}
    (h : PatternComputable (some pattern) seed) (hashlib : Hashlib) (regionStart : ℕ) :
    ∀ count address, ∃ bytes : List UInt8,
      patternBytes hashlib pattern regionStart seed count address = .ok bytes ∧
        bytes.length = count := by
  intro count
  induction count with
  | zero => exact fun _ => ⟨[], rfl, rfl⟩
  | succ count ih =>
    intro address
    obtain ⟨byte, hbyte⟩ := patternByte_computable h hashlib address regionStart
    obtain ⟨bytes, hbytes, hlength⟩ := ih (address + 1)
    refine ⟨byte :: bytes, ?_, by rw [List.length_cons, hlength]⟩
    rw [patternBytes, hbyte, hbytes]
    rfl

theorem expectedPatternBytes_computable {region : Region}
    (h : PatternComputable region.pattern region.seed) (hashlib : Hashlib) :
    ∃ expected, expectedPatternBytes hashlib region = .ok expected ∧
      ∀ bytes ∈ expected, bytes.length = region.endAddr - region.start := by
  rw [expectedPatternBytes]
  cases hpattern : region.pattern with
  | none => exact ⟨none, rfl, fun _ hnone => by cases hnone⟩
  | some pattern =>
    rw [hpattern] at h
    obtain ⟨bytes, hbytes, hlength⟩ := patternBytes_computable h hashlib region.start
      (region.endAddr - region.start) region.start
    refine ⟨some bytes, by simp only [hbytes]; rfl, ?_⟩
    rintro bytes' ⟨⟩
    exact hlength

/-- A region has at least one address, so a pseudorandom pattern without a seed raises. -/
theorem expectedPatternBytes_error {region : Region} (hflash : region.InFlash)
    (h : ¬ PatternComputable region.pattern region.seed) (hashlib : Hashlib)
    (expected : Option (List UInt8)) : expectedPatternBytes hashlib region ≠ .ok expected := by
  rw [PatternComputable, Classical.not_imp] at h
  obtain ⟨hpattern, hseed⟩ := h
  obtain ⟨count, hcount⟩ : ∃ count, region.endAddr - region.start = count + 1 :=
    ⟨region.endAddr - region.start - 1, by have := hflash.2.1; omega⟩
  intro hexpected
  simp only [expectedPatternBytes, hpattern, hcount, patternBytes, patternByte,
    except_bind_eq_ok] at hexpected
  obtain ⟨bytes, ⟨byte, ⟨data, hdata, hbyte⟩, hbytes⟩, hpure⟩ := hexpected
  exact hseed ⟨data, hdata⟩

/-! ### Snapshots -/

/-- What the snapshot parser returns. -/
def SnapshotValid (snapshot : List (String × ℕ)) : Prop :=
  (snapshot.map Prod.fst).Nodup ∧
    ∀ entry ∈ snapshot, nameIsValid entry.1 = true ∧ entry.2 ≤ uint32Max

theorem SnapshotValid.parseSnapshotLoop {specs : List (String × ℤ)}
    {seen snapshot : List (String × ℕ)} (hseen : SnapshotValid seen)
    (h : parseSnapshotLoop seen specs = .ok snapshot) : SnapshotValid snapshot := by
  induction specs generalizing seen with
  | nil =>
    cases h
    exact hseen
  | cons spec specs ih =>
    obtain ⟨name, value⟩ := spec
    simp only [MemoryIntegrity.parseSnapshotLoop, except_bind_eq_ok, require_eq_ok,
      Unique.exists_iff] at h
    obtain ⟨hname, hnew, ⟨hpos, hmax⟩, hrest⟩ := h
    refine ih ⟨?_, ?_⟩ hrest
    · rw [List.map_append, List.nodup_append]
      refine ⟨hseen.1, List.nodup_singleton _, ?_⟩
      intro a ha b hb hab
      rw [List.map_singleton, List.mem_singleton] at hb
      rw [hab, hb] at ha
      exact hnew ha
    · intro entry hentry
      rcases List.mem_append.mp hentry with hold | hlast
      · exact hseen.2 entry hold
      · rw [List.mem_singleton] at hlast
        subst hlast
        exact ⟨hname, by simp only; omega⟩

theorem SnapshotValid.parseSnapshotSpecs {specs : List (String × ℤ)} {snapshot : List (String × ℕ)}
    (h : parseSnapshotSpecs specs = .ok snapshot) : SnapshotValid snapshot :=
  SnapshotValid.parseSnapshotLoop ⟨by simp, by simp⟩ h

theorem SnapshotValid.validateSnapshotMap {snapshot : List (String × ℕ)}
    (h : SnapshotValid snapshot) : validateSnapshotMap snapshot = .ok () := by
  simp only [MemoryIntegrity.validateSnapshotMap, except_bind_eq_ok, require_eq_ok,
    Unique.exists_iff]
  exact ⟨fun entry hentry => (h.2 entry hentry).1, fun entry hentry => (h.2 entry hentry).2⟩

theorem lookup_eq_some_of_mem {snapshot : List (String × ℕ)}
    (hnodup : (snapshot.map Prod.fst).Nodup) {entry : String × ℕ} (hentry : entry ∈ snapshot) :
    snapshot.lookup entry.1 = some entry.2 := by
  induction snapshot with
  | nil => cases hentry
  | cons first rest ih =>
    rw [List.map_cons, List.nodup_cons] at hnodup
    rw [List.mem_cons] at hentry
    rcases hentry with rfl | hrest
    · exact List.lookup_cons_self
    · have hne : entry.1 ≠ first.1 :=
        fun heq => hnodup.1 (heq ▸ List.mem_map_of_mem hrest)
      rw [List.lookup_cons, beq_eq_false_iff_ne.mpr hne]
      exact ih hnodup.2 hrest

/-- A snapshot does not differ from itself. -/
theorem SnapshotValid.compareSnapshotMap_self {snapshot : List (String × ℕ)}
    (h : SnapshotValid snapshot) (kind : SnapshotKind) :
    compareSnapshotMap kind snapshot snapshot = [] := by
  rw [compareSnapshotMap, List.append_eq_nil_iff]
  constructor
  · rw [List.filterMap_eq_nil_iff]
    intro entry hentry
    rw [lookup_eq_some_of_mem h.1 hentry]
    exact if_neg (not_not_intro rfl)
  · rw [List.filterMap_eq_nil_iff]
    intro entry hentry
    exact if_pos (List.mem_map_of_mem hentry)

/-! ### One region -/

section

variable {hashlib : Hashlib} {args : CompareArgs} {dump : List UInt8} {blockSize : ℕ}
  {regions : List Region} {region : Region}

theorem expectedBytes_computable (hashlib : Hashlib) (hflash : region.InFlash)
    (hdump : ∀ dump ∈ args.referenceDump, dump.length = Layout.flashTotalSize)
    (h : PatternComputable region.pattern region.seed) :
    ∃ expected, expectedBytes hashlib args region = .ok expected ∧
      ∀ bytes ∈ expected, bytes.length = region.endAddr - region.start := by
  obtain ⟨expected, hexpected, hlength⟩ := expectedPatternBytes_computable h hashlib
  rw [expectedBytes, hexpected]
  cases expected with
  | some bytes => exact ⟨some bytes, rfl, hlength⟩
  | none =>
    cases hreference : args.referenceDump with
    | none => exact ⟨none, rfl, hlength⟩
    | some dump =>
      refine ⟨some (window dump region), ?_, ?_⟩
      · simp only [regionSlice_eq hflash]
        rfl
      · intro bytes hbytes
        rw [← Option.mem_some_iff.mp hbytes]
        exact length_window hflash (hdump dump hreference)

theorem diffMetrics_ok {expected : Option (List UInt8)} {observed : List UInt8}
    (h : ∀ bytes ∈ expected, bytes.length = observed.length) (maxExamples : ℕ) :
    ∃ differences, diffMetrics region expected observed maxExamples = .ok differences := by
  cases expected with
  | none => exact ⟨none, rfl⟩
  | some bytes =>
    simp only [diffMetrics, except_bind_eq_ok, require_eq_ok, Unique.exists_iff]
    exact ⟨_, h bytes rfl, rfl⟩

theorem patternComputable_stored :
    PatternComputable (stored region).pattern (stored region).seed ↔
      PatternComputable region.pattern region.seed := by
  constructor
  · intro h hpattern
    have hseed : (stored region).seed = some (seedOrPublic region.seed) := by
      rw [stored, hpattern]
      rfl
    have hdata := h hpattern
    rwa [hseed, seedBytes_seedOrPublic] at hdata
  · intro h hpattern
    have hseed : (stored region).seed = some (seedOrPublic region.seed) := by
      have hsome : region.pattern = some .prng := hpattern
      rw [stored, hsome]
      rfl
    rw [hseed, seedBytes_seedOrPublic]
    exact h hpattern

/-- A region is reported unchanged exactly when its pattern can be computed and the dumps agree
on it. -/
theorem compareRegion_eq_none_iff (hsha : Function.Injective hashlib.sha512)
    (hreference : args.reference.regions = regions.map (recordOf hashlib dump blockSize))
    (hnames : (regions.map Region.name).Nodup) (hregion : region ∈ regions)
    (hflash : region.InFlash) (hsize : dump.length = Layout.flashTotalSize)
    (hobserved : args.flashDump.length = Layout.flashTotalSize)
    (hdump : ∀ dump ∈ args.referenceDump, dump.length = Layout.flashTotalSize) :
    compareRegion hashlib args blockSize (stored region) = .ok none ↔
      PatternComputable region.pattern region.seed ∧
        window args.flashDump region = window dump region := by
  have hflash' : (stored region).InFlash := hflash
  have hname : (stored region).name = region.name := rfl
  have hwindow : (window args.flashDump region).length = (window dump region).length :=
    (length_window hflash hobserved).trans (length_window hflash hsize).symm
  rw [compareRegion, regionSlice_eq hflash', window_stored, hreference, hname]
  simp only [find_recordOf hnames hregion, blockHashes_stored]
  constructor
  · intro h
    obtain ⟨expected, hexpected, h⟩ := except_bind_eq_ok.mp h
    obtain ⟨observed, hobs, h⟩ := except_bind_eq_ok.mp h
    obtain ⟨_, -, h⟩ := except_bind_eq_ok.mp h
    obtain ⟨differences, -, h⟩ := except_bind_eq_ok.mp h
    rw [← Except.ok.inj hobs] at h
    refine ⟨?_, ?_⟩
    · by_contra hpattern
      obtain ⟨expected', hexpected', -⟩ := except_bind_eq_ok.mp hexpected
      exact expectedPatternBytes_error hflash' (patternComputable_stored.not.mpr hpattern) hashlib
        expected' hexpected'
    · by_contra hne
      have hsha' : hashlib.sha512 (window args.flashDump region) ≠
          (recordOf hashlib dump blockSize region).sha512 := fun heq => hne (hsha heq)
      rw [if_pos hsha'] at h
      cases h
  · rintro ⟨hpattern, heq⟩
    obtain ⟨expected, hexpected, hlength⟩ :=
      expectedBytes_computable hashlib hflash' hdump (patternComputable_stored.mpr hpattern)
    obtain ⟨differences, hdifferences⟩ :
        ∃ differences, diffMetrics (stored region) expected (window args.flashDump region)
          args.maxExamples = .ok differences :=
      diffMetrics_ok (fun bytes hbytes =>
        (hlength bytes hbytes).trans (length_window hflash hobserved).symm) _
    refine except_bind_eq_ok.mpr ⟨expected, hexpected, ?_⟩
    refine except_bind_eq_ok.mpr ⟨_, rfl, ?_⟩
    refine except_bind_eq_ok.mpr ⟨(), ?_, ?_⟩
    · exact require_eq_ok.mpr (length_blockHashes hashlib blockSize region hwindow)
    · refine except_bind_eq_ok.mpr ⟨differences, hdifferences, ?_⟩
      have hsha' : hashlib.sha512 (window args.flashDump region) =
          (recordOf hashlib dump blockSize region).sha512 := congrArg hashlib.sha512 heq
      rw [if_neg (not_not_intro hsha')]
      rfl

/-- The loop reports nothing exactly when each region is unchanged. -/
theorem compareRegions_eq_nil_iff (hsha : Function.Injective hashlib.sha512)
    (hreference : args.reference.regions = regions.map (recordOf hashlib dump blockSize))
    (hnames : (regions.map Region.name).Nodup) (hflash : ∀ region ∈ regions, region.InFlash)
    (hsize : dump.length = Layout.flashTotalSize)
    (hobserved : args.flashDump.length = Layout.flashTotalSize)
    (hdump : ∀ dump ∈ args.referenceDump, dump.length = Layout.flashTotalSize)
    {rest : List Region} (hrest : ∀ region ∈ rest, region ∈ regions) :
    compareRegions hashlib args blockSize (rest.map stored) = .ok [] ↔
      ∀ region ∈ rest, PatternComputable region.pattern region.seed ∧
        window args.flashDump region = window dump region := by
  induction rest with
  | nil => simp [compareRegions]
  | cons region rest ih =>
    rw [List.forall_mem_cons] at hrest
    rw [List.forall_mem_cons, ← ih hrest.2,
      ← compareRegion_eq_none_iff hsha hreference hnames hrest.1 (hflash region hrest.1) hsize
        hobserved hdump, List.map_cons, compareRegions]
    constructor
    · intro h
      obtain ⟨entry, hentry, h⟩ := except_bind_eq_ok.mp h
      obtain ⟨entries, hentries, h⟩ := except_bind_eq_ok.mp h
      have hnil : entry.toList ++ entries = [] := Except.ok.inj h
      rw [List.append_eq_nil_iff, Option.toList_eq_nil_iff] at hnil
      rw [hentry, hentries, hnil.1, hnil.2]
      exact ⟨rfl, rfl⟩
    · rintro ⟨hentry, hentries⟩
      rw [hentry, hentries]
      rfl

end

/-! ### The two commands -/

/-- The region of a canary argument. -/
def canaryRegion (spec : RegionSpec) : Region where
  name := spec.name
  start := spec.start.toNat
  endAddr := spec.endAddr.toNat
  pattern := spec.pattern
  seed := spec.seed

theorem parseRegionSpecs_eq_ok {specs : List RegionSpec} {regions : List Region}
    (h : parseRegionSpecs specs = .ok regions) :
    regions = specs.map canaryRegion ∧ ∀ spec ∈ specs, 0 ≤ spec.start ∧ 0 ≤ spec.endAddr := by
  induction specs generalizing regions with
  | nil =>
    cases h
    exact ⟨rfl, by simp⟩
  | cons spec specs ih =>
    simp only [parseRegionSpecs, parseRegionSpec, except_bind_eq_ok, require_eq_ok,
      Unique.exists_iff] at h
    obtain ⟨region, ⟨-, hbounds, -, horder, hregion⟩, rest, hrest, hregions⟩ := h
    obtain ⟨hmap, hall⟩ := ih hrest
    cases hregion
    cases hregions
    rw [hmap]
    exact ⟨rfl, List.forall_mem_cons.mpr ⟨⟨hbounds.1, by omega⟩, hall⟩⟩

/-- The regions of a manifest. -/
def allRegions (args : CreateArgs) : List Region :=
  defaultRegions ++ args.canaryRegion.map canaryRegion

/-- What a manifest was made from. -/
structure Created (hashlib : Hashlib) (args : CreateArgs) (reference : Reference) : Prop where
  size : args.flashDump.length = Layout.flashTotalSize
  specs : ∀ spec ∈ args.canaryRegion, 0 ≤ spec.start ∧ 0 ≤ spec.endAddr
  regionsValid : validateRegions (allRegions args) = .ok ()
  target : reference.target = layoutTarget
  flashBase : reference.flashBase = Layout.flashBase
  blockSize : requireBlockSize reference.blockSize = .ok reference.blockSize
  optionSnapshot : parseSnapshotSpecs args.optionSnapshot = .ok reference.optionByteSnapshot
  bootRegisterSnapshot :
    parseSnapshotSpecs args.bootRegisterSnapshot = .ok reference.bootStateRegisterSnapshot
  regions : reference.regions =
    (allRegions args).map (recordOf hashlib args.flashDump reference.blockSize)

theorem loadFlashDump_eq_ok {dump : List UInt8} {u : Unit} :
    loadFlashDump dump = .ok u ↔ dump.length = Layout.flashTotalSize := by
  simp only [loadFlashDump, except_bind_eq_ok, require_eq_ok, Unique.exists_iff]
  omega

theorem created_of_createReference {hashlib : Hashlib} {args : CreateArgs} {reference : Reference}
    (h : createReference hashlib args = .ok reference) : Created hashlib args reference := by
  simp only [createReference, except_bind_eq_ok, require_eq_ok, Unique.exists_iff,
    loadFlashDump_eq_ok] at h
  obtain ⟨hsize, hbase, htarget, canaries, hcanaries, hvalid, option, hoption, boot, hboot,
    blockSize, hblock, records, hrecords, hreference⟩ := h
  obtain ⟨rfl, hspecs⟩ := parseRegionSpecs_eq_ok hcanaries
  have hvalid' := validateRegions_eq_ok.mp hvalid
  rw [regionRecords_eq hvalid'.1] at hrecords
  have hblock' : requireBlockSize blockSize = .ok blockSize := by
    simp only [requireBlockSize, except_bind_eq_ok, require_eq_ok, Unique.exists_iff] at hblock ⊢
    obtain ⟨hrange, hpure⟩ := hblock
    rw [← Except.ok.inj hpure]
    exact ⟨hrange, rfl⟩
  cases hrecords
  cases hreference
  exact ⟨hsize, hspecs, hvalid, htarget, rfl, hblock', hoption, hboot, rfl⟩

section

variable {hashlib : Hashlib} {create : CreateArgs} {compare : CompareArgs}

theorem Created.referenceRegions {reference : Reference} (h : Created hashlib create reference) :
    referenceRegions reference = (allRegions create).map stored := by
  rw [MemoryIntegrity.referenceRegions, h.regions, List.map_map]
  exact List.map_congr_left fun region _ => referenceRegion_recordOf region

/-- A manifest passes its own checks. -/
theorem Created.validateReference {reference : Reference}
    (h : Created hashlib create reference) : validateReference reference = .ok () := by
  simp only [MemoryIntegrity.validateReference, except_bind_eq_ok, require_eq_ok,
    Unique.exists_iff]
  refine ⟨h.target, ?_, ?_, ?_⟩
  · exact (SnapshotValid.parseSnapshotSpecs h.optionSnapshot).validateSnapshotMap
  · exact (SnapshotValid.parseSnapshotSpecs h.bootRegisterSnapshot).validateSnapshotMap
  · rw [h.referenceRegions]
    exact validateRegions_stored h.regionsValid

/-- The comparison reports no change exactly when each region is unchanged. -/
theorem compareReference_eq_ok_iff (hsha : Function.Injective hashlib.sha512)
    (hcreate : createReference hashlib create = .ok compare.reference)
    (hbase : compare.flashBase = Layout.flashBase)
    (hsize : compare.flashDump.length = Layout.flashTotalSize)
    (hdump : ∀ dump ∈ compare.referenceDump, dump.length = Layout.flashTotalSize)
    (hoption : compare.optionSnapshot = create.optionSnapshot)
    (hboot : compare.bootRegisterSnapshot = create.bootRegisterSnapshot) :
    compareReference hashlib compare = (.ok, 0) ↔
      ∀ region ∈ allRegions create, PatternComputable region.pattern region.seed ∧
        window compare.flashDump region = window create.flashDump region := by
  have h := created_of_createReference hcreate
  have hvalid := validateRegions_eq_ok.mp h.regionsValid
  have hload : loadReferenceDump compare.referenceDump = .ok () := by
    cases hreference : compare.referenceDump with
    | none => rfl
    | some dump => exact loadFlashDump_eq_ok.mpr (hdump dump hreference)
  have hreport : compareReport hashlib compare =
      (compareRegions hashlib compare compare.reference.blockSize ((allRegions create).map stored)
        >>= fun changedRegions => pure ⟨changedRegions, []⟩) := by
    have hbase' : require (compare.flashBase = compare.reference.flashBase)
        IntegrityError.wrongFlashBase = .ok () := require_eq_ok.mpr (hbase.trans h.flashBase.symm)
    have hsize' := (loadFlashDump_eq_ok (u := ())).mpr hsize
    rw [compareReport, h.validateReference, hbase', hsize', hload, h.blockSize, hoption,
      h.optionSnapshot, hboot, h.bootRegisterSnapshot, h.referenceRegions]
    show (compareRegions hashlib compare compare.reference.blockSize
      ((allRegions create).map stored) >>= fun changedRegions => pure (Report.mk changedRegions
        (compareSnapshotMap .optionByteSnapshot compare.reference.optionByteSnapshot
            compare.reference.optionByteSnapshot ++
          compareSnapshotMap .bootStateRegisterSnapshot
            compare.reference.bootStateRegisterSnapshot
            compare.reference.bootStateRegisterSnapshot))) = _
    rw [(SnapshotValid.parseSnapshotSpecs h.optionSnapshot).compareSnapshotMap_self,
      (SnapshotValid.parseSnapshotSpecs h.bootRegisterSnapshot).compareSnapshotMap_self]
    rfl
  rw [← compareRegions_eq_nil_iff hsha h.regions hvalid.2.1 hvalid.1 h.size hsize hdump
    (fun _ hregion => hregion), compareReference, hreport]
  cases hcompare : compareRegions hashlib compare compare.reference.blockSize
      ((allRegions create).map stored) with
  | error e => simp [bind, Except.bind]
  | ok changedRegions =>
    simp only [bind, Except.bind, pure, Except.pure]
    by_cases hnil : changedRegions = [] <;> simp [hnil]

/-- An address of the flash at which two dumps hold different bytes. -/
def DiffersAt (left right : List UInt8) (address : ℕ) : Prop :=
  Layout.flashBase ≤ address ∧
    left[address - Layout.flashBase]? ≠ right[address - Layout.flashBase]?

/-- An address in one of the canary regions. -/
def InCanary (specs : List RegionSpec) (address : ℕ) : Prop :=
  ∃ spec ∈ specs, spec.start ≤ address ∧ address < spec.endAddr

/-- Each pseudorandom canary region has a seed that `seed_bytes` accepts. -/
def SeedsAccepted (specs : List RegionSpec) : Prop :=
  ∀ spec ∈ specs, spec.pattern = some .prng → ∃ data, seedBytes spec.seed = .ok data

theorem patternComputable_allRegions :
    (∀ region ∈ allRegions create, PatternComputable region.pattern region.seed) ↔
      SeedsAccepted create.canaryRegion := by
  have hdefault : ∀ region ∈ defaultRegions, PatternComputable region.pattern region.seed := by
    intro region hregion hpattern
    have hnone : ∀ region ∈ defaultRegions, region.pattern = none := by decide
    rw [hnone region hregion] at hpattern
    cases hpattern
  constructor
  · intro h spec hspec
    exact h (canaryRegion spec) (List.mem_append_right _ (List.mem_map_of_mem hspec))
  · intro h region hregion
    rcases List.mem_append.mp hregion with hlist | hcanary
    · exact hdefault region hlist
    · obtain ⟨spec, hspec, rfl⟩ := List.mem_map.mp hcanary
      exact h spec hspec

theorem covered_allRegions_iff {reference : Reference} (h : Created hashlib create reference)
    {address : ℕ} (hbase : Layout.flashBase ≤ address) (hend : address < Layout.flashEnd) :
    Covered (allRegions create) address ↔
      ¬ HeaderPadding address ∨ InCanary create.canaryRegion address := by
  have hsplit : Covered (allRegions create) address ↔ Covered defaultRegions address ∨
      Covered (create.canaryRegion.map canaryRegion) address := by
    simp only [Covered, allRegions, List.mem_append, or_and_right, exists_or]
  rw [hsplit, covered_defaultRegions_iff, and_iff_right ⟨hbase, hend⟩]
  refine or_congr_right ?_
  constructor
  · rintro ⟨region, hregion, hstart, hlast⟩
    obtain ⟨spec, hspec, rfl⟩ := List.mem_map.mp hregion
    have hpos := h.specs spec hspec
    refine ⟨spec, hspec, ?_, ?_⟩
    · exact Int.toNat_le.mp hstart
    · exact Int.lt_toNat.mp hlast
  · rintro ⟨spec, hspec, hstart, hlast⟩
    refine ⟨canaryRegion spec, List.mem_map_of_mem hspec, ?_, ?_⟩
    · exact Int.toNat_le.mpr hstart
    · exact Int.lt_toNat.mpr hlast

/-- Two dumps agree on the regions of a manifest when they differ only in the padding that no
canary region covers. -/
theorem window_eq_allRegions_iff {reference : Reference} (h : Created hashlib create reference)
    {observed : List UInt8} (hsize : observed.length = Layout.flashTotalSize) :
    (∀ region ∈ allRegions create,
        window observed region = window create.flashDump region) ↔
      ∀ address, DiffersAt observed create.flashDump address →
        HeaderPadding address ∧ ¬ InCanary create.canaryRegion address := by
  have hflash := (validateRegions_eq_ok.mp h.regionsValid).1
  constructor
  · intro heq address hdiffers
    have hend : address < Layout.flashEnd := by
      by_contra hge
      have hlength : Layout.flashEnd = Layout.flashBase + Layout.flashTotalSize := rfl
      have hbase := hdiffers.1
      refine hdiffers.2 ?_
      rw [List.getElem?_eq_none (by omega), List.getElem?_eq_none (by have := h.size; omega)]
    by_contra hpadding
    obtain ⟨region, hregion, hstart, hlast⟩ :=
      (covered_allRegions_iff h hdiffers.1 hend).mpr (by tauto)
    exact hdiffers.2 ((window_eq_iff (hflash region hregion)).mp (heq region hregion) address
      hstart hlast)
  · intro honly region hregion
    have hin := hflash region hregion
    rw [window_eq_iff hin]
    intro address hstart hlast
    by_contra hne
    have hbase : Layout.flashBase ≤ address := hin.1.trans hstart
    have hpadding := honly address ⟨hbase, hne⟩
    have hcovered := (covered_allRegions_iff h hbase (hlast.trans_le hin.2.2)).mp
      ⟨region, hregion, hstart, hlast⟩
    tauto

/-- The comparison reports no change exactly when the seeds can be read and the dumps differ only
in the padding that no canary region covers. -/
theorem compareReference_eq_ok_iff_differsAt (hsha : Function.Injective hashlib.sha512)
    (hcreate : createReference hashlib create = .ok compare.reference)
    (hbase : compare.flashBase = Layout.flashBase)
    (hsize : compare.flashDump.length = Layout.flashTotalSize)
    (hdump : ∀ dump ∈ compare.referenceDump, dump.length = Layout.flashTotalSize)
    (hoption : compare.optionSnapshot = create.optionSnapshot)
    (hboot : compare.bootRegisterSnapshot = create.bootRegisterSnapshot) :
    compareReference hashlib compare = (.ok, 0) ↔
      SeedsAccepted create.canaryRegion ∧
        ∀ address, DiffersAt compare.flashDump create.flashDump address →
          HeaderPadding address ∧ ¬ InCanary create.canaryRegion address := by
  have hcreated := created_of_createReference hcreate
  rw [compareReference_eq_ok_iff hsha hcreate hbase hsize hdump hoption hboot,
    ← patternComputable_allRegions, ← window_eq_allRegions_iff hcreated hsize]
  simp only [forall_and]

/-- The comparison reports result `ok` for the dump of the manifest and for no other one, exactly
when the seeds of the canary regions can be read and a changed dump changes outside the padding
of the headers or in a canary region. -/
theorem compareReference_complete_iff (hsha : Function.Injective hashlib.sha512)
    (hcreate : createReference hashlib create = .ok compare.reference)
    (hbase : compare.flashBase = Layout.flashBase)
    (hsize : compare.flashDump.length = Layout.flashTotalSize)
    (hdump : ∀ dump ∈ compare.referenceDump, dump.length = Layout.flashTotalSize)
    (hoption : compare.optionSnapshot = create.optionSnapshot)
    (hboot : compare.bootRegisterSnapshot = create.bootRegisterSnapshot) :
    (compareReference hashlib compare = (.ok, 0) ↔ compare.flashDump = create.flashDump) ↔
      (compare.flashDump = create.flashDump ∧ SeedsAccepted create.canaryRegion) ∨
      (compare.flashDump ≠ create.flashDump ∧
        (¬ SeedsAccepted create.canaryRegion ∨
          ∃ address, DiffersAt compare.flashDump create.flashDump address ∧
            (¬ HeaderPadding address ∨ InCanary create.canaryRegion address))) := by
  rw [compareReference_eq_ok_iff_differsAt hsha hcreate hbase hsize hdump hoption hboot]
  by_cases heq : compare.flashDump = create.flashDump
  · have hsame : ∀ address, ¬ DiffersAt compare.flashDump create.flashDump address := by
      rintro address ⟨-, hne⟩
      exact hne (by rw [heq])
    simp [heq, fun address => heq ▸ hsame address]
  · simp only [heq, iff_false, false_and, false_or, ne_eq, not_false_eq_true, true_and,
      not_and_or, not_forall, not_not, exists_prop]

end

/-! ### An erased flash -/

/-- The dump of an erased flash. -/
def erasedDump : List UInt8 := List.replicate Layout.flashTotalSize 0xFF

/-- The erased flash with one byte of the padding of slot A programmed. -/
def paddedDump : List UInt8 := erasedDump.set 0x200A0 0x00

/-- A canary region there. -/
def paddingCanary : RegionSpec where
  name := "padding"
  start := 0x080200A0
  endAddr := 0x08020200
  pattern := some .prng

/-- A digest without collisions, so not one of fixed length: the message and a mark. -/
def plainHashlib : Hashlib := ⟨fun data => data ++ [0x80], fun data => data ++ [0x80, 0x00]⟩

theorem plainHashlib_injective : Function.Injective plainHashlib.sha512 :=
  List.append_left_injective _

/-- The manifest of a dump with the default block size. -/
def referenceOf (hashlib : Hashlib) (dump : List UInt8) (regions : List Region) : Reference where
  target := layoutTarget
  flashBase := Layout.flashBase
  blockSize := 4096
  referenceFlashSha512 := hashlib.sha512 dump
  optionByteSnapshot := []
  bootStateRegisterSnapshot := []
  regions := regions.map (recordOf hashlib dump 4096)

/-- The manifest of a dump under the default arguments. -/
def defaultReference (hashlib : Hashlib) (dump : List UInt8) : Reference :=
  referenceOf hashlib dump defaultRegions

theorem length_erasedDump : erasedDump.length = Layout.flashTotalSize := List.length_replicate

theorem length_paddedDump : paddedDump.length = Layout.flashTotalSize := by
  rw [paddedDump, List.length_set, length_erasedDump]

theorem validateRegions_defaultRegions : validateRegions defaultRegions = .ok () := by
  decide +kernel

theorem validateRegions_canary :
    validateRegions (defaultRegions ++ [canaryRegion paddingCanary]) = .ok () := by
  decide +kernel

theorem createReference_of (hashlib : Hashlib) {dump : List UInt8} {specs : List RegionSpec}
    {canaries : List Region} (hsize : dump.length = Layout.flashTotalSize)
    (hspecs : parseRegionSpecs specs = .ok canaries)
    (hvalid : validateRegions (defaultRegions ++ canaries) = .ok ()) :
    createReference hashlib { flashDump := dump, canaryRegion := specs } =
      .ok (referenceOf hashlib dump (defaultRegions ++ canaries)) := by
  have hrecords : regionRecords hashlib dump 4096 (defaultRegions ++ canaries) =
      .ok ((defaultRegions ++ canaries).map (recordOf hashlib dump 4096)) :=
    regionRecords_eq (validateRegions_eq_ok.mp hvalid).1
  simp only [createReference, except_bind_eq_ok, require_eq_ok, Unique.exists_iff,
    loadFlashDump_eq_ok]
  exact ⟨hsize, trivial, trivial, canaries, hspecs, hvalid, [], rfl, [], rfl, 4096, rfl, _, hrecords,
    rfl⟩

theorem createReference_default (hashlib : Hashlib) {dump : List UInt8}
    (hsize : dump.length = Layout.flashTotalSize) :
    createReference hashlib { flashDump := dump } = .ok (defaultReference hashlib dump) := by
  have hcreate := @createReference_of hashlib dump [] [] hsize rfl
    (by rw [List.append_nil]; exact validateRegions_defaultRegions)
  rwa [List.append_nil] at hcreate

/-- The dumps differ in one byte. -/
theorem differsAt_paddedDump_iff {address : ℕ} :
    DiffersAt paddedDump erasedDump address ↔ address = 0x080200A0 := by
  have hbyte : paddedDump[0x200A0]? ≠ erasedDump[0x200A0]? := by
    have hpadded : paddedDump[0x200A0]? = some 0x00 :=
      List.getElem?_set_self (by rw [length_erasedDump]; decide)
    have herased : erasedDump[0x200A0]? = some 0xFF :=
      List.getElem?_replicate_of_lt (by decide)
    rw [hpadded, herased]
    decide
  constructor
  · rintro ⟨hbase, hne⟩
    have hoffset : address - 0x08000000 = 0x200A0 := by
      by_contra hother
      exact hne (List.getElem?_set_ne (Ne.symm hother))
    replace hbase : 0x08000000 ≤ address := hbase
    omega
  · rintro rfl
    exact ⟨by decide, hbyte⟩

theorem paddedDump_ne_erasedDump : paddedDump ≠ erasedDump := by
  intro heq
  exact (differsAt_paddedDump_iff.mpr rfl).2 (by rw [heq])

/-- The canary region covers the padding of slot A, so the byte that changes there is reported. -/
theorem compareReference_complete_erased :
    createReference plainHashlib { flashDump := erasedDump, canaryRegion := [paddingCanary] } =
        .ok (referenceOf plainHashlib erasedDump (defaultRegions ++ [canaryRegion paddingCanary])) ∧
      compareReference plainHashlib
        { reference := referenceOf plainHashlib erasedDump
            (defaultRegions ++ [canaryRegion paddingCanary]),
          flashDump := paddedDump } ≠ (.ok, 0) := by
  have hcreate := @createReference_of plainHashlib erasedDump [paddingCanary] _ length_erasedDump rfl
    validateRegions_canary
  refine ⟨hcreate, fun hok => paddedDump_ne_erasedDump ?_⟩
  refine ((@compareReference_complete_iff plainHashlib
    { flashDump := erasedDump, canaryRegion := [paddingCanary] }
    { reference := referenceOf plainHashlib erasedDump
        (defaultRegions ++ [canaryRegion paddingCanary]),
      flashDump := paddedDump }
    plainHashlib_injective hcreate rfl length_paddedDump (by simp) rfl rfl).mpr ?_).mp hok
  exact .inr ⟨paddedDump_ne_erasedDump, .inr ⟨0x080200A0, differsAt_paddedDump_iff.mpr rfl,
    .inr ⟨paddingCanary, List.mem_singleton_self _, by decide, by decide⟩⟩⟩

/-- A byte of the padding changes, and the comparison reports nothing. -/
theorem compareReference_padded :
    createReference plainHashlib { flashDump := erasedDump } =
        .ok (defaultReference plainHashlib erasedDump) ∧
      compareReference plainHashlib
        { reference := defaultReference plainHashlib erasedDump, flashDump := paddedDump } = (.ok, 0) ∧
      paddedDump ≠ erasedDump := by
  have hcreate := createReference_default plainHashlib length_erasedDump
  refine ⟨hcreate, ?_, paddedDump_ne_erasedDump⟩
  refine (@compareReference_eq_ok_iff_differsAt plainHashlib { flashDump := erasedDump }
    { reference := defaultReference plainHashlib erasedDump, flashDump := paddedDump }
    plainHashlib_injective hcreate rfl length_paddedDump (by simp) rfl rfl).mpr ?_
  refine ⟨by simp [SeedsAccepted], fun address h => ⟨?_, by simp [InCanary]⟩⟩
  rw [differsAt_paddedDump_iff.mp h, headerPadding_iff]
  decide

end MemoryIntegrity

end Stm32SecurityLab
