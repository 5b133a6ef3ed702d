import Mathlib.Data.Finset.Insert
import Stm32SecurityLab.ModuleInstall.Format

/-!
# The module catalog

The catalog of `tools/module_install.py`: a string of 128-byte records, each with a CRC, to which
records are only ever appended. Recovery walks over it in steps of 128 bytes from the beginning,
skips what does not decode and remembers the newest record of each module.

A record has exactly one encoding and decoding accepts nothing else, so a catalog that was written
record by record reads back as those records.

## Main definitions

* `CatalogRecord`, `encodeRecord`, `decodeRecord`
* `iterValidRecords`, `recoverCatalog`
* `recordBytes` — the 128 bytes of a record

## Main results

* `encodeRecord_eq_ok_iff`, `decodeRecord_eq_ok_iff` — the two are inverse
* `iterValidRecords_append` — records behind whole records
-/

namespace Stm32SecurityLab.ModuleInstall

open Crash

/-! ### Records -/

def installRecordSize : ℕ := 128
def installRecordBodySize : ℕ := 96
def installRecordMagic : List UInt8 := [0x49, 0x43, 0x37, 0x30]
def installRecordVersion : UInt16 := 1

/-- `INSTALL_RECORD_KIND_STATE` and `INSTALL_RECORD_KIND_REVOCATION`. -/
inductive RecordKind where
  | state
  | revocation
  deriving DecidableEq, Repr

def RecordKind.toUInt16 : RecordKind → UInt16
  | .state => 1
  | .revocation => 2

def RecordKind.ofUInt16? (value : UInt16) : Option RecordKind :=
  if value = 1 then some .state else if value = 2 then some .revocation else none

/-- `SLOT_A`, `SLOT_B` and `SLOT_NONE`. -/
inductive ModuleSlot where
  | a
  | b
  | none
  deriving DecidableEq, Repr

def ModuleSlot.toUInt32 : ModuleSlot → UInt32
  | .a => 0
  | .b => 1
  | .none => 0xFFFFFFFF

/-- `_slot`. -/
def ModuleSlot.ofUInt32? (value : UInt32) : Option ModuleSlot :=
  if value = 0 then some .a else if value = 1 then some .b
  else if value = 0xFFFFFFFF then some .none else Option.none

/-- `InstallState`. -/
inductive InstallState where
  | empty
  | receiving
  | verified
  | pending
  | active
  | confirmed
  | rejected
  | quarantined
  deriving DecidableEq, Repr

def InstallState.toUInt32 : InstallState → UInt32
  | .empty => 0
  | .receiving => 1
  | .verified => 2
  | .pending => 3
  | .active => 4
  | .confirmed => 5
  | .rejected => 6
  | .quarantined => 7

/-- `_state`. -/
def InstallState.ofUInt32? (value : UInt32) : Option InstallState :=
  if value = 0 then some .empty else if value = 1 then some .receiving
  else if value = 2 then some .verified else if value = 3 then some .pending
  else if value = 4 then some .active else if value = 5 then some .confirmed
  else if value = 6 then some .rejected else if value = 7 then some .quarantined
  else none

/-- `CatalogRecord`. -/
structure CatalogRecord where
  kind : RecordKind
  sequence : ℕ
  moduleId : ℕ
  moduleVersion : ℕ
  minVersion : ℕ
  state : InstallState
  activeSlot : ModuleSlot
  candidateSlot : ModuleSlot
  failures : ℕ
  result : ℕ
  signerKeyId : List UInt8
  fingerprint : List UInt8
  deriving DecidableEq, Repr

/-- The messages of the `InstallError`s of `module_install.py`, and the errors of the parser. -/
inductive InstallError where
  | mustFitUint32 (name : String)
  | invalidSlot (name : String)
  | invalidInstallState
  | invalidCatalogSequence
  | invalidSignerKeyId
  | invalidFingerprint
  | invalidModuleIdentity
  | invalidRevocationSigner
  | invalidRevocationRecord
  | catalogRecordSize
  | catalogRecordReserved
  | catalogRecordCrc
  | catalogRecordIdentity
  | catalogModuleIdentity
  | catalogRevocationIdentity
  | catalogRecordKind
  | invalidCatalogRecordKind
  | invalidModuleSlot
  | moduleSignerRevoked
  | signerNotSeparate
  | package (error : PackageError)
  | unsupportedModuleType
  | moduleIdMismatch
  | rollbackVersion
  | installationInProgress
  | replayOrRollbackVersion
  | noPackageSlot
  | moduleNotVerified
  | moduleNotActive
  | noConfirmedModule
  | moduleNotPendingOrActive
  | signerKeyIdLength
  | missingModuleSlot
  | missingModulePackage
  | unknownModule
  | sequenceExhausted
  deriving DecidableEq, Repr

/-- `_u32`. -/
def u32 (name : String) (value : ℕ) : Except InstallError Unit :=
  require (value ≤ 0xFFFFFFFF) (.mustFitUint32 name)

/-- The words of a record. -/
def recordWords (record : CatalogRecord) : List UInt32 :=
  [UInt32.ofNat record.sequence, UInt32.ofNat record.moduleId, UInt32.ofNat record.moduleVersion,
    UInt32.ofNat record.minVersion, record.state.toUInt32, record.activeSlot.toUInt32,
    record.candidateSlot.toUInt32, UInt32.ofNat record.failures, UInt32.ofNat record.result, 0]

/-- The first eight bytes of a record. -/
def recordStart (record : CatalogRecord) : List UInt8 :=
  installRecordMagic ++ storeLe16 installRecordVersion ++ storeLe16 record.kind.toUInt16

/-- The 96 bytes that the CRC covers. -/
def recordBody (record : CatalogRecord) : List UInt8 :=
  recordStart record ++
    (storeWords (recordWords record) ++ (record.signerKeyId ++ record.fingerprint))

/-- The 128 bytes of a record. -/
def recordBytes (record : CatalogRecord) : List UInt8 :=
  recordBody record ++ (storeLe32 (crc32Update 0 (recordBody record)) ++ List.replicate 28 0)

/-- The fields of a revocation, all but the signer. -/
def IsRevocation (record : CatalogRecord) : Prop :=
  record.moduleId = 0 ∧ record.moduleVersion = 0 ∧ record.minVersion = 0 ∧
    record.state = .empty ∧ record.activeSlot = .none ∧ record.candidateSlot = .none ∧
    record.failures = 0 ∧ record.result = 0 ∧ record.fingerprint = List.replicate 32 0

instance (record : CatalogRecord) : Decidable (IsRevocation record) :=
  inferInstanceAs (Decidable (_ ∧ _))

/-- `encode_record`. -/
def encodeRecord (record : CatalogRecord) : Except InstallError (List UInt8) := do
  require (record.sequence ≠ 0) InstallError.invalidCatalogSequence
  require (record.signerKeyId.length = 16) InstallError.invalidSignerKeyId
  require (record.fingerprint.length = 32) InstallError.invalidFingerprint
  match record.kind with
  | .state => do
    u32 "module_id" record.moduleId
    require (record.moduleId ≠ 0 ∧ record.moduleVersion ≠ 0) InstallError.invalidModuleIdentity
  | .revocation => do
    require (record.signerKeyId ≠ List.replicate 16 0) InstallError.invalidRevocationSigner
    require (IsRevocation record) InstallError.invalidRevocationRecord
  u32 "sequence" record.sequence
  u32 "module_id" record.moduleId
  u32 "module_version" record.moduleVersion
  u32 "min_version" record.minVersion
  u32 "failures" record.failures
  u32 "result" record.result
  return recordBytes record

/-- The record that the fields of `raw` spell, with the kind, the state and the slots read. -/
def recordOf (raw : List UInt8) (kind : RecordKind) (state : InstallState)
    (activeSlot candidateSlot : ModuleSlot) : CatalogRecord where
  kind := kind
  sequence := (loadLe32 (byteAt raw) 8).toNat
  moduleId := (loadLe32 (byteAt raw) 12).toNat
  moduleVersion := (loadLe32 (byteAt raw) 16).toNat
  minVersion := (loadLe32 (byteAt raw) 20).toNat
  state := state
  activeSlot := activeSlot
  candidateSlot := candidateSlot
  failures := (loadLe32 (byteAt raw) 36).toNat
  result := (loadLe32 (byteAt raw) 40).toNat
  signerKeyId := field raw 48 16
  fingerprint := field raw 64 32

/-- An optional value, or an error. -/
def orElse {α : Type} (value : Option α) (error : InstallError) : Except InstallError α :=
  match value with
  | some a => .ok a
  | none => .error error

/-- The last checks of `decode_record`. -/
def checkIdentity (record : CatalogRecord) : Except InstallError Unit :=
  match record.kind with
  | .state =>
    require (record.moduleId ≠ 0 ∧ record.moduleVersion ≠ 0) InstallError.catalogModuleIdentity
  | .revocation =>
    require (IsRevocation record ∧ record.signerKeyId ≠ List.replicate 16 0)
      InstallError.catalogRevocationIdentity

/-- `decode_record`. -/
def decodeRecord (raw : List UInt8) : Except InstallError CatalogRecord := do
  require (raw.length = installRecordSize) InstallError.catalogRecordSize
  require (field raw (installRecordBodySize + 4) 28 = List.replicate 28 0)
    InstallError.catalogRecordReserved
  require (crc32Update 0 (field raw 0 installRecordBodySize) =
    loadLe32 (byteAt raw) installRecordBodySize) InstallError.catalogRecordCrc
  require (field raw 0 4 = installRecordMagic ∧ loadLe16 (byteAt raw) 4 = installRecordVersion ∧
    loadLe32 (byteAt raw) 44 = 0) InstallError.catalogRecordIdentity
  require (loadLe32 (byteAt raw) 8 ≠ 0) InstallError.invalidCatalogSequence
  let state ← orElse (InstallState.ofUInt32? (loadLe32 (byteAt raw) 24)) .invalidInstallState
  let activeSlot ← orElse (ModuleSlot.ofUInt32? (loadLe32 (byteAt raw) 28))
    (.invalidSlot "active_slot")
  let candidateSlot ← orElse (ModuleSlot.ofUInt32? (loadLe32 (byteAt raw) 32))
    (.invalidSlot "candidate_slot")
  let kind ← orElse (RecordKind.ofUInt16? (loadLe16 (byteAt raw) 6)) .catalogRecordKind
  let record := recordOf raw kind state activeSlot candidateSlot
  checkIdentity record
  return record

/-! ### The two directions -/

/-- A state names a module and a version, a revocation names a signer and nothing else. -/
def Identified (record : CatalogRecord) : Prop :=
  match record.kind with
  | .state => record.moduleId ≠ 0 ∧ record.moduleVersion ≠ 0
  | .revocation => record.signerKeyId ≠ List.replicate 16 0 ∧ IsRevocation record

theorem checkIdentity_eq_ok_iff {record : CatalogRecord} {u : Unit} :
    checkIdentity record = .ok u ↔ Identified record := by
  rw [checkIdentity, Identified]
  cases record.kind with
  | state => simp
  | revocation => simp [and_comm]

/-- What `encode_record` asks of a record. -/
structure Encodable (record : CatalogRecord) : Prop where
  sequence_ne_zero : record.sequence ≠ 0
  signer_length : record.signerKeyId.length = 16
  fingerprint_length : record.fingerprint.length = 32
  identity : Identified record
  sequence_le : record.sequence ≤ 0xFFFFFFFF
  moduleId_le : record.moduleId ≤ 0xFFFFFFFF
  moduleVersion_le : record.moduleVersion ≤ 0xFFFFFFFF
  minVersion_le : record.minVersion ≤ 0xFFFFFFFF
  failures_le : record.failures ≤ 0xFFFFFFFF
  result_le : record.result ≤ 0xFFFFFFFF

theorem encodeRecord_eq_ok_iff {record : CatalogRecord} {raw : List UInt8} :
    encodeRecord record = .ok raw ↔ Encodable record ∧ raw = recordBytes record := by
  have hiff : encodeRecord record = .ok raw ↔
      record.sequence ≠ 0 ∧ record.signerKeyId.length = 16 ∧ record.fingerprint.length = 32 ∧
        Identified record ∧
        record.sequence ≤ 0xFFFFFFFF ∧ record.moduleId ≤ 0xFFFFFFFF ∧
        record.moduleVersion ≤ 0xFFFFFFFF ∧ record.minVersion ≤ 0xFFFFFFFF ∧
        record.failures ≤ 0xFFFFFFFF ∧ record.result ≤ 0xFFFFFFFF ∧ raw = recordBytes record := by
    rw [encodeRecord, Identified]
    cases record.kind with
    | state =>
      simp only [u32, except_bind_eq_ok, require_eq_ok, exists_const, pure, Except.pure,
        Except.ok.injEq, eq_comm (a := recordBytes record)]
      tauto
    | revocation =>
      simp only [u32, except_bind_eq_ok, require_eq_ok, exists_const, pure, Except.pure,
        Except.ok.injEq, eq_comm (a := recordBytes record)]
      tauto
  rw [hiff]
  constructor
  · rintro ⟨h₁, h₂, h₃, h₄, h₅, h₆, h₇, h₈, h₉, h₁₀, h₁₁⟩
    exact ⟨⟨h₁, h₂, h₃, h₄, h₅, h₆, h₇, h₈, h₉, h₁₀⟩, h₁₁⟩
  · rintro ⟨⟨h₁, h₂, h₃, h₄, h₅, h₆, h₇, h₈, h₉, h₁₀⟩, h₁₁⟩
    exact ⟨h₁, h₂, h₃, h₄, h₅, h₆, h₇, h₈, h₉, h₁₀, h₁₁⟩

section Layout

variable {record : CatalogRecord}

@[simp] theorem recordStart_length (record : CatalogRecord) : (recordStart record).length = 8 := rfl

theorem Encodable.body_length (h : Encodable record) :
    (recordBody record).length = installRecordBodySize := by
  simp only [recordBody, List.length_append, recordStart_length, storeWords_length, recordWords,
    List.length_cons, List.length_nil, h.signer_length, h.fingerprint_length]
  rfl

theorem Encodable.length (h : Encodable record) :
    (recordBytes record).length = installRecordSize := by
  simp only [recordBytes, List.length_append, h.body_length, storeLe32_length,
    List.length_replicate]
  rfl

/-- A piece out of the middle of a string. -/
theorem field_middle {pre piece post : List UInt8} {off len : ℕ} (hpre : pre.length = off)
    (hpiece : piece.length = len) : field (pre ++ (piece ++ post)) off len = piece := by
  rw [field, List.drop_left' hpre, List.take_left' hpiece]

theorem loadLe32_shift {pre rest : List UInt8} {off : ℕ} (hpre : pre.length = off) (i : ℕ) :
    loadLe32 (byteAt (pre ++ rest)) (off + i) = loadLe32 (byteAt rest) i :=
  loadLe32_congr fun k _ => by rw [Nat.add_assoc, byteAt_append_right hpre]

theorem loadLe32_left {l rest : List UInt8} {i : ℕ} (h : i + 4 ≤ l.length) :
    loadLe32 (byteAt (l ++ rest)) i = loadLe32 (byteAt l) i :=
  loadLe32_congr fun k _ => byteAt_append_left (by omega)

/-- The words of a record where they stand. -/
theorem loadLe32_recordBytes (h : Encodable record) {k : ℕ} {word : UInt32}
    (hword : (recordWords record)[k]? = some word) :
    loadLe32 (byteAt (recordBytes record)) (8 + 4 * k) = word := by
  have hk : k < 10 := (List.getElem?_eq_some_iff.mp hword).1
  rw [recordBytes, loadLe32_left (by rw [h.body_length, installRecordBodySize]; omega), recordBody,
    loadLe32_shift (recordStart_length record),
    loadLe32_left (by rw [storeWords_length]; change 4 * k + 4 ≤ 4 * 10; omega)]
  exact loadLe32_storeWords hword

theorem loadLe32_ofNat {value : ℕ} (h : value ≤ 0xFFFFFFFF) :
    (UInt32.ofNat value).toNat = value := by
  rw [UInt32.toNat_ofNat']
  exact Nat.mod_eq_of_lt (by omega)

theorem field_signer (h : Encodable record) :
    field (recordBytes record) 48 16 = record.signerKeyId := by
  have hsplit : recordBytes record = (recordStart record ++ storeWords (recordWords record)) ++
      (record.signerKeyId ++ (record.fingerprint ++
        (storeLe32 (crc32Update 0 (recordBody record)) ++ List.replicate 28 0))) := by
    simp only [recordBytes, recordBody, List.append_assoc]
  rw [hsplit]
  refine field_middle ?_ h.signer_length
  rw [List.length_append, recordStart_length, storeWords_length]
  rfl

theorem field_fingerprint (h : Encodable record) :
    field (recordBytes record) 64 32 = record.fingerprint := by
  have hsplit : recordBytes record =
      (recordStart record ++ (storeWords (recordWords record) ++ record.signerKeyId)) ++
      (record.fingerprint ++
        (storeLe32 (crc32Update 0 (recordBody record)) ++ List.replicate 28 0)) := by
    simp only [recordBytes, recordBody, List.append_assoc]
  rw [hsplit]
  refine field_middle ?_ h.fingerprint_length
  rw [List.length_append, recordStart_length, List.length_append, storeWords_length,
    h.signer_length]
  rfl

end Layout

/-- The bytes behind the CRC. -/
theorem field_padding (h : Encodable record) :
    field (recordBytes record) (installRecordBodySize + 4) 28 = List.replicate 28 0 := by
  have := @field_middle (recordBody record ++ storeLe32 (crc32Update 0 (recordBody record)))
    (List.replicate 28 (0 : UInt8)) [] (installRecordBodySize + 4) 28
    (by rw [List.length_append, h.body_length]; rfl) (List.length_replicate)
  rwa [List.append_nil, List.append_assoc] at this

@[simp] theorem RecordKind.ofUInt16?_toUInt16 (kind : RecordKind) :
    RecordKind.ofUInt16? kind.toUInt16 = some kind := by cases kind <;> rfl

@[simp] theorem ModuleSlot.ofUInt32?_toUInt32 (slot : ModuleSlot) :
    ModuleSlot.ofUInt32? slot.toUInt32 = some slot := by cases slot <;> rfl

@[simp] theorem InstallState.ofUInt32?_toUInt32 (state : InstallState) :
    InstallState.ofUInt32? state.toUInt32 = some state := by cases state <;> rfl

@[simp] theorem orElse_eq_ok {α : Type} {value : Option α} {error : InstallError} {a : α} :
    orElse value error = .ok a ↔ value = some a := by
  cases value <;> simp [orElse]

theorem RecordKind.eq_of_ofUInt16? {value : UInt16} {kind : RecordKind}
    (h : RecordKind.ofUInt16? value = some kind) : value = kind.toUInt16 := by
  rw [RecordKind.ofUInt16?] at h
  split_ifs at h <;> cases h <;> assumption

theorem ModuleSlot.eq_of_ofUInt32? {value : UInt32} {slot : ModuleSlot}
    (h : ModuleSlot.ofUInt32? value = some slot) : value = slot.toUInt32 := by
  rw [ModuleSlot.ofUInt32?] at h
  split_ifs at h <;> cases h <;> assumption

theorem InstallState.eq_of_ofUInt32? {value : UInt32} {state : InstallState}
    (h : InstallState.ofUInt32? value = some state) : value = state.toUInt32 := by
  rw [InstallState.ofUInt32?] at h
  split_ifs at h <;> cases h <;> assumption

/-- An encoded record decodes to itself. -/
theorem decodeRecord_recordBytes {record : CatalogRecord} (h : Encodable record) :
    decodeRecord (recordBytes record) = .ok record := by
  have hzeros := field_padding h
  have hbody : field (recordBytes record) 0 installRecordBodySize = recordBody record :=
    List.take_left' h.body_length
  have hcrc : loadLe32 (byteAt (recordBytes record)) installRecordBodySize =
      crc32Update 0 (recordBody record) := by
    have := @loadLe32_shift _ (storeLe32 (crc32Update 0 (recordBody record)) ++
      List.replicate 28 0) _ h.body_length 0
    rw [Nat.add_zero] at this
    rw [recordBytes, this]
    exact loadLe32_of_slice (slice_byteAt_append (storeLe32_length _))
  have hmagic : field (recordBytes record) 0 4 = installRecordMagic := rfl
  have hversion : loadLe16 (byteAt (recordBytes record)) 4 = installRecordVersion := by
    have : loadLe16 (byteAt (storeLe16 installRecordVersion)) 0 = installRecordVersion :=
      loadLe16_of_slice (slice_byteAt _)
    exact this
  have hkind : loadLe16 (byteAt (recordBytes record)) 6 = record.kind.toUInt16 := by
    have : loadLe16 (byteAt (storeLe16 record.kind.toUInt16)) 0 = record.kind.toUInt16 :=
      loadLe16_of_slice (slice_byteAt _)
    exact this
  have h8 := loadLe32_recordBytes h (k := 0) rfl
  have h12 := loadLe32_recordBytes h (k := 1) rfl
  have h16 := loadLe32_recordBytes h (k := 2) rfl
  have h20 := loadLe32_recordBytes h (k := 3) rfl
  have h24 := loadLe32_recordBytes h (k := 4) rfl
  have h28 := loadLe32_recordBytes h (k := 5) rfl
  have h32 := loadLe32_recordBytes h (k := 6) rfl
  have h36 := loadLe32_recordBytes h (k := 7) rfl
  have h40 := loadLe32_recordBytes h (k := 8) rfl
  have h44 := loadLe32_recordBytes h (k := 9) rfl
  simp only [Nat.reduceMul, Nat.reduceAdd] at h8 h12 h16 h20 h24 h28 h32 h36 h40 h44
  have hrecord : recordOf (recordBytes record) record.kind record.state record.activeSlot
      record.candidateSlot = record := by
    simp only [recordOf, h8, h12, h16, h20, h36, h40, loadLe32_ofNat h.sequence_le,
      loadLe32_ofNat h.moduleId_le, loadLe32_ofNat h.moduleVersion_le,
      loadLe32_ofNat h.minVersion_le, loadLe32_ofNat h.failures_le, loadLe32_ofNat h.result_le,
      field_signer h, field_fingerprint h]
  have hsequence : UInt32.ofNat record.sequence ≠ 0 := by
    intro hzero
    have := congrArg UInt32.toNat hzero
    rw [loadLe32_ofNat h.sequence_le] at this
    exact h.sequence_ne_zero this
  simp only [decodeRecord, except_bind_eq_ok, require_eq_ok, exists_const, orElse_eq_ok]
  refine ⟨h.length, hzeros, by rw [hbody, hcrc], ⟨hmagic, hversion, h44⟩, by rw [h8]; exact hsequence,
    _, by rw [h24, InstallState.ofUInt32?_toUInt32], _,
    by rw [h28, ModuleSlot.ofUInt32?_toUInt32], _, by rw [h32, ModuleSlot.ofUInt32?_toUInt32], _,
    by rw [hkind, RecordKind.ofUInt16?_toUInt16], ?_⟩
  rw [hrecord]
  exact ⟨(), checkIdentity_eq_ok_iff.mpr h.identity, rfl⟩

/-! ### Canonicity -/

/-- **Decoding is canonical.** A string that decodes is the encoding of what it decodes to. -/
theorem decodeRecord_eq_ok_iff {raw : List UInt8} {record : CatalogRecord} :
    decodeRecord raw = .ok record ↔ Encodable record ∧ raw = recordBytes record := by
  refine ⟨?_, ?_⟩
  · intro h
    simp only [decodeRecord, except_bind_eq_ok, require_eq_ok, exists_const, orElse_eq_ok] at h
    obtain ⟨hlength, hzeros, hcrc, ⟨hmagic, hversion, h44⟩, hsequence, state, hstate, active, hactive,
      candidate, hcandidate, kind, hkind, _, hidentity, h⟩ := h
    obtain rfl : recordOf raw kind state active candidate = record := Except.ok.inj h
    rw [checkIdentity_eq_ok_iff] at hidentity
    have hle : ∀ word : UInt32, word.toNat ≤ 0xFFFFFFFF := fun word => by
      have := word.toNat_lt
      omega
    have hfield : ∀ off len, off + len ≤ 128 → (field raw off len).length = len := by
      intro off len hlen
      rw [field, List.length_take, List.length_drop, hlength, installRecordSize]
      omega
    refine ⟨⟨?_, hfield 48 16 (by omega), hfield 64 32 (by omega), hidentity, hle _, hle _, hle _, hle _,
      hle _, hle _⟩, ?_⟩
    · exact fun hzero => hsequence (UInt32.toNat_inj.mp hzero)
    · have hstart : recordStart (recordOf raw kind state active candidate) = field raw 0 8 := by
        have hsplit : field raw 0 8 = field raw 0 4 ++ field raw 4 2 ++ field raw 6 2 := by
          rw [← field_add, ← field_add]
        rw [hsplit, hmagic, ← storeLe16_field (by rw [hlength]; decide),
          ← storeLe16_field (by rw [hlength]; decide), hversion, RecordKind.eq_of_ofUInt16? hkind]
        rfl
      have hwords : storeWords (recordWords (recordOf raw kind state active candidate)) =
          field raw 8 40 := by
        rw [← @storeWords_wordsAt raw 8 10 (by rw [hlength]; decide)]
        congr 1
        simp only [recordWords, recordOf, UInt32.ofNat_toNat, ← InstallState.eq_of_ofUInt32? hstate,
          ← ModuleSlot.eq_of_ofUInt32? hactive, ← ModuleSlot.eq_of_ofUInt32? hcandidate, ← h44]
        rfl
      have hbody : recordBody (recordOf raw kind state active candidate) =
          field raw 0 installRecordBodySize := by
        have hsplit : field raw 0 installRecordBodySize =
            field raw 0 8 ++ (field raw 8 40 ++ (field raw 48 16 ++ field raw 64 32)) := by
          rw [← field_add, ← field_add, ← field_add]
          rfl
        rw [recordBody, hstart, hwords, hsplit]
        rfl
      have hall : raw = field raw 0 installRecordBodySize ++
          (field raw installRecordBodySize 4 ++ field raw (installRecordBodySize + 4) 28) := by
        have hwhole : field raw 0 installRecordBodySize ++ field raw installRecordBodySize (4 + 28) =
            field raw 0 installRecordSize := (field_add raw 0 installRecordBodySize (4 + 28)).symm
        rw [← field_add, hwhole, field, List.drop_zero]
        exact (List.take_of_length_le hlength.le).symm
      rw [recordBytes, hbody, hcrc, storeLe32_field (by rw [hlength]; decide), ← hzeros]
      exact hall
  · rintro ⟨h, rfl⟩
    exact decodeRecord_recordBytes h

/-! ### Recovery -/

/-- The record at a place of the catalog, if one decodes there. -/
def recordAt (catalog : List UInt8) (offset : ℕ) : Option CatalogRecord :=
  (decodeRecord (field catalog offset installRecordSize)).toOption

/-- `iter_valid_records`. -/
def iterValidRecords (catalog : List UInt8) : List CatalogRecord :=
  (List.range (catalog.length / installRecordSize)).filterMap fun i =>
    recordAt catalog (installRecordSize * i)

/-- `RecoveryView`. -/
structure RecoveryView where
  records : List CatalogRecord := []
  latestByModule : ℕ → Option CatalogRecord := fun _ => none
  confirmedByModule : ℕ → Option CatalogRecord := fun _ => none
  minVersionByModule : ℕ → Option ℕ := fun _ => none
  revokedSigners : Finset (List UInt8) := ∅

/-- The entry of a dictionary that keeps the record with the higher sequence number. -/
def newer (old : Option CatalogRecord) (record : CatalogRecord) : Option CatalogRecord :=
  match old with
  | none => some record
  | some other => if other.sequence ≤ record.sequence then some record else some other

/-- The loop of `recover_catalog`. -/
def recoverStep (view : RecoveryView) (record : CatalogRecord) : RecoveryView :=
  match record.kind with
  | .revocation =>
    { view with
      records := view.records ++ [record]
      revokedSigners := insert record.signerKeyId view.revokedSigners }
  | .state =>
    { view with
      records := view.records ++ [record]
      minVersionByModule := Function.update view.minVersionByModule record.moduleId
        (some (max ((view.minVersionByModule record.moduleId).getD 0) record.minVersion))
      latestByModule := Function.update view.latestByModule record.moduleId
        (newer (view.latestByModule record.moduleId) record)
      confirmedByModule :=
        if record.state = .confirmed then
          Function.update view.confirmedByModule record.moduleId
            (newer (view.confirmedByModule record.moduleId) record)
        else view.confirmedByModule }

/-- The view of a list of records. -/
def viewOf (records : List CatalogRecord) : RecoveryView := records.foldl recoverStep {}

/-- `recover_catalog`. -/
def recoverCatalog (catalog : List UInt8) : RecoveryView := viewOf (iterValidRecords catalog)

@[simp] theorem viewOf_append (records : List CatalogRecord) (record : CatalogRecord) :
    viewOf (records ++ [record]) = recoverStep (viewOf records) record := by
  rw [viewOf, List.foldl_append]
  rfl

@[simp] theorem recoverStep_records (view : RecoveryView) (record : CatalogRecord) :
    (recoverStep view record).records = view.records ++ [record] := by
  rw [recoverStep]
  cases record.kind <;> rfl

@[simp] theorem viewOf_records (records : List CatalogRecord) :
    (viewOf records).records = records := by
  induction records using List.reverseRecOn with
  | nil => rfl
  | append_singleton records record ih => rw [viewOf_append, recoverStep_records, ih]

/-! ### The newest records -/

/-- A state record of the module. -/
def ofModule (moduleId : ℕ) (record : CatalogRecord) : Bool :=
  record.kind = .state ∧ record.moduleId = moduleId

/-- A record that confirms the module. -/
def confirms (moduleId : ℕ) (record : CatalogRecord) : Bool :=
  ofModule moduleId record ∧ record.state = .confirmed

/-- The sequence numbers grow. -/
def Sorted (records : List CatalogRecord) : Prop :=
  records.Pairwise fun r s => r.sequence < s.sequence

theorem Sorted.init {records : List CatalogRecord} {record : CatalogRecord}
    (h : Sorted (records ++ [record])) : Sorted records := (List.pairwise_append.mp h).1

theorem Sorted.last {records : List CatalogRecord} {record : CatalogRecord}
    (h : Sorted (records ++ [record])) {r : CatalogRecord} (hr : r ∈ records) :
    r.sequence < record.sequence :=
  (List.pairwise_append.mp h).2.2 r hr record (List.mem_singleton_self record)

theorem newer_of_lt {old : Option CatalogRecord} {record : CatalogRecord}
    (h : ∀ r ∈ old, r.sequence < record.sequence) : newer old record = some record := by
  rcases old with _ | other
  · rfl
  · rw [newer, if_pos (h other rfl).le]

/-- The latest record of a module is the last one appended. -/
theorem viewOf_latest {records : List CatalogRecord} (h : Sorted records) (moduleId : ℕ) :
    (viewOf records).latestByModule moduleId = (records.filter (ofModule moduleId)).getLast? := by
  induction records using List.reverseRecOn with
  | nil => rfl
  | append_singleton records record ih =>
    have hold := ih h.init
    rw [viewOf_append, recoverStep, List.filter_append]
    cases hkind : record.kind with
    | revocation =>
      have hno : ofModule moduleId record = false := by simp [ofModule, hkind]
      simp [hno, hold]
    | state =>
      by_cases hid : record.moduleId = moduleId
      · have hyes : ofModule moduleId record = true := by simp [ofModule, hkind, hid]
        have hnewer : newer ((viewOf records).latestByModule moduleId) record = some record := by
          refine newer_of_lt fun r hr => h.last ?_
          rw [hold] at hr
          exact List.mem_of_mem_filter (List.mem_of_getLast? hr)
        simp [hid, hyes, hnewer]
      · have hno : ofModule moduleId record = false := by simp [ofModule, hid]
        simp [hno, hold, Function.update_of_ne (Ne.symm hid)]

/-- The newest confirmation of a module is the last one appended. -/
theorem viewOf_confirmed {records : List CatalogRecord} (h : Sorted records) (moduleId : ℕ) :
    (viewOf records).confirmedByModule moduleId =
      (records.filter (confirms moduleId)).getLast? := by
  induction records using List.reverseRecOn with
  | nil => rfl
  | append_singleton records record ih =>
    have hold := ih h.init
    rw [viewOf_append, recoverStep, List.filter_append]
    cases hkind : record.kind with
    | revocation =>
      have hno : confirms moduleId record = false := by simp [confirms, ofModule, hkind]
      simp [hno, hold]
    | state =>
      by_cases hstate : record.state = .confirmed
      · by_cases hid : record.moduleId = moduleId
        · have hyes : confirms moduleId record = true := by
            simp [confirms, ofModule, hkind, hid, hstate]
          have hnewer : newer ((viewOf records).confirmedByModule moduleId) record =
              some record := by
            refine newer_of_lt fun r hr => h.last ?_
            rw [hold] at hr
            exact List.mem_of_mem_filter (List.mem_of_getLast? hr)
          simp [hid, hyes, hnewer, hstate]
        · have hno : confirms moduleId record = false := by simp [confirms, ofModule, hid]
          simp [hno, hold, Function.update_of_ne (Ne.symm hid), hstate]
      · have hno : confirms moduleId record = false := by simp [confirms, hstate]
        simp [hno, hold, hstate]

/-- The lowest version a module may have. -/
def floorOf (view : RecoveryView) (moduleId : ℕ) : ℕ := (view.minVersionByModule moduleId).getD 0

theorem floorOf_recoverStep (view : RecoveryView) (record : CatalogRecord) (moduleId : ℕ) :
    floorOf (recoverStep view record) moduleId =
      if ofModule moduleId record then max (floorOf view moduleId) record.minVersion
      else floorOf view moduleId := by
  rw [recoverStep]
  cases hkind : record.kind with
  | revocation => simp [ofModule, hkind, floorOf]
  | state =>
    by_cases hid : record.moduleId = moduleId
    · subst hid
      simp [ofModule, hkind, floorOf]
    · simp [ofModule, hid, floorOf, Function.update_of_ne (Ne.symm hid)]

theorem revokedSigners_recoverStep (view : RecoveryView) (record : CatalogRecord) :
    (recoverStep view record).revokedSigners =
      if record.kind = .revocation then insert record.signerKeyId view.revokedSigners
      else view.revokedSigners := by
  rw [recoverStep]
  cases record.kind <;> simp

theorem field_append_left {a b : List UInt8} {off len : ℕ} (h : off + len ≤ a.length) :
    field (a ++ b) off len = field a off len := by
  rw [field, field, List.drop_append_of_le_length (by omega),
    List.take_append_of_le_length (by rw [List.length_drop]; omega)]

theorem field_append_right {a b : List UInt8} (off len : ℕ) :
    field (a ++ b) (a.length + off) len = field b off len := by
  rw [field, field, List.drop_append, List.drop_eq_nil_of_le (by omega), List.nil_append,
    Nat.add_sub_cancel_left]

/-- **Records behind whole records.** -/
theorem iterValidRecords_append {a : List UInt8} {n : ℕ} (ha : a.length = installRecordSize * n)
    (b : List UInt8) : iterValidRecords (a ++ b) = iterValidRecords a ++ iterValidRecords b := by
  have hpos : 0 < installRecordSize := by decide
  have hleft : a.length / installRecordSize = n := by
    rw [ha, Nat.mul_div_cancel_left n hpos]
  have hcount : (a ++ b).length / installRecordSize = n + b.length / installRecordSize := by
    rw [List.length_append, ha, Nat.mul_add_div hpos]
  rw [iterValidRecords, iterValidRecords, iterValidRecords, hcount, hleft, List.range_add,
    List.filterMap_append, List.filterMap_map]
  congr 1
  · refine List.filterMap_congr fun i hi => ?_
    have hi := List.mem_range.mp hi
    have hin : installRecordSize * i + installRecordSize ≤ a.length := by
      rw [ha, ← Nat.mul_succ]
      exact Nat.mul_le_mul_left _ hi
    rw [recordAt, recordAt, field_append_left hin]
  · refine List.filterMap_congr fun i _ => ?_
    rw [Function.comp_apply, recordAt, recordAt, Nat.mul_add, ← ha, field_append_right]

/-- Less than a record is nothing. -/
theorem iterValidRecords_short {a : List UInt8} (h : a.length < installRecordSize) :
    iterValidRecords a = [] := by
  rw [iterValidRecords, Nat.div_eq_of_lt h]
  rfl

/-- A single block of the length of a record. -/
theorem iterValidRecords_block {a : List UInt8} (h : a.length = installRecordSize) :
    iterValidRecords a = (decodeRecord a).toOption.toList := by
  have hone : a.length / installRecordSize = 1 := by rw [h]; rfl
  have hall : field a (installRecordSize * 0) installRecordSize = a := by
    rw [field, Nat.mul_zero, List.drop_zero]
    exact List.take_of_length_le h.le
  rw [iterValidRecords, hone]
  simp only [List.range_one, List.filterMap_cons, List.filterMap_nil, recordAt, hall]
  cases (decodeRecord a).toOption <;> rfl

/-- A catalog written record by record. -/
def catalogBytes (records : List CatalogRecord) : List UInt8 := records.flatMap recordBytes

theorem catalogBytes_append (records more : List CatalogRecord) :
    catalogBytes (records ++ more) = catalogBytes records ++ catalogBytes more :=
  List.flatMap_append

theorem catalogBytes_length {records : List CatalogRecord} (h : ∀ r ∈ records, Encodable r) :
    (catalogBytes records).length = installRecordSize * records.length := by
  induction records with
  | nil => rfl
  | cons record records ih =>
    rw [catalogBytes, List.flatMap_cons, List.length_append,
      (h record List.mem_cons_self).length, List.length_cons, Nat.mul_succ, Nat.add_comm]
    congr 1
    exact ih fun r hr => h r (List.mem_cons_of_mem _ hr)

/-- **A catalog written record by record reads back as those records.** -/
theorem iterValidRecords_catalogBytes {records : List CatalogRecord}
    (h : ∀ r ∈ records, Encodable r) : iterValidRecords (catalogBytes records) = records := by
  induction records with
  | nil => rfl
  | cons record records ih =>
    have hrecord := h record List.mem_cons_self
    have hcons : catalogBytes (record :: records) =
        recordBytes record ++ catalogBytes records := rfl
    rw [hcons, iterValidRecords_append (n := 1) hrecord.length,
      iterValidRecords_block hrecord.length, decodeRecord_recordBytes hrecord,
      ih fun r hr => h r (List.mem_cons_of_mem _ hr)]
    rfl

theorem recoverCatalog_catalogBytes {records : List CatalogRecord}
    (h : ∀ r ∈ records, Encodable r) : recoverCatalog (catalogBytes records) = viewOf records := by
  rw [recoverCatalog, iterValidRecords_catalogBytes h]

end Stm32SecurityLab.ModuleInstall
