import Stm32SecurityLab.ModuleInstall.Catalog

/-!
# The record codec at its declared types

`CatalogRecord` of `module_install.py` declares its kind, its slots and its counters as plain
integers, and only the state as an enumeration. `encode_record` and `decode_record` check them with
code written twice, once on each side. Here both are translated at the declared types, and the
records of `Catalog` are the ones that pass: neither side lets anything else through, so the two
sides agree on every record and on every string.

## Main definitions

* `DeclaredRecord`, `encodeDeclared`, `decodeDeclared`
* `CatalogRecord.declare` — a record of the catalog at the declared types

## Main results

* `encodeDeclared_eq_ok_iff`, `decodeDeclared_eq_ok_iff` — what passes is a record of the catalog
* `record_codec_round_trip` — the two are inverse, and nothing that is appended is skipped
-/

namespace Stm32SecurityLab.ModuleInstall

open Crash

/-! ### Definitions -/

/-- `CatalogRecord` with the fields it declares. -/
structure DeclaredRecord where
  kind : ℤ
  sequence : ℤ
  moduleId : ℤ
  moduleVersion : ℤ
  minVersion : ℤ
  state : InstallState
  activeSlot : ℤ
  candidateSlot : ℤ
  failures : ℤ
  result : ℤ
  signerKeyId : List UInt8
  fingerprint : List UInt8
  deriving DecidableEq, Repr

def slotNone : ℤ := 0xFFFFFFFF

/-- `_u32`, with the word that `struct.pack` stores for the value. -/
def packU32 (name : String) (value : ℤ) (allowNone : Bool) : Except InstallError UInt32 := do
  if ¬ (allowNone = true ∧ value = slotNone) then
    require (¬ (value < 0 ∨ value > 0xFFFFFFFF)) (InstallError.mustFitUint32 name)
  return UInt32.ofNat value.toNat

/-- `_slot`. -/
def checkSlot (name : String) (value : ℤ) : Except InstallError Unit :=
  require (value = 0 ∨ value = 1 ∨ value = slotNone) (InstallError.invalidSlot name)

/-- The fields of a revocation, all but the signer. -/
def DeclaredRecord.IsRevocation (record : DeclaredRecord) : Prop :=
  record.moduleId = 0 ∧ record.moduleVersion = 0 ∧ record.minVersion = 0 ∧
    record.state = .empty ∧ record.activeSlot = slotNone ∧ record.candidateSlot = slotNone ∧
    record.failures = 0 ∧ record.result = 0 ∧ record.fingerprint = List.replicate 32 0

instance (record : DeclaredRecord) : Decidable record.IsRevocation :=
  inferInstanceAs (Decidable (_ ∧ _))

/-- What `encode_record` asks of a state. -/
def checkStateRecord (record : DeclaredRecord) : Except InstallError Unit := do
  let _ ← packU32 "module_id" record.moduleId false
  require (¬ (record.moduleId = 0 ∨ record.moduleVersion = 0)) InstallError.invalidModuleIdentity
  checkSlot "active_slot" record.activeSlot
  checkSlot "candidate_slot" record.candidateSlot

/-- What `encode_record` asks of a revocation. -/
def checkRevocationRecord (record : DeclaredRecord) : Except InstallError Unit := do
  require (record.signerKeyId ≠ List.replicate 16 0) InstallError.invalidRevocationSigner
  require record.IsRevocation InstallError.invalidRevocationRecord

/-- The checks of `encode_record` before anything is packed. -/
def checkEncodable (record : DeclaredRecord) : Except InstallError Unit := do
  require (record.kind = 1 ∨ record.kind = 2) InstallError.invalidCatalogRecordKind
  require (record.sequence ≠ 0) InstallError.invalidCatalogSequence
  require (record.signerKeyId.length = 16) InstallError.invalidSignerKeyId
  require (record.fingerprint.length = 32) InstallError.invalidFingerprint
  (if record.kind = 1 then checkStateRecord record else pure ())
  (if record.kind = 2 then checkRevocationRecord record else pure ())

/-- The ten words that `encode_record` packs. -/
def packWords (record : DeclaredRecord) : Except InstallError (List UInt32) := do
  let sequence ← packU32 "sequence" record.sequence false
  let moduleId ← packU32 "module_id" record.moduleId false
  let moduleVersion ← packU32 "module_version" record.moduleVersion false
  let minVersion ← packU32 "min_version" record.minVersion false
  let activeSlot ← packU32 "active_slot" record.activeSlot true
  let candidateSlot ← packU32 "candidate_slot" record.candidateSlot true
  let failures ← packU32 "failures" record.failures false
  let result ← packU32 "result" record.result false
  return [sequence, moduleId, moduleVersion, minVersion, record.state.toUInt32, activeSlot,
    candidateSlot, failures, result, 0]

/-- The body of a record around its words. -/
def declaredBody (record : DeclaredRecord) (words : List UInt32) : List UInt8 :=
  installRecordMagic ++ storeLe16 installRecordVersion ++
    storeLe16 (UInt16.ofNat record.kind.toNat) ++
    (storeWords words ++ (record.signerKeyId ++ record.fingerprint))

/-- `encode_record`. -/
def encodeDeclared (record : DeclaredRecord) : Except InstallError (List UInt8) := do
  checkEncodable record
  let words ← packWords record
  let body := declaredBody record words
  return body ++ (storeLe32 (crc32Update 0 body) ++ List.replicate 28 0)

/-- The record that the fields of `raw` spell, once the state has been read. -/
def declaredOf (raw : List UInt8) (state : InstallState) : DeclaredRecord where
  kind := (loadLe16 (byteAt raw) 6).toNat
  sequence := (loadLe32 (byteAt raw) 8).toNat
  moduleId := (loadLe32 (byteAt raw) 12).toNat
  moduleVersion := (loadLe32 (byteAt raw) 16).toNat
  minVersion := (loadLe32 (byteAt raw) 20).toNat
  state := state
  activeSlot := (loadLe32 (byteAt raw) 28).toNat
  candidateSlot := (loadLe32 (byteAt raw) 32).toNat
  failures := (loadLe32 (byteAt raw) 36).toNat
  result := (loadLe32 (byteAt raw) 40).toNat
  signerKeyId := field raw 48 16
  fingerprint := field raw 64 32

/-- The last checks of `decode_record`. -/
def checkDeclaredIdentity (record : DeclaredRecord) : Except InstallError Unit :=
  if record.kind = 1 then
    require (¬ (record.moduleId = 0 ∨ record.moduleVersion = 0)) InstallError.catalogModuleIdentity
  else if record.kind = 2 then
    require (record.IsRevocation ∧ record.signerKeyId ≠ List.replicate 16 0)
      InstallError.catalogRevocationIdentity
  else
    .error .catalogRecordKind

/-- `decode_record`. -/
def decodeDeclared (raw : List UInt8) : Except InstallError DeclaredRecord := do
  require (raw.length = installRecordSize) InstallError.catalogRecordSize
  require (field raw (installRecordBodySize + 4) 28 = List.replicate 28 0)
    InstallError.catalogRecordReserved
  require (crc32Update 0 (field raw 0 installRecordBodySize) =
    loadLe32 (byteAt raw) installRecordBodySize) InstallError.catalogRecordCrc
  require (field raw 0 4 = installRecordMagic ∧ loadLe16 (byteAt raw) 4 = installRecordVersion ∧
    loadLe32 (byteAt raw) 44 = 0) InstallError.catalogRecordIdentity
  require (loadLe32 (byteAt raw) 8 ≠ 0) InstallError.invalidCatalogSequence
  let state ← orElse (InstallState.ofUInt32? (loadLe32 (byteAt raw) 24)) .invalidInstallState
  let record := declaredOf raw state
  checkSlot "active_slot" record.activeSlot
  checkSlot "candidate_slot" record.candidateSlot
  checkDeclaredIdentity record
  return record

/-- `iter_valid_records`, at the declared types. -/
def iterDeclaredRecords (catalog : List UInt8) : List DeclaredRecord :=
  (List.range (catalog.length / installRecordSize)).filterMap fun i =>
    (decodeDeclared (field catalog (installRecordSize * i) installRecordSize)).toOption

/-! ### Records of the catalog -/

def RecordKind.toInt : RecordKind → ℤ
  | .state => 1
  | .revocation => 2

def ModuleSlot.toInt : ModuleSlot → ℤ
  | .a => 0
  | .b => 1
  | .none => slotNone

/-- A record of the catalog at the declared types. -/
def CatalogRecord.declare (record : CatalogRecord) : DeclaredRecord where
  kind := record.kind.toInt
  sequence := record.sequence
  moduleId := record.moduleId
  moduleVersion := record.moduleVersion
  minVersion := record.minVersion
  state := record.state
  activeSlot := record.activeSlot.toInt
  candidateSlot := record.candidateSlot.toInt
  failures := record.failures
  result := record.result
  signerKeyId := record.signerKeyId
  fingerprint := record.fingerprint

theorem ModuleSlot.toInt_eq (slot : ModuleSlot) : slot.toInt = (slot.toUInt32.toNat : ℤ) := by
  cases slot <;> rfl

theorem RecordKind.toInt_eq (kind : RecordKind) : kind.toInt = (kind.toUInt16.toNat : ℤ) := by
  cases kind <;> rfl

section Checks

variable {name : String} {value : ℤ} {allowNone : Bool} {u : Unit}

@[simp] theorem packU32_eq_ok {word : UInt32} :
    packU32 name value allowNone = .ok word ↔
      (0 ≤ value ∧ value ≤ 0xFFFFFFFF) ∧ UInt32.ofNat value.toNat = word := by
  rw [packU32]
  by_cases hnone : allowNone = true ∧ value = slotNone
  · rw [if_neg (not_not_intro hnone), hnone.2]
    simp [slotNone, pure, Except.pure]
  · rw [if_pos hnone]
    simp [except_bind_eq_ok, pure, Except.pure]

/-- A slot that passes the check is one of the three. -/
@[simp] theorem checkSlot_eq_ok : checkSlot name value = .ok u ↔ ∃ slot : ModuleSlot,
    value = slot.toInt := by
  rw [checkSlot, require_eq_ok]
  constructor
  · rintro (h | h | h)
    · exact ⟨.a, h⟩
    · exact ⟨.b, h⟩
    · exact ⟨.none, h⟩
  · rintro ⟨slot, rfl⟩
    cases slot <;> simp [ModuleSlot.toInt]

@[simp] theorem checkStateRecord_eq_ok {d : DeclaredRecord} :
    checkStateRecord d = .ok u ↔ (0 ≤ d.moduleId ∧ d.moduleId ≤ 0xFFFFFFFF) ∧
      ¬ (d.moduleId = 0 ∨ d.moduleVersion = 0) ∧ (∃ slot : ModuleSlot, d.activeSlot = slot.toInt) ∧
      ∃ slot : ModuleSlot, d.candidateSlot = slot.toInt := by
  simp [checkStateRecord, except_bind_eq_ok]

@[simp] theorem checkRevocationRecord_eq_ok {d : DeclaredRecord} :
    checkRevocationRecord d = .ok u ↔
      d.signerKeyId ≠ List.replicate 16 0 ∧ d.IsRevocation := by
  simp only [checkRevocationRecord, except_bind_eq_ok, require_eq_ok, exists_const]

end Checks

/-- What passes the checks of either side is a record of the catalog. -/
theorem exists_declare {d : DeclaredRecord} (hkind : ∃ kind : RecordKind, d.kind = kind.toInt)
    (hsequence : 0 ≤ d.sequence) (hid : 0 ≤ d.moduleId) (hversion : 0 ≤ d.moduleVersion)
    (hmin : 0 ≤ d.minVersion) (hactive : ∃ slot : ModuleSlot, d.activeSlot = slot.toInt)
    (hcandidate : ∃ slot : ModuleSlot, d.candidateSlot = slot.toInt) (hfailures : 0 ≤ d.failures)
    (hresult : 0 ≤ d.result) : ∃ record : CatalogRecord, d = record.declare := by
  obtain ⟨kind, hkind⟩ := hkind
  obtain ⟨active, hactive⟩ := hactive
  obtain ⟨candidate, hcandidate⟩ := hcandidate
  refine ⟨⟨kind, d.sequence.toNat, d.moduleId.toNat, d.moduleVersion.toNat, d.minVersion.toNat,
    d.state, active, candidate, d.failures.toNat, d.result.toNat, d.signerKeyId, d.fingerprint⟩, ?_⟩
  simp only [CatalogRecord.declare, Int.toNat_of_nonneg hsequence, Int.toNat_of_nonneg hid,
    Int.toNat_of_nonneg hversion, Int.toNat_of_nonneg hmin, Int.toNat_of_nonneg hfailures,
    Int.toNat_of_nonneg hresult, ← hkind, ← hactive, ← hcandidate]

theorem isRevocation_declare {record : CatalogRecord} :
    record.declare.IsRevocation ↔ IsRevocation record := by
  have hslot (slot : ModuleSlot) : slot.toInt = slotNone ↔ slot = .none := by
    cases slot <;> simp [ModuleSlot.toInt, slotNone]
  simp only [DeclaredRecord.IsRevocation, IsRevocation, CatalogRecord.declare, hslot,
    Int.natCast_eq_zero]

/-! ### Encoding -/

theorem declaredBody_declare (record : CatalogRecord) :
    declaredBody record.declare (recordWords record) = recordBody record := by
  have hkind : UInt16.ofNat record.kind.toInt.toNat = record.kind.toUInt16 := by
    cases record.kind <;> rfl
  rw [declaredBody, recordBody, recordStart, CatalogRecord.declare, hkind]

theorem natCast_le_word (n : ℕ) : (n : ℤ) ≤ 0xFFFFFFFF ↔ n ≤ 0xFFFFFFFF := by omega

theorem packWords_declare {record : CatalogRecord} {words : List UInt32} :
    packWords record.declare = .ok words ↔
      record.sequence ≤ 0xFFFFFFFF ∧ record.moduleId ≤ 0xFFFFFFFF ∧
        record.moduleVersion ≤ 0xFFFFFFFF ∧ record.minVersion ≤ 0xFFFFFFFF ∧
        record.failures ≤ 0xFFFFFFFF ∧ record.result ≤ 0xFFFFFFFF ∧
        recordWords record = words := by
  have hword (slot : ModuleSlot) : UInt32.ofNat slot.toInt.toNat = slot.toUInt32 := by
    cases slot <;> rfl
  have hslot (slot : ModuleSlot) : 0 ≤ slot.toInt ∧ slot.toInt ≤ 0xFFFFFFFF := by
    cases slot <;> decide
  simp only [packWords, except_bind_eq_ok, packU32_eq_ok, CatalogRecord.declare, hword, hslot,
    pure, Except.pure, Except.ok.injEq, Int.natCast_nonneg, true_and, natCast_le_word,
    Int.toNat_natCast, recordWords, and_self]
  grind

theorem checkEncodable_declare {record : CatalogRecord} :
    checkEncodable record.declare = .ok () ↔
      record.sequence ≠ 0 ∧ record.signerKeyId.length = 16 ∧ record.fingerprint.length = 32 ∧
        Identified record ∧ (record.kind = .state → record.moduleId ≤ 0xFFFFFFFF) := by
  rw [checkEncodable, Identified]
  cases hkind : record.kind with
  | state =>
    have hone : record.declare.kind = 1 := by
      rw [CatalogRecord.declare, hkind]
      rfl
    have htwo : ¬ record.declare.kind = 2 := by
      rw [hone]
      decide
    simp only [except_bind_eq_ok, require_eq_ok, exists_const, if_pos hone, if_neg htwo,
      checkStateRecord_eq_ok, pure, Except.pure]
    simp [CatalogRecord.declare, hkind, RecordKind.toInt]
    tauto
  | revocation =>
    have htwo : record.declare.kind = 2 := by
      rw [CatalogRecord.declare, hkind]
      rfl
    have hone : ¬ record.declare.kind = 1 := by
      rw [htwo]
      decide
    simp only [except_bind_eq_ok, require_eq_ok, exists_const, if_pos htwo, if_neg hone,
      checkRevocationRecord_eq_ok, isRevocation_declare, pure, Except.pure]
    simp [CatalogRecord.declare, hkind, RecordKind.toInt]

/-- Both encoders take the same records of the catalog. -/
theorem encodeDeclared_declare {record : CatalogRecord} {raw : List UInt8} :
    encodeDeclared record.declare = .ok raw ↔ encodeRecord record = .ok raw := by
  simp only [encodeDeclared, except_bind_eq_ok, pure, Except.pure, Except.ok.injEq]
  rw [encodeRecord_eq_ok_iff]
  constructor
  · rintro ⟨_, hchecks, words, hwords, rfl⟩
    obtain ⟨hsequence, hsigner, hfingerprint, hidentity, -⟩ := checkEncodable_declare.mp hchecks
    obtain ⟨h₁, h₂, h₃, h₄, h₅, h₆, rfl⟩ := packWords_declare.mp hwords
    refine ⟨⟨hsequence, hsigner, hfingerprint, hidentity, h₁, h₂, h₃, h₄, h₅, h₆⟩, ?_⟩
    rw [declaredBody_declare, recordBytes]
  · rintro ⟨h, rfl⟩
    refine ⟨(), checkEncodable_declare.mpr ⟨h.sequence_ne_zero, h.signer_length,
      h.fingerprint_length, h.identity, fun _ => h.moduleId_le⟩, recordWords record,
      packWords_declare.mpr ⟨h.sequence_le, h.moduleId_le, h.moduleVersion_le, h.minVersion_le,
        h.failures_le, h.result_le, rfl⟩, ?_⟩
    rw [declaredBody_declare, recordBytes]

/-- **What `encode_record` takes is a record of the catalog.** -/
theorem encodeDeclared_eq_ok_iff {d : DeclaredRecord} {raw : List UInt8} :
    encodeDeclared d = .ok raw ↔
      ∃ record : CatalogRecord, d = record.declare ∧ encodeRecord record = .ok raw := by
  constructor
  · intro h
    have hparts := h
    simp only [encodeDeclared, except_bind_eq_ok] at hparts
    obtain ⟨_, hchecks, words, hwords, -⟩ := hparts
    simp only [packWords, except_bind_eq_ok, packU32_eq_ok] at hwords
    obtain ⟨_, ⟨hsequence, -⟩, _, ⟨hid, -⟩, _, ⟨hversion, -⟩, _, ⟨hmin, -⟩, _, -, _, -, _,
      ⟨hfailures, -⟩, _, ⟨hresult, -⟩, -⟩ := hwords
    have hrecord : ∃ record : CatalogRecord, d = record.declare := by
      simp only [checkEncodable, except_bind_eq_ok, require_eq_ok] at hchecks
      obtain ⟨_, hkind, _, -, _, -, _, -, _, hstate, hrevocation⟩ := hchecks
      rcases hkind with hkind | hkind
      · rw [if_pos hkind] at hstate
        obtain ⟨-, -, hactive, hcandidate⟩ := checkStateRecord_eq_ok.mp hstate
        exact exists_declare ⟨.state, hkind⟩ hsequence.1 hid.1 hversion.1 hmin.1 hactive hcandidate
          hfailures.1 hresult.1
      · rw [if_pos hkind] at hrevocation
        obtain ⟨-, -, -, -, -, hactive, hcandidate, -⟩ :=
          checkRevocationRecord_eq_ok.mp hrevocation
        exact exists_declare ⟨.revocation, hkind⟩ hsequence.1 hid.1 hversion.1 hmin.1
          ⟨.none, hactive⟩ ⟨.none, hcandidate⟩ hfailures.1 hresult.1
    obtain ⟨record, rfl⟩ := hrecord
    exact ⟨record, rfl, encodeDeclared_declare.mp h⟩
  · rintro ⟨record, rfl, h⟩
    exact encodeDeclared_declare.mpr h

/-! ### Decoding -/

theorem checkDeclaredIdentity_declare {record : CatalogRecord} {u : Unit} :
    checkDeclaredIdentity record.declare = .ok u ↔ checkIdentity record = .ok u := by
  rw [checkIdentity_eq_ok_iff, Identified, checkDeclaredIdentity]
  cases hkind : record.kind with
  | state =>
    have hone : record.declare.kind = 1 := by
      rw [CatalogRecord.declare, hkind]
      rfl
    rw [if_pos hone, require_eq_ok]
    simp [CatalogRecord.declare]
  | revocation =>
    have htwo : record.declare.kind = 2 := by
      rw [CatalogRecord.declare, hkind]
      rfl
    rw [if_neg (by rw [htwo]; decide), if_pos htwo, require_eq_ok, isRevocation_declare]
    exact and_comm

theorem declaredOf_declare {raw : List UInt8} {kind : RecordKind} {state : InstallState}
    {activeSlot candidateSlot : ModuleSlot} (hkind : loadLe16 (byteAt raw) 6 = kind.toUInt16)
    (hactive : loadLe32 (byteAt raw) 28 = activeSlot.toUInt32)
    (hcandidate : loadLe32 (byteAt raw) 32 = candidateSlot.toUInt32) :
    declaredOf raw state = (recordOf raw kind state activeSlot candidateSlot).declare := by
  rw [declaredOf, hkind, hactive, hcandidate, CatalogRecord.declare, recordOf, RecordKind.toInt_eq,
    ModuleSlot.toInt_eq, ModuleSlot.toInt_eq]

/-- A word that passes `_slot` is a slot. -/
theorem exists_slot_of_toInt {word : UInt32} {slot : ModuleSlot}
    (h : (word.toNat : ℤ) = slot.toInt) : word = slot.toUInt32 := by
  rw [ModuleSlot.toInt_eq] at h
  exact UInt32.toNat_inj.mp (Int.ofNat_inj.mp h)

/-- **What `decode_record` returns is a record of the catalog.** -/
theorem decodeDeclared_eq_ok_iff {raw : List UInt8} {d : DeclaredRecord} :
    decodeDeclared raw = .ok d ↔
      ∃ record : CatalogRecord, d = record.declare ∧ decodeRecord raw = .ok record := by
  simp only [decodeDeclared, decodeRecord, except_bind_eq_ok, require_eq_ok, orElse_eq_ok,
    checkSlot_eq_ok, pure, Except.pure, Except.ok.injEq]
  constructor
  · rintro ⟨u₁, hlength, u₂, hzeros, u₃, hcrc, u₄, hstart, u₅, hsequence, state, hstate, u₆,
      ⟨active, hactive⟩, u₇, ⟨candidate, hcandidate⟩, u₈, hidentity, rfl⟩
    have hactive := exists_slot_of_toInt hactive
    have hcandidate := exists_slot_of_toInt hcandidate
    obtain ⟨kind, hkind⟩ : ∃ kind : RecordKind, loadLe16 (byteAt raw) 6 = kind.toUInt16 := by
      rw [checkDeclaredIdentity] at hidentity
      split_ifs at hidentity with hone htwo
      · exact ⟨.state, UInt16.toNat_inj.mp (Int.ofNat_inj.mp hone)⟩
      · exact ⟨.revocation, UInt16.toNat_inj.mp (Int.ofNat_inj.mp htwo)⟩
    rw [declaredOf_declare hkind hactive hcandidate] at hidentity ⊢
    refine ⟨_, rfl, u₁, hlength, u₂, hzeros, u₃, hcrc, u₄, hstart, u₅, hsequence, state, hstate,
      active, ?_, candidate, ?_, kind, ?_, u₈, checkDeclaredIdentity_declare.mp hidentity, rfl⟩
    · rw [hactive, ModuleSlot.ofUInt32?_toUInt32]
    · rw [hcandidate, ModuleSlot.ofUInt32?_toUInt32]
    · rw [hkind, RecordKind.ofUInt16?_toUInt16]
  · rintro ⟨record, rfl, u₁, hlength, u₂, hzeros, u₃, hcrc, u₄, hstart, u₅, hsequence, state, hstate,
      active, hactive, candidate, hcandidate, kind, hkind, u₈, hidentity, rfl⟩
    have hactive := ModuleSlot.eq_of_ofUInt32? hactive
    have hcandidate := ModuleSlot.eq_of_ofUInt32? hcandidate
    have hkind := RecordKind.eq_of_ofUInt16? hkind
    refine ⟨u₁, hlength, u₂, hzeros, u₃, hcrc, u₄, hstart, u₅, hsequence, state, hstate,
      (), ⟨active, ?_⟩, (), ⟨candidate, ?_⟩, u₈, ?_, ?_⟩
    · rw [declaredOf, hactive, ModuleSlot.toInt_eq]
    · rw [declaredOf, hcandidate, ModuleSlot.toInt_eq]
    · rw [declaredOf_declare hkind hactive hcandidate]
      exact checkDeclaredIdentity_declare.mpr hidentity
    · rw [declaredOf_declare hkind hactive hcandidate]

/-! ### The round trip -/

/-- Recovery reads the records of the catalog. -/
theorem iterDeclaredRecords_eq (catalog : List UInt8) :
    iterDeclaredRecords catalog = (iterValidRecords catalog).map CatalogRecord.declare := by
  have hone (raw : List UInt8) :
      (decodeDeclared raw).toOption = (decodeRecord raw).toOption.map CatalogRecord.declare := by
    cases hdeclared : decodeDeclared raw with
    | ok d =>
      obtain ⟨record, rfl, hrecord⟩ := decodeDeclared_eq_ok_iff.mp hdeclared
      rw [hrecord]
      rfl
    | error e =>
      cases hrecord : decodeRecord raw with
      | ok record =>
        rw [decodeDeclared_eq_ok_iff.mpr ⟨record, rfl, hrecord⟩] at hdeclared
        cases hdeclared
      | error e' => rfl
  rw [iterDeclaredRecords, iterValidRecords, List.map_filterMap]
  exact List.filterMap_congr fun i _ => hone _

/-- **The record codec round trip.** What `encode_record` returns has the size of a record and
decodes to the record, what decodes is the encoding of what it decodes to, and behind whole records
an encoded record is the next one that recovery reads. -/
theorem record_codec_round_trip :
    (∀ record raw, encodeDeclared record = .ok raw →
      raw.length = installRecordSize ∧ decodeDeclared raw = .ok record) ∧
    (∀ raw record, decodeDeclared raw = .ok record → encodeDeclared record = .ok raw) ∧
    ∀ record raw catalog, encodeDeclared record = .ok raw → installRecordSize ∣ catalog.length →
      iterDeclaredRecords (catalog ++ raw) = iterDeclaredRecords catalog ++ [record] := by
  have hencoded {record : DeclaredRecord} {raw : List UInt8} (h : encodeDeclared record = .ok raw) :
      ∃ typed : CatalogRecord, record = typed.declare ∧ Encodable typed ∧
        raw = recordBytes typed := by
    obtain ⟨typed, htyped, h⟩ := encodeDeclared_eq_ok_iff.mp h
    exact ⟨typed, htyped, encodeRecord_eq_ok_iff.mp h⟩
  refine ⟨?_, ?_, ?_⟩
  · intro record raw h
    obtain ⟨typed, rfl, hencodable, rfl⟩ := hencoded h
    exact ⟨hencodable.length,
      decodeDeclared_eq_ok_iff.mpr ⟨typed, rfl, decodeRecord_recordBytes hencodable⟩⟩
  · intro raw record h
    obtain ⟨typed, rfl, htyped⟩ := decodeDeclared_eq_ok_iff.mp h
    exact encodeDeclared_declare.mpr
      (encodeRecord_eq_ok_iff.mpr (decodeRecord_eq_ok_iff.mp htyped))
  · rintro record raw catalog h ⟨n, hn⟩
    obtain ⟨typed, rfl, hencodable, rfl⟩ := hencoded h
    rw [iterDeclaredRecords_eq, iterDeclaredRecords_eq, iterValidRecords_append hn,
      iterValidRecords_block hencodable.length, decodeRecord_recordBytes hencodable,
      List.map_append]
    rfl

/-- A revocation of one signer. -/
def sampleRevocation : CatalogRecord where
  kind := .revocation
  sequence := 1
  moduleId := 0
  moduleVersion := 0
  minVersion := 0
  state := .empty
  activeSlot := .none
  candidateSlot := .none
  failures := 0
  result := 0
  signerKeyId := List.replicate 16 1
  fingerprint := List.replicate 32 0

theorem encodable_sampleRevocation : Encodable sampleRevocation where
  sequence_ne_zero := by decide
  signer_length := by decide
  fingerprint_length := by decide
  identity := ⟨by decide, by decide⟩
  sequence_le := by decide
  moduleId_le := by decide
  moduleVersion_le := by decide
  minVersion_le := by decide
  failures_le := by decide
  result_le := by decide

theorem record_codec_round_trip_revocation :
    encodeDeclared sampleRevocation.declare = .ok (recordBytes sampleRevocation) ∧
      decodeDeclared (recordBytes sampleRevocation) = .ok sampleRevocation.declare ∧
      iterDeclaredRecords ([] ++ recordBytes sampleRevocation) =
        iterDeclaredRecords [] ++ [sampleRevocation.declare] := by
  have hencode : encodeDeclared sampleRevocation.declare = .ok (recordBytes sampleRevocation) :=
    encodeDeclared_declare.mpr (encodeRecord_eq_ok_iff.mpr ⟨encodable_sampleRevocation, rfl⟩)
  refine ⟨hencode, (record_codec_round_trip.1 _ _ hencode).2, ?_⟩
  exact record_codec_round_trip.2.2 _ _ [] hencode (Nat.dvd_zero _)

end Stm32SecurityLab.ModuleInstall
