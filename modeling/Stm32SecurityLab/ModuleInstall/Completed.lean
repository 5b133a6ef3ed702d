import Stm32SecurityLab.ModuleInstall.Effect

/-!
# Operations that run to their end

`Effect` says what an operation may do. Here is when it does it: with the power on, with the package
accepted, and with room for one more record, each operation returns and has made the store that the
source means it to make.

At the end there are two small packages, for runs of the installer on concrete inputs.

## Main definitions

* `verifiedOf`, `Accepts` — the checks of a package that do not look at the catalog
* `Completes` — the operation returns and makes one store of another

## Main results

* `completes_install`, `completes_activate`, `completes_confirm`, `completes_rollback`,
  `completes_quarantine`, `completes_revokeSigner`
-/

namespace Stm32SecurityLab.ModuleInstall

open Crash

variable {crypto : ModuleCrypto} {installer : ModuleInstaller} {flash : SimulatedFlash}
  {store store' : Store} {package : List UInt8} {verified : VerifiedPackage}

/-! ### Accepted packages -/

/-- What `verify_package` returns for a package with this manifest. -/
def verifiedOf (crypto : ModuleCrypto) (installer : ModuleInstaller) (package : List UInt8)
    (manifest : Manifest) : VerifiedPackage where
  moduleId := manifest.header.moduleId.toNat
  moduleVersion := manifest.header.moduleVersion.toNat
  moduleType := manifest.header.moduleType
  signerKeyId := moduleSignerKeyId crypto installer
  fingerprint := crypto.sha256 package
  capabilities := manifest.capabilities
  manifest := manifest

/-- The checks of `verify_package` that do not look at the catalog. -/
structure Accepts (crypto : ModuleCrypto) (installer : ModuleInstaller) (package : List UInt8)
    (verified : VerifiedPackage) : Prop where
  separate : firmwareKeyId crypto installer ≠ some (moduleSignerKeyId crypto installer)
  parses : parsePackage crypto package (some installer.modulePublicKey) installer.platformVersion
    installer.abiVersion 0 (some supportedInstallCapabilities) = .ok verified.manifest
  type : verified.manifest.header.moduleType ∈ supportedModuleTypes
  verified_eq : verified = verifiedOf crypto installer package verified.manifest

/-- The checks that do look at the catalog. -/
structure Current (view : RecoveryView) (verified : VerifiedPackage) : Prop where
  notRevoked : verified.signerKeyId ∉ view.revokedSigners
  floor : floorOf view verified.moduleId ≤ verified.moduleVersion

theorem Accepts.verifyView (h : Accepts crypto installer package verified) {view : RecoveryView}
    (hcurrent : Current view verified) {expected : Option ℕ}
    (hexpected : ∀ moduleId ∈ expected, verified.moduleId = moduleId) :
    verifyView crypto installer view package expected = .ok verified := by
  obtain ⟨hseparate, hparse, htype, hverified⟩ := h
  obtain ⟨hrevoked, hfloor⟩ := hcurrent
  rw [hverified] at hrevoked hfloor hexpected
  simp only [ModuleInstall.verifyView, except_bind_eq_ok, require_eq_ok, exists_const]
  refine ⟨hrevoked, hseparate, verified.manifest, ?_, htype, hexpected, hfloor, ?_⟩
  · rw [hparse]
    rfl
  · exact congrArg Except.ok hverified.symm

/-- A record about an accepted package can be encoded, if its numbers are small enough. -/
theorem Accepts.encodable (h : Accepts crypto installer package verified) {state : InstallState}
    {activeSlot candidateSlot : ModuleSlot} {minVersion failures : ℕ}
    (hsequence : store.nextSequence ≤ 0xFFFFFFFF) (hminVersion : minVersion ≤ 0xFFFFFFFF)
    (hfailures : failures ≤ 0xFFFFFFFF) :
    Encodable (store.stateRecord verified state activeSlot candidateSlot minVersion failures) := by
  obtain ⟨-, hid, hversion, -⟩ := parsePackage_ok h.parses
  have hverified := h.verified_eq
  have hword : ∀ word : UInt32, word.toNat ≤ 0xFFFFFFFF := fun word =>
    Nat.le_of_lt_succ word.toNat_lt
  have hpos : ∀ word : UInt32, word ≠ 0 → word.toNat ≠ 0 := fun word hne hzero =>
    hne (UInt32.toNat_inj.mp hzero)
  refine ⟨Nat.succ_ne_zero _, ?_, ?_, ⟨?_, ?_⟩, hsequence, ?_, ?_, hminVersion, hfailures,
    Nat.zero_le _⟩
  · show verified.signerKeyId.length = 16
    rw [hverified]
    exact List.length_take_of_le (Eq.trans_ge (crypto.sha256_length _) (by decide))
  · show verified.fingerprint.length = 32
    rw [hverified]
    exact crypto.sha256_length _
  · show verified.moduleId ≠ 0
    rw [hverified]
    exact hpos _ hid
  · show verified.moduleVersion ≠ 0
    rw [hverified]
    exact hpos _ hversion
  · show verified.moduleId ≤ _
    rw [hverified]
    exact hword _
  · show verified.moduleVersion ≤ _
    rw [hverified]
    exact hword _

/-! ### The parts -/

section Parts

variable {α : Type} {Q : α → SimulatedFlash → Prop} {E : InstallError → SimulatedFlash → Prop}
  {C : SimulatedFlash → Prop}

theorem wp_ofExcept_ok {result : Except InstallError α} {a : α} (h : result = .ok a)
    (hret : Q a flash) : wp (Prog.ofExcept result) flash Q E C := by
  rw [h]
  exact hret

theorem wp_requireLatest_some {Q : CatalogRecord → SimulatedFlash → Prop} {moduleId : ℕ}
    {record : CatalogRecord} (h : Holds flash store)
    (hlatest : store.view.latestByModule moduleId = some record) (hret : Q record flash) :
    wp (requireLatest moduleId) flash Q E C := by
  rw [requireLatest, wp_bind]
  exact wp_recover h (wp_ofExcept_ok (orElse_eq_ok.mpr hlatest) hret)

theorem wp_verifyPackage_ok {Q : VerifiedPackage → SimulatedFlash → Prop} {expected : Option ℕ}
    (h : Holds flash store) (haccepts : Accepts crypto installer package verified)
    (hcurrent : Current store.view verified)
    (hexpected : ∀ moduleId ∈ expected, verified.moduleId = moduleId) (hret : Q verified flash) :
    wp (verifyPackage crypto installer package expected) flash Q E C := by
  rw [verifyPackage, wp_bind]
  exact wp_recover h (wp_ofExcept_ok (haccepts.verifyView hcurrent hexpected) hret)

/-- The slot holds a package that passes every check. -/
structure Good (crypto : ModuleCrypto) (installer : ModuleInstaller) (store : Store)
    (moduleId : ℕ) (slot : ModuleSlot) (package : List UInt8) (verified : VerifiedPackage) :
    Prop where
  slot_ne : slot ≠ .none
  content : store.slots moduleId slot = some package
  accepts : Accepts crypto installer package verified
  current : Current store.view verified
  own : verified.moduleId = moduleId

theorem wp_readSlotOrFail_some {Q : List UInt8 → SimulatedFlash → Prop} {moduleId : ℕ}
    {slot : ModuleSlot} (h : Holds flash store) (hslot : slot ≠ .none)
    (hcontent : store.slots moduleId slot = some package) (hret : Q package flash) :
    wp (readSlotOrFail moduleId slot) flash Q E C := by
  simp only [readSlotOrFail, wp_bind, wp_check, wp_get]
  refine ⟨fun _ => wp_ofExcept_ok (orElse_eq_ok.mpr ?_) hret, fun hno => absurd hslot hno⟩
  rw [h.slots]
  exact hcontent

theorem wp_useSlot_good {moduleId : ℕ} {slot : ModuleSlot} {f : VerifiedPackage → Operation α}
    (h : Holds flash store) (hgood : Good crypto installer store moduleId slot package verified)
    (hret : wp (f verified) flash Q E C) :
    wp (readSlotOrFail moduleId slot >>= fun package =>
      verifyPackage crypto installer package (some moduleId) >>= f) flash Q E C := by
  rw [wp_bind]
  refine wp_readSlotOrFail_some h hgood.slot_ne hgood.content ?_
  rw [wp_bind]
  refine wp_verifyPackage_ok h hgood.accepts hgood.current (fun moduleId' hid => ?_) hret
  obtain rfl := Option.mem_some_iff.mp hid
  exact hgood.own

/-- There is room for the record. -/
theorem wp_appendRecord_room {Q : Unit → SimulatedFlash → Prop} {record : ℕ → CatalogRecord}
    (h : Holds flash store) (hfail : flash.failAfter = none)
    (hsequence : (record store.nextSequence).sequence = store.nextSequence)
    (hroom : Encodable (record store.nextSequence))
    (hret : ∀ flash', Holds flash' (store.append (record store.nextSequence)) →
      flash'.failAfter = none → Q () flash') :
    wp (nextSequence >>= fun sequence =>
      Prog.ofExcept (encodeRecord (record sequence)) >>= appendCatalog) flash Q E C := by
  have hnext : (store.view.records.map CatalogRecord.sequence).foldl max 0 + 1 =
      store.nextSequence := by
    rw [Store.view, viewOf_records]
    rfl
  have hlimit : store.nextSequence ≤ 0xFFFFFFFF := hsequence.symm.trans_le hroom.sequence_le
  rw [wp_bind, nextSequence, wp_bind]
  refine wp_recover h ?_
  simp only [wp_bind, wp_check, wp_pure]
  refine ⟨fun _ => ?_, fun hno => absurd (.inr (by omega)) hno⟩
  rw [hnext]
  refine wp_ofExcept_ok (encodeRecord_eq_ok_iff.mpr ⟨hroom, rfl⟩) ?_
  have happend := h.append hroom hsequence
  rw [appendCatalog, wp_bind, wp_modify]
  refine wp_afterPersistentWrite (hret _ (happend.congr rfl rfl) hfail) fun hcut => ?_
  rw [show _ = none from hfail] at hcut
  cases hcut

theorem wp_appendState_room {Q : Unit → SimulatedFlash → Prop} {state : InstallState}
    {activeSlot candidateSlot : ModuleSlot} {minVersion failures : ℕ} (h : Holds flash store)
    (hfail : flash.failAfter = none)
    (hroom : Encodable (store.stateRecord verified state activeSlot candidateSlot minVersion
      failures))
    (hret : ∀ flash', Holds flash' (store.append (store.stateRecord verified state activeSlot
      candidateSlot minVersion failures)) → flash'.failAfter = none → Q () flash') :
    wp (appendState verified state activeSlot candidateSlot minVersion failures) flash Q E C :=
  @wp_appendRecord_room flash store E C Q (fun sequence =>
    { kind := .state
      sequence := sequence
      moduleId := verified.moduleId
      moduleVersion := verified.moduleVersion
      minVersion := minVersion
      state := state
      activeSlot := activeSlot
      candidateSlot := candidateSlot
      failures := failures
      result := 0
      signerKeyId := verified.signerKeyId
      fingerprint := verified.fingerprint }) h hfail rfl hroom hret

theorem wp_writeSlot_on {Q : Unit → SimulatedFlash → Prop} {moduleId : ℕ} {slot : ModuleSlot}
    (h : Holds flash store) (hfail : flash.failAfter = none) (hslot : slot ≠ .none)
    (hret : ∀ flash', Holds flash' (store.set moduleId slot (some package)) →
      flash'.failAfter = none → Q () flash') :
    wp (writeSlot moduleId slot package) flash Q E C := by
  have hset := h.set moduleId slot (some package)
  simp only [writeSlot, wp_bind, wp_check, wp_modify]
  refine ⟨fun _ => ?_, fun hno => absurd hslot hno⟩
  refine wp_afterPersistentWrite (hret _ (hset.congr rfl rfl) hfail) fun hcut => ?_
  rw [show _ = none from hfail] at hcut
  cases hcut

end Parts

/-! ### The operations -/

/-- With the power on, the operation returns and makes `store'` of `store`. -/
def Completes (crypto : ModuleCrypto) (installer : ModuleInstaller) (op : Op)
    (store store' : Store) : Prop :=
  ∀ flash, Holds flash store → flash.failAfter = none →
    wp (op.run crypto installer) flash (fun _ flash' => Holds flash' store') (fun _ _ => False)
      (fun _ => False)

theorem Completes.outcome {op : Op} (hcompletes : Completes crypto installer op store store')
    (h : Holds flash store) :
    ∃ flash', (Call.mk installer op none).outcome crypto flash = .ret () flash' ∧
      Holds flash' store' := by
  have hset : Holds (setPowerLossAfter flash none) store := h.congr rfl rfl
  have hspec := hcompletes _ hset rfl
  rw [wp] at hspec
  rw [Call.outcome]
  split at hspec
  · rename_i u flash' hret
    exact ⟨flash', hret, hspec⟩
  · exact hspec.elim
  · exact hspec.elim

theorem Completes.runCall {op : Op} (hcompletes : Completes crypto installer op store store')
    (h : Holds flash store) : Holds (runCall crypto flash ⟨installer, op, none⟩) store' := by
  obtain ⟨flash', hret, h'⟩ := hcompletes.outcome h
  rw [ModuleInstall.runCall, hret]
  exact h'

/-- `install` returns. -/
theorem completes_install (haccepts : Accepts crypto installer package verified)
    (hcurrent : Current store.view verified)
    (hidle : ∀ current ∈ store.view.latestByModule verified.moduleId,
      current.state ≠ .pending ∧ current.state ≠ .active)
    (hnewer : store.floor verified.moduleId = 0 ∨
      store.floor verified.moduleId < verified.moduleVersion)
    (hroom : Encodable (store.stateRecord verified .receiving
      (confirmedSlot store.view verified.moduleId) (candidateOf store verified.moduleId)
      (store.floor verified.moduleId) 0))
    (hroom' : Encodable ((writtenStore store verified package).stateRecord verified .verified
      (confirmedSlot store.view verified.moduleId) (candidateOf store verified.moduleId)
      (store.floor verified.moduleId) 0)) :
    Completes crypto installer (.install package) store
      (installedStore store verified package) := by
  intro flash h hfail
  have hslot : candidateOf store verified.moduleId ≠ .none := by
    rw [candidateOf]
    cases confirmedSlot store.view verified.moduleId <;> decide
  rw [Op.run, wp_bind, install, wp_bind]
  refine wp_verifyPackage_ok h haccepts hcurrent (fun _ hno => by cases hno) ?_
  rw [wp_bind]
  refine wp_recover h ?_
  simp only [wp_bind, wp_check, wp_pure]
  refine ⟨fun _ => ⟨fun _ => ?_, fun hno => absurd hnewer hno⟩, fun hno => absurd hidle hno⟩
  refine wp_appendState_room h hfail hroom fun flash₁ h₁ hfail₁ => ?_
  refine wp_writeSlot_on h₁ hfail₁ hslot fun flash₂ h₂ hfail₂ => ?_
  have hwritten : Holds flash₂ (writtenStore store verified package) := h₂
  -- the record before the slot was written has not raised the floor
  have hcurrent' : Current (writtenStore store verified package).view verified := by
    refine ⟨?_, ?_⟩
    · rw [writtenStore, Store.set_view, receivingStore, Store.append_revoked,
        if_neg (fun hkind => by cases hkind)]
      exact hcurrent.notRevoked
    · exact Eq.trans_le (Store.append_floor_eq le_rfl) hcurrent.floor
  have hcontent : (writtenStore store verified package).slots verified.moduleId
      (candidateOf store verified.moduleId) = some package :=
    (setSlot_apply ..).trans (if_pos ⟨rfl, rfl⟩)
  rw [verifySlot, wp_bind]
  refine wp_readSlotOrFail_some hwritten hslot hcontent ?_
  refine wp_verifyPackage_ok hwritten haccepts hcurrent' (fun moduleId hid => ?_) ?_
  · exact Option.some.inj hid
  · exact wp_appendState_room hwritten hfail₂ hroom' fun flash₃ h₃ _ => h₃

/-- `activate` returns. -/
theorem completes_activate {moduleId : ℕ} {record : CatalogRecord}
    (hlatest : store.view.latestByModule moduleId = some record)
    (hstate : record.state = .verified ∨ record.state = .rejected)
    (hgood : Good crypto installer store moduleId record.candidateSlot package verified)
    (hroom : Encodable (store.stateRecord verified .pending record.activeSlot record.candidateSlot
      record.minVersion record.failures))
    (hroom' : Encodable ((pendingStore store verified record).stateRecord verified .active
      record.candidateSlot record.activeSlot record.minVersion record.failures)) :
    Completes crypto installer (.activate moduleId) store
      (activatedStore store verified record) := by
  intro flash h hfail
  rw [Op.run, activate, wp_bind]
  refine wp_requireLatest_some h hlatest ?_
  rw [wp_bind, wp_check]
  refine ⟨fun _ => wp_useSlot_good h hgood ?_, fun hno => absurd hstate hno⟩
  rw [wp_bind]
  refine wp_appendState_room h hfail hroom fun flash₁ h₁ hfail₁ => ?_
  exact wp_appendState_room h₁ hfail₁ hroom' fun flash₂ h₂ _ => h₂

/-- `confirm` returns. -/
theorem completes_confirm {moduleId : ℕ} {record : CatalogRecord}
    (hlatest : store.view.latestByModule moduleId = some record) (hstate : record.state = .active)
    (hgood : Good crypto installer store moduleId record.activeSlot package verified)
    (hroom : Encodable (store.stateRecord verified .confirmed record.activeSlot .none
      (max record.minVersion verified.moduleVersion) 0)) :
    Completes crypto installer (.confirm moduleId) store
      (store.append (store.stateRecord verified .confirmed record.activeSlot .none
        (max record.minVersion verified.moduleVersion) 0)) := by
  intro flash h hfail
  rw [Op.run, confirm, wp_bind]
  refine wp_requireLatest_some h hlatest ?_
  rw [wp_bind, wp_check]
  refine ⟨fun _ => wp_useSlot_good h hgood ?_, fun hno => absurd hstate hno⟩
  exact wp_appendState_room h hfail hroom fun flash₁ h₁ _ => h₁

/-- `rollback` returns. -/
theorem completes_rollback {moduleId : ℕ} {record confirmed : CatalogRecord}
    (hlatest : store.view.latestByModule moduleId = some record)
    (hconfirmed : store.view.confirmedByModule moduleId = some confirmed)
    (hgood : Good crypto installer store moduleId confirmed.activeSlot package verified)
    (hroom : Encodable (store.stateRecord verified .rejected confirmed.activeSlot
      (rollbackSlot record confirmed) (max record.minVersion confirmed.minVersion)
      (record.failures + 1))) :
    Completes crypto installer (.rollback moduleId) store
      (store.append (store.stateRecord verified .rejected confirmed.activeSlot
        (rollbackSlot record confirmed) (max record.minVersion confirmed.minVersion)
        (record.failures + 1))) := by
  intro flash h hfail
  rw [Op.run, rollback, wp_bind]
  refine wp_requireLatest_some h hlatest ?_
  rw [wp_bind]
  refine wp_recover h ?_
  rw [wp_bind]
  refine wp_ofExcept_ok (orElse_eq_ok.mpr hconfirmed) (wp_useSlot_good h hgood ?_)
  exact wp_appendState_room h hfail hroom fun flash₁ h₁ _ => h₁

/-- `quarantine` returns. -/
theorem completes_quarantine {moduleId : ℕ} {record : CatalogRecord}
    (hlatest : store.view.latestByModule moduleId = some record)
    (hgood : Good crypto installer store moduleId (packageSlot record) package verified)
    (hroom : Encodable (store.stateRecord verified .quarantined
      (confirmedSlot store.view moduleId) (packageSlot record) record.minVersion
      record.failures)) :
    Completes crypto installer (.quarantine moduleId) store
      (store.append (store.stateRecord verified .quarantined (confirmedSlot store.view moduleId)
        (packageSlot record) record.minVersion record.failures)) := by
  intro flash h hfail
  rw [Op.run, quarantine, wp_bind]
  refine wp_requireLatest_some h hlatest (wp_useSlot_good h hgood ?_)
  rw [wp_bind]
  refine wp_recover h ?_
  exact wp_appendState_room h hfail hroom fun flash₁ h₁ _ => h₁

theorem encodable_revocationRecord {sequence : ℕ} {signerKeyId : List UInt8}
    (hpos : sequence ≠ 0) (hle : sequence ≤ 0xFFFFFFFF) (hlength : signerKeyId.length = 16)
    (hzero : signerKeyId ≠ List.replicate 16 0) :
    Encodable (revocationRecord sequence signerKeyId) where
  sequence_ne_zero := hpos
  signer_length := hlength
  fingerprint_length := rfl
  identity := ⟨hzero, rfl, rfl, rfl, rfl, rfl, rfl, rfl, rfl, rfl⟩
  sequence_le := hle
  moduleId_le := Nat.zero_le _
  moduleVersion_le := Nat.zero_le _
  minVersion_le := Nat.zero_le _
  failures_le := Nat.zero_le _
  result_le := Nat.zero_le _

/-- `revoke_signer` returns. -/
theorem completes_revokeSigner {signerKeyId : List UInt8} (hlength : signerKeyId.length = 16)
    (hroom : Encodable (revocationRecord store.nextSequence signerKeyId)) :
    Completes crypto installer (.revokeSigner signerKeyId) store
      (store.append (revocationRecord store.nextSequence signerKeyId)) := by
  intro flash h hfail
  rw [Op.run, revokeSigner, wp_bind, wp_check]
  refine ⟨fun _ => ?_, fun hno => absurd hlength hno⟩
  exact @wp_appendRecord_room flash store _ _ _
    (fun sequence => revocationRecord sequence signerKeyId) h hfail rfl hroom
    fun flash₁ h₁ _ => h₁

/-! ### Two small packages

Versions 1 and 2 of a module with one byte of payload. The digests and the signatures are the real
ones, for a key made for the purpose. -/

def moduleKey : List UInt8 :=
  [0x3D, 0x40, 0x17, 0xC3, 0xE8, 0x43, 0x89, 0x5A, 0x92, 0xB7, 0x0A, 0xA7, 0x4D, 0x1B, 0x7E, 0xBC,
    0x9C, 0x98, 0x2C, 0xCF, 0x2E, 0xC4, 0x96, 0x8C, 0xC0, 0xCD, 0x55, 0xF1, 0x2A, 0xF4, 0x66,
    0x0C]

/-- SHA-256 of the key. -/
def moduleKeyDigest : List UInt8 :=
  [0x39, 0xF7, 0x13, 0xD0, 0xA6, 0x44, 0x25, 0x3F, 0x04, 0x52, 0x94, 0x21, 0xB9, 0xF5, 0x1B, 0x9B,
    0x08, 0x97, 0x9D, 0x08, 0x29, 0x59, 0x59, 0xC4, 0xF3, 0x99, 0x0E, 0xE6, 0x17, 0xF5, 0x13,
    0x9F]

/-- SHA-512 of the payload. -/
def smallPayloadHash : List UInt8 :=
  [0xB8, 0x24, 0x4D, 0x02, 0x89, 0x81, 0xD6, 0x93, 0xAF, 0x7B, 0x45, 0x6A, 0xF8, 0xEF, 0xA4, 0xCA,
    0xD6, 0x3D, 0x28, 0x2E, 0x19, 0xFF, 0x14, 0x94, 0x2C, 0x24, 0x6E, 0x50, 0xD9, 0x35, 0x1D,
    0x22, 0x70, 0x4A, 0x80, 0x2A, 0x71, 0xC3, 0x58, 0x0B, 0x63, 0x70, 0xDE, 0x4C, 0xEB, 0x29,
    0x3C, 0x32, 0x4A, 0x84, 0x23, 0x34, 0x25, 0x57, 0xD4, 0xE5, 0xC3, 0x84, 0x38, 0xF0, 0xE3,
    0x69, 0x10, 0xEE]

/-- The header of a package with one byte of payload. -/
def smallHeader (version crc : UInt32) (signature : List UInt8) : Header where
  magic := moduleMagic
  formatVersion := formatVersion
  headerSize := 240
  totalSize := 241
  moduleId := 0x7001
  moduleVersion := version
  minPlatform := 1
  abiVersion := 1
  moduleType := typeBytecode
  flags := 0
  codeSize := 1
  rodataSize := 0
  dataSize := 0
  bssSize := 0
  stackSize := 0
  entryOffset := 0
  capabilityOffset := 240
  capabilitySize := 0
  payloadOffset := 240
  payloadSize := 1
  payloadHash := smallPayloadHash
  keyId := moduleKeyDigest.take 16
  headerCrc32 := crc
  signature := signature
  reserved := List.replicate 16 0

def firstSignature : List UInt8 :=
  [0x12, 0xDD, 0x00, 0xDB, 0xB8, 0x9B, 0xB1, 0x69, 0xC9, 0x1E, 0x46, 0x75, 0x91, 0x4B, 0x94, 0x82,
    0xA3, 0xB6, 0x0F, 0xE5, 0xEF, 0x47, 0xAA, 0xD8, 0xC2, 0x8D, 0x54, 0x5E, 0x27, 0xF1, 0xD0,
    0x28, 0x85, 0x89, 0x20, 0xCC, 0xBE, 0xCC, 0xF2, 0xCA, 0x24, 0x05, 0x96, 0x06, 0x7A, 0x98,
    0x87, 0x14, 0xD2, 0x74, 0x00, 0xAF, 0x5C, 0x41, 0x9B, 0x10, 0x6F, 0xDC, 0xE3, 0xE6, 0x5C,
    0xEB, 0x3D, 0x00]

def secondSignature : List UInt8 :=
  [0xC8, 0x97, 0x60, 0x4A, 0x0D, 0xEB, 0xAD, 0xAF, 0xBA, 0xDA, 0x6A, 0x4E, 0x77, 0xB3, 0x4E, 0x0B,
    0x42, 0x85, 0x65, 0xDB, 0xFE, 0x75, 0x07, 0x5E, 0x52, 0x2F, 0x3D, 0xE1, 0x74, 0x53, 0x94,
    0xF9, 0x5D, 0x81, 0x04, 0x70, 0x1D, 0x64, 0x6D, 0x95, 0x38, 0xEB, 0x35, 0x9E, 0xD6, 0x79,
    0x3C, 0x86, 0x2F, 0x5B, 0xCE, 0x06, 0xD6, 0x6E, 0x69, 0x8C, 0x7A, 0x74, 0x3A, 0x9E, 0x9A,
    0xF2, 0xB3, 0x06]

def firstHeader : Header := smallHeader 1 0x136B8198 firstSignature

def secondHeader : Header := smallHeader 2 0xCD12465D secondSignature

/-- A header and its payload. -/
def packageOf (header : Header) : List UInt8 :=
  packHeader header header.headerCrc32 header.signature ++ [0]

def firstPackage : List UInt8 := packageOf firstHeader

def secondPackage : List UInt8 := packageOf secondHeader

def firstFingerprint : List UInt8 :=
  [0x7E, 0xB4, 0x72, 0x57, 0x50, 0x64, 0x86, 0x2E, 0xBD, 0x7A, 0x6B, 0xEC, 0xD7, 0x98, 0xBB, 0x4F,
    0x8E, 0x80, 0x7E, 0x47, 0xD5, 0x31, 0x57, 0xE2, 0xE5, 0x08, 0xE9, 0x39, 0x31, 0xD4, 0xE5,
    0x19]

def secondFingerprint : List UInt8 :=
  [0xC8, 0x4C, 0x6D, 0xCB, 0x4D, 0x46, 0x2E, 0x8D, 0xAC, 0x3D, 0x4C, 0x6F, 0xE6, 0xA8, 0x9C, 0x86,
    0x53, 0x59, 0xA1, 0xD6, 0x06, 0x61, 0x59, 0x71, 0x41, 0xE0, 0x13, 0x6E, 0xFA, 0x6F, 0x96,
    0x61]

/-- The hash functions and the signature check at the bytes above. -/
def smallCrypto : ModuleCrypto where
  sha256 data :=
    if data = moduleKey then moduleKeyDigest
    else if data = firstPackage then firstFingerprint
    else if data = secondPackage then secondFingerprint
    else List.replicate 32 0
  sha512 data := if data = [0] then smallPayloadHash else List.replicate 64 0
  verify publicKey signed signature :=
    decide (publicKey = moduleKey ∧
      ((signed = headerForSignature firstHeader ++ [0] ∧ signature = firstSignature) ∨
        (signed = headerForSignature secondHeader ++ [0] ∧ signature = secondSignature)))
  sha256_length data := by
    split
    · rfl
    · split
      · rfl
      · split <;> rfl
  sha512_length data := by split <;> rfl

/-- An installer with the key and the defaults. -/
def smallInstaller : ModuleInstaller where
  modulePublicKey := moduleKey
  modulePublicKey_length := rfl
  firmwarePublicKey_length := fun _ h => by cases h

def firstVerified : VerifiedPackage :=
  verifiedOf smallCrypto smallInstaller firstPackage ⟨firstHeader, []⟩

def secondVerified : VerifiedPackage :=
  verifiedOf smallCrypto smallInstaller secondPackage ⟨secondHeader, []⟩

theorem accepts_first : Accepts smallCrypto smallInstaller firstPackage firstVerified where
  separate := fun h => by cases h
  parses := by decide +kernel
  type := by decide
  verified_eq := rfl

theorem accepts_second : Accepts smallCrypto smallInstaller secondPackage secondVerified where
  separate := fun h => by cases h
  parses := by decide +kernel
  type := by decide
  verified_eq := rfl

/-- A record about a small package. -/
def smallRecord (verified : VerifiedPackage) (sequence : ℕ) (state : InstallState)
    (activeSlot candidateSlot : ModuleSlot) (minVersion : ℕ) : CatalogRecord where
  kind := .state
  sequence := sequence
  moduleId := verified.moduleId
  moduleVersion := verified.moduleVersion
  minVersion := minVersion
  state := state
  activeSlot := activeSlot
  candidateSlot := candidateSlot
  failures := 0
  result := 0
  signerKeyId := verified.signerKeyId
  fingerprint := verified.fingerprint

/-- The first package has been installed. -/
def firstInstalled : Store := installedStore {} firstVerified firstPackage

/-- The first package has been activated. -/
def firstActive : Store :=
  activatedStore firstInstalled firstVerified (smallRecord firstVerified 2 .verified .none .a 0)

/-- The first package has been confirmed. -/
def firstConfirmed : Store :=
  firstActive.append (firstActive.stateRecord firstVerified .confirmed .a .none 1 0)

/-- The second package has been installed beside it. -/
def secondInstalled : Store := installedStore firstConfirmed secondVerified secondPackage

/-- A call of the small installer that is not interrupted. -/
def smallCall (op : Op) : Call := ⟨smallInstaller, op, none⟩

/-- The first package is installed and activated. -/
def firstCalls : List Call := [smallCall (.install firstPackage), smallCall (.activate 0x7001)]

/-- It is confirmed, and the second is installed. -/
def secondCalls : List Call :=
  firstCalls ++ [smallCall (.confirm 0x7001)] ++ [smallCall (.install secondPackage)]

theorem holds_firstCalls : Holds (runCalls smallCrypto {} firstCalls) firstActive := by
  have hinstall : Completes smallCrypto smallInstaller (.install firstPackage) {}
      firstInstalled :=
    completes_install accepts_first ⟨by decide, by decide⟩ (fun _ hno => by cases hno)
      (.inl rfl) (accepts_first.encodable (by decide) (by decide) (by decide))
      (accepts_first.encodable (by decide) (by decide) (by decide))
  have hactivate : Completes smallCrypto smallInstaller (.activate 0x7001) firstInstalled
      firstActive :=
    completes_activate rfl (.inl rfl)
      ⟨by decide, rfl, accepts_first, ⟨by decide, by decide⟩, rfl⟩
      (accepts_first.encodable (by decide) (by decide) (by decide))
      (accepts_first.encodable (by decide) (by decide) (by decide))
  rw [firstCalls, runCalls, List.foldl_cons, List.foldl_cons, List.foldl_nil]
  exact hactivate.runCall (hinstall.runCall .empty)

theorem completes_firstConfirm :
    Completes smallCrypto smallInstaller (.confirm 0x7001) firstActive firstConfirmed :=
  @completes_confirm _ _ _ _ _ _ (smallRecord firstVerified 4 .active .a .none 0) rfl rfl
    ⟨by decide, rfl, accepts_first, ⟨by decide, by decide⟩, rfl⟩
    (accepts_first.encodable (by decide) (by decide) (by decide))

theorem holds_secondCalls : Holds (runCalls smallCrypto {} secondCalls) secondInstalled := by
  have hinstall : Completes smallCrypto smallInstaller (.install secondPackage) firstConfirmed
      secondInstalled :=
    completes_install accepts_second ⟨by decide, by decide⟩
      (fun current hcurrent => by
        obtain rfl := Option.some.inj hcurrent
        exact ⟨by decide, by decide⟩)
      (.inr (by decide)) (accepts_second.encodable (by decide) (by decide) (by decide))
      (accepts_second.encodable (by decide) (by decide) (by decide))
  rw [secondCalls, runCalls, List.foldl_append, List.foldl_append, List.foldl_cons,
    List.foldl_nil, List.foldl_cons, List.foldl_nil]
  exact hinstall.runCall (completes_firstConfirm.runCall holds_firstCalls)

end Stm32SecurityLab.ModuleInstall
