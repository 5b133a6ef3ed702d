import Stm32SecurityLab.ModuleInstall.Installer

/-!
# What the operations of the module installer do

A flash whose catalog was only ever appended to whole records is a list of records and the contents
of the slots. On this level every operation is one of a few things, cut short or not, and `Effect`
lists them all with what the operation has checked when it does them. The rest of the development
looks at the operations through that list.

## Main definitions

* `Store` — the records and the slots
* `Holds` — the flash holds the store
* `Effect` — what an operation can make of a store

## Main results

* `verifyView_ok` — what a verified package satisfies
* `runCall_effect` — every call, however it ends, has one of the effects
-/

namespace Stm32SecurityLab.ModuleInstall

open Crash

/-! ### The store -/

theorem setSlot_apply (slots : ℕ → ModuleSlot → Option (List UInt8)) (moduleId : ℕ)
    (slot : ModuleSlot) (package : Option (List UInt8)) (id : ℕ) (other : ModuleSlot) :
    setSlot slots moduleId slot package id other =
      if id = moduleId ∧ other = slot then package else slots id other := by
  rw [setSlot]
  by_cases hid : id = moduleId
  · subst hid
    by_cases hslot : other = slot <;> simp [hslot]
  · simp [hid]

/-- The records of the catalog and the contents of the slots. -/
@[ext] structure Store where
  records : List CatalogRecord := []
  slots : ℕ → ModuleSlot → Option (List UInt8) := fun _ _ => none

namespace Store

/-- What recovery makes of the records. -/
def view (store : Store) : RecoveryView := viewOf store.records

/-- The sequence number of the next record. -/
def nextSequence (store : Store) : ℕ := (store.records.map CatalogRecord.sequence).foldl max 0 + 1

/-- One more record. -/
def append (store : Store) (record : CatalogRecord) : Store :=
  { store with records := store.records ++ [record] }

/-- One slot changed. -/
def set (store : Store) (moduleId : ℕ) (slot : ModuleSlot) (package : Option (List UInt8)) :
    Store :=
  { store with slots := setSlot store.slots moduleId slot package }

/-- The record `_append_state` appends. -/
def stateRecord (store : Store) (verified : VerifiedPackage) (state : InstallState)
    (activeSlot candidateSlot : ModuleSlot) (minVersion failures : ℕ) : CatalogRecord where
  kind := .state
  sequence := store.nextSequence
  moduleId := verified.moduleId
  moduleVersion := verified.moduleVersion
  minVersion := minVersion
  state := state
  activeSlot := activeSlot
  candidateSlot := candidateSlot
  failures := failures
  result := 0
  signerKeyId := verified.signerKeyId
  fingerprint := verified.fingerprint

/-- The record `remove_candidate` appends when nothing is confirmed. -/
def emptyRecord (store : Store) (moduleId : ℕ) (record : CatalogRecord) : CatalogRecord where
  kind := .state
  sequence := store.nextSequence
  moduleId := moduleId
  moduleVersion := record.moduleVersion
  minVersion := record.minVersion
  state := .empty
  activeSlot := .none
  candidateSlot := .none
  failures := record.failures
  result := 0
  signerKeyId := record.signerKeyId
  fingerprint := record.fingerprint

/-- The lowest version the module may have. -/
def floor (store : Store) (moduleId : ℕ) : ℕ := floorOf store.view moduleId

@[simp] theorem append_slots (store : Store) (record : CatalogRecord) :
    (store.append record).slots = store.slots := rfl

@[simp] theorem append_records (store : Store) (record : CatalogRecord) :
    (store.append record).records = store.records ++ [record] := rfl

@[simp] theorem set_records (store : Store) (moduleId : ℕ) (slot : ModuleSlot)
    (package : Option (List UInt8)) : (store.set moduleId slot package).records = store.records := rfl

@[simp] theorem set_view (store : Store) (moduleId : ℕ) (slot : ModuleSlot)
    (package : Option (List UInt8)) : (store.set moduleId slot package).view = store.view := rfl

@[simp] theorem set_nextSequence (store : Store) (moduleId : ℕ) (slot : ModuleSlot)
    (package : Option (List UInt8)) :
    (store.set moduleId slot package).nextSequence = store.nextSequence := rfl

@[simp] theorem append_view (store : Store) (record : CatalogRecord) :
    (store.append record).view = recoverStep store.view record := viewOf_append ..

theorem foldl_max_le {l : List ℕ} {n : ℕ} : n ≤ l.foldl max n ∧ ∀ x ∈ l, x ≤ l.foldl max n := by
  induction l generalizing n with
  | nil => simp
  | cons x l ih =>
    obtain ⟨h₁, h₂⟩ := ih (n := max n x)
    refine ⟨le_trans (le_max_left n x) h₁, ?_⟩
    intro y hy
    rcases List.mem_cons.mp hy with rfl | hy
    · exact le_trans (le_max_right n y) h₁
    · exact h₂ y hy

/-- The next sequence number is a new one. -/
theorem lt_nextSequence {store : Store} {record : CatalogRecord} (h : record ∈ store.records) :
    record.sequence < store.nextSequence :=
  Nat.lt_succ_of_le (foldl_max_le.2 _ (List.mem_map_of_mem h))

variable {store : Store} {record : CatalogRecord}

theorem sorted_append (h : Sorted store.records) (hsequence : record.sequence = store.nextSequence) :
    Sorted (store.append record).records := by
  rw [append_records, Sorted, List.pairwise_append]
  refine ⟨h, List.pairwise_singleton _ _, ?_⟩
  intro r hr s hs
  rw [List.mem_singleton.mp hs, hsequence]
  exact lt_nextSequence hr

/-- The latest record of a module after a record has been appended. -/
theorem append_latest (h : Sorted (store.append record).records) (moduleId : ℕ) :
    (store.append record).view.latestByModule moduleId =
      if ofModule moduleId record then some record else store.view.latestByModule moduleId := by
  rw [view, viewOf_latest h, view, viewOf_latest h.init, append_records, List.filter_append]
  by_cases hown : ofModule moduleId record <;> simp [hown]

/-- The newest confirmation of a module after a record has been appended. -/
theorem append_confirmed (h : Sorted (store.append record).records) (moduleId : ℕ) :
    (store.append record).view.confirmedByModule moduleId =
      if confirms moduleId record then some record
      else store.view.confirmedByModule moduleId := by
  rw [view, viewOf_confirmed h, view, viewOf_confirmed h.init, append_records, List.filter_append]
  by_cases hown : confirms moduleId record <;> simp [hown]

/-- The lowest version of a module after a record has been appended. -/
theorem append_floor (moduleId : ℕ) :
    (store.append record).floor moduleId =
      if ofModule moduleId record then max (store.floor moduleId) record.minVersion
      else store.floor moduleId := by
  rw [floor, append_view, floorOf_recoverStep]
  rfl

/-- A record with no more than the floor does not raise it. -/
theorem append_floor_eq {moduleId : ℕ} (h : record.minVersion ≤ store.floor moduleId) :
    (store.append record).floor moduleId = store.floor moduleId := by
  rw [append_floor]
  split
  · exact max_eq_left h
  · rfl

theorem append_revoked :
    (store.append record).view.revokedSigners =
      if record.kind = .revocation then insert record.signerKeyId store.view.revokedSigners
      else store.view.revokedSigners := by
  rw [append_view, revokedSigners_recoverStep]

theorem mem_of_latest (h : Sorted store.records) {moduleId : ℕ}
    (hlatest : store.view.latestByModule moduleId = some record) :
    record ∈ store.records ∧ ofModule moduleId record := by
  rw [view, viewOf_latest h] at hlatest
  exact List.mem_filter.mp (List.mem_of_getLast? hlatest)

theorem mem_of_confirmed (h : Sorted store.records) {moduleId : ℕ}
    (hconfirmed : store.view.confirmedByModule moduleId = some record) :
    record ∈ store.records ∧ confirms moduleId record := by
  rw [view, viewOf_confirmed h] at hconfirmed
  exact List.mem_filter.mp (List.mem_of_getLast? hconfirmed)

end Store

/-- The flash holds the store: its catalog was written record by record. -/
structure Holds (flash : SimulatedFlash) (store : Store) : Prop where
  catalog : flash.catalog = catalogBytes store.records
  slots : flash.slots = store.slots
  encodable : ∀ r ∈ store.records, Encodable r
  sorted : Sorted store.records

theorem Holds.empty : Holds {} {} where
  catalog := rfl
  slots := rfl
  encodable := fun _ h => by cases h
  sorted := .nil

theorem Holds.recover {flash : SimulatedFlash} {store : Store} (h : Holds flash store) :
    recoverCatalog flash.catalog = store.view := by
  rw [h.catalog, recoverCatalog_catalogBytes h.encodable]
  rfl

/-- The counters do not matter. -/
theorem Holds.congr {flash flash' : SimulatedFlash} {store : Store} (h : Holds flash store)
    (hcatalog : flash'.catalog = flash.catalog) (hslots : flash'.slots = flash.slots) :
    Holds flash' store :=
  ⟨hcatalog.trans h.catalog, hslots.trans h.slots, h.encodable, h.sorted⟩

theorem Holds.set {flash : SimulatedFlash} {store : Store} (h : Holds flash store)
    (moduleId : ℕ) (slot : ModuleSlot) (package : Option (List UInt8)) :
    Holds { flash with slots := setSlot flash.slots moduleId slot package }
      (store.set moduleId slot package) where
  catalog := h.catalog
  slots := by rw [h.slots]; rfl
  encodable := h.encodable
  sorted := h.sorted

theorem Holds.append {flash : SimulatedFlash} {store : Store} (h : Holds flash store)
    {record : CatalogRecord} (hrecord : Encodable record)
    (hsequence : record.sequence = store.nextSequence) :
    Holds { flash with catalog := flash.catalog ++ recordBytes record } (store.append record) where
  catalog := by
    rw [Store.append_records, catalogBytes_append, h.catalog]
    simp [catalogBytes]
  slots := h.slots
  encodable := by
    intro r hr
    rcases List.mem_append.mp hr with hr | hr
    · exact h.encodable r hr
    · rw [List.mem_singleton.mp hr]
      exact hrecord
  sorted := Store.sorted_append h.sorted hsequence

/-! ### Verified packages -/

section Verify

variable {crypto : ModuleCrypto} {installer : ModuleInstaller}

/-- What a verified package satisfies. -/
structure Verified (crypto : ModuleCrypto) (installer : ModuleInstaller) (view : RecoveryView)
    (package : List UInt8) (verified : VerifiedPackage) : Prop where
  signer : verified.signerKeyId = moduleSignerKeyId crypto installer
  notRevoked : verified.signerKeyId ∉ view.revokedSigners
  keyId : (unpack package).keyId = verified.signerKeyId
  fingerprint : verified.fingerprint = crypto.sha256 package
  moduleId : verified.moduleId = (unpack package).moduleId.toNat
  moduleVersion : verified.moduleVersion = (unpack package).moduleVersion.toNat
  moduleVersion_pos : 0 < verified.moduleVersion
  floor : floorOf view verified.moduleId ≤ verified.moduleVersion

theorem verifyView_ok {view : RecoveryView} {package : List UInt8} {expected : Option ℕ}
    {verified : VerifiedPackage}
    (h : verifyView crypto installer view package expected = .ok verified) :
    Verified crypto installer view package verified ∧
      ∀ moduleId ∈ expected, verified.moduleId = moduleId := by
  simp only [verifyView, except_bind_eq_ok, require_eq_ok, exists_const] at h
  obtain ⟨hrevoked, -, manifest, hparse, -, hexpected, hfloor, h⟩ := h
  obtain rfl := Except.ok.inj h
  have hparsed : parsePackage crypto package (some installer.modulePublicKey)
      installer.platformVersion installer.abiVersion 0 (some supportedInstallCapabilities) =
        .ok manifest := by
    revert hparse
    cases parsePackage crypto package (some installer.modulePublicKey)
      installer.platformVersion installer.abiVersion 0 (some supportedInstallCapabilities) with
    | ok m => exact fun h => congrArg Except.ok (Except.ok.inj h)
    | error e => exact fun h => (by cases h)
  obtain ⟨hheader, -, hversion, hkey⟩ := parsePackage_ok hparsed
  refine ⟨⟨rfl, hrevoked, ?_, rfl, by rw [← hheader], by rw [← hheader], ?_, hfloor⟩, hexpected⟩
  · rw [← hheader]
    exact hkey
  · exact Nat.pos_of_ne_zero fun hzero => hversion (UInt32.toNat_inj.mp hzero)

/-- The package in the slot of the module passes `verify_package`. -/
structure Uses (crypto : ModuleCrypto) (installer : ModuleInstaller) (store : Store) (moduleId : ℕ)
    (slot : ModuleSlot) (package : List UInt8) (verified : VerifiedPackage) : Prop where
  slot_ne : slot ≠ .none
  content : store.slots moduleId slot = some package
  verifies : verifyView crypto installer store.view package (some moduleId) = .ok verified

namespace Uses

variable {store : Store} {moduleId : ℕ} {slot : ModuleSlot} {package : List UInt8}
  {verified : VerifiedPackage}

theorem passes (h : Uses crypto installer store moduleId slot package verified) :
    Verified crypto installer store.view package verified :=
  (verifyView_ok h.verifies).1

theorem own (h : Uses crypto installer store moduleId slot package verified) :
    verified.moduleId = moduleId :=
  (verifyView_ok h.verifies).2 moduleId rfl

end Uses

end Verify

/-! ### Effects -/

section Effects

variable (crypto : ModuleCrypto) (installer : ModuleInstaller)

/-- The checks of `install` pass. -/
structure Installs (store : Store) (package : List UInt8) (verified : VerifiedPackage) : Prop where
  passes : Verified crypto installer store.view package verified
  idle : ∀ current ∈ store.view.latestByModule verified.moduleId,
    current.state ≠ .pending ∧ current.state ≠ .active
  newer : store.floor verified.moduleId < verified.moduleVersion

/-- The slot `install` writes. -/
def candidateOf (store : Store) (moduleId : ℕ) : ModuleSlot :=
  installSlot (confirmedSlot store.view moduleId)

/-- The first record of `install`. -/
def receivingStore (store : Store) (verified : VerifiedPackage) : Store :=
  store.append (store.stateRecord verified .receiving (confirmedSlot store.view verified.moduleId)
    (candidateOf store verified.moduleId) (store.floor verified.moduleId) 0)

/-- `install` after it has written the slot. -/
def writtenStore (store : Store) (verified : VerifiedPackage) (package : List UInt8) : Store :=
  (receivingStore store verified).set verified.moduleId (candidateOf store verified.moduleId)
    (some package)

/-- `install` with both records. -/
def installedStore (store : Store) (verified : VerifiedPackage) (package : List UInt8) : Store :=
  (writtenStore store verified package).append
    ((writtenStore store verified package).stateRecord verified .verified
      (confirmedSlot store.view verified.moduleId) (candidateOf store verified.moduleId)
      (store.floor verified.moduleId) 0)

/-- The first record of `activate`. -/
def pendingStore (store : Store) (verified : VerifiedPackage) (record : CatalogRecord) : Store :=
  store.append (store.stateRecord verified .pending record.activeSlot record.candidateSlot
    record.minVersion record.failures)

/-- `activate` with both records. -/
def activatedStore (store : Store) (verified : VerifiedPackage) (record : CatalogRecord) : Store :=
  (pendingStore store verified record).append
    ((pendingStore store verified record).stateRecord verified .active record.candidateSlot
      record.activeSlot record.minVersion record.failures)

/-- Everything that an operation can make of a store, whether it returns, raises or loses power. -/
inductive Effect : Op → Store → Store → Prop
  /-- It raised before it wrote anything, or had nothing to do. -/
  | nothing (op : Op) (store : Store) : Effect op store store
  | receiving {store : Store} {package : List UInt8} {verified : VerifiedPackage}
      (installs : Installs crypto installer store package verified) :
      Effect (.install package) store (receivingStore store verified)
  | written {store : Store} {package : List UInt8} {verified : VerifiedPackage}
      (installs : Installs crypto installer store package verified) :
      Effect (.install package) store (writtenStore store verified package)
  | installed {store : Store} {package : List UInt8} {verified : VerifiedPackage}
      (installs : Installs crypto installer store package verified) :
      Effect (.install package) store (installedStore store verified package)
  | pending {store : Store} {moduleId : ℕ} {record : CatalogRecord} {package : List UInt8}
      {verified : VerifiedPackage} (latest : store.view.latestByModule moduleId = some record)
      (state : record.state = .verified ∨ record.state = .rejected)
      (uses : Uses crypto installer store moduleId record.candidateSlot package verified) :
      Effect (.activate moduleId) store (pendingStore store verified record)
  | activated {store : Store} {moduleId : ℕ} {record : CatalogRecord} {package : List UInt8}
      {verified : VerifiedPackage} (latest : store.view.latestByModule moduleId = some record)
      (state : record.state = .verified ∨ record.state = .rejected)
      (uses : Uses crypto installer store moduleId record.candidateSlot package verified) :
      Effect (.activate moduleId) store (activatedStore store verified record)
  | confirmed {store : Store} {moduleId : ℕ} {record : CatalogRecord} {package : List UInt8}
      {verified : VerifiedPackage} (latest : store.view.latestByModule moduleId = some record)
      (state : record.state = .active)
      (uses : Uses crypto installer store moduleId record.activeSlot package verified) :
      Effect (.confirm moduleId) store
        (store.append (store.stateRecord verified .confirmed record.activeSlot .none
          (max record.minVersion verified.moduleVersion) 0))
  | rolledBack {store : Store} {moduleId : ℕ} {record confirmed : CatalogRecord}
      {package : List UInt8} {verified : VerifiedPackage}
      (latest : store.view.latestByModule moduleId = some record)
      (newest : store.view.confirmedByModule moduleId = some confirmed)
      (uses : Uses crypto installer store moduleId confirmed.activeSlot package verified) :
      Effect (.rollback moduleId) store
        (store.append (store.stateRecord verified .rejected confirmed.activeSlot
          (rollbackSlot record confirmed) (max record.minVersion confirmed.minVersion)
          (record.failures + 1)))
  | failed {store : Store} {moduleId : ℕ} {record : CatalogRecord} {package : List UInt8}
      {verified : VerifiedPackage} {state : InstallState}
      (latest : store.view.latestByModule moduleId = some record)
      (started : record.state = .pending ∨ record.state = .active)
      (uses : Uses crypto installer store moduleId (failingSlot record) package verified)
      (state_eq : state = .quarantined ∨ state = .rejected) :
      Effect (.recordInitializationResult moduleId false) store
        (store.append (store.stateRecord verified state (confirmedSlot store.view moduleId)
          (failingSlot record) record.minVersion (record.failures + 1)))
  | quarantined {store : Store} {moduleId : ℕ} {record : CatalogRecord} {package : List UInt8}
      {verified : VerifiedPackage} (latest : store.view.latestByModule moduleId = some record)
      (uses : Uses crypto installer store moduleId (packageSlot record) package verified) :
      Effect (.quarantine moduleId) store
        (store.append (store.stateRecord verified .quarantined (confirmedSlot store.view moduleId)
          (packageSlot record) record.minVersion record.failures))
  | erased {store : Store} {moduleId : ℕ} {record : CatalogRecord}
      (latest : store.view.latestByModule moduleId = some record)
      (slot_ne : record.candidateSlot ≠ .none) :
      Effect (.removeCandidate moduleId) store (store.set moduleId record.candidateSlot none)
  | reconfirmed {store : Store} {moduleId : ℕ} {record confirmed : CatalogRecord}
      {package : List UInt8} {verified : VerifiedPackage}
      (latest : store.view.latestByModule moduleId = some record)
      (slot_ne : record.candidateSlot ≠ .none)
      (newest : store.view.confirmedByModule moduleId = some confirmed)
      (uses : Uses crypto installer (store.set moduleId record.candidateSlot none) moduleId
        confirmed.activeSlot package verified) :
      Effect (.removeCandidate moduleId) store
        ((store.set moduleId record.candidateSlot none).append
          (store.stateRecord verified .confirmed confirmed.activeSlot .none record.minVersion 0))
  | emptied {store : Store} {moduleId : ℕ} {record : CatalogRecord}
      (latest : store.view.latestByModule moduleId = some record)
      (slot_ne : record.candidateSlot ≠ .none)
      (unconfirmed : store.view.confirmedByModule moduleId = none) :
      Effect (.removeCandidate moduleId) store
        ((store.set moduleId record.candidateSlot none).append (store.emptyRecord moduleId record))
  | revoked {store : Store} {signerKeyId : List UInt8} :
      Effect (.revokeSigner signerKeyId) store
        (store.append (revocationRecord store.nextSequence signerKeyId))

end Effects

/-! ### The parts of the operations -/

section Parts

variable {crypto : ModuleCrypto} {installer : ModuleInstaller} {flash : SimulatedFlash}
  {store : Store} {α : Type}

/-- One more write has been counted. -/
structure Ticks (flash flash' : SimulatedFlash) : Prop where
  failAfter : flash'.failAfter = flash.failAfter
  writeCount : flash'.writeCount = flash.writeCount + 1

theorem wp_afterPersistentWrite {Q : Unit → SimulatedFlash → Prop}
    {E : InstallError → SimulatedFlash → Prop} {C : SimulatedFlash → Prop}
    (hret : Q () { flash with writeCount := flash.writeCount + 1 })
    (hcut : flash.failAfter = some (flash.writeCount + 1) →
      C { flash with writeCount := flash.writeCount + 1 }) :
    wp afterPersistentWrite flash Q E C := by
  simp only [afterPersistentWrite, wp_bind, wp_modify, wp_get]
  rw [wp_ite]
  exact ⟨hcut, fun _ => hret⟩

theorem wp_recover {Q : RecoveryView → SimulatedFlash → Prop}
    {E : InstallError → SimulatedFlash → Prop} {C : SimulatedFlash → Prop} (h : Holds flash store)
    (hret : Q store.view flash) : wp recover flash Q E C := by
  simp only [recover, wp_bind, wp_get, wp_pure]
  rw [h.recover]
  exact hret

theorem wp_orElse {value : Option α} {error : InstallError} {Q : α → SimulatedFlash → Prop}
    {E : InstallError → SimulatedFlash → Prop} {C : SimulatedFlash → Prop}
    (hret : ∀ a, value = some a → Q a flash) (herr : ∀ e, E e flash) :
    wp (Prog.ofExcept (orElse value error) : Operation α) flash Q E C := by
  rw [wp_ofExcept]
  exact ⟨fun a ha => hret a (orElse_eq_ok.mp ha), fun e _ => herr e⟩

theorem wp_requireLatest {moduleId : ℕ} {Q : CatalogRecord → SimulatedFlash → Prop}
    {E : InstallError → SimulatedFlash → Prop} {C : SimulatedFlash → Prop} (h : Holds flash store)
    (hret : ∀ record, store.view.latestByModule moduleId = some record → Q record flash)
    (herr : ∀ e, E e flash) : wp (requireLatest moduleId) flash Q E C := by
  rw [requireLatest, wp_bind]
  exact wp_recover h (wp_orElse hret herr)

theorem wp_readSlotOrFail {moduleId : ℕ} {slot : ModuleSlot}
    {Q : List UInt8 → SimulatedFlash → Prop} {E : InstallError → SimulatedFlash → Prop}
    {C : SimulatedFlash → Prop} (h : Holds flash store)
    (hret : ∀ package, slot ≠ .none → store.slots moduleId slot = some package → Q package flash)
    (herr : ∀ e, E e flash) : wp (readSlotOrFail moduleId slot) flash Q E C := by
  simp only [readSlotOrFail, wp_bind, wp_check, wp_get]
  refine ⟨fun hslot => wp_orElse (fun package hpackage => ?_) herr, fun _ => herr _⟩
  rw [h.slots] at hpackage
  exact hret package hslot hpackage

theorem wp_verifyPackage {package : List UInt8} {expected : Option ℕ}
    {Q : VerifiedPackage → SimulatedFlash → Prop} {E : InstallError → SimulatedFlash → Prop}
    {C : SimulatedFlash → Prop} (h : Holds flash store)
    (hret : ∀ verified, verifyView crypto installer store.view package expected = .ok verified →
      Q verified flash)
    (herr : ∀ e, E e flash) :
    wp (verifyPackage crypto installer package expected) flash Q E C := by
  rw [verifyPackage, wp_bind]
  refine wp_recover h ?_
  rw [wp_ofExcept]
  exact ⟨hret, fun e _ => herr e⟩

/-- Reading a slot and verifying what is in it. -/
theorem wp_useSlot {moduleId : ℕ} {slot : ModuleSlot} {f : VerifiedPackage → Operation α}
    {Q : α → SimulatedFlash → Prop} {E : InstallError → SimulatedFlash → Prop}
    {C : SimulatedFlash → Prop} (h : Holds flash store)
    (hret : ∀ package verified, Uses crypto installer store moduleId slot package verified →
      wp (f verified) flash Q E C) (herr : ∀ e, E e flash) :
    wp (readSlotOrFail moduleId slot >>= fun package =>
      verifyPackage crypto installer package (some moduleId) >>= f) flash Q E C := by
  rw [wp_bind]
  refine wp_readSlotOrFail h (fun package hslot hcontent => ?_) herr
  rw [wp_bind]
  refine wp_verifyPackage h (fun verified hverifies => ?_) herr
  exact hret package verified ⟨hslot, hcontent, hverifies⟩

/-- Appending a record with the next sequence number. -/
theorem wp_appendRecord {record : ℕ → CatalogRecord} {Q : Unit → SimulatedFlash → Prop}
    {E : InstallError → SimulatedFlash → Prop} {C : SimulatedFlash → Prop} (h : Holds flash store)
    (hsequence : (record store.nextSequence).sequence = store.nextSequence)
    (hret : ∀ flash', Holds flash' (store.append (record store.nextSequence)) →
      Ticks flash flash' → Q () flash')
    (hcut : ∀ flash', Holds flash' (store.append (record store.nextSequence)) →
      Ticks flash flash' → flash'.failAfter = some flash'.writeCount → C flash')
    (herr : ∀ e, E e flash) :
    wp (nextSequence >>= fun sequence =>
      Prog.ofExcept (encodeRecord (record sequence)) >>= appendCatalog) flash Q E C := by
  rw [wp_bind, nextSequence, wp_bind]
  refine wp_recover h ?_
  simp only [wp_bind, wp_check, wp_pure]
  refine ⟨fun _ => ?_, fun _ => herr _⟩
  rw [show (store.view.records.map CatalogRecord.sequence).foldl max 0 + 1 = store.nextSequence by
    rw [Store.view, viewOf_records]; rfl]
  rw [wp_ofExcept]
  refine ⟨fun raw hraw => ?_, fun e _ => herr e⟩
  obtain ⟨hencodable, rfl⟩ := encodeRecord_eq_ok_iff.mp hraw
  have happend := h.append hencodable hsequence
  rw [appendCatalog, wp_bind, wp_modify]
  refine wp_afterPersistentWrite (hret _ (happend.congr rfl rfl) ⟨rfl, rfl⟩) fun hfail => ?_
  exact hcut _ (happend.congr rfl rfl) ⟨rfl, rfl⟩ hfail

theorem wp_appendState {verified : VerifiedPackage} {state : InstallState}
    {activeSlot candidateSlot : ModuleSlot} {minVersion failures : ℕ}
    {Q : Unit → SimulatedFlash → Prop} {E : InstallError → SimulatedFlash → Prop}
    {C : SimulatedFlash → Prop} (h : Holds flash store)
    (hret : ∀ flash', Holds flash' (store.append (store.stateRecord verified state activeSlot
      candidateSlot minVersion failures)) → Ticks flash flash' → Q () flash')
    (hcut : ∀ flash', Holds flash' (store.append (store.stateRecord verified state activeSlot
      candidateSlot minVersion failures)) → Ticks flash flash' →
      flash'.failAfter = some flash'.writeCount → C flash')
    (herr : ∀ e, E e flash) :
    wp (appendState verified state activeSlot candidateSlot minVersion failures) flash Q E C :=
  @wp_appendRecord flash store (fun sequence =>
    { kind := .state
      sequence := sequence
      moduleId := verified.moduleId
      moduleVersion := verified.moduleVersion
      minVersion := minVersion
      state := state
      activeSlot := activeSlot
      candidateSlot := candidateSlot
      failures := failures
      result := 0
      signerKeyId := verified.signerKeyId
      fingerprint := verified.fingerprint }) _ _ _ h rfl hret hcut herr

theorem wp_writeSlot {moduleId : ℕ} {slot : ModuleSlot} {package : List UInt8}
    {Q : Unit → SimulatedFlash → Prop} {E : InstallError → SimulatedFlash → Prop}
    {C : SimulatedFlash → Prop} (h : Holds flash store)
    (hret : ∀ flash', Holds flash' (store.set moduleId slot (some package)) →
      Ticks flash flash' → Q () flash')
    (hcut : ∀ flash', Holds flash' (store.set moduleId slot (some package)) →
      Ticks flash flash' → C flash')
    (herr : ∀ e, E e flash) : wp (writeSlot moduleId slot package) flash Q E C := by
  have hset := h.set moduleId slot (some package)
  simp only [writeSlot, wp_bind, wp_check, wp_modify]
  refine ⟨fun _ => ?_, fun _ => herr _⟩
  exact wp_afterPersistentWrite (hret _ (hset.congr rfl rfl) ⟨rfl, rfl⟩) fun _ =>
    hcut _ (hset.congr rfl rfl) ⟨rfl, rfl⟩

theorem wp_eraseSlot {moduleId : ℕ} {slot : ModuleSlot} {Q : Unit → SimulatedFlash → Prop}
    {E : InstallError → SimulatedFlash → Prop} {C : SimulatedFlash → Prop} (h : Holds flash store)
    (hret : ∀ flash', Holds flash' (store.set moduleId slot none) → Q () flash')
    (hcut : ∀ flash', Holds flash' (store.set moduleId slot none) → C flash')
    (herr : ∀ e, E e flash) : wp (eraseSlot moduleId slot) flash Q E C := by
  have hset := h.set moduleId slot none
  simp only [eraseSlot, wp_bind, wp_check, wp_modify]
  refine ⟨fun _ => ?_, fun _ => herr _⟩
  exact wp_afterPersistentWrite (hret _ (hset.congr rfl rfl)) fun _ => hcut _ (hset.congr rfl rfl)

end Parts

/-! ### The operations -/

section Operations

variable {crypto : ModuleCrypto} {installer : ModuleInstaller} {flash : SimulatedFlash}
  {store : Store}

/-- The flash holds what the operation has made of the store. -/
def After (crypto : ModuleCrypto) (installer : ModuleInstaller) (op : Op) (store : Store)
    (flash : SimulatedFlash) : Prop :=
  ∃ store', Effect crypto installer op store store' ∧ Holds flash store'

/-- However the program ends, it has had an effect of the operation. -/
def HasEffect {α : Type} (crypto : ModuleCrypto) (installer : ModuleInstaller) (op : Op)
    (program : Operation α) (flash : SimulatedFlash) (store : Store) : Prop :=
  wp program flash (fun _ => After crypto installer op store)
    (fun _ => After crypto installer op store) (After crypto installer op store)

theorem Holds.after (h : Holds flash store) (op : Op) : After crypto installer op store flash :=
  ⟨store, .nothing op store, h⟩

/-- An operation that ends in one record. -/
theorem hasEffect_appendState {op : Op} {verified : VerifiedPackage} {state : InstallState}
    {activeSlot candidateSlot : ModuleSlot} {minVersion failures : ℕ} (h : Holds flash store)
    (heffect : Effect crypto installer op store (store.append (store.stateRecord verified state
      activeSlot candidateSlot minVersion failures))) :
    HasEffect crypto installer op
      (appendState verified state activeSlot candidateSlot minVersion failures) flash store :=
  wp_appendState h (fun _ h' _ => ⟨_, heffect, h'⟩) (fun _ h' _ _ => ⟨_, heffect, h'⟩)
    fun _ => h.after op

/-- `install`: what it returns, and what is there when it is cut after its last write. -/
theorem wp_install {package : List UInt8} (h : Holds flash store) :
    wp (install crypto installer package) flash
      (fun verified flash' => Installs crypto installer store package verified ∧
        Holds flash' (installedStore store verified package))
      (fun _ => fun flash' => Holds flash' store ∨ ∃ verified,
        Installs crypto installer store package verified ∧
          (Holds flash' (receivingStore store verified) ∨
            Holds flash' (writtenStore store verified package)))
      (fun flash' => ∃ verified, Installs crypto installer store package verified ∧
        (Holds flash' (receivingStore store verified) ∨
          Holds flash' (writtenStore store verified package) ∨
          Holds flash' (installedStore store verified package) ∧
            flash.failAfter = some (flash.writeCount + 3))) := by
  rw [install, wp_bind]
  refine wp_verifyPackage h (fun verified hverifies => ?_) fun _ => .inl h
  have hverified := (verifyView_ok hverifies).1
  rw [wp_bind]
  refine wp_recover h ?_
  simp only [wp_bind, wp_check]
  refine ⟨fun hidle => ⟨fun hnewer => ?_, fun _ => .inl h⟩, fun _ => .inl h⟩
  have hinstalls : Installs crypto installer store package verified := by
    refine ⟨hverified, hidle, ?_⟩
    rcases hnewer with hzero | hlt
    · rw [Store.floor, floorOf, hzero]
      exact hverified.moduleVersion_pos
    · exact hlt
  refine wp_appendState h (fun flash₁ h₁ ht₁ => ?_)
    (fun flash₁ h₁ _ _ => ⟨verified, hinstalls, .inl h₁⟩) fun _ => .inl h
  refine wp_writeSlot h₁ (fun flash₂ h₂ ht₂ => ?_)
    (fun flash₂ h₂ _ => ⟨verified, hinstalls, .inr (.inl h₂)⟩)
    fun _ => .inr ⟨verified, hinstalls, .inl h₁⟩
  have hwritten : Holds flash₂ (writtenStore store verified package) := h₂
  rw [verifySlot, wp_bind]
  refine wp_readSlotOrFail hwritten (fun _ _ _ => ?_)
    fun _ => .inr ⟨verified, hinstalls, .inr hwritten⟩
  refine wp_verifyPackage hwritten (fun _ _ => ?_)
    fun _ => .inr ⟨verified, hinstalls, .inr hwritten⟩
  refine wp_appendState hwritten (fun flash₃ h₃ _ => ⟨hinstalls, h₃⟩) (fun flash₃ h₃ ht₃ hcut => ?_)
    fun _ => .inr ⟨verified, hinstalls, .inr hwritten⟩
  refine ⟨verified, hinstalls, .inr (.inr ⟨h₃, ?_⟩)⟩
  rw [ht₃.failAfter, ht₂.failAfter, ht₁.failAfter, ht₃.writeCount, ht₂.writeCount,
    ht₁.writeCount] at hcut
  exact hcut

theorem effect_install {package : List UInt8} (h : Holds flash store) :
    HasEffect crypto installer (.install package) (install crypto installer package) flash
      store := by
  refine (wp_install h).mono ?_ ?_ ?_
  · rintro verified flash' ⟨hinstalls, h'⟩
    exact ⟨_, .installed hinstalls, h'⟩
  · rintro _ flash' (h' | ⟨verified, hinstalls, h' | h'⟩)
    · exact h'.after _
    · exact ⟨_, .receiving hinstalls, h'⟩
    · exact ⟨_, .written hinstalls, h'⟩
  · rintro flash' ⟨verified, hinstalls, h' | h' | ⟨h', -⟩⟩
    · exact ⟨_, .receiving hinstalls, h'⟩
    · exact ⟨_, .written hinstalls, h'⟩
    · exact ⟨_, .installed hinstalls, h'⟩

theorem effect_activate {moduleId : ℕ} (h : Holds flash store) :
    HasEffect crypto installer (.activate moduleId) (activate crypto installer moduleId) flash
      store := by
  rw [HasEffect, activate, wp_bind]
  refine wp_requireLatest h (fun record hlatest => ?_) fun _ => h.after _
  rw [wp_bind, wp_check]
  refine ⟨fun hstate => wp_useSlot h (fun package verified huses => ?_) fun _ => h.after _,
    fun _ => h.after _⟩
  have hpending : Effect crypto installer (.activate moduleId) store
      (pendingStore store verified record) := .pending hlatest hstate huses
  rw [wp_bind]
  refine wp_appendState h (fun flash₁ h₁ _ => ?_) (fun flash₁ h₁ _ _ => ⟨_, hpending, h₁⟩)
    fun _ => h.after _
  have hactivated : Effect crypto installer (.activate moduleId) store
      (activatedStore store verified record) := .activated hlatest hstate huses
  exact wp_appendState h₁ (fun flash₂ h₂ _ => ⟨_, hactivated, h₂⟩)
    (fun flash₂ h₂ _ _ => ⟨_, hactivated, h₂⟩) fun _ => ⟨_, hpending, h₁⟩

theorem effect_confirm {moduleId : ℕ} (h : Holds flash store) :
    HasEffect crypto installer (.confirm moduleId) (confirm crypto installer moduleId) flash
      store := by
  rw [HasEffect, confirm, wp_bind]
  refine wp_requireLatest h (fun record hlatest => ?_) fun _ => h.after _
  rw [wp_bind, wp_check]
  refine ⟨fun hstate => wp_useSlot h (fun package verified huses => ?_) fun _ => h.after _,
    fun _ => h.after _⟩
  exact hasEffect_appendState h (.confirmed hlatest hstate huses)

theorem effect_rollback {moduleId : ℕ} (h : Holds flash store) :
    HasEffect crypto installer (.rollback moduleId) (rollback crypto installer moduleId) flash
      store := by
  rw [HasEffect, rollback, wp_bind]
  refine wp_requireLatest h (fun record hlatest => ?_) fun _ => h.after _
  rw [wp_bind]
  refine wp_recover h ?_
  rw [wp_bind]
  refine wp_orElse (fun confirmed hconfirmed => ?_) fun _ => h.after _
  refine wp_useSlot h (fun package verified huses => ?_) fun _ => h.after _
  exact hasEffect_appendState h (.rolledBack hlatest hconfirmed huses)

theorem effect_recordInitializationResult {moduleId : ℕ} {success : Bool} (h : Holds flash store) :
    HasEffect crypto installer (.recordInitializationResult moduleId success)
      (recordInitializationResult crypto installer moduleId success) flash store := by
  rw [HasEffect, recordInitializationResult, wp_bind]
  refine wp_requireLatest h (fun record hlatest => ?_) fun _ => h.after _
  rw [wp_bind, wp_check]
  refine ⟨fun hstarted => ?_, fun _ => h.after _⟩
  cases success with
  | true => exact h.after _
  | false =>
    rw [if_neg (by simp), wp_bind]
    refine wp_recover h ?_
    refine wp_useSlot h (fun package verified huses => ?_) fun _ => h.after _
    refine hasEffect_appendState h (.failed hlatest hstarted huses ?_)
    split
    · exact .inl rfl
    · exact .inr rfl

theorem effect_quarantine {moduleId : ℕ} (h : Holds flash store) :
    HasEffect crypto installer (.quarantine moduleId) (quarantine crypto installer moduleId) flash
      store := by
  rw [HasEffect, quarantine, wp_bind]
  refine wp_requireLatest h (fun record hlatest => ?_) fun _ => h.after _
  refine wp_useSlot h (fun package verified huses => ?_) fun _ => h.after _
  rw [wp_bind]
  refine wp_recover h ?_
  exact hasEffect_appendState h (.quarantined hlatest huses)

theorem effect_removeCandidate {moduleId : ℕ} (h : Holds flash store) :
    HasEffect crypto installer (.removeCandidate moduleId)
      (removeCandidate crypto installer moduleId) flash store := by
  rw [HasEffect, removeCandidate, wp_bind]
  refine wp_requireLatest h (fun record hlatest => ?_) fun _ => h.after _
  rw [wp_ite]
  refine ⟨fun _ => h.after _, fun hslot => ?_⟩
  have herased : Effect crypto installer (.removeCandidate moduleId) store
      (store.set moduleId record.candidateSlot none) := .erased hlatest hslot
  rw [wp_bind]
  refine wp_eraseSlot h (fun flash₁ h₁ => ?_) (fun flash₁ h₁ => ⟨_, herased, h₁⟩) fun _ => h.after _
  rw [wp_bind]
  refine wp_recover h₁ ?_
  rw [Store.set_view]
  rcases hconfirmed : store.view.confirmedByModule moduleId with _ | confirmed
  · have hemptied : Effect crypto installer (.removeCandidate moduleId) store
        ((store.set moduleId record.candidateSlot none).append
          (store.emptyRecord moduleId record)) := .emptied hlatest hslot hconfirmed
    exact wp_appendRecord h₁ rfl (fun flash₂ h₂ _ => ⟨_, hemptied, h₂⟩)
      (fun flash₂ h₂ _ _ => ⟨_, hemptied, h₂⟩) fun _ => ⟨_, herased, h₁⟩
  · refine wp_useSlot h₁ (fun package verified huses => ?_) fun _ => ⟨_, herased, h₁⟩
    have hreconfirmed := Effect.reconfirmed hlatest hslot hconfirmed huses
    exact wp_appendState h₁ (fun flash₂ h₂ _ => ⟨_, hreconfirmed, h₂⟩)
      (fun flash₂ h₂ _ _ => ⟨_, hreconfirmed, h₂⟩) fun _ => ⟨_, herased, h₁⟩

theorem effect_revokeSigner {signerKeyId : List UInt8} (h : Holds flash store) :
    HasEffect crypto installer (.revokeSigner signerKeyId) (revokeSigner signerKeyId) flash
      store := by
  rw [HasEffect, revokeSigner, wp_bind, wp_check]
  refine ⟨fun _ => ?_, fun _ => h.after _⟩
  exact @wp_appendRecord _ _ (fun sequence => revocationRecord sequence signerKeyId) _ _ _ h rfl
    (fun flash₁ h₁ _ => ⟨_, .revoked, h₁⟩) (fun flash₁ h₁ _ _ => ⟨_, .revoked, h₁⟩)
    fun _ => h.after _

theorem effect_run (op : Op) (h : Holds flash store) :
    HasEffect crypto installer op (op.run crypto installer) flash store := by
  cases op with
  | install package =>
    rw [HasEffect, Op.run, wp_bind]
    exact effect_install h
  | activate moduleId => exact effect_activate h
  | confirm moduleId => exact effect_confirm h
  | rollback moduleId => exact effect_rollback h
  | recordInitializationResult moduleId success => exact effect_recordInitializationResult h
  | quarantine moduleId => exact effect_quarantine h
  | removeCandidate moduleId => exact effect_removeCandidate h
  | revokeSigner signerKeyId => exact effect_revokeSigner h

/-- **Every call, however it ends, has one of the effects.** -/
theorem runCall_effect (h : Holds flash store) (call : Call) :
    ∃ store', Effect crypto call.installer call.op store store' ∧
      Holds (runCall crypto flash call) store' := by
  have hset : Holds (setPowerLossAfter flash call.failAfter) store := h.congr rfl rfl
  exact wp_state_iff.mp (effect_run call.op hset)

end Operations

end Stm32SecurityLab.ModuleInstall
