import Stm32SecurityLab.ModuleInstall.Completed

/-!
# Version floors and revoked signers

Every record but the one that empties a module is about a package that has just been verified, and
verification looks at the floor and at the revocations. So the floor of a module only ever grows,
nothing below it is written down, and a signer that has been revoked does not come back.

The floor is a maximum over all records of a module. An operation may write down less than the
floor it has found; what counts is that a confirmation is never above it afterwards. For the one
confirmation that does not raise the floor itself, the one `remove_candidate` repeats, this rests on
the slot of the confirmed package not having been written since.

## Main definitions

* `History` — what holds of the records of every catalog
* `Kept` — the confirmed slot still holds the version that was confirmed

## Main results

* `module_floor_monotone` — floors over every run
* `revocation_permanent` — revocations over every run
-/

namespace Stm32SecurityLab.ModuleInstall

open Crash

/-! ### Lists of records -/

theorem eq_append_cons_iff {α : Type} {xs pre post : List α} {a r : α}
    (h : xs ++ [a] = pre ++ r :: post) :
    (∃ post', post = post' ++ [a] ∧ xs = pre ++ r :: post') ∨ (pre = xs ∧ r = a ∧ post = []) := by
  rcases List.eq_nil_or_concat post with rfl | ⟨post', b, rfl⟩
  · obtain ⟨rfl, hr⟩ := List.append_inj' h rfl
    exact .inr ⟨rfl, (List.cons.inj hr).1.symm, rfl⟩
  · rw [List.concat_eq_append, ← List.cons_append, ← List.append_assoc] at h
    obtain ⟨rfl, hb⟩ := List.append_inj' h rfl
    obtain rfl := (List.cons.inj hb).1
    exact .inl ⟨post', List.concat_eq_append, rfl⟩

/-- A floor only grows. -/
theorem floorOf_le_append (records tail : List CatalogRecord) (moduleId : ℕ) :
    floorOf (viewOf records) moduleId ≤ floorOf (viewOf (records ++ tail)) moduleId := by
  induction tail using List.reverseRecOn with
  | nil => rw [List.append_nil]
  | append_singleton tail record ih =>
    rw [← List.append_assoc, viewOf_append, floorOf_recoverStep]
    split
    · exact le_trans ih (le_max_left _ _)
    · exact ih

theorem minVersion_le_floorOf {records : List CatalogRecord} {record : CatalogRecord}
    {moduleId : ℕ} (h : record ∈ records) (hown : ofModule moduleId record) :
    record.minVersion ≤ floorOf (viewOf records) moduleId := by
  obtain ⟨pre, post, rfl⟩ := List.append_of_mem h
  have hgrow := floorOf_le_append (pre ++ [record]) post moduleId
  rw [List.append_assoc] at hgrow
  refine le_trans ?_ hgrow
  rw [viewOf_append, floorOf_recoverStep, if_pos hown]
  exact le_max_right _ _

/-! ### Histories -/

/-- What an operation sees to when it appends a record. -/
structure Admits (store : Store) (record : CatalogRecord) : Prop where
  sequence : record.sequence = store.nextSequence
  version : record.kind = .state → record.state ≠ .empty →
    store.floor record.moduleId ≤ record.moduleVersion
  confirmation : record.state = .confirmed →
    record.moduleVersion ≤ max (store.floor record.moduleId) record.minVersion

/-- What holds of the records of every catalog. -/
structure History (store : Store) : Prop where
  sorted : Sorted store.records
  confirmed_le : ∀ moduleId, ∀ r ∈ store.records, confirms moduleId r →
    r.moduleVersion ≤ store.floor moduleId
  confirmed_sorted : ∀ moduleId,
    ((store.records.filter (confirms moduleId)).map CatalogRecord.moduleVersion).Pairwise (· ≤ ·)
  guarded : ∀ pre r post, store.records = pre ++ r :: post → r.kind = .state → r.state ≠ .empty →
    floorOf (viewOf pre) r.moduleId ≤ r.moduleVersion

/-- The confirmed slot holds the version that was confirmed, or nothing. -/
def Kept (store : Store) : Prop :=
  ∀ moduleId confirmed package, store.view.confirmedByModule moduleId = some confirmed →
    store.slots moduleId confirmed.activeSlot = some package →
    (unpack package).moduleVersion.toNat = confirmed.moduleVersion

theorem History.empty : History {} where
  sorted := .nil
  confirmed_le := fun _ _ h => by cases h
  confirmed_sorted := fun _ => .nil
  guarded := fun pre r post h => by simp at h

theorem Kept.empty : Kept {} := fun _ _ _ h => by cases h

theorem confirms_iff {moduleId : ℕ} {record : CatalogRecord} :
    confirms moduleId record ↔
      record.kind = .state ∧ record.moduleId = moduleId ∧ record.state = .confirmed := by
  simp [confirms, ofModule, and_assoc]

theorem ofModule_iff {moduleId : ℕ} {record : CatalogRecord} :
    ofModule moduleId record ↔ record.kind = .state ∧ record.moduleId = moduleId := by
  simp [ofModule]

variable {crypto : ModuleCrypto} {installer : ModuleInstaller} {store store' : Store}
  {record : CatalogRecord}

theorem Store.floor_le_append (moduleId : ℕ) :
    store.floor moduleId ≤ (store.append record).floor moduleId :=
  floorOf_le_append store.records [record] moduleId

/-- **One record.** -/
theorem History.append (h : History store) (hadmits : Admits store record) :
    History (store.append record) where
  sorted := Store.sorted_append h.sorted hadmits.sequence
  confirmed_le := by
    intro moduleId r hr hconfirms
    rcases List.mem_append.mp hr with hr | hr
    · exact le_trans (h.confirmed_le moduleId r hr hconfirms) (Store.floor_le_append moduleId)
    · obtain rfl := List.mem_singleton.mp hr
      obtain ⟨hkind, rfl, hstate⟩ := confirms_iff.mp hconfirms
      rw [Store.append_floor, if_pos (ofModule_iff.mpr ⟨hkind, rfl⟩)]
      exact hadmits.confirmation hstate
  confirmed_sorted := by
    intro moduleId
    rw [Store.append_records, List.filter_append, List.map_append, List.pairwise_append]
    refine ⟨h.confirmed_sorted moduleId, ?_, ?_⟩
    · cases hown : confirms moduleId record <;> simp [hown]
    · intro v hv w hw
      obtain ⟨r, hr, rfl⟩ := List.mem_map.mp hv
      obtain ⟨s, hs, rfl⟩ := List.mem_map.mp hw
      obtain ⟨hmem, hconfirms⟩ := List.mem_filter.mp hr
      obtain ⟨hs, hconfirms'⟩ := List.mem_filter.mp hs
      obtain rfl := List.mem_singleton.mp hs
      obtain ⟨hkind, rfl, hstate⟩ := confirms_iff.mp hconfirms'
      refine le_trans (h.confirmed_le _ r hmem hconfirms) (hadmits.version hkind ?_)
      rw [hstate]
      decide
  guarded := by
    intro pre r post hsplit hkind hstate
    rcases eq_append_cons_iff hsplit with ⟨post', -, hsplit'⟩ | ⟨rfl, rfl, -⟩
    · exact h.guarded pre r post' hsplit' hkind hstate
    · exact hadmits.version hkind hstate

theorem History.set (h : History store) (moduleId : ℕ) (slot : ModuleSlot)
    (package : Option (List UInt8)) : History (store.set moduleId slot package) :=
  ⟨h.sorted, h.confirmed_le, h.confirmed_sorted, h.guarded⟩

/-- A record about a package that has been verified on this store. -/
theorem admits_stateRecord {package : List UInt8} {verified : VerifiedPackage}
    {state : InstallState} {activeSlot candidateSlot : ModuleSlot} {minVersion failures : ℕ}
    (h : Verified crypto installer store.view package verified)
    (hconfirmed : state = .confirmed →
      verified.moduleVersion ≤ max (store.floor verified.moduleId) minVersion) :
    Admits store (store.stateRecord verified state activeSlot candidateSlot minVersion failures)
    where
  sequence := rfl
  version := fun _ _ => h.floor
  confirmation := hconfirmed

/-- A record that repeats the floor leaves what is verified verified. -/
theorem admits_second {other : Store} {verified : VerifiedPackage} {state : InstallState}
    {activeSlot candidateSlot : ModuleSlot} {minVersion failures : ℕ}
    (hfloor : other.floor verified.moduleId = store.floor verified.moduleId)
    (hversion : store.floor verified.moduleId ≤ verified.moduleVersion)
    (hstate : state ≠ .confirmed) :
    Admits other (other.stateRecord verified state activeSlot candidateSlot minVersion failures)
    where
  sequence := rfl
  version := fun _ _ => by
    show other.floor verified.moduleId ≤ _
    rw [hfloor]
    exact hversion
  confirmation := fun h => absurd h hstate

theorem latest_minVersion_le (h : History store) {moduleId : ℕ}
    (hlatest : store.view.latestByModule moduleId = some record) :
    record.minVersion ≤ store.floor moduleId := by
  obtain ⟨hmem, hown⟩ := Store.mem_of_latest h.sorted hlatest
  exact minVersion_le_floorOf hmem hown

/-! ### The confirmed slot -/

theorem installSlot_ne (slot : ModuleSlot) : installSlot slot ≠ slot := by cases slot <;> decide

theorem confirmedSlot_eq {moduleId : ℕ}
    (h : store.view.confirmedByModule moduleId = some record) :
    confirmedSlot store.view moduleId = record.activeSlot := by
  rw [confirmedSlot, h]

/-- An installation does not go to the slot of the confirmed package. -/
theorem candidateOf_ne {moduleId : ℕ} (h : store.view.confirmedByModule moduleId = some record) :
    candidateOf store moduleId ≠ record.activeSlot := by
  rw [candidateOf, confirmedSlot_eq h]
  exact installSlot_ne _

theorem Kept.append (h : Kept store) (hsorted : Sorted (store.append record).records)
    (hrecord : record.state = .confirmed → ∀ package,
      store.slots record.moduleId record.activeSlot = some package →
        (unpack package).moduleVersion.toNat = record.moduleVersion) :
    Kept (store.append record) := by
  intro moduleId confirmed package hconfirmed hpackage
  rw [Store.append_confirmed hsorted] at hconfirmed
  split at hconfirmed
  · rename_i hown
    obtain rfl := Option.some.inj hconfirmed
    obtain ⟨-, rfl, hstate⟩ := confirms_iff.mp hown
    exact hrecord hstate package hpackage
  · exact h moduleId confirmed package hconfirmed hpackage

theorem Kept.set (h : Kept store) {moduleId : ℕ} {slot : ModuleSlot}
    {package : Option (List UInt8)}
    (hslot : package = none ∨ ∀ confirmed,
      store.view.confirmedByModule moduleId = some confirmed → slot ≠ confirmed.activeSlot) :
    Kept (store.set moduleId slot package) := by
  intro id confirmed content hconfirmed hcontent
  rw [show (store.set moduleId slot package).slots id confirmed.activeSlot = _ from
    setSlot_apply ..] at hcontent
  split at hcontent
  · rename_i heq
    obtain ⟨rfl, hactive⟩ := heq
    rcases hslot with rfl | hne
    · cases hcontent
    · exact absurd hactive.symm (hne confirmed hconfirmed)
  · exact h id confirmed content hconfirmed hcontent

/-- A confirmation of what stands in the slot. -/
theorem Kept.confirm (h : Kept store) {moduleId : ℕ} {slot : ModuleSlot} {package : List UInt8}
    {verified : VerifiedPackage} {state : InstallState} {candidateSlot : ModuleSlot}
    {minVersion failures : ℕ} (hsorted : Sorted store.records)
    (huses : Uses crypto installer store moduleId slot package verified) :
    Kept (store.append (store.stateRecord verified state slot candidateSlot minVersion
      failures)) := by
  refine h.append (Store.sorted_append hsorted rfl) fun _ content hcontent => ?_
  have hsame : store.slots moduleId slot = some content := by rw [← huses.own]; exact hcontent
  rw [huses.content] at hsame
  obtain rfl := Option.some.inj hsame
  exact huses.passes.moduleVersion.symm

theorem Kept.other (h : Kept store) {verified : VerifiedPackage} {state : InstallState}
    {activeSlot candidateSlot : ModuleSlot} {minVersion failures : ℕ}
    (hsorted : Sorted store.records) (hstate : state ≠ .confirmed) :
    Kept (store.append (store.stateRecord verified state activeSlot candidateSlot minVersion
      failures)) :=
  h.append (Store.sorted_append hsorted rfl) fun hconfirmed => absurd hconfirmed hstate

/-! ### One operation -/

theorem history_install {package : List UInt8} {verified : VerifiedPackage}
    (hinstalls : Installs crypto installer store package verified) (h : History store)
    (hkept : Kept store) :
    History (receivingStore store verified) ∧ Kept (receivingStore store verified) ∧
      History (writtenStore store verified package) ∧ Kept (writtenStore store verified package) ∧
      History (installedStore store verified package) ∧
      Kept (installedStore store verified package) := by
  have hreceiving : History (receivingStore store verified) :=
    h.append (admits_stateRecord hinstalls.passes fun hstate => by cases hstate)
  have hkeptReceiving : Kept (receivingStore store verified) := hkept.other h.sorted (by decide)
  have hwritten : History (writtenStore store verified package) := hreceiving.set _ _ _
  have hkeptWritten : Kept (writtenStore store verified package) := by
    refine hkeptReceiving.set (.inr fun confirmed hconfirmed => candidateOf_ne ?_)
    rw [receivingStore, Store.append_confirmed hreceiving.sorted, if_neg] at hconfirmed
    · exact hconfirmed
    · rw [confirms_iff]
      rintro ⟨-, -, hstate⟩
      cases hstate
  have hfloor : (writtenStore store verified package).floor verified.moduleId =
      store.floor verified.moduleId := Store.append_floor_eq le_rfl
  refine ⟨hreceiving, hkeptReceiving, hwritten, hkeptWritten, ?_, ?_⟩
  · exact hwritten.append (admits_second hfloor hinstalls.passes.floor (by decide))
  · exact hkeptWritten.other hwritten.sorted (by decide)

theorem history_activate {moduleId : ℕ} {package : List UInt8} {verified : VerifiedPackage}
    (hlatest : store.view.latestByModule moduleId = some record)
    (huses : Uses crypto installer store moduleId record.candidateSlot package verified)
    (h : History store) (hkept : Kept store) :
    History (pendingStore store verified record) ∧ Kept (pendingStore store verified record) ∧
      History (activatedStore store verified record) ∧
      Kept (activatedStore store verified record) := by
  have hpending : History (pendingStore store verified record) :=
    h.append (admits_stateRecord huses.passes fun hstate => by cases hstate)
  have hkeptPending : Kept (pendingStore store verified record) := hkept.other h.sorted (by decide)
  have hmin : record.minVersion ≤ store.floor verified.moduleId := by
    rw [huses.own]
    exact latest_minVersion_le h hlatest
  have hfloor : (pendingStore store verified record).floor verified.moduleId =
      store.floor verified.moduleId := Store.append_floor_eq hmin
  refine ⟨hpending, hkeptPending, ?_, ?_⟩
  · exact hpending.append (admits_second hfloor huses.passes.floor (by decide))
  · exact hkeptPending.other hpending.sorted (by decide)

/-- **One operation.** -/
theorem Effect.history {op : Op} (heffect : Effect crypto installer op store store')
    (h : History store) (hkept : Kept store) : History store' ∧ Kept store' := by
  cases heffect with
  | nothing => exact ⟨h, hkept⟩
  | receiving installs =>
    have hall := history_install installs h hkept
    exact ⟨hall.1, hall.2.1⟩
  | written installs =>
    have hall := history_install installs h hkept
    exact ⟨hall.2.2.1, hall.2.2.2.1⟩
  | installed installs => exact (history_install installs h hkept).2.2.2.2
  | pending latest state uses =>
    have hall := history_activate latest uses h hkept
    exact ⟨hall.1, hall.2.1⟩
  | activated latest state uses => exact (history_activate latest uses h hkept).2.2
  | confirmed latest state uses =>
    refine ⟨h.append (admits_stateRecord uses.passes fun _ => ?_), hkept.confirm h.sorted uses⟩
    exact le_trans (le_max_right _ _) (le_max_right _ _)
  | rolledBack latest newest uses =>
    exact ⟨h.append (admits_stateRecord uses.passes fun hstate => by cases hstate),
      hkept.other h.sorted (by decide)⟩
  | @failed _ moduleId record package verified state latest started uses state_eq =>
    have hstate : state ≠ .confirmed := by
      rcases state_eq with rfl | rfl <;> decide
    exact ⟨h.append (admits_stateRecord uses.passes fun heq => absurd heq hstate),
      hkept.other h.sorted hstate⟩
  | quarantined latest uses =>
    exact ⟨h.append (admits_stateRecord uses.passes fun hstate => by cases hstate),
      hkept.other h.sorted (by decide)⟩
  | erased latest slot_ne => exact ⟨h.set _ _ _, hkept.set (.inl rfl)⟩
  | @reconfirmed _ moduleId record confirmed package verified latest slot_ne newest uses =>
    have hset : Kept (store.set moduleId record.candidateSlot none) := hkept.set (.inl rfl)
    refine ⟨(h.set _ _ _).append (admits_stateRecord uses.passes fun _ => ?_),
      hset.confirm h.sorted uses⟩
    -- what stands in the slot is the version that was confirmed, and the floor knows that one
    have hversion := hset moduleId confirmed package newest uses.content
    obtain ⟨hmem, hconfirms⟩ := Store.mem_of_confirmed h.sorted newest
    rw [uses.passes.moduleVersion, hversion, uses.own]
    exact le_trans (h.confirmed_le moduleId confirmed hmem hconfirms) (le_max_left _ _)
  | emptied latest slot_ne unconfirmed =>
    refine ⟨(h.set _ _ _).append ⟨rfl, fun _ hstate => absurd rfl hstate, fun hstate => ?_⟩, ?_⟩
    · cases hstate
    · refine (hkept.set (.inl rfl)).append (Store.sorted_append h.sorted rfl) fun hstate => ?_
      cases hstate
  | revoked =>
    refine ⟨h.append ⟨rfl, fun hkind => ?_, fun hstate => ?_⟩, ?_⟩
    · cases hkind
    · cases hstate
    · refine hkept.append (Store.sorted_append h.sorted rfl) fun hstate => ?_
      cases hstate

/-- Records are only ever appended. -/
theorem Effect.extends {op : Op} (heffect : Effect crypto installer op store store') :
    ∃ tail, store'.records = store.records ++ tail := by
  cases heffect with
  | nothing => exact ⟨[], (List.append_nil _).symm⟩
  | erased => exact ⟨[], (List.append_nil _).symm⟩
  | installed => exact ⟨_, List.append_assoc ..⟩
  | activated => exact ⟨_, List.append_assoc ..⟩
  | _ => exact ⟨_, rfl⟩

/-- What `install` appends is above the floor. -/
theorem Effect.install_newer {package : List UInt8}
    (heffect : Effect crypto installer (.install package) store store')
    {pre post : List CatalogRecord} {r : CatalogRecord}
    (hsplit : store'.records = pre ++ r :: post) (hlength : store.records.length ≤ pre.length) :
    floorOf (viewOf pre) r.moduleId < r.moduleVersion := by
  have hold : ∀ post', store.records ≠ pre ++ r :: post' := by
    intro post' heq
    rw [heq, List.length_append, List.length_cons] at hlength
    omega
  -- the first record, with the records of the store before it
  have hfirst : ∀ {verified}, Installs crypto installer store package verified →
      (receivingStore store verified).records = pre ++ r :: post →
        floorOf (viewOf pre) r.moduleId < r.moduleVersion := by
    intro verified hinstalls heq
    rcases eq_append_cons_iff heq with ⟨post', -, heq'⟩ | ⟨rfl, rfl, -⟩
    · exact absurd heq' (hold post')
    · exact hinstalls.newer
  cases heffect with
  | nothing => exact absurd hsplit (hold post)
  | receiving installs => exact hfirst installs hsplit
  | written installs => exact hfirst installs hsplit
  | @installed _ _ verified installs =>
    rcases eq_append_cons_iff hsplit with ⟨post', -, heq⟩ | ⟨rfl, rfl, -⟩
    · rcases eq_append_cons_iff heq with ⟨post'', -, heq'⟩ | ⟨rfl, rfl, -⟩
      · exact absurd heq' (hold post'')
      · exact installs.newer
    · have hfloor : (receivingStore store verified).floor verified.moduleId =
          store.floor verified.moduleId := Store.append_floor_eq le_rfl
      exact Eq.trans_lt hfloor installs.newer

/-! ### Runs -/

/-- The flash after every run holds a store with a history. -/
theorem runCalls_history (crypto : ModuleCrypto) (calls : List Call) :
    ∃ store, Holds (runCalls crypto {} calls) store ∧ History store ∧ Kept store := by
  induction calls using List.reverseRecOn with
  | nil => exact ⟨{}, .empty, .empty, .empty⟩
  | append_singleton calls call ih =>
    obtain ⟨store, hholds, hhistory, hkept⟩ := ih
    obtain ⟨store', heffect, hholds'⟩ := runCall_effect hholds call
    rw [runCalls, List.foldl_append]
    exact ⟨store', hholds', heffect.history hhistory hkept⟩

theorem runCalls_append (crypto : ModuleCrypto) (flash : SimulatedFlash) (calls : List Call)
    (call : Call) :
    runCalls crypto flash (calls ++ [call]) = runCall crypto (runCalls crypto flash calls) call := by
  rw [runCalls, List.foldl_append]
  rfl

/-- What recovery finds after a run. -/
def recovered (crypto : ModuleCrypto) (calls : List Call) : RecoveryView :=
  recoverCatalog (runCalls crypto {} calls).catalog

/-- **The floor of a module.** Over every sequence of operations, by any installers and with the
power lost after any write, the floor of a module does not decrease, it is at least the version of
every confirmation, and the versions of the confirmations do not decrease; records of packages on
their way to confirmation are not below the floor of their time, and `install` appends only what is
above it; the sequence numbers grow, and the latest record of a module is the last one. -/
theorem module_floor_monotone (crypto : ModuleCrypto) (calls : List Call) (call : Call)
    (moduleId : ℕ) :
    floorOf (recovered crypto calls) moduleId ≤
        floorOf (recovered crypto (calls ++ [call])) moduleId ∧
      (∀ r ∈ (recovered crypto calls).records, confirms moduleId r →
        r.moduleVersion ≤ floorOf (recovered crypto calls) moduleId) ∧
      (((recovered crypto calls).records.filter (confirms moduleId)).map
        CatalogRecord.moduleVersion).Pairwise (· ≤ ·) ∧
      (∀ pre r post, (recovered crypto calls).records = pre ++ r :: post →
        ofModule moduleId r → r.state = .verified ∨ r.state = .pending ∨ r.state = .active →
        0 < floorOf (viewOf pre) moduleId → floorOf (viewOf pre) moduleId ≤ r.moduleVersion) ∧
      (∀ package pre r post, call.op = .install package →
        (recovered crypto (calls ++ [call])).records = pre ++ r :: post →
        (recovered crypto calls).records.length ≤ pre.length → ofModule moduleId r →
        floorOf (viewOf pre) moduleId < r.moduleVersion) ∧
      Sorted (recovered crypto calls).records ∧
      (recovered crypto calls).latestByModule moduleId =
        ((recovered crypto calls).records.filter (ofModule moduleId)).getLast? := by
  obtain ⟨store, hholds, hhistory, -⟩ := runCalls_history crypto calls
  obtain ⟨store', heffect, hholds'⟩ := @runCall_effect crypto _ _ hholds call
  have hview : recovered crypto calls = store.view := hholds.recover
  have hview' : recovered crypto (calls ++ [call]) = store'.view := by
    rw [recovered, runCalls_append]
    exact hholds'.recover
  have hrecords : store.view.records = store.records := viewOf_records _
  have hrecords' : store'.view.records = store'.records := viewOf_records _
  rw [hview, hview', hrecords, hrecords']
  refine ⟨?_, hhistory.confirmed_le moduleId, hhistory.confirmed_sorted moduleId, ?_, ?_,
    hhistory.sorted, viewOf_latest hhistory.sorted moduleId⟩
  · obtain ⟨tail, htail⟩ := heffect.extends
    have hgrow := floorOf_le_append store.records tail moduleId
    rwa [← htail] at hgrow
  · intro pre r post hsplit hown hstate _
    obtain ⟨hkind, rfl⟩ := ofModule_iff.mp hown
    refine hhistory.guarded pre r post hsplit hkind ?_
    rcases hstate with h | h | h <;> rw [h] <;> decide
  · intro package pre r post hop hsplit hlength hown
    obtain ⟨-, rfl⟩ := ofModule_iff.mp hown
    rw [hop] at heffect
    exact heffect.install_newer hsplit hlength

/-! ### Revoked signers -/

theorem revoked_subset_append (records tail : List CatalogRecord) :
    (viewOf records).revokedSigners ⊆ (viewOf (records ++ tail)).revokedSigners := by
  induction tail using List.reverseRecOn with
  | nil => rw [List.append_nil]
  | append_singleton tail record ih =>
    rw [← List.append_assoc, viewOf_append, revokedSigners_recoverStep]
    split
    · exact ih.trans (Finset.subset_insert _ _)
    · exact ih

/-- A revocation record revokes. -/
theorem mem_revoked_of_mem {records : List CatalogRecord} (h : record ∈ records)
    (hkind : record.kind = .revocation) :
    record.signerKeyId ∈ (viewOf records).revokedSigners := by
  obtain ⟨pre, post, rfl⟩ := List.append_of_mem h
  have hsub := revoked_subset_append (pre ++ [record]) post
  rw [List.append_assoc] at hsub
  refine hsub ?_
  rw [viewOf_append, revokedSigners_recoverStep, if_pos hkind]
  exact Finset.mem_insert_self _ _

/-- Every state an operation writes down is signed by a signer that is not revoked, unless it empties
the module. -/
theorem Effect.signers {op : Op} (heffect : Effect crypto installer op store store') :
    ∃ tail, store'.records = store.records ++ tail ∧ ∀ r ∈ tail, r.kind = .state →
      r.state = .empty ∨ r.signerKeyId ∉ store.view.revokedSigners := by
  have hone : ∀ {other : Store} {package : List UInt8} {verified : VerifiedPackage}
      {state : InstallState} {activeSlot candidateSlot : ModuleSlot} {minVersion failures : ℕ},
      Verified crypto installer store.view package verified →
      ∀ r ∈ [other.stateRecord verified state activeSlot candidateSlot minVersion failures],
        r.kind = .state → r.state = .empty ∨ r.signerKeyId ∉ store.view.revokedSigners := by
    intro other package verified state activeSlot candidateSlot minVersion failures hverified r hr _
    rw [List.mem_singleton.mp hr]
    exact .inr hverified.notRevoked
  have htwo : ∀ {tail tail' : List CatalogRecord},
      (∀ r ∈ tail, r.kind = .state → r.state = .empty ∨
        r.signerKeyId ∉ store.view.revokedSigners) →
      (∀ r ∈ tail', r.kind = .state → r.state = .empty ∨
        r.signerKeyId ∉ store.view.revokedSigners) →
      ∀ r ∈ tail ++ tail', r.kind = .state → r.state = .empty ∨
        r.signerKeyId ∉ store.view.revokedSigners := by
    intro tail tail' h h' r hr
    exact (List.mem_append.mp hr).elim (h r) (h' r)
  cases heffect with
  | nothing => exact ⟨[], (List.append_nil _).symm, fun _ h => by cases h⟩
  | erased => exact ⟨[], (List.append_nil _).symm, fun _ h => by cases h⟩
  | receiving installs => exact ⟨_, rfl, hone installs.passes⟩
  | written installs => exact ⟨_, rfl, hone installs.passes⟩
  | installed installs =>
    exact ⟨_, List.append_assoc .., htwo (hone installs.passes) (hone installs.passes)⟩
  | pending latest state uses => exact ⟨_, rfl, hone uses.passes⟩
  | activated latest state uses =>
    exact ⟨_, List.append_assoc .., htwo (hone uses.passes) (hone uses.passes)⟩
  | confirmed latest state uses => exact ⟨_, rfl, hone uses.passes⟩
  | rolledBack latest newest uses => exact ⟨_, rfl, hone uses.passes⟩
  | failed latest started uses => exact ⟨_, rfl, hone uses.passes⟩
  | quarantined latest uses => exact ⟨_, rfl, hone uses.passes⟩
  | reconfirmed latest slot_ne newest uses => exact ⟨_, rfl, hone uses.passes⟩
  | emptied =>
    refine ⟨_, rfl, fun r hr _ => .inl ?_⟩
    rw [List.mem_singleton.mp hr]
    rfl
  | revoked =>
    refine ⟨_, rfl, fun r hr hkind => ?_⟩
    rw [List.mem_singleton.mp hr] at hkind
    cases hkind

/-- What stands in a slot stood there before, or is a package that was installed and is not signed
by a revoked signer. -/
theorem Effect.slots {op : Op} (heffect : Effect crypto installer op store store') (moduleId : ℕ)
    (slot : ModuleSlot) (package : List UInt8)
    (hcontent : store'.slots moduleId slot = some package) :
    store.slots moduleId slot = some package ∨
      (unpack package).keyId ∉ store.view.revokedSigners := by
  have herase : ∀ {id : ℕ} {other : ModuleSlot},
      (store.set id other none).slots moduleId slot = some package →
        store.slots moduleId slot = some package := by
    intro id other h
    rw [show (store.set id other none).slots moduleId slot = _ from setSlot_apply ..] at h
    split at h
    · cases h
    · exact h
  have hwrite : ∀ {content : List UInt8} {verified : VerifiedPackage},
      Installs crypto installer store content verified →
      (writtenStore store verified content).slots moduleId slot = some package →
        store.slots moduleId slot = some package ∨
          (unpack package).keyId ∉ store.view.revokedSigners := by
    intro content verified hinstalls h
    rw [show (writtenStore store verified content).slots moduleId slot = _ from
      setSlot_apply ..] at h
    split at h
    · obtain rfl := Option.some.inj h
      right
      rw [hinstalls.passes.keyId]
      exact hinstalls.passes.notRevoked
    · exact .inl h
  cases heffect with
  | written installs => exact hwrite installs hcontent
  | installed installs => exact hwrite installs hcontent
  | erased => exact .inl (herase hcontent)
  | reconfirmed => exact .inl (herase hcontent)
  | emptied => exact .inl (herase hcontent)
  | _ => exact .inl hcontent

/-- An installation of a package by a revoked signer does nothing. -/
theorem Effect.install_revoked {package : List UInt8}
    (heffect : Effect crypto installer (.install package) store store')
    (h : (unpack package).keyId ∈ store.view.revokedSigners) : store' = store := by
  have hno : ∀ {verified}, ¬ Installs crypto installer store package verified := by
    intro verified hinstalls
    rw [hinstalls.passes.keyId] at h
    exact hinstalls.passes.notRevoked h
  cases heffect with
  | nothing => rfl
  | receiving installs => exact absurd installs hno
  | written installs => exact absurd installs hno
  | installed installs => exact absurd installs hno

/-- Behind a revocation, over any number of calls. -/
theorem runCalls_revoked (crypto : ModuleCrypto) {flash : SimulatedFlash} {store : Store}
    (hholds : Holds flash store) {signerKeyId : List UInt8}
    (hrevoked : signerKeyId ∈ store.view.revokedSigners) (calls : List Call) :
    ∃ store' tail, Holds (runCalls crypto flash calls) store' ∧
      signerKeyId ∈ store'.view.revokedSigners ∧ store'.records = store.records ++ tail ∧
      ∀ r ∈ tail, r.kind = .state → r.signerKeyId = signerKeyId → r.state = .empty := by
  induction calls using List.reverseRecOn with
  | nil => exact ⟨store, [], hholds, hrevoked, (List.append_nil _).symm, fun _ h => by cases h⟩
  | append_singleton calls call ih =>
    obtain ⟨store₁, tail₁, hholds₁, hrevoked₁, hrecords₁, htail₁⟩ := ih
    obtain ⟨store₂, heffect, hholds₂⟩ := @runCall_effect crypto _ _ hholds₁ call
    obtain ⟨tail₂, hrecords₂, htail₂⟩ := heffect.signers
    rw [runCalls_append]
    refine ⟨store₂, tail₁ ++ tail₂, hholds₂, ?_, ?_, ?_⟩
    · have hsub := revoked_subset_append store₁.records tail₂
      rw [← hrecords₂] at hsub
      exact hsub hrevoked₁
    · rw [hrecords₂, hrecords₁, List.append_assoc]
    · intro r hr hkind hsigner
      rcases List.mem_append.mp hr with hr | hr
      · exact htail₁ r hr hkind hsigner
      · refine (htail₂ r hr hkind).resolve_right ?_
        rw [hsigner]
        exact not_not_intro hrevoked₁

/-- **Revocation is permanent.** After a revocation record for a signer, whatever installers with
whatever keys do and wherever the power is lost: every later recovery has the signer revoked, no
state record with that signer is appended but one that empties a module, no slot receives a package
of that signer, and an attempt to install one changes nothing. -/
theorem revocation_permanent (crypto : ModuleCrypto) (before after : List Call) (call : Call)
    (signerKeyId : List UInt8)
    (hrevoked : ∃ r ∈ (recovered crypto before).records,
      r.kind = .revocation ∧ r.signerKeyId = signerKeyId) :
    signerKeyId ∈ (recovered crypto (before ++ after)).revokedSigners ∧
      (∃ tail, (recovered crypto (before ++ after)).records =
          (recovered crypto before).records ++ tail ∧
        ∀ r ∈ tail, r.kind = .state → r.signerKeyId = signerKeyId → r.state = .empty) ∧
      (∀ moduleId slot package,
        (runCalls crypto {} (before ++ after ++ [call])).slots moduleId slot = some package →
        (unpack package).keyId = signerKeyId →
        (runCalls crypto {} (before ++ after)).slots moduleId slot = some package) ∧
      ∀ package, call.op = .install package → (unpack package).keyId = signerKeyId →
        (runCalls crypto {} (before ++ after ++ [call])).catalog =
            (runCalls crypto {} (before ++ after)).catalog ∧
          (runCalls crypto {} (before ++ after ++ [call])).slots =
            (runCalls crypto {} (before ++ after)).slots := by
  obtain ⟨store, hholds, -, -⟩ := runCalls_history crypto before
  have hview : recovered crypto before = store.view := hholds.recover
  have hrecords : store.view.records = store.records := viewOf_records _
  obtain ⟨r, hr, hkind, rfl⟩ := hrevoked
  rw [hview, hrecords] at hr
  obtain ⟨store₁, tail, hholds₁, hrevoked₁, hrecords₁, htail⟩ :=
    runCalls_revoked crypto hholds (mem_revoked_of_mem hr hkind) after
  have happend : runCalls crypto {} (before ++ after) =
      runCalls crypto (runCalls crypto {} before) after := List.foldl_append
  rw [← happend] at hholds₁
  have hview₁ : recovered crypto (before ++ after) = store₁.view := hholds₁.recover
  obtain ⟨store₂, heffect, hholds₂⟩ := @runCall_effect crypto _ _ hholds₁ call
  rw [← runCalls_append] at hholds₂
  rw [hview, hview₁, hholds₁.slots, hholds₂.slots, hholds₁.catalog, hholds₂.catalog]
  refine ⟨hrevoked₁, ⟨tail, ?_, htail⟩, ?_, ?_⟩
  · rw [hrecords, Store.view, viewOf_records]
    exact hrecords₁
  · intro moduleId slot package hcontent hkey
    refine (heffect.slots moduleId slot package hcontent).resolve_right ?_
    rw [hkey]
    exact not_not_intro hrevoked₁
  · intro package hop hkey
    rw [hop] at heffect
    rw [heffect.install_revoked (by rw [hkey]; exact hrevoked₁)]
    exact ⟨rfl, rfl⟩

/-- The revocation of the signer of the small packages. -/
def smallRevocation : Call := ⟨smallInstaller, .revokeSigner (moduleKeyDigest.take 16), none⟩

theorem revocation_permanent_small :
    moduleKeyDigest.take 16 ∈ (recovered smallCrypto [smallRevocation]).revokedSigners ∧
      (runCalls smallCrypto {}
        [smallRevocation, ⟨smallInstaller, .install firstPackage, none⟩]).catalog =
          (runCalls smallCrypto {} [smallRevocation]).catalog := by
  have hroom : Encodable (revocationRecord ({} : Store).nextSequence (moduleKeyDigest.take 16)) :=
    encodable_revocationRecord (by decide) (by decide) rfl (by decide)
  have hcompletes : Completes smallCrypto smallInstaller (.revokeSigner (moduleKeyDigest.take 16))
      {} _ := completes_revokeSigner rfl hroom
  have hholds : Holds (runCalls smallCrypto {} [smallRevocation]) _ := hcompletes.runCall .empty
  have hrevoked : ∃ r ∈ (recovered smallCrypto [smallRevocation]).records,
      r.kind = .revocation ∧ r.signerKeyId = moduleKeyDigest.take 16 := by
    rw [recovered, hholds.recover, Store.view, viewOf_records]
    exact ⟨_, List.mem_singleton_self _, rfl, rfl⟩
  have hkey : (unpack firstPackage).keyId = moduleKeyDigest.take 16 := by decide +kernel
  have hpermanent := revocation_permanent smallCrypto [smallRevocation] []
    ⟨smallInstaller, .install firstPackage, none⟩ _ hrevoked
  rw [List.append_nil] at hpermanent
  exact hpermanent.imp_right fun hrest => (hrest.2.2 firstPackage rfl hkey).1

end Stm32SecurityLab.ModuleInstall
