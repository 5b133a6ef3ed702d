import Stm32SecurityLab.ModuleInstall.Confirmed

/-!
# Quarantined packages

A package is brought to life by `activate`, from the candidate slot of a record that says verified
or rejected, and by `confirm`, from the active slot of a record that says active. So a quarantined
package stays where it is as long as the latest record does not name its slot in that way.

Three things make the record name it: `rollback`, whose record says rejected and keeps the slot of
the quarantined package as candidate; `remove_candidate`, which confirms once more what is confirmed,
quarantined or not; and an installation of the package that loses power after its last record.

## Main definitions

* `startSlot` — the slot a record can be brought to life from
* `Barred` — that slot does not hold the quarantined package
* `Passes` — what is in a slot passes `verify_package`
* `Respects` — the call is none of the three

## Main results

* `quarantine_kept` — over every run of calls that respect the quarantine
* `quarantine_laundered` — a quarantined package that becomes active again
-/

namespace Stm32SecurityLab.ModuleInstall

open Crash

variable {crypto : ModuleCrypto} {installer : ModuleInstaller} {store store' : Store}
  {moduleId : ℕ} {fingerprint : List UInt8} {record : CatalogRecord}

/-! ### One operation -/

/-- The slot that a later operation can bring to life. -/
def startSlot (record : CatalogRecord) : Option ModuleSlot :=
  match record.state with
  | .verified | .rejected | .pending => some record.candidateSlot
  | .active => some record.activeSlot
  | _ => none

/-- The slot holds no package with the fingerprint. -/
def Without (crypto : ModuleCrypto) (slots : ℕ → ModuleSlot → Option (List UInt8)) (moduleId : ℕ)
    (fingerprint : List UInt8) (slot : ModuleSlot) : Prop :=
  ∀ package, slots moduleId slot = some package → crypto.sha256 package ≠ fingerprint

/-- The package with the fingerprint cannot be brought to life from the latest record. -/
def Barred (crypto : ModuleCrypto) (store : Store) (moduleId : ℕ) (fingerprint : List UInt8) :
    Prop :=
  ∀ record slot, store.view.latestByModule moduleId = some record → startSlot record = some slot →
    Without crypto store.slots moduleId fingerprint slot

/-- What is in the slot of the module passes `verify_package`. -/
def Passes (crypto : ModuleCrypto) (installer : ModuleInstaller) (view : RecoveryView)
    (slots : ℕ → ModuleSlot → Option (List UInt8)) (moduleId : ℕ) (slot : ModuleSlot) : Prop :=
  slot ≠ .none ∧ ∃ package ∈ slots moduleId slot, ∃ verified,
    verifyView crypto installer view package (some moduleId) = .ok verified

/-- The operation respects the quarantine: a rollback to a package that verifies does not name the
slot of the quarantined one as candidate, and what verifies and is confirmed once more is not the
quarantined one. -/
def Op.Respects (crypto : ModuleCrypto) (installer : ModuleInstaller) (view : RecoveryView)
    (slots : ℕ → ModuleSlot → Option (List UInt8)) (moduleId : ℕ) (fingerprint : List UInt8) :
    Op → Prop
  | .rollback id => id = moduleId → ∀ record confirmed,
      view.latestByModule moduleId = some record →
      view.confirmedByModule moduleId = some confirmed →
      Passes crypto installer view slots moduleId confirmed.activeSlot →
      Without crypto slots moduleId fingerprint (rollbackSlot record confirmed)
  | .removeCandidate id => id = moduleId → ∀ record confirmed,
      view.latestByModule moduleId = some record →
      view.confirmedByModule moduleId = some confirmed →
      record.candidateSlot ≠ .none → record.candidateSlot ≠ confirmed.activeSlot →
      Passes crypto installer view slots moduleId confirmed.activeSlot →
      Without crypto slots moduleId fingerprint confirmed.activeSlot
  | _ => True

/-- The record does not say that the package with the fingerprint is alive. -/
def NotAlive (moduleId : ℕ) (fingerprint : List UInt8) (record : CatalogRecord) : Prop :=
  ofModule moduleId record → record.state = .active ∨ record.state = .confirmed →
    record.fingerprint ≠ fingerprint

/-- A store without the package among its candidates, and a record to be appended to it. -/
structure Bars (crypto : ModuleCrypto) (store : Store) (moduleId : ℕ) (fingerprint : List UInt8)
    (record : CatalogRecord) : Prop where
  start : ofModule moduleId record → ∀ slot, startSlot record = some slot →
    Without crypto store.slots moduleId fingerprint slot
  notAlive : NotAlive moduleId fingerprint record

theorem Barred.append (h : Barred crypto store moduleId fingerprint)
    (hsorted : Sorted (store.append record).records)
    (hrecord : Bars crypto store moduleId fingerprint record) :
    Barred crypto (store.append record) moduleId fingerprint := by
  intro latest slot hlatest hslot
  rw [Store.append_latest hsorted] at hlatest
  split at hlatest
  · rename_i hown
    obtain rfl := Option.some.inj hlatest
    exact hrecord.start hown slot hslot
  · exact h latest slot hlatest hslot

theorem Without.erase {slot : ModuleSlot} (h : Without crypto store.slots moduleId fingerprint slot)
    (id : ℕ) (other : ModuleSlot) :
    Without crypto (store.set id other none).slots moduleId fingerprint slot := by
  intro package hpackage
  rw [show (store.set id other none).slots moduleId slot = _ from setSlot_apply ..] at hpackage
  split at hpackage
  · cases hpackage
  · exact h package hpackage

theorem Barred.erase (h : Barred crypto store moduleId fingerprint) (id : ℕ)
    (other : ModuleSlot) : Barred crypto (store.set id other none) moduleId fingerprint :=
  fun record slot hlatest hslot => (h record slot hlatest hslot).erase id other

theorem startSlot_eq_none {state : InstallState} (h : record.state = state)
    (hstate : state = .empty ∨ state = .receiving ∨ state = .confirmed ∨ state = .quarantined) :
    startSlot record = none := by
  rw [startSlot, h]
  rcases hstate with rfl | rfl | rfl | rfl <;> rfl

/-- A record that nothing can be brought to life from. -/
theorem bars_idle (h : record.state = .empty ∨ record.state = .receiving ∨
    record.state = .quarantined) : Bars crypto store moduleId fingerprint record where
  start := by
    intro _ slot hslot
    rw [startSlot_eq_none rfl (by tauto)] at hslot
    cases hslot
  notAlive := by
    intro _ halive
    rcases h with h | h | h <;> rw [h] at halive <;> rcases halive with h' | h' <;> cases h'

/-- A record about a package from a slot that does not hold the quarantined one. -/
theorem bars_stateRecord {other : Store} {verified : VerifiedPackage} {state : InstallState}
    {activeSlot candidateSlot : ModuleSlot} {minVersion failures : ℕ}
    (hstart : verified.moduleId = moduleId → ∀ slot,
      startSlot (other.stateRecord verified state activeSlot candidateSlot minVersion failures) =
        some slot → Without crypto store.slots moduleId fingerprint slot)
    (hfingerprint : verified.moduleId = moduleId → state = .active ∨ state = .confirmed →
      verified.fingerprint ≠ fingerprint) :
    Bars crypto store moduleId fingerprint
      (other.stateRecord verified state activeSlot candidateSlot minVersion failures) where
  start := fun hown => hstart (ofModule_iff.mp hown).2
  notAlive := fun hown => hfingerprint (ofModule_iff.mp hown).2

theorem Uses.without {id : ℕ} {slot : ModuleSlot} {package : List UInt8}
    {verified : VerifiedPackage} (huses : Uses crypto installer store id slot package verified)
    (h : Without crypto store.slots id fingerprint slot) : verified.fingerprint ≠ fingerprint := by
  rw [huses.passes.fingerprint]
  exact h package huses.content

theorem Uses.holds {id : ℕ} {slot : ModuleSlot} {package : List UInt8}
    {verified : VerifiedPackage} (huses : Uses crypto installer store id slot package verified) :
    Passes crypto installer store.view store.slots id slot :=
  ⟨huses.slot_ne, package, huses.content, verified, huses.verifies⟩

/-- What an operation leaves barred, with the records it has appended. -/
def KeepsBarred (crypto : ModuleCrypto) (store store' : Store) (moduleId : ℕ)
    (fingerprint : List UInt8) : Prop :=
  Barred crypto store' moduleId fingerprint ∧ ∃ tail, store'.records = store.records ++ tail ∧
    ∀ r ∈ tail, NotAlive moduleId fingerprint r

theorem KeepsBarred.refl (h : Barred crypto store moduleId fingerprint) :
    KeepsBarred crypto store store moduleId fingerprint :=
  ⟨h, [], (List.append_nil _).symm, fun _ hr => by cases hr⟩

theorem KeepsBarred.append (h : KeepsBarred crypto store store' moduleId fingerprint)
    (hsorted : Sorted (store'.append record).records)
    (hrecord : Bars crypto store' moduleId fingerprint record) :
    KeepsBarred crypto store (store'.append record) moduleId fingerprint := by
  obtain ⟨hbarred, tail, hrecords, htail⟩ := h
  refine ⟨hbarred.append hsorted hrecord, tail ++ [record], ?_, ?_⟩
  · rw [Store.append_records, hrecords, List.append_assoc]
  · intro r hr
    rcases List.mem_append.mp hr with hr | hr
    · exact htail r hr
    · rw [List.mem_singleton.mp hr]
      exact hrecord.notAlive

theorem KeepsBarred.erase (h : Barred crypto store moduleId fingerprint) (id : ℕ)
    (slot : ModuleSlot) : KeepsBarred crypto store (store.set id slot none) moduleId fingerprint :=
  ⟨h.erase id slot, (KeepsBarred.refl h).2⟩

/-- Writing the slot of an installation. -/
theorem KeepsBarred.write (h : KeepsBarred crypto store store' moduleId fingerprint)
    {id : ℕ} {slot : ModuleSlot} {package : List UInt8}
    (hidle : id = moduleId → ∀ record, store'.view.latestByModule moduleId = some record →
      startSlot record = none) :
    KeepsBarred crypto store (store'.set id slot (some package)) moduleId fingerprint := by
  refine ⟨fun record start hlatest hstart content hcontent => ?_, h.2⟩
  by_cases hid : id = moduleId
  · rw [hidle hid record hlatest] at hstart
    cases hstart
  · refine h.1 record start hlatest hstart content ?_
    rw [show (store'.set id slot (some package)).slots moduleId start = _ from setSlot_apply ..,
      if_neg fun hboth => hid hboth.1.symm] at hcontent
    exact hcontent

theorem barred_written {verified : VerifiedPackage} {package : List UInt8}
    (hsorted : Sorted store.records) (h : Barred crypto store moduleId fingerprint) :
    KeepsBarred crypto store (writtenStore store verified package) moduleId fingerprint := by
  have hsorted' : Sorted (receivingStore store verified).records :=
    Store.sorted_append hsorted rfl
  refine ((KeepsBarred.refl h).append hsorted' (bars_idle (.inr (.inl rfl)))).write ?_
  -- the record that says receiving is the latest one of the module
  rintro rfl record hlatest
  rw [Store.append_latest hsorted'] at hlatest
  split at hlatest
  · obtain rfl := Option.some.inj hlatest
    rfl
  · rename_i hother
    exact absurd (ofModule_iff.mpr ⟨rfl, rfl⟩) hother

theorem barred_installed {verified : VerifiedPackage} {package : List UInt8}
    (hsorted : Sorted store.records) (h : Barred crypto store moduleId fingerprint)
    (hpackage : verified.moduleId = moduleId → crypto.sha256 package ≠ fingerprint) :
    KeepsBarred crypto store (installedStore store verified package) moduleId fingerprint := by
  have hsorted' : Sorted (writtenStore store verified package).records :=
    Store.sorted_append hsorted rfl
  refine (barred_written hsorted h).append (Store.sorted_append hsorted' rfl)
    (bars_stateRecord ?_ fun _ halive => ?_)
  · rintro rfl slot hslot content hcontent
    obtain rfl := Option.some.inj hslot
    rw [show (writtenStore store verified package).slots verified.moduleId _ = _ from
      setSlot_apply .., if_pos ⟨rfl, rfl⟩] at hcontent
    obtain rfl := Option.some.inj hcontent
    exact hpackage rfl
  · rcases halive with h' | h' <;> cases h'

theorem barred_pending {id : ℕ} {package : List UInt8} {verified : VerifiedPackage}
    (hsorted : Sorted store.records) (h : Barred crypto store moduleId fingerprint)
    (hlatest : store.view.latestByModule id = some record)
    (hstate : record.state = .verified ∨ record.state = .rejected)
    (huses : Uses crypto installer store id record.candidateSlot package verified) :
    KeepsBarred crypto store (pendingStore store verified record) moduleId fingerprint := by
  refine (KeepsBarred.refl h).append (Store.sorted_append hsorted rfl)
    (bars_stateRecord ?_ fun _ halive => ?_)
  · intro hid slot hslot
    obtain rfl := Option.some.inj hslot
    obtain rfl := huses.own.symm.trans hid
    refine h record record.candidateSlot hlatest ?_
    rw [startSlot]
    rcases hstate with hstate | hstate <;> rw [hstate]
  · rcases halive with h' | h' <;> cases h'

/-- **One operation.** -/
theorem Effect.barred {op : Op} (heffect : Effect crypto installer op store store')
    (hsorted : Sorted store.records) (h : Barred crypto store moduleId fingerprint)
    (hrespects : op.Respects crypto installer store.view store.slots moduleId fingerprint)
    (hinstall : ∀ package verified, op = .install package →
      store' = installedStore store verified package → crypto.sha256 package ≠ fingerprint) :
    KeepsBarred crypto store store' moduleId fingerprint := by
  have hrefl : KeepsBarred crypto store store moduleId fingerprint := .refl h
  -- a record that says verified, rejected, pending or active bars its own start slot
  have hstart : ∀ {id : ℕ} {r : CatalogRecord} {slot : ModuleSlot},
      store.view.latestByModule id = some r → startSlot r = some slot → id = moduleId →
        Without crypto store.slots moduleId fingerprint slot := by
    rintro id r slot hlatest hslot rfl
    exact h r slot hlatest hslot
  cases heffect with
  | nothing => exact hrefl
  | receiving =>
    exact hrefl.append (Store.sorted_append hsorted rfl) (bars_idle (.inr (.inl rfl)))
  | written => exact barred_written hsorted h
  | installed => exact barred_installed hsorted h fun _ => hinstall _ _ rfl rfl
  | pending latest state uses => exact barred_pending hsorted h latest state uses
  | @activated _ id r package verified latest state uses =>
    have hslot : startSlot r = some r.candidateSlot := by
      rw [startSlot]
      rcases state with state | state <;> rw [state]
    refine (barred_pending hsorted h latest state uses).append
      (Store.sorted_append (Store.sorted_append hsorted rfl) rfl)
      (bars_stateRecord (fun hid slot hactive => ?_) fun hid _ => ?_)
    · obtain rfl := Option.some.inj hactive
      exact hstart latest hslot (uses.own.symm.trans hid)
    · obtain rfl := uses.own.symm.trans hid
      exact uses.without (h r _ latest hslot)
  | @confirmed _ id r package verified latest state uses =>
    have hslot : startSlot r = some r.activeSlot := by rw [startSlot, state]
    refine hrefl.append (Store.sorted_append hsorted rfl)
      (bars_stateRecord (fun _ slot hactive => by cases hactive) fun hid _ => ?_)
    obtain rfl := uses.own.symm.trans hid
    exact uses.without (h r _ latest hslot)
  | @rolledBack _ id r c package verified latest newest uses =>
    refine hrefl.append (Store.sorted_append hsorted rfl)
      (bars_stateRecord (fun hid slot hrejected => ?_) fun _ halive => ?_)
    · obtain rfl := Option.some.inj hrejected
      obtain rfl := uses.own.symm.trans hid
      exact hrespects rfl r c latest newest uses.holds
    · rcases halive with h' | h' <;> cases h'
  | @failed _ id r package verified state latest started uses state_eq =>
    have hslot : startSlot r = some (failingSlot r) := by
      rw [startSlot, failingSlot]
      rcases started with started | started <;> rw [started] <;> rfl
    refine hrefl.append (Store.sorted_append hsorted rfl)
      (bars_stateRecord (fun hid slot hfailed => ?_) fun _ halive => ?_)
    · rcases state_eq with rfl | rfl
      · cases hfailed
      · obtain rfl := Option.some.inj hfailed
        exact hstart latest hslot (uses.own.symm.trans hid)
    · rcases state_eq with rfl | rfl <;> rcases halive with h' | h' <;> cases h'
  | quarantined =>
    exact hrefl.append (Store.sorted_append hsorted rfl) (bars_idle (.inr (.inr rfl)))
  | erased => exact .erase h _ _
  | @reconfirmed _ id r c package verified latest slot_ne newest uses =>
    refine (KeepsBarred.erase h id r.candidateSlot).append (Store.sorted_append hsorted rfl)
      (bars_stateRecord (fun _ slot hactive => by cases hactive) fun hid _ => ?_)
    obtain rfl := uses.own.symm.trans hid
    -- the slot that has just been erased does not hold what was verified
    obtain ⟨hslot, content, hcontent, hverifies⟩ := uses.holds
    rw [Option.mem_def, show (store.set _ r.candidateSlot none).slots _ c.activeSlot = _ from
      setSlot_apply ..] at hcontent
    split at hcontent
    · cases hcontent
    · rename_i hother
      exact uses.without ((hrespects rfl r c latest newest slot_ne
        (fun hsame => hother ⟨rfl, hsame.symm⟩) ⟨hslot, content, hcontent, hverifies⟩).erase _ _)
  | @emptied _ id r =>
    exact (KeepsBarred.erase h id r.candidateSlot).append (Store.sorted_append hsorted rfl)
      (bars_idle (.inl rfl))
  | revoked =>
    exact hrefl.append (Store.sorted_append hsorted rfl) (bars_idle (.inl rfl))

/-- An installation does not bring anything to life. -/
theorem Effect.install_notAlive {package : List UInt8}
    (heffect : Effect crypto installer (.install package) store store') :
    ∃ tail, store'.records = store.records ++ tail ∧
      ∀ r ∈ tail, NotAlive moduleId fingerprint r := by
  have hone : ∀ {other : Store} {verified : VerifiedPackage} {state : InstallState}
      {activeSlot candidateSlot : ModuleSlot} {minVersion failures : ℕ},
      state = .receiving ∨ state = .verified → NotAlive moduleId fingerprint
        (other.stateRecord verified state activeSlot candidateSlot minVersion failures) := by
    rintro _ _ _ _ _ _ _ (rfl | rfl) _ (h | h) <;> cases h
  cases heffect with
  | nothing => exact ⟨[], (List.append_nil _).symm, fun _ hr => by cases hr⟩
  | receiving => exact ⟨_, rfl, List.forall_mem_singleton.mpr (hone (.inl rfl))⟩
  | written => exact ⟨_, rfl, List.forall_mem_singleton.mpr (hone (.inl rfl))⟩
  | installed =>
    exact ⟨_, List.append_assoc .., List.forall_mem_cons.mpr
      ⟨hone (.inl rfl), List.forall_mem_singleton.mpr (hone (.inr rfl))⟩⟩

/-! ### Runs -/

/-- The call respects the quarantine of the package, and if it is an installation of the package, it
is not cut after its last write. -/
def Call.Respects (crypto : ModuleCrypto) (flash : SimulatedFlash) (moduleId : ℕ)
    (fingerprint : List UInt8) (call : Call) : Prop :=
  call.op.Respects crypto call.installer (recoverCatalog flash.catalog) flash.slots moduleId
      fingerprint ∧
    ∀ package, call.op = .install package → crypto.sha256 package = fingerprint →
      call.failAfter ≠ some 3

/-- The call is an installation of the package, and it returns. -/
def Reinstalls (crypto : ModuleCrypto) (flash : SimulatedFlash) (fingerprint : List UInt8)
    (call : Call) : Prop :=
  ∃ package, call.op = .install package ∧ crypto.sha256 package = fingerprint ∧
    ∃ flash', call.outcome crypto flash = .ret () flash'

theorem installedStore_length (store : Store) (verified : VerifiedPackage)
    (package : List UInt8) :
    (installedStore store verified package).records.length = store.records.length + 2 := by
  rw [installedStore, writtenStore, receivingStore]
  simp only [Store.append_records, Store.set_records, List.length_append, List.length_singleton]

/-- An installation that has written both of its records has returned, or was cut after the
last. -/
theorem runCall_installed {flash : SimulatedFlash} (h : Holds flash store) (call : Call) :
    ∃ store', Effect crypto call.installer call.op store store' ∧
      Holds (runCall crypto flash call) store' ∧
      ∀ package verified, call.op = .install package →
        store' = installedStore store verified package →
        (∃ flash', call.outcome crypto flash = .ret () flash') ∨ call.failAfter = some 3 := by
  by_cases hop : ∃ package, call.op = .install package
  · obtain ⟨package, hop⟩ := hop
    have hset : Holds (setPowerLossAfter flash call.failAfter) store := h.congr rfl rfl
    have hspec := @wp_install crypto call.installer _ _ package hset
    have hshort : ∀ {other : Store} {verified : VerifiedPackage} {content : List UInt8},
        other.records.length ≤ store.records.length + 1 →
          other ≠ installedStore store verified content := by
      rintro other verified content hle rfl
      rw [installedStore_length] at hle
      omega
    have hone : ∀ {verified : VerifiedPackage},
        (receivingStore store verified).records.length ≤ store.records.length + 1 := by
      intro verified
      rw [receivingStore, Store.append_records, List.length_append, List.length_singleton]
    have hout : call.outcome crypto flash =
        Prog.bind (install crypto call.installer package) (fun _ => pure ())
          (setPowerLossAfter flash call.failAfter) := by
      rw [Call.outcome, hop]
      rfl
    rw [hop, runCall]
    cases hrun : install crypto call.installer package (setPowerLossAfter flash call.failAfter) with
    | ret verified flash' =>
      obtain ⟨hinstalls, h'⟩ := hspec.ret hrun
      have hret : call.outcome crypto flash = .ret () flash' := by
        rw [hout, Prog.bind, hrun]
        rfl
      rw [hret]
      exact ⟨_, .installed hinstalls, h', fun _ _ _ _ => .inl ⟨flash', rfl⟩⟩
    | err e flash' =>
      have herr : call.outcome crypto flash = .err e flash' := by rw [hout, Prog.bind, hrun]
      rw [herr]
      rcases hspec.err hrun with h' | ⟨verified, hinstalls, h' | h'⟩
      · exact ⟨_, .nothing _ _, h', fun _ _ _ heq => absurd heq (hshort (Nat.le_succ _))⟩
      · exact ⟨_, .receiving hinstalls, h', fun _ _ _ heq => absurd heq (hshort hone)⟩
      · exact ⟨_, .written hinstalls, h', fun _ _ _ heq => absurd heq (hshort hone)⟩
    | cut flash' =>
      have hcut : call.outcome crypto flash = .cut flash' := by rw [hout, Prog.bind, hrun]
      rw [hcut]
      obtain ⟨verified, hinstalls, h' | h' | ⟨h', hfail⟩⟩ := hspec.cut hrun
      · exact ⟨_, .receiving hinstalls, h', fun _ _ _ heq => absurd heq (hshort hone)⟩
      · exact ⟨_, .written hinstalls, h', fun _ _ _ heq => absurd heq (hshort hone)⟩
      · exact ⟨_, .installed hinstalls, h', fun _ _ _ _ => .inr hfail⟩
  · obtain ⟨store', heffect, hholds⟩ := @runCall_effect crypto _ _ h call
    exact ⟨store', heffect, hholds, fun package _ hinstall => absurd ⟨package, hinstall⟩ hop⟩

/-- The package stays barred, over any number of calls that respect the quarantine and do not
install it again. -/
theorem runCalls_barred (crypto : ModuleCrypto) {start : List Call}
    (hholds : Holds (runCalls crypto {} start) store)
    (h : Barred crypto store moduleId fingerprint) (after : List Call)
    (hrespects : ∀ pre next post, after = pre ++ next :: post →
      next.Respects crypto (runCalls crypto {} (start ++ pre)) moduleId fingerprint)
    (hnone : ∀ pre next post, after = pre ++ next :: post →
      ¬ Reinstalls crypto (runCalls crypto {} (start ++ pre)) fingerprint next) :
    ∃ store', Holds (runCalls crypto {} (start ++ after)) store' ∧
      Barred crypto store' moduleId fingerprint := by
  induction after using List.reverseRecOn with
  | nil =>
    rw [List.append_nil]
    exact ⟨store, hholds, h⟩
  | append_singleton after next ih =>
    have hsplit : ∀ pre next' post, after = pre ++ next' :: post →
        after ++ [next] = pre ++ next' :: (post ++ [next]) := by
      rintro pre next' post rfl
      rw [List.append_assoc, List.cons_append]
    obtain ⟨store₁, hholds₁, hbarred₁⟩ := ih
      (fun pre next' post heq => hrespects pre next' _ (hsplit pre next' post heq))
      (fun pre next' post heq => hnone pre next' _ (hsplit pre next' post heq))
    obtain ⟨store₂, heffect, hholds₂, hinstalled⟩ := @runCall_installed crypto _ _ hholds₁ next
    obtain ⟨hop, hcut⟩ := hrespects after next [] rfl
    rw [hholds₁.recover, hholds₁.slots] at hop
    rw [← List.append_assoc, runCalls_append]
    refine ⟨store₂, hholds₂, (heffect.barred hholds₁.sorted hbarred₁ hop ?_).1⟩
    intro package verified hinstall hstore hsame
    rcases hinstalled package verified hinstall hstore with hret | hfail
    · exact hnone after next [] rfl ⟨package, hinstall, hsame, hret⟩
    · exact hcut package hinstall hsame hfail

/-- **A quarantined package stays quarantined.** Right after a record that puts a package of a
module in quarantine, and over every continuation of the run whose calls respect the quarantine,
whatever else is done by whichever installers and wherever the power is lost: no record that says
the package is active or confirmed is appended, unless an installation of it has returned in
between. -/
theorem quarantine_kept (crypto : ModuleCrypto) (before : List Call) (quarantine : CatalogRecord)
    (hlast : (recovered crypto before).records.getLast? = some quarantine)
    (hkind : quarantine.kind = .state) (hstate : quarantine.state = .quarantined)
    (after : List Call) (call : Call)
    (hrespects : ∀ pre next post, after ++ [call] = pre ++ next :: post →
      next.Respects crypto (runCalls crypto {} (before ++ pre)) quarantine.moduleId
        quarantine.fingerprint) :
    ∃ tail, (recovered crypto (before ++ after ++ [call])).records =
        (recovered crypto (before ++ after)).records ++ tail ∧
      ∀ r ∈ tail, ofModule quarantine.moduleId r →
        r.state = .active ∨ r.state = .confirmed → r.fingerprint = quarantine.fingerprint →
        ∃ pre next post, after = pre ++ next :: post ∧
          Reinstalls crypto (runCalls crypto {} (before ++ pre)) quarantine.fingerprint next := by
  obtain ⟨store, hholds, -, -⟩ := runCalls_history crypto before
  have hbarred : Barred crypto store quarantine.moduleId quarantine.fingerprint := by
    have hrecords : store.view.records = store.records := viewOf_records _
    rw [show recovered crypto before = store.view from hholds.recover, hrecords] at hlast
    obtain ⟨init, hinit⟩ := List.getLast?_eq_some_iff.mp hlast
    intro record slot hlatest hslot
    have hown : ofModule quarantine.moduleId quarantine = true := ofModule_iff.mpr ⟨hkind, rfl⟩
    rw [Store.view, viewOf_latest hholds.sorted, hinit, List.filter_append,
      List.filter_singleton, hown, cond_true, List.getLast?_concat] at hlatest
    obtain rfl := Option.some.inj hlatest
    rw [startSlot_eq_none hstate (by tauto)] at hslot
    cases hslot
  have hsplit : ∀ pre next post, after = pre ++ next :: post →
      after ++ [call] = pre ++ next :: (post ++ [call]) := by
    rintro pre next post rfl
    rw [List.append_assoc, List.cons_append]
  by_cases hagain : ∃ pre next post, after = pre ++ next :: post ∧
      Reinstalls crypto (runCalls crypto {} (before ++ pre)) quarantine.fingerprint next
  · obtain ⟨store₁, hholds₁, -, -⟩ := runCalls_history crypto (before ++ after)
    obtain ⟨store₂, heffect, hholds₂⟩ := @runCall_effect crypto _ _ hholds₁ call
    obtain ⟨tail, htail⟩ := heffect.extends
    refine ⟨tail, ?_, fun _ _ _ _ _ => hagain⟩
    rw [recovered, runCalls_append, hholds₂.recover, recovered, hholds₁.recover, Store.view,
      viewOf_records, Store.view, viewOf_records, htail]
  · obtain ⟨store₁, hholds₁, hbarred₁⟩ := runCalls_barred crypto hholds hbarred after
      (fun pre next post heq => hrespects pre next _ (hsplit pre next post heq))
      (fun pre next post heq hre => hagain ⟨pre, next, post, heq, hre⟩)
    obtain ⟨store₂, heffect, hholds₂⟩ := @runCall_effect crypto _ _ hholds₁ call
    obtain ⟨tail, htail, hnot⟩ : ∃ tail, store₂.records = store₁.records ++ tail ∧
        ∀ r ∈ tail, NotAlive quarantine.moduleId quarantine.fingerprint r := by
      by_cases hop : ∃ package, call.op = .install package
      · obtain ⟨package, hop⟩ := hop
        rw [hop] at heffect
        exact heffect.install_notAlive
      · have hrespect := (hrespects after call [] rfl).1
        rw [hholds₁.recover, hholds₁.slots] at hrespect
        exact (heffect.barred hholds₁.sorted hbarred₁ hrespect
          fun package _ hinstall => absurd ⟨package, hinstall⟩ hop).2
    refine ⟨tail, ?_, fun r hr hown halive hsame => absurd hsame (hnot r hr hown halive)⟩
    rw [recovered, runCalls_append, hholds₂.recover, recovered, hholds₁.recover, Store.view,
      viewOf_records, Store.view, viewOf_records, htail]

/-! ### A quarantined package that comes back -/

/-- The second package has been put in quarantine. -/
def secondQuarantined : Store :=
  secondInstalled.append (secondInstalled.stateRecord secondVerified .quarantined .a .b 1 0)

/-- The module has been rolled back. -/
def secondRolledBack : Store :=
  secondQuarantined.append (secondQuarantined.stateRecord firstVerified .rejected .a .b 1 1)

/-- The second package has been activated again. -/
def secondLaundered : Store :=
  activatedStore secondRolledBack secondVerified
    (secondQuarantined.stateRecord firstVerified .rejected .a .b 1 1)

/-- The record that puts the second package in quarantine. -/
def secondQuarantine : CatalogRecord := smallRecord secondVerified 8 .quarantined .a .b 1

/-- The second package is installed and put in quarantine. -/
def quarantineCalls : List Call := secondCalls ++ [smallCall (.quarantine 0x7001)]

theorem holds_quarantineCalls :
    Holds (runCalls smallCrypto {} quarantineCalls) secondQuarantined := by
  have hquarantine : Completes smallCrypto smallInstaller (.quarantine 0x7001) secondInstalled
      secondQuarantined :=
    @completes_quarantine _ _ _ _ _ _ (smallRecord secondVerified 7 .verified .a .b 1) rfl
      ⟨by decide, rfl, accepts_second, ⟨by decide, by decide⟩, rfl⟩
      (accepts_second.encodable (by decide) (by decide) (by decide))
  rw [quarantineCalls, runCalls_append]
  exact hquarantine.runCall holds_secondCalls

theorem getLast?_recovered {calls : List Call} (h : Holds (runCalls crypto {} calls) store) :
    (recovered crypto calls).records.getLast? = store.records.getLast? := by
  rw [recovered, h.recover, Store.view, viewOf_records]

theorem getLast?_quarantineCalls :
    (recovered smallCrypto quarantineCalls).records.getLast? = some secondQuarantine := by
  rw [getLast?_recovered holds_quarantineCalls]
  rfl

theorem respects_removed : (smallCall (.removeCandidate 0x7001)).Respects smallCrypto
    (runCalls smallCrypto {} quarantineCalls) secondQuarantine.moduleId
    secondQuarantine.fingerprint := by
  rw [Call.Respects, holds_quarantineCalls.recover, holds_quarantineCalls.slots]
  refine ⟨?_, fun package hno => by cases hno⟩
  rintro - record confirmed - hconfirmed - - - package hpackage
  obtain rfl := Option.some.inj (hconfirmed.symm.trans (show secondQuarantined.view.confirmedByModule
    0x7001 = some (smallRecord firstVerified 5 .confirmed .a .none 1) from rfl))
  obtain rfl := Option.some.inj (hpackage.symm.trans (show secondQuarantined.slots 0x7001 .a = _
    from rfl))
  decide +kernel

/-- Removing the quarantined package and an activation do not bring it back. -/
theorem quarantine_kept_small :
    (recovered smallCrypto quarantineCalls).records.getLast? = some secondQuarantine ∧
      ∃ tail, (recovered smallCrypto (quarantineCalls ++ [smallCall (.removeCandidate 0x7001)] ++
          [smallCall (.activate 0x7001)])).records =
        (recovered smallCrypto (quarantineCalls ++
          [smallCall (.removeCandidate 0x7001)])).records ++ tail ∧
        ∀ r ∈ tail, ofModule secondQuarantine.moduleId r →
          r.state = .active ∨ r.state = .confirmed →
          r.fingerprint = secondQuarantine.fingerprint →
          ∃ pre next post, [smallCall (.removeCandidate 0x7001)] = pre ++ next :: post ∧
            Reinstalls smallCrypto (runCalls smallCrypto {} (quarantineCalls ++ pre))
              secondQuarantine.fingerprint next := by
  refine ⟨getLast?_quarantineCalls, quarantine_kept smallCrypto quarantineCalls _
    getLast?_quarantineCalls rfl rfl [smallCall (.removeCandidate 0x7001)] _ ?_⟩
  intro pre next post hsplit
  rw [List.singleton_append] at hsplit
  cases pre with
  | nil =>
    obtain rfl : smallCall (.removeCandidate 0x7001) = next := (List.cons.inj hsplit).1
    rw [List.append_nil]
    exact respects_removed
  | cons first pre =>
    have hmem : next ∈ [smallCall (.activate 0x7001)] := by
      rw [(List.cons.inj hsplit).2]
      exact List.mem_append_right _ (List.mem_cons_self ..)
    rw [List.mem_singleton.mp hmem]
    exact ⟨trivial, fun package hno => by cases hno⟩

/-- A rollback and an activation do bring it back. -/
theorem quarantine_laundered :
    (recovered smallCrypto quarantineCalls).records.getLast? = some secondQuarantine ∧
      secondQuarantine.state = .quarantined ∧
      ∃ r, (recovered smallCrypto (quarantineCalls ++ [smallCall (.rollback 0x7001)] ++
          [smallCall (.activate 0x7001)])).records.getLast? = some r ∧
        ofModule secondQuarantine.moduleId r ∧ r.state = .active ∧
        r.fingerprint = secondQuarantine.fingerprint := by
  have hrollback : Completes smallCrypto smallInstaller (.rollback 0x7001) secondQuarantined
      secondRolledBack :=
    @completes_rollback _ _ _ _ _ _ secondQuarantine
      (smallRecord firstVerified 5 .confirmed .a .none 1) rfl rfl
      ⟨by decide, rfl, accepts_first, ⟨by decide, by decide⟩, rfl⟩
      (accepts_first.encodable (by decide) (by decide) (by decide))
  have hactivate : Completes smallCrypto smallInstaller (.activate 0x7001) secondRolledBack
      secondLaundered :=
    completes_activate rfl (.inr rfl)
      ⟨by decide, rfl, accepts_second, ⟨by decide, by decide⟩, rfl⟩
      (accepts_second.encodable (by decide) (by decide) (by decide))
      (accepts_second.encodable (by decide) (by decide) (by decide))
  have hholds : Holds (runCalls smallCrypto {} (quarantineCalls ++
      [smallCall (.rollback 0x7001)] ++ [smallCall (.activate 0x7001)])) secondLaundered := by
    rw [runCalls_append, runCalls_append]
    exact hactivate.runCall (hrollback.runCall holds_quarantineCalls)
  refine ⟨getLast?_quarantineCalls, rfl, ?_⟩
  rw [getLast?_recovered hholds]
  exact ⟨_, rfl, rfl, rfl, rfl⟩

end Stm32SecurityLab.ModuleInstall
