import Stm32SecurityLab.ModuleInstall.Floors

/-!
# Confirmed modules

`current_confirmed_package` looks at the newest confirmation of a module and at the slot it names.
An installation goes to the other slot, and every other operation but one leaves the slots alone.

The one is `remove_candidate`. It erases the slot that the latest record names as candidate, and
that need not be a candidate: `activate` swaps the two slots, so that the record of a module that is
active but not confirmed names the slot of the confirmed package as its candidate.

## Main definitions

* `Spares` — what `remove_candidate` would erase is not the confirmed package
* `ConfirmsPackage` — a call confirms a package

## Main results

* `confirmed_module_kept` — over every run in which `remove_candidate` spares the confirmed package,
  a confirmed module has a confirmed package
* `confirmed_module_erased` — what happens when it does not
-/

namespace Stm32SecurityLab.ModuleInstall

open Crash

variable {crypto : ModuleCrypto} {installer : ModuleInstaller} {store store' : Store}
  {moduleId : ℕ} {package : List UInt8} {record : CatalogRecord}

/-! ### One operation -/

/-- The slot `remove_candidate` would erase is not that of the newest confirmation. -/
def Spares (view : RecoveryView) (moduleId : ℕ) : Prop :=
  ∀ record confirmed, view.latestByModule moduleId = some record →
    view.confirmedByModule moduleId = some confirmed →
    record.candidateSlot ≠ confirmed.activeSlot

/-- The newest confirmation of the module names a slot that holds the package. -/
structure Intact (crypto : ModuleCrypto) (store : Store) (moduleId : ℕ) (package : List UInt8)
    (confirmed : CatalogRecord) : Prop where
  newest : store.view.confirmedByModule moduleId = some confirmed
  content : store.slots moduleId confirmed.activeSlot = some package
  fingerprint : confirmed.fingerprint = crypto.sha256 package

/-- The operation confirms the package. -/
structure Confirmation (crypto : ModuleCrypto) (op : Op) (store store' : Store) (moduleId : ℕ)
    (package : List UInt8) (record : CatalogRecord) : Prop where
  op : op = .confirm moduleId
  appended : store'.records = store.records ++ [record]
  confirms : confirms moduleId record
  content : store.slots moduleId record.activeSlot = some package
  fingerprint : record.fingerprint = crypto.sha256 package

theorem Intact.append {confirmed : CatalogRecord}
    (h : Intact crypto store moduleId package confirmed)
    (hsorted : Sorted (store.append record).records) (hrecord : ¬ confirms moduleId record) :
    Intact crypto (store.append record) moduleId package confirmed where
  newest := by
    rw [Store.append_confirmed hsorted, if_neg hrecord]
    exact h.newest
  content := h.content
  fingerprint := h.fingerprint

theorem Intact.set {confirmed : CatalogRecord}
    (h : Intact crypto store moduleId package confirmed) {id : ℕ} {slot : ModuleSlot}
    {content : Option (List UInt8)} (hslot : id = moduleId → slot ≠ confirmed.activeSlot) :
    Intact crypto (store.set id slot content) moduleId package confirmed where
  newest := h.newest
  content := by
    refine (setSlot_apply ..).trans ((if_neg ?_).trans h.content)
    rintro ⟨rfl, hactive⟩
    exact hslot rfl hactive.symm
  fingerprint := h.fingerprint

/-- A confirmation of what stands in the slot. -/
theorem Intact.of_append (hsorted : Sorted (store.append record).records)
    (hrecord : confirms moduleId record)
    (hcontent : store.slots moduleId record.activeSlot = some package)
    (hfingerprint : record.fingerprint = crypto.sha256 package) :
    Intact crypto (store.append record) moduleId package record where
  newest := by rw [Store.append_confirmed hsorted, if_pos hrecord]
  content := hcontent
  fingerprint := hfingerprint

theorem not_confirms_of_state {state : InstallState} (h : record.state = state)
    (hstate : state ≠ .confirmed) : ¬ confirms moduleId record := by
  rw [confirms_iff]
  rintro ⟨-, -, hconfirmed⟩
  exact hstate (h.symm.trans hconfirmed)

theorem not_confirms_of_own (h : record.moduleId ≠ moduleId) : ¬ confirms moduleId record := by
  rw [confirms_iff]
  rintro ⟨-, hown, -⟩
  exact h hown

/-- **One operation.** A confirmed module keeps its package, or gets the one the operation
confirms. -/
theorem Effect.intact {op : Op} (heffect : Effect crypto installer op store store')
    (hsorted : Sorted store.records) {confirmed : CatalogRecord}
    (h : Intact crypto store moduleId package confirmed)
    (hspares : op = .removeCandidate moduleId → Spares store.view moduleId) :
    ∃ q r, Intact crypto store' moduleId q r ∧
      (q = package ∨ Confirmation crypto op store store' moduleId q r) := by
  have hother : ∀ {other : Store}, Intact crypto other moduleId package confirmed →
      ∀ {verified state activeSlot candidateSlot minVersion failures}, Sorted other.records →
        state ≠ .confirmed →
        Intact crypto (other.append (other.stateRecord verified state activeSlot candidateSlot
          minVersion failures)) moduleId package confirmed := by
    intro other hintact verified state activeSlot candidateSlot minVersion failures hs hstate
    exact hintact.append (Store.sorted_append hs rfl) (not_confirms_of_state rfl hstate)
  have hwritten : ∀ {verified : VerifiedPackage} {content : List UInt8},
      Intact crypto (writtenStore store verified content) moduleId package confirmed := by
    intro verified content
    refine (hother h hsorted (by decide)).set ?_
    rintro rfl
    exact candidateOf_ne h.newest
  have hremoved : ∀ {id : ℕ} {r : CatalogRecord}, op = .removeCandidate id →
      store.view.latestByModule id = some r →
        Intact crypto (store.set id r.candidateSlot none) moduleId package confirmed := by
    intro id r hop hlatest
    refine h.set ?_
    rintro rfl
    exact hspares hop _ _ hlatest h.newest
  cases heffect with
  | nothing => exact ⟨package, confirmed, h, .inl rfl⟩
  | receiving => exact ⟨package, confirmed, hother h hsorted (by decide), .inl rfl⟩
  | written => exact ⟨package, confirmed, hwritten, .inl rfl⟩
  | installed =>
    exact ⟨package, confirmed, hother hwritten (Store.sorted_append hsorted rfl) (by decide),
      .inl rfl⟩
  | pending => exact ⟨package, confirmed, hother h hsorted (by decide), .inl rfl⟩
  | activated =>
    exact ⟨package, confirmed, hother (hother h hsorted (by decide))
      (Store.sorted_append hsorted rfl) (by decide), .inl rfl⟩
  | @confirmed _ id r content verified latest state uses =>
    by_cases hid : id = moduleId
    · subst hid
      exact ⟨content, _, Intact.of_append (Store.sorted_append hsorted rfl)
        (confirms_iff.mpr ⟨rfl, uses.own, rfl⟩) uses.content uses.passes.fingerprint,
        .inr ⟨rfl, rfl, confirms_iff.mpr ⟨rfl, uses.own, rfl⟩, uses.content,
          uses.passes.fingerprint⟩⟩
    · refine ⟨package, confirmed, h.append (Store.sorted_append hsorted rfl) ?_, .inl rfl⟩
      exact not_confirms_of_own (uses.own.trans_ne hid)
  | rolledBack => exact ⟨package, confirmed, hother h hsorted (by decide), .inl rfl⟩
  | failed latest started uses state_eq =>
    refine ⟨package, confirmed, hother h hsorted ?_, .inl rfl⟩
    rcases state_eq with rfl | rfl <;> decide
  | quarantined => exact ⟨package, confirmed, hother h hsorted (by decide), .inl rfl⟩
  | @erased _ id r latest slot_ne =>
    exact ⟨package, confirmed, hremoved rfl latest, .inl rfl⟩
  | @reconfirmed _ id r c content verified latest slot_ne newest uses =>
    have hset := hremoved rfl latest
    have hsorted' : Sorted ((store.set id r.candidateSlot none).append (store.stateRecord verified
      .confirmed c.activeSlot .none r.minVersion 0)).records := Store.sorted_append hsorted rfl
    by_cases hid : id = moduleId
    · subst hid
      obtain rfl := Option.some.inj (h.newest.symm.trans newest)
      -- what was verified again is what had been confirmed
      obtain rfl := Option.some.inj (hset.content.symm.trans uses.content)
      exact ⟨package, _, Intact.of_append hsorted' (confirms_iff.mpr ⟨rfl, uses.own, rfl⟩)
        uses.content uses.passes.fingerprint, .inl rfl⟩
    · exact ⟨package, confirmed, hset.append hsorted' (not_confirms_of_own (uses.own.trans_ne hid)),
        .inl rfl⟩
  | @emptied _ id r latest slot_ne unconfirmed =>
    exact ⟨package, confirmed, (hremoved rfl latest).append (Store.sorted_append hsorted rfl)
      (@not_confirms_of_state _ _ .empty rfl (by decide)), .inl rfl⟩
  | revoked =>
    refine ⟨package, confirmed, h.append (Store.sorted_append hsorted rfl) ?_, .inl rfl⟩
    rw [confirms_iff]
    rintro ⟨hkind, -, -⟩
    cases hkind

/-- The slot of the newest confirmation is not touched. -/
theorem Effect.confirmed_slot {op : Op} (heffect : Effect crypto installer op store store')
    {confirmed : CatalogRecord} (hconfirmed : store.view.confirmedByModule moduleId = some confirmed)
    (hspares : op = .removeCandidate moduleId → Spares store.view moduleId) :
    store'.slots moduleId confirmed.activeSlot = store.slots moduleId confirmed.activeSlot := by
  have hwritten : ∀ {verified : VerifiedPackage} {content : List UInt8},
      (writtenStore store verified content).slots moduleId confirmed.activeSlot =
        store.slots moduleId confirmed.activeSlot := by
    intro verified content
    refine (setSlot_apply ..).trans (if_neg ?_)
    rintro ⟨rfl, hactive⟩
    exact candidateOf_ne hconfirmed hactive.symm
  have hremoved : ∀ {id : ℕ} {r : CatalogRecord}, op = .removeCandidate id →
      store.view.latestByModule id = some r →
        (store.set id r.candidateSlot none).slots moduleId confirmed.activeSlot =
          store.slots moduleId confirmed.activeSlot := by
    intro id r hop hlatest
    refine (setSlot_apply ..).trans (if_neg ?_)
    rintro ⟨rfl, hactive⟩
    exact hspares hop _ _ hlatest hconfirmed hactive.symm
  cases heffect with
  | written => exact hwritten
  | installed => exact hwritten
  | erased latest => exact hremoved rfl latest
  | reconfirmed latest => exact hremoved rfl latest
  | emptied latest => exact hremoved rfl latest
  | _ => rfl

/-! ### Runs -/

/-- The call confirms the package: it appends a confirmation of what stands in the active slot. -/
structure ConfirmsPackage (crypto : ModuleCrypto) (flash : SimulatedFlash) (call : Call)
    (moduleId : ℕ) (package : List UInt8) : Prop where
  op : call.op = .confirm moduleId
  appended : ∃ r, (recoverCatalog (runCall crypto flash call).catalog).records =
      (recoverCatalog flash.catalog).records ++ [r] ∧ confirms moduleId r ∧
    flash.slots moduleId r.activeSlot = some package ∧ r.fingerprint = crypto.sha256 package

theorem Intact.current {flash : SimulatedFlash} {confirmed : CatalogRecord}
    (hholds : Holds flash store) (h : Intact crypto store moduleId package confirmed) :
    currentConfirmedPackage crypto flash moduleId = some package := by
  rw [currentConfirmedPackage, hholds.recover, h.newest, hholds.slots]
  show (store.slots moduleId confirmed.activeSlot).bind _ = _
  rw [h.content]
  exact if_pos h.fingerprint.symm

theorem Confirmation.confirmsPackage {flash : SimulatedFlash} {call : Call} (hholds : Holds flash store)
    (hholds' : Holds (runCall crypto flash call) store')
    (h : Confirmation crypto call.op store store' moduleId package record) :
    ConfirmsPackage crypto flash call moduleId package := by
  refine ⟨h.op, record, ?_, h.confirms, ?_, h.fingerprint⟩
  · rw [hholds.recover, hholds'.recover, Store.view, Store.view, viewOf_records, viewOf_records]
    exact h.appended
  · rw [hholds.slots]
    exact h.content

/-- `confirm` returns only when it has confirmed what stands in the active slot. -/
theorem confirm_returns {flash flash' : SimulatedFlash} (h : Holds flash store)
    (hret : confirm crypto installer moduleId flash = .ret () flash') :
    ∃ store' package r, Holds flash' store' ∧ Intact crypto store' moduleId package r ∧
      Confirmation crypto (.confirm moduleId) store store' moduleId package r := by
  have hspec : wp (confirm crypto installer moduleId) flash
      (fun _ flash' => ∃ store' package r, Holds flash' store' ∧
        Intact crypto store' moduleId package r ∧
        Confirmation crypto (.confirm moduleId) store store' moduleId package r)
      (fun _ _ => True) (fun _ => True) := by
    rw [confirm, wp_bind]
    refine wp_requireLatest h (fun record hlatest => ?_) fun _ => trivial
    rw [wp_bind, wp_check]
    refine ⟨fun hstate => wp_useSlot h (fun package verified huses => ?_) fun _ => trivial,
      fun _ => trivial⟩
    refine wp_appendState h (fun flash₁ h₁ _ => ?_) (fun _ _ _ _ => trivial) fun _ => trivial
    have hconfirms : confirms moduleId (store.stateRecord verified .confirmed record.activeSlot
        .none (max record.minVersion verified.moduleVersion) 0) :=
      confirms_iff.mpr ⟨rfl, huses.own, rfl⟩
    exact ⟨_, package, _, h₁, Intact.of_append h₁.sorted hconfirms huses.content
      huses.passes.fingerprint, rfl, rfl, hconfirms, huses.content, huses.passes.fingerprint⟩
  exact hspec.ret hret

/-- A confirmed module, over any number of calls. -/
theorem runCalls_intact (crypto : ModuleCrypto) {start : List Call} {confirmed : CatalogRecord}
    (hholds : Holds (runCalls crypto {} start) store)
    (h : Intact crypto store moduleId package confirmed) (after : List Call)
    (hspares : ∀ pre next post, after = pre ++ next :: post →
      next.op = .removeCandidate moduleId → Spares (recovered crypto (start ++ pre)) moduleId) :
    ∃ store', Holds (runCalls crypto {} (start ++ after)) store' ∧
      ∃ q r, Intact crypto store' moduleId q r ∧
        (q = package ∨ ∃ pre next post, after = pre ++ next :: post ∧
          ConfirmsPackage crypto (runCalls crypto {} (start ++ pre)) next moduleId q) := by
  induction after using List.reverseRecOn with
  | nil =>
    rw [List.append_nil]
    exact ⟨store, hholds, package, confirmed, h, .inl rfl⟩
  | append_singleton after next ih =>
    obtain ⟨store₁, hholds₁, q, r, hintact, horigin⟩ := ih fun pre next' post hsplit =>
      hspares pre next' (post ++ [next]) (by rw [hsplit, List.append_assoc, List.cons_append])
    obtain ⟨store₂, heffect, hholds₂⟩ := @runCall_effect crypto _ _ hholds₁ next
    obtain ⟨q', r', hintact', hnew⟩ := heffect.intact hholds₁.sorted hintact fun hop => by
      have hnext := hspares after next [] rfl hop
      rwa [recovered, hholds₁.recover] at hnext
    rw [← List.append_assoc, runCalls_append]
    refine ⟨store₂, hholds₂, q', r', hintact', ?_⟩
    rcases hnew with rfl | hnew
    · rcases horigin with rfl | ⟨pre, next', post, rfl, hconfirms⟩
      · exact .inl rfl
      · exact .inr ⟨pre, next', post ++ [next], by rw [List.append_assoc, List.cons_append],
          hconfirms⟩
    · exact .inr ⟨after, next, [], rfl, hnew.confirmsPackage hholds₁ hholds₂⟩

/-- **A confirmed module is kept.** Once `confirm` has returned for a package of a module, then over
every continuation of the run in which `remove_candidate` spares the confirmed slot of the module,
whatever else is done by whichever installers and wherever the power is lost, the module has a
confirmed package: this one or one confirmed after it. No operation has touched the slot that the
newest confirmation named. -/
theorem confirmed_module_kept (crypto : ModuleCrypto) (before : List Call) (call : Call)
    (moduleId : ℕ) (hop : call.op = .confirm moduleId)
    (hreturns : ∃ flash', call.outcome crypto (runCalls crypto {} before) = .ret () flash') :
    ∃ package, ConfirmsPackage crypto (runCalls crypto {} before) call moduleId package ∧
      ∀ after : List Call,
        (∀ pre next post, after = pre ++ next :: post → next.op = .removeCandidate moduleId →
          Spares (recovered crypto (before ++ [call] ++ pre)) moduleId) →
        (∃ q, currentConfirmedPackage crypto (runCalls crypto {} (before ++ [call] ++ after))
            moduleId = some q ∧
          (q = package ∨ ∃ pre next post, after = pre ++ next :: post ∧
            ConfirmsPackage crypto (runCalls crypto {} (before ++ [call] ++ pre)) next moduleId
              q)) ∧
        ∀ pre next post, after = pre ++ next :: post → ∀ confirmed,
          (recovered crypto (before ++ [call] ++ pre)).confirmedByModule moduleId =
              some confirmed →
            (runCalls crypto {} (before ++ [call] ++ pre ++ [next])).slots moduleId
                confirmed.activeSlot =
              (runCalls crypto {} (before ++ [call] ++ pre)).slots moduleId
                confirmed.activeSlot := by
  obtain ⟨store, hholds, -, -⟩ := runCalls_history crypto before
  obtain ⟨flash', hret⟩ := hreturns
  have hrun : runCalls crypto {} (before ++ [call]) = flash' := by
    rw [runCalls_append, runCall, hret]
    rfl
  rw [Call.outcome, hop, Op.run] at hret
  have hset : Holds (setPowerLossAfter (runCalls crypto {} before) call.failAfter) store :=
    hholds.congr rfl rfl
  obtain ⟨store', package, r, hholds', hintact, hconfirmation⟩ := confirm_returns hset hret
  rw [← hrun] at hholds'
  refine ⟨package, ?_, fun after hspares => ⟨?_, ?_⟩⟩
  · rw [← hop] at hconfirmation
    refine hconfirmation.confirmsPackage hholds ?_
    rw [← runCalls_append]
    exact hholds'
  · obtain ⟨store₁, hholds₁, q, r₁, hintact₁, horigin⟩ :=
      runCalls_intact crypto hholds' hintact after hspares
    exact ⟨q, hintact₁.current hholds₁, horigin⟩
  · intro pre next post hafter confirmed hconfirmed
    obtain ⟨store₁, hholds₁, -, -⟩ := runCalls_history crypto (before ++ [call] ++ pre)
    obtain ⟨store₂, heffect, hholds₂⟩ := @runCall_effect crypto _ _ hholds₁ next
    have hview : recovered crypto (before ++ [call] ++ pre) = store₁.view := hholds₁.recover
    rw [runCalls_append, hholds₁.slots, hholds₂.slots]
    refine heffect.confirmed_slot (by rw [← hview]; exact hconfirmed) fun hop => ?_
    rw [← hview]
    exact hspares pre next post hafter hop

/-- The second package is installed, and what `remove_candidate` erases is that. -/
theorem spares_secondCalls : Spares (recovered smallCrypto secondCalls) 0x7001 := by
  intro record confirmed hlatest hconfirmed
  rw [recovered, holds_secondCalls.recover] at hlatest hconfirmed
  have hrecord : some (smallRecord secondVerified 7 .verified .a .b 1) = some record := hlatest
  have hactive : some (smallRecord firstVerified 5 .confirmed .a .none 1) = some confirmed :=
    hconfirmed
  rw [← Option.some.inj hrecord, ← Option.some.inj hactive]
  decide

/-- The second package is installed and removed, and the first is still there. -/
theorem confirmed_module_kept_small :
    (∃ flash', (smallCall (.confirm 0x7001)).outcome smallCrypto
        (runCalls smallCrypto {} firstCalls) = .ret () flash') ∧
      (∃ q, currentConfirmedPackage smallCrypto (runCalls smallCrypto {}
        (secondCalls ++ [smallCall (.removeCandidate 0x7001)])) 0x7001 = some q) ∧
      (runCalls smallCrypto {} (secondCalls ++ [smallCall (.removeCandidate 0x7001)])).slots 0x7001
        .a = some firstPackage := by
  obtain ⟨flash', hret, -⟩ := completes_firstConfirm.outcome holds_firstCalls
  refine ⟨⟨flash', hret⟩, ?_⟩
  obtain ⟨package, -, hkept⟩ := confirmed_module_kept smallCrypto firstCalls
    (smallCall (.confirm 0x7001)) 0x7001 rfl ⟨flash', hret⟩
  obtain ⟨⟨q, hq, -⟩, hslots⟩ := hkept
    [smallCall (.install secondPackage), smallCall (.removeCandidate 0x7001)] (by
      intro pre next post hsplit hop
      rcases List.cons_eq_append_iff.mp hsplit with ⟨-, hnext⟩ | ⟨pre', rfl, hsplit'⟩
      · cases hnext
        cases hop
      · rcases List.cons_eq_append_iff.mp hsplit' with ⟨rfl, -⟩ | ⟨pre'', -, hno⟩
        · exact spares_secondCalls
        · cases pre'' <;> cases hno)
  refine ⟨⟨q, ?_⟩, ?_⟩
  · rw [← hq, secondCalls, List.append_assoc]
    rfl
  · have hslot := hslots [smallCall (.install secondPackage)] (smallCall (.removeCandidate 0x7001))
      [] rfl (smallRecord firstVerified 5 .confirmed .a .none 1)
    have hactive : (smallRecord firstVerified 5 .confirmed .a .none 1).activeSlot = .a := rfl
    rw [← secondCalls, hactive] at hslot
    rw [hslot, holds_secondCalls.slots]
    · rfl
    · rw [recovered, holds_secondCalls.recover]
      rfl

/-! ### The confirmed package erased -/

/-- When `remove_candidate` does not spare the confirmed slot, the package is gone and the operation
cannot return, wherever the power is lost. -/
theorem wp_removeCandidate_confirmed {flash : SimulatedFlash} {confirmed : CatalogRecord}
    (h : Holds flash store) (hlatest : store.view.latestByModule moduleId = some record)
    (hconfirmed : store.view.confirmedByModule moduleId = some confirmed)
    (hslot : record.candidateSlot ≠ .none) (hsame : record.candidateSlot = confirmed.activeSlot) :
    wp (removeCandidate crypto installer moduleId) flash (fun _ _ => False)
      (fun _ flash' => Holds flash' (store.set moduleId record.candidateSlot none))
      (fun flash' => Holds flash' (store.set moduleId record.candidateSlot none)) := by
  have hset := h.set moduleId record.candidateSlot none
  have hgone : (store.set moduleId record.candidateSlot none).slots moduleId
      confirmed.activeSlot = none := (setSlot_apply ..).trans (if_pos ⟨rfl, hsame.symm⟩)
  rw [removeCandidate, wp_bind]
  refine wp_requireLatest_some h hlatest ?_
  rw [if_neg hslot, wp_bind]
  simp only [eraseSlot, wp_bind, wp_check, wp_modify]
  refine ⟨fun _ => ?_, fun hno => absurd hslot hno⟩
  refine wp_afterPersistentWrite ?_ fun _ => hset.congr rfl rfl
  have herased : Holds { flash with
      slots := setSlot flash.slots moduleId record.candidateSlot none
      writeCount := flash.writeCount + 1 } _ := hset.congr rfl rfl
  refine wp_recover herased ?_
  rw [Store.set_view, hconfirmed]
  dsimp only
  rw [wp_bind]
  refine (wp_readSlotOrFail herased (fun package _ hpackage => ?_) fun _ => herased)
  rw [hgone] at hpackage
  cases hpackage

/-- The module is left without a confirmed package. -/
theorem runCall_removeCandidate_confirmed {flash : SimulatedFlash} {confirmed : CatalogRecord}
    {failAfter : Option ℕ} (h : Holds flash store)
    (hlatest : store.view.latestByModule moduleId = some record)
    (hconfirmed : store.view.confirmedByModule moduleId = some confirmed)
    (hslot : record.candidateSlot ≠ .none) (hsame : record.candidateSlot = confirmed.activeSlot) :
    currentConfirmedPackage crypto
      (runCall crypto flash ⟨installer, .removeCandidate moduleId, failAfter⟩) moduleId = none := by
  have hset : Holds (setPowerLossAfter flash failAfter) store := h.congr rfl rfl
  have hspec := @wp_removeCandidate_confirmed crypto installer _ _ _ _ _ hset hlatest hconfirmed
    hslot hsame
  have herased : Holds (runCall crypto flash ⟨installer, .removeCandidate moduleId, failAfter⟩)
      (store.set moduleId record.candidateSlot none) :=
    wp_state_iff.mp (hspec.mono (fun _ _ hno => hno.elim) (fun _ _ h' => h') fun _ h' => h')
  have hgone : (store.set moduleId record.candidateSlot none).slots moduleId
      confirmed.activeSlot = none := (setSlot_apply ..).trans (if_pos ⟨rfl, hsame.symm⟩)
  rw [currentConfirmedPackage, herased.recover, herased.slots, Store.set_view, hconfirmed]
  show Option.bind ((store.set moduleId record.candidateSlot none).slots moduleId
    confirmed.activeSlot) _ = none
  rw [hgone]
  rfl

/-- The second package has been activated. -/
def secondActive : Store :=
  activatedStore secondInstalled secondVerified (smallRecord secondVerified 7 .verified .a .b 1)

theorem completes_secondActivate :
    Completes smallCrypto smallInstaller (.activate 0x7001) secondInstalled secondActive :=
  completes_activate rfl (.inl rfl) ⟨by decide, rfl, accepts_second, ⟨by decide, by decide⟩, rfl⟩
    (accepts_second.encodable (by decide) (by decide) (by decide))
    (accepts_second.encodable (by decide) (by decide) (by decide))

theorem intact_firstConfirmed : Intact smallCrypto firstConfirmed 0x7001 firstPackage
    (smallRecord firstVerified 5 .confirmed .a .none 1) where
  newest := rfl
  content := rfl
  fingerprint := by rw [smallRecord, firstVerified, verifiedOf]

/-- The first package is confirmed, the second is installed and activated, and the candidate is
removed: what is removed is the first package. -/
theorem confirmed_module_erased :
    (∃ flash', (smallCall (.confirm 0x7001)).outcome smallCrypto
        (runCalls smallCrypto {} firstCalls) = .ret () flash') ∧
      currentConfirmedPackage smallCrypto
        (runCalls smallCrypto {} (firstCalls ++ [smallCall (.confirm 0x7001)])) 0x7001 =
          some firstPackage ∧
      currentConfirmedPackage smallCrypto
        (runCalls smallCrypto {} (secondCalls ++ [smallCall (.activate 0x7001)] ++
          [smallCall (.removeCandidate 0x7001)])) 0x7001 = none := by
  obtain ⟨flash', hret, -⟩ := completes_firstConfirm.outcome holds_firstCalls
  refine ⟨⟨flash', hret⟩, ?_, ?_⟩
  · rw [runCalls_append]
    exact intact_firstConfirmed.current (completes_firstConfirm.runCall holds_firstCalls)
  · have hholds : Holds (runCalls smallCrypto {} (secondCalls ++ [smallCall (.activate 0x7001)]))
        secondActive := by
      rw [runCalls_append]
      exact completes_secondActivate.runCall holds_secondCalls
    rw [runCalls_append]
    exact @runCall_removeCandidate_confirmed _ _ _ _ (smallRecord secondVerified 9 .active .b .a 1)
      _ (smallRecord firstVerified 5 .confirmed .a .none 1) _ hholds rfl rfl (by decide) rfl

end Stm32SecurityLab.ModuleInstall
