import Stm32SecurityLab.Boot.SlotSelection
import Stm32SecurityLab.Image.Acceptance

/-!
# Which slot is booted

The decision of `boot_slot_selection_select` as a condition on what the journal says, what the
verifier says of each slot, and whether the commit of a trial is reported to have succeeded. There
is no fault hook here; the device may fail and lose power at any operation.

A trial needs all three. Without it the active slot is booted if it verifies, whatever kept the
candidate from being tried.

## Main definitions

* `TrialGranted`, `ActiveBootable` — the two conditions
* `Chosen` — a slot, and the jump context the verifier made for it

## Main results

* `bootSlotSelectionSelect_decides` — the decision
-/

namespace Stm32SecurityLab

open Crash Selector

/-! ### The conditions -/

/-- The verification function accepts. -/
def VerifySlotOutcome.Passes (outcome : VerifySlotOutcome) : Prop :=
  outcome.status = .ok () ∧ outcome.verifyStatus = .ok ()

/-- The verification function says `outcomes slot` of each slot that holds what it held in `m`. -/
def VerifiesAs (options : BootSlotSelectionOptions) (m : Mem)
    (outcomes : BootSlotId → VerifySlotOutcome) : Prop :=
  ∀ calls m' slot, SlotSame slot m m' →
    options.verifySlot calls m' (bootSlots slot) = outcomes slot

/-- The recovery of the metadata on `d` returns `metadata` and leaves `d₁`. -/
def Recovers (d : Device) (metadata : BootMetadataRecord) (d₁ : Device) : Prop :=
  ∃ recovery, (bootMetadataRecoverFromFlash : Prog Device BootSlotSelectionError _) d =
    .ret (recovery, .ok metadata) d₁

/-- The attempts that are left once this one is taken. -/
def attemptsAfter (metadata : BootMetadataRecord) : UInt32 :=
  if metadata.state = .candidateReady then bootMetadataMaxBootAttempts - 1
  else metadata.bootAttemptCount - 1

/-- A trial of the candidate can be started or continued, and the record that takes an attempt from
it is committed, as far as the commit reports. -/
structure TrialGranted (options : BootSlotSelectionOptions)
    (outcomes : BootSlotId → VerifySlotOutcome) (metadata : BootMetadataRecord) (d₁ : Device)
    (slot : BootSlotId) : Prop where
  candidate : metadata.candidateSlot = slot.toUInt32
  state : metadata.state = .candidateReady ∨
    (metadata.state = .pendingTrial ∧ 0 < metadata.bootAttemptCount)
  passes : (outcomes slot).Passes
  committed : ∃ next d₂,
    bootMetadataPrepareNext metadata .pendingTrial metadata.activeSlot metadata.candidateSlot
      metadata.candidateImageVersion (attemptsAfter metadata) 0
      (if options.trialResetResult ≠ 0 then options.trialResetResult
        else bootSlotSelectionResultNone) = .ok next ∧
    bootMetadataCommit options.metadataFlash next d₁ = .ret () d₂

/-- The active slot verifies. -/
structure ActiveBootable (outcomes : BootSlotId → VerifySlotOutcome)
    (metadata : BootMetadataRecord) (slot : BootSlotId) : Prop where
  active : metadata.activeSlot = slot.toUInt32
  passes : (outcomes slot).Passes

/-- How a boot of the active slot is reported. -/
def activeDecision (metadata : BootMetadataRecord) : BootSlotSelectionDecision :=
  if metadata.state = .confirmed then .confirmed else .fallback

/-- The result of a boot of `slot`. -/
structure Chosen (outcomes : BootSlotId → VerifySlotOutcome) (result : BootSlotSelectionResult)
    (decision : BootSlotSelectionDecision) (slot : BootSlotId) : Prop where
  decision : result.decision = decision
  selected : result.selectedSlot = slot.toUInt32
  verified : result.selectedVerifyStatus = .ok ()
  jumpContext : result.jumpContext = (outcomes slot).jumpContext

/-! ### The functions, without a fault hook -/

section Functions

variable {options : BootSlotSelectionOptions} {outcomes : BootSlotId → VerifySlotOutcome}
  {m : Mem} {s : Selector} {metadata : BootMetadataRecord}

/-- The slots hold what they held in `m`. -/
def SlotsSame (m : Mem) (s : Selector) : Prop := ∀ slot, SlotSame slot m s.dev.mem

theorem maybeInject_none (hhook : options.faultHook = none) (point : BootSlotSelectionFaultPoint)
    (detail : UInt32) : maybeInject options point detail = pure () := by
  rw [maybeInject, hhook]

/-- What `verify_slot` makes of the outcome. -/
def verifyAnswer (outcome : VerifySlotOutcome) :
    Except BootSlotSelectionError SignedImageJumpContext × Except VerifyError Unit :=
  match outcome.status, outcome.verifyStatus with
  | .error status, verifyStatus => (.error status, verifyStatus)
  | .ok (), .ok () => (.ok outcome.jumpContext, .ok ())
  | .ok (), .error e => (.error .verify, .error e)

theorem wp_verifySlot (hhook : options.faultHook = none) (hv : VerifiesAs options m outcomes)
    (hs : SlotsSame m s) (slot : BootSlotId) (point : BootSlotSelectionFaultPoint)
    {Q : _ → Selector → Prop} {E : BootSlotSelectionError → Selector → Prop} {C : Selector → Prop} :
    wp (verifySlot options (bootSlots slot) point) s Q E C ↔
      Q (verifyAnswer (outcomes slot)) { s with calls := s.calls + 1 } := by
  rw [verifySlot, maybeInject_none hhook]
  simp only [wp_bind, wp_attempt, wp_pure, wp_countCall, wp_get]
  rw [hv s.calls s.dev.mem slot (hs slot), verifyAnswer]
  rcases outcomes slot with ⟨status | ⟨⟨⟩⟩, verifyStatus | ⟨⟨⟩⟩, context⟩ <;> exact Iff.rfl

theorem verifyAnswer_of_passes {outcome : VerifySlotOutcome} (h : outcome.Passes) :
    verifyAnswer outcome = (.ok outcome.jumpContext, .ok ()) := by
  rw [verifyAnswer, h.1, h.2]

theorem verifyAnswer_of_not_passes {outcome : VerifySlotOutcome} (h : ¬ outcome.Passes) :
    ∃ e, (verifyAnswer outcome).1 = .error e := by
  rcases outcome with ⟨status | ⟨⟨⟩⟩, verifyStatus | ⟨⟨⟩⟩, context⟩
  · exact ⟨_, rfl⟩
  · exact ⟨_, rfl⟩
  · exact ⟨_, rfl⟩
  · exact absurd ⟨rfl, rfl⟩ h

theorem selectConfirmedSlot_decides (hhook : options.faultHook = none)
    (hv : VerifiesAs options m outcomes) (hs : SlotsSame m s)
    (decision : BootSlotSelectionDecision) :
    wp (selectConfirmedSlot options metadata decision) s
      (fun _ s' => ∃ slot, ActiveBootable outcomes metadata slot ∧
        Chosen outcomes s'.result decision slot)
      (fun _ _ => ∀ slot, ¬ ActiveBootable outcomes metadata slot) (fun _ => False) := by
  rw [selectConfirmedSlot]
  cases hlookup : bootSlotLookup metadata.activeSlot with
  | none =>
    intro slot h
    rw [h.active, bootSlotLookup_toUInt32] at hlookup
    cases hlookup
  | some descriptor =>
    obtain ⟨slot, hslot, rfl⟩ := eq_of_bootSlotLookup hlookup
    simp only [wp_bind, wp_verifySlot hhook hv hs, wp_selectorModifyResult]
    by_cases hpass : (outcomes slot).Passes
    · rw [verifyAnswer_of_passes hpass]
      exact ⟨slot, ⟨hslot, hpass⟩, rfl, congrArg BootSlotId.toUInt32 (bootSlots_id slot),
        rfl, rfl⟩
    · obtain ⟨e, he⟩ := verifyAnswer_of_not_passes hpass
      have hnone : ∀ other, ¬ ActiveBootable outcomes metadata other := by
        intro other h
        have hsame : slot = other := BootSlotId.toUInt32_inj.mp (hslot.symm.trans h.active)
        exact hpass (hsame ▸ h.passes)
      rw [he]
      cases e <;> exact hnone

theorem fallbackToConfirmed_decides (hhook : options.faultHook = none)
    (hv : VerifiesAs options m outcomes) (hs : SlotsSame m s) :
    wp (fallbackToConfirmed options metadata) s
      (fun _ s' => ∃ slot, ActiveBootable outcomes metadata slot ∧
        Chosen outcomes s'.result .fallback slot)
      (fun _ _ => ∀ slot, ¬ ActiveBootable outcomes metadata slot) (fun _ => False) := by
  rw [fallbackToConfirmed]
  split
  · rename_i hnone
    intro slot h
    exact slot.toUInt32_ne_none (h.active.symm.trans hnone)
  · exact selectConfirmedSlot_decides hhook hv hs .fallback

/-- What a selection that has recovered `metadata` and left `d₁` ends with. -/
def Decides (options : BootSlotSelectionOptions) (outcomes : BootSlotId → VerifySlotOutcome)
    (metadata : BootMetadataRecord) (d₁ : Device) (result : BootSlotSelectionResult) : Prop :=
  (∃ slot, TrialGranted options outcomes metadata d₁ slot ∧ Chosen outcomes result .trial slot) ∨
    ((∀ slot, ¬ TrialGranted options outcomes metadata d₁ slot) ∧
      ∃ slot, ActiveBootable outcomes metadata slot ∧
        Chosen outcomes result (activeDecision metadata) slot)

/-- Falling back, once no trial is possible. -/
theorem fallbackToConfirmed_of_not_granted {d₁ : Device} (hhook : options.faultHook = none)
    (hv : VerifiesAs options m outcomes) (hs : SlotsSame m s) (hstate : metadata.state ≠ .confirmed)
    (hnot : ∀ slot, ¬ TrialGranted options outcomes metadata d₁ slot) :
    wp (fallbackToConfirmed options metadata) s
      (fun _ s' => Decides options outcomes metadata d₁ s'.result)
      (fun _ _ => (∀ slot, ¬ TrialGranted options outcomes metadata d₁ slot) ∧
        ∀ slot, ¬ ActiveBootable outcomes metadata slot)
      (fun _ => ∀ slot, ¬ TrialGranted options outcomes metadata d₁ slot) := by
  have hdecision : activeDecision metadata = .fallback := if_neg hstate
  refine (fallbackToConfirmed_decides hhook hv hs).mono ?_ ?_ ?_
  · intro _ s' h
    rw [← hdecision] at h
    exact .inr ⟨hnot, h⟩
  · intro _ _ h
    exact ⟨hnot, h⟩
  · intro _ h
    exact h.elim

theorem rejectInvalidBestEffort_slots (hs : SlotsSame m s) (resultCode : UInt32) :
    wp (rejectInvalidBestEffort options metadata resultCode) s
      (fun _ s' => SlotsSame m s') (fun _ _ => False) (fun _ => True) := by
  have hslots : ∀ {s' : Selector}, Counts MetaOp s s' → SlotsSame m s' := by
    intro s' h slot x hx hx'
    rw [SlotSame.of_meta h.dev slot x hx hx', hs slot x hx hx']
  rw [rejectInvalidBestEffort]
  rw [wp_ite]
  refine ⟨fun _ => ?_, fun _ => hs⟩
  simp only [wp_bind, wp_attempt, wp_pure]
  exact commitNext_spec.mono (fun _ _ h => hslots h.1) (fun _ _ h => hslots h.1) (fun _ _ => trivial)

/-- Committing the attempt grants the trial or leaves it to the active slot. -/
theorem commitTrial_decides {slot : BootSlotId} {attempts : UInt32}
    {point : BootSlotSelectionFaultPoint} (hhook : options.faultHook = none)
    (hv : VerifiesAs options m outcomes) (hs : SlotsSame m s)
    (hcandidate : metadata.candidateSlot = slot.toUInt32)
    (hstate : metadata.state = .candidateReady ∨
      (metadata.state = .pendingTrial ∧ 0 < metadata.bootAttemptCount))
    (hpass : (outcomes slot).Passes) (hattempts : attempts = attemptsAfter metadata) :
    wp (commitTrial options metadata (bootSlots slot) (outcomes slot).jumpContext (.ok ()) attempts
        point) s
      (fun _ s' => Decides options outcomes metadata s.dev s'.result)
      (fun _ _ => (∀ slot, ¬ TrialGranted options outcomes metadata s.dev slot) ∧
        ∀ slot, ¬ ActiveBootable outcomes metadata slot)
      (fun _ => ∀ slot, ¬ TrialGranted options outcomes metadata s.dev slot) := by
  have hconfirmed : metadata.state ≠ .confirmed := by
    rcases hstate with h | ⟨h, -⟩ <;> rw [h] <;> decide
  subst hattempts
  rw [commitTrial]
  cases hnext : bootMetadataPrepareNext metadata .pendingTrial metadata.activeSlot
      metadata.candidateSlot metadata.candidateImageVersion (attemptsAfter metadata) 0
      (if options.trialResetResult ≠ 0 then options.trialResetResult
        else bootSlotSelectionResultNone) with
  | error e =>
    have hnot : ∀ slot, ¬ TrialGranted options outcomes metadata s.dev slot := by
      rintro other ⟨-, -, -, next, -, hok, -⟩
      rw [hnext] at hok
      cases hok
    simp only [fallbackBecause, wp_bind, wp_selectorModifyResult]
    exact fallbackToConfirmed_of_not_granted hhook hv hs hconfirmed hnot
  | ok next =>
    -- the trial is granted exactly when this commit returns
    have hgranted : ∀ {other}, TrialGranted options outcomes metadata s.dev other →
        ∃ d₂, bootMetadataCommit options.metadataFlash next s.dev = .ret () d₂ := by
      rintro other ⟨-, -, -, next', d₂, hok, hret⟩
      obtain rfl := Except.ok.inj (hnext.symm.trans hok)
      exact ⟨d₂, hret⟩
    have hframe : Steps (Device.Extends MetaOp) (bootMetadataCommit options.metadataFlash next) :=
      steps_bootMetadataCommit fun side op hop _ => ⟨side, hop⟩
    have hslots : ∀ {d'}, s.dev.Extends MetaOp d' → SlotsSame m { s with dev := d' } := by
      intro d' h slot x hx hx'
      exact (SlotSame.of_meta h slot x hx hx').trans (hs slot x hx hx')
    simp only [wp_bind, wp_attempt, commitNext, maybeInject_none hhook, wp_pure, onDev, wp_zoom,
      wp_mapErr]
    refine wp_of_outcome ?_ ?_ ?_
    · rintro ⟨⟩ d' hret
      exact .inl ⟨slot, ⟨hcandidate, hstate, hpass, next, d', hnext, hret⟩, rfl,
        congrArg BootSlotId.toUInt32 (bootSlots_id slot), rfl, rfl⟩
    · intro e d' herr
      have hnot : ∀ slot, ¬ TrialGranted options outcomes metadata s.dev slot := by
        intro other h
        obtain ⟨d₂, hret⟩ := hgranted h
        rw [herr] at hret
        cases hret
      simp only [fallbackBecause, wp_bind, wp_selectorModifyResult]
      exact fallbackToConfirmed_of_not_granted hhook hv (hslots ((hframe s.dev).err herr)) hconfirmed
        hnot
    · intro d' hcut other h
      obtain ⟨d₂, hret⟩ := hgranted h
      rw [hcut] at hret
      cases hret

theorem startOrContinueTrial_decides (hhook : options.faultHook = none)
    (hv : VerifiesAs options m outcomes) (hs : SlotsSame m s)
    (hstate : metadata.state = .candidateReady ∨ metadata.state = .pendingTrial) :
    wp (startOrContinueTrial options metadata) s
      (fun _ s' => Decides options outcomes metadata s.dev s'.result)
      (fun _ _ => (∀ slot, ¬ TrialGranted options outcomes metadata s.dev slot) ∧
        ∀ slot, ¬ ActiveBootable outcomes metadata slot)
      (fun _ => ∀ slot, ¬ TrialGranted options outcomes metadata s.dev slot) := by
  have hconfirmed : metadata.state ≠ .confirmed := by
    rcases hstate with h | h <;> rw [h] <;> decide
  rw [startOrContinueTrial]
  cases hlookup : bootSlotLookup metadata.candidateSlot with
  | none =>
    have hnot : ∀ slot, ¬ TrialGranted options outcomes metadata s.dev slot := by
      intro slot h
      rw [h.candidate, bootSlotLookup_toUInt32] at hlookup
      cases hlookup
    simp only [fallbackBecause, wp_bind, wp_selectorModifyResult]
    exact fallbackToConfirmed_of_not_granted hhook hv hs hconfirmed hnot
  | some descriptor =>
    obtain ⟨slot, hslot, rfl⟩ := eq_of_bootSlotLookup hlookup
    have hsame : ∀ {other}, TrialGranted options outcomes metadata s.dev other → slot = other :=
      fun h => BootSlotId.toUInt32_inj.mp (hslot.symm.trans h.candidate)
    simp only [wp_bind, wp_verifySlot hhook hv hs, wp_selectorModifyResult]
    by_cases hpass : (outcomes slot).Passes
    · rw [verifyAnswer_of_passes hpass]
      rw [wp_ite, wp_ite]
      refine ⟨fun hready => ?_, fun hready => ⟨fun hpos => ?_, fun hpos => ?_⟩⟩
      · exact commitTrial_decides hhook hv hs hslot (.inl hready) hpass (if_pos hready).symm
      · exact commitTrial_decides hhook hv hs hslot (.inr ⟨hstate.resolve_left hready, hpos⟩) hpass
          (if_neg hready).symm
      · have hnot : ∀ slot, ¬ TrialGranted options outcomes metadata s.dev slot := by
          intro other h
          rcases h.state with h' | ⟨-, h'⟩
          · exact hready h'
          · exact hpos h'
        simp only [fallbackBecause, wp_bind, wp_selectorModifyResult]
        exact wp.mono (rejectInvalidBestEffort_slots (by exact hs) _)
          (fun _ _ h => fallbackToConfirmed_of_not_granted hhook hv (by exact h) hconfirmed hnot)
          (fun _ _ h => h.elim) (fun _ _ => hnot)
    · obtain ⟨e, he⟩ := verifyAnswer_of_not_passes hpass
      have hnot : ∀ slot, ¬ TrialGranted options outcomes metadata s.dev slot :=
        fun other h => hpass (hsame h ▸ h.passes)
      rw [he]
      simp only [wp_bind, wp_selectorModifyResult]
      exact wp.mono (rejectInvalidBestEffort_slots (by exact hs) _)
        (fun _ _ h => fallbackToConfirmed_of_not_granted hhook hv h hconfirmed hnot)
        (fun _ _ h => h.elim) (fun _ _ => hnot)

/-- The recovered record decides alone what a state without a trial ends with. -/
theorem not_trialGranted_of_state {d₁ : Device} (h : metadata.state ≠ .candidateReady)
    (h' : metadata.state ≠ .pendingTrial) (slot : BootSlotId) :
    ¬ TrialGranted options outcomes metadata d₁ slot := by
  intro hgranted
  rcases hgranted.state with hs | ⟨hs, -⟩
  · exact h hs
  · exact h' hs

theorem Recovers.journal {d d₁ : Device} (h : Recovers d metadata d₁) :
    journal d.mem = .ok metadata ∧ d₁.mem = d.mem := by
  obtain ⟨recovery, hret⟩ := h
  have hspec : wp (bootMetadataRecoverFromFlash : Prog Device BootSlotSelectionError _) d
      (fun r d' => (∀ record, r.2 = .ok record → Stm32SecurityLab.journal d.mem = .ok record) ∧
        d'.mem = d.mem) (fun _ _ => True) (fun _ => True) := by
    refine bootMetadataRecoverFromFlash_spec (fun vs _ => ⟨fun record h => ?_, rfl⟩)
      (fun vs _ => ⟨fun _ h => (nomatch h), rfl⟩) (fun _ _ => trivial)
    rw [journal_eq]
    exact h
  have hpost := hspec.ret hret
  exact ⟨hpost.1 metadata rfl, hpost.2⟩

theorem recovers_of_quiet {d : Device} (hq : d.Quiet)
    (hj : Stm32SecurityLab.journal d.mem = .ok metadata) :
    ∃ d₁, Recovers d metadata d₁ := by
  have hspec : wp (bootMetadataRecoverFromFlash : Prog Device BootSlotSelectionError _) d
      (fun r _ => r.2 = .ok metadata) (fun _ _ => False) (fun _ => False) := by
    refine bootMetadataRecoverFromFlash_spec (fun vs _ => ?_) (fun vs hn => absurd hq hn)
      (fun vs hn => hn hq)
    rw [← journal_eq]
    exact hj
  cases hret : (bootMetadataRecoverFromFlash : Prog Device BootSlotSelectionError _) d with
  | ret r d₁ =>
    obtain ⟨recovery, status⟩ := r
    obtain rfl : status = .ok metadata := hspec.ret hret
    exact ⟨d₁, recovery, hret⟩
  | err e d₁ => exact (hspec.err hret).elim
  | cut d₁ => exact (hspec.cut hret).elim

theorem Recovers.unique {d d₁ d₂ : Device} {metadata' : BootMetadataRecord}
    (h : Recovers d metadata d₁) (h' : Recovers d metadata' d₂) : metadata = metadata' ∧ d₁ = d₂ := by
  obtain ⟨recovery, hret⟩ := h
  obtain ⟨recovery', hret'⟩ := h'
  rw [hret] at hret'
  cases hret'
  exact ⟨rfl, rfl⟩

theorem activeDecision_ne_trial (metadata : BootMetadataRecord) :
    activeDecision metadata ≠ .trial := by
  rw [activeDecision]
  split <;> decide

/-- A selection decides on what it recovered. -/
theorem bootSlotSelectionSelect_wp (hhook : options.faultHook = none)
    (hv : VerifiesAs options s.dev.mem outcomes) :
    wp (bootSlotSelectionSelect options) s
      (fun _ s' => ∃ metadata d₁, Recovers s.dev metadata d₁ ∧
        Decides options outcomes metadata d₁ s'.result)
      (fun _ _ => ∀ metadata d₁, Recovers s.dev metadata d₁ →
        (∀ slot, ¬ TrialGranted options outcomes metadata d₁ slot) ∧
          ∀ slot, ¬ ActiveBootable outcomes metadata slot)
      (fun _ => ∀ metadata d₁, Recovers s.dev metadata d₁ →
        ∀ slot, ¬ TrialGranted options outcomes metadata d₁ slot) := by
  rw [bootSlotSelectionSelect]
  simp only [wp_bind, wp_selectorModifyResult, onDev, wp_zoom]
  refine wp_of_outcome ?_ ?_ ?_
  · rintro ⟨recovery, status⟩ d₁ hret
    have honly : ∀ {metadata d₂}, Recovers s.dev metadata d₂ → status = .ok metadata ∧ d₁ = d₂ := by
      rintro metadata d₂ ⟨recovery', h⟩
      rw [hret] at h
      cases h
      exact ⟨rfl, rfl⟩
    cases status with
    | error e =>
      intro metadata d₂ h
      cases (honly h).1
    | ok metadata =>
      have hrec : Recovers s.dev metadata d₁ := ⟨recovery, hret⟩
      obtain ⟨hj, hmem⟩ := hrec.journal
      have hs : ∀ (result : BootSlotSelectionResult) (calls : ℕ),
          SlotsSame s.dev.mem ⟨result, calls, d₁⟩ :=
        fun _ _ slot x _ _ => congrFun hmem x
      -- what is proved for the recovered record is proved for every recovered record
      have hdecide : ∀ {x : Prog Selector BootSlotSelectionError Unit} {s' : Selector},
          wp x s' (fun _ s'' => Decides options outcomes metadata d₁ s''.result)
            (fun _ _ => (∀ slot, ¬ TrialGranted options outcomes metadata d₁ slot) ∧
              ∀ slot, ¬ ActiveBootable outcomes metadata slot)
            (fun _ => ∀ slot, ¬ TrialGranted options outcomes metadata d₁ slot) →
          wp x s' (fun _ s'' => ∃ metadata d₁, Recovers s.dev metadata d₁ ∧
              Decides options outcomes metadata d₁ s''.result)
            (fun _ _ => ∀ metadata d₁, Recovers s.dev metadata d₁ →
              (∀ slot, ¬ TrialGranted options outcomes metadata d₁ slot) ∧
                ∀ slot, ¬ ActiveBootable outcomes metadata slot)
            (fun _ => ∀ metadata d₁, Recovers s.dev metadata d₁ →
              ∀ slot, ¬ TrialGranted options outcomes metadata d₁ slot) := by
        intro x s' hx
        refine hx.mono (fun _ _ h => ⟨metadata, d₁, hrec, h⟩) ?_ ?_
        · rintro _ _ h metadata' d₂ hrec'
          obtain ⟨heq, rfl⟩ := honly hrec'
          cases heq
          exact h
        · rintro _ h metadata' d₂ hrec'
          obtain ⟨heq, rfl⟩ := honly hrec'
          cases heq
          exact h
      change wp (Prog.ofExcept (.ok metadata)) _ _ _ _
      simp only [wp_ofExcept, Except.ok.injEq, forall_eq', reduceCtorEq, IsEmpty.forall_iff,
        implies_true, and_true]
      refine hdecide ?_
      cases hstate : metadata.state with
      | confirmed =>
        have hnot := @not_trialGranted_of_state options outcomes metadata d₁
          (by rw [hstate]; decide) (by rw [hstate]; decide)
        refine wp.mono (selectConfirmedSlot_decides hhook hv (hs _ _) .confirmed) ?_ ?_ ?_
        · intro _ _ h
          have hdecision : activeDecision metadata = .confirmed := if_pos hstate
          rw [← hdecision] at h
          exact .inr ⟨hnot, h⟩
        · exact fun _ _ h => ⟨hnot, h⟩
        · exact fun _ h => h.elim
      | candidateReady => exact startOrContinueTrial_decides hhook hv (hs _ _) (.inl hstate)
      | pendingTrial => exact startOrContinueTrial_decides hhook hv (hs _ _) (.inr hstate)
      | writing =>
        refine fallbackToConfirmed_of_not_granted hhook hv (hs _ _) (by rw [hstate]; decide) ?_
        exact not_trialGranted_of_state (by rw [hstate]; decide) (by rw [hstate]; decide)
      | rejectedInvalid =>
        refine fallbackToConfirmed_of_not_granted hhook hv (hs _ _) (by rw [hstate]; decide) ?_
        exact not_trialGranted_of_state (by rw [hstate]; decide) (by rw [hstate]; decide)
      | empty =>
        refine ⟨not_trialGranted_of_state (by rw [hstate]; decide) (by rw [hstate]; decide), ?_⟩
        intro slot h
        have hnone := (canonical_of_true (journal_canonical hj)).empty hstate
        exact slot.toUInt32_ne_none (h.active.symm.trans hnone)
  · rintro e d₁ herr metadata d₂ ⟨recovery, h⟩
    rw [herr] at h
    cases h
  · rintro d₁ hcut metadata d₂ ⟨recovery, h⟩
    rw [hcut] at h
    cases h

end Functions

/-- **The boot decision.** A trial of the candidate is booted exactly when it is granted; otherwise
the active slot is, exactly when it verifies; otherwise there is an error. Whatever is booted comes
with the jump context the verifier made for it. -/
theorem bootSlotSelectionSelect_decides (options : BootSlotSelectionOptions)
    (outcomes : BootSlotId → VerifySlotOutcome) (s : Selector) (hhook : options.faultHook = none)
    (hv : VerifiesAs options s.dev.mem outcomes) :
    (∀ slot : BootSlotId,
      (∃ s', bootSlotSelectionSelect options s = .ret () s' ∧ s'.result.decision = .trial ∧
        s'.result.selectedSlot = slot.toUInt32) ↔
      ∃ metadata d₁, Recovers s.dev metadata d₁ ∧
        TrialGranted options outcomes metadata d₁ slot) ∧
    ((¬ ∃ metadata d₁ slot, Recovers s.dev metadata d₁ ∧
        TrialGranted options outcomes metadata d₁ slot) →
      (∀ s', bootSlotSelectionSelect options s ≠ .cut s') →
      (∀ (decision : BootSlotSelectionDecision) (slot : BootSlotId),
        (∃ s', bootSlotSelectionSelect options s = .ret () s' ∧ s'.result.decision = decision ∧
          s'.result.selectedSlot = slot.toUInt32) ↔
        ∃ metadata d₁, Recovers s.dev metadata d₁ ∧ ActiveBootable outcomes metadata slot ∧
          decision = activeDecision metadata) ∧
      ((¬ ∃ metadata d₁ slot, Recovers s.dev metadata d₁ ∧ ActiveBootable outcomes metadata slot) →
        ∃ e s', bootSlotSelectionSelect options s = .err e s')) ∧
    ∀ s', bootSlotSelectionSelect options s = .ret () s' →
      s'.result.selectedVerifyStatus = .ok () ∧ ∃ slot : BootSlotId,
        s'.result.selectedSlot = slot.toUInt32 ∧
        s'.result.jumpContext = (outcomes slot).jumpContext := by
  have hwp := @bootSlotSelectionSelect_wp options outcomes s hhook hv
  refine ⟨fun slot => ⟨?_, ?_⟩, fun hnot hcut => ⟨fun decision slot => ⟨?_, ?_⟩, ?_⟩, ?_⟩
  · rintro ⟨s', hret, htrial, hslot⟩
    obtain ⟨metadata, d₁, hrec, ⟨slot', hgranted, hchosen⟩ | ⟨-, slot', -, hchosen⟩⟩ := hwp.ret hret
    · have hsame : slot' = slot := BootSlotId.toUInt32_inj.mp (hchosen.selected.symm.trans hslot)
      exact ⟨metadata, d₁, hrec, hsame ▸ hgranted⟩
    · exact absurd (hchosen.decision.symm.trans htrial) (activeDecision_ne_trial metadata)
  · rintro ⟨metadata, d₁, hrec, hgranted⟩
    cases houtcome : bootSlotSelectionSelect options s with
    | ret _ s' =>
      obtain ⟨metadata', d₂, hrec', hdecides⟩ := hwp.ret houtcome
      obtain ⟨rfl, rfl⟩ := hrec.unique hrec'
      rcases hdecides with ⟨slot', hgranted', hchosen⟩ | ⟨hnone, -⟩
      · have hsame : slot' = slot :=
          BootSlotId.toUInt32_inj.mp (hgranted'.candidate.symm.trans hgranted.candidate)
        exact ⟨s', rfl, hchosen.decision, hsame ▸ hchosen.selected⟩
      · exact absurd hgranted (hnone slot)
    | err e s' => exact absurd hgranted ((hwp.err houtcome metadata d₁ hrec).1 slot)
    | cut s' => exact absurd hgranted (hwp.cut houtcome metadata d₁ hrec slot)
  · rintro ⟨s', hret, hdecision, hslot⟩
    obtain ⟨metadata, d₁, hrec, ⟨slot', hgranted, -⟩ | ⟨-, slot', hactive, hchosen⟩⟩ := hwp.ret hret
    · exact absurd ⟨metadata, d₁, slot', hrec, hgranted⟩ hnot
    · have hsame : slot' = slot := BootSlotId.toUInt32_inj.mp (hchosen.selected.symm.trans hslot)
      exact ⟨metadata, d₁, hrec, hsame ▸ hactive, hdecision.symm.trans hchosen.decision⟩
  · rintro ⟨metadata, d₁, hrec, hactive, rfl⟩
    cases houtcome : bootSlotSelectionSelect options s with
    | ret _ s' =>
      obtain ⟨metadata', d₂, hrec', hdecides⟩ := hwp.ret houtcome
      obtain ⟨rfl, rfl⟩ := hrec.unique hrec'
      rcases hdecides with ⟨slot', hgranted, -⟩ | ⟨-, slot', hactive', hchosen⟩
      · exact absurd ⟨metadata, d₁, slot', hrec, hgranted⟩ hnot
      · have hsame : slot' = slot :=
          BootSlotId.toUInt32_inj.mp (hactive'.active.symm.trans hactive.active)
        exact ⟨s', rfl, hchosen.decision, hsame ▸ hchosen.selected⟩
    | err e s' => exact absurd hactive ((hwp.err houtcome metadata d₁ hrec).2 slot)
    | cut s' => exact absurd houtcome (hcut s')
  · intro hinactive
    cases houtcome : bootSlotSelectionSelect options s with
    | ret _ s' =>
      obtain ⟨metadata, d₁, hrec, ⟨slot, hgranted, -⟩ | ⟨-, slot, hactive, -⟩⟩ := hwp.ret houtcome
      · exact absurd ⟨metadata, d₁, slot, hrec, hgranted⟩ hnot
      · exact absurd ⟨metadata, d₁, slot, hrec, hactive⟩ hinactive
    | err e s' => exact ⟨e, s', rfl⟩
    | cut s' => exact absurd houtcome (hcut s')
  · intro s' hret
    obtain ⟨metadata, d₁, -, ⟨slot, -, hchosen⟩ | ⟨-, slot, -, hchosen⟩⟩ := hwp.ret hret
    · exact ⟨hchosen.verified, slot, hchosen.selected, hchosen.jumpContext⟩
    · exact ⟨hchosen.verified, slot, hchosen.selected, hchosen.jumpContext⟩

/-! ### A device

Blank flash with one small image in slot A. -/

/-- Flash with the record `r` in the first metadata copy and the image in slot A. -/
def flashWith (r : BootMetadataRecord) : Device where
  mem := memcpy (memcpy (fun _ => 0xFF) Layout.slotASignedImageBase
    (factoryHeader ++ factoryPayload)) Layout.bootMetadataABase (encodedRecord r)
  script := []
  log := []

/-- The image in slot A is confirmed. -/
def factoryRecord : BootMetadataRecord where
  sequence := 1
  state := .confirmed
  activeSlot := BootSlotId.a.toUInt32
  candidateSlot := bootSlotNone
  candidateImageVersion := 2
  bootAttemptCount := 0
  confirmationState := 1
  result := 0

/-- The image in slot A is confirmed, and the one in slot B is on offer. -/
def readyRecord : BootMetadataRecord :=
  { factoryRecord with
    sequence := 3
    state := .candidateReady
    candidateSlot := BootSlotId.b.toUInt32
    candidateImageVersion := 3
    confirmationState := 0 }

theorem journal_flashWith (h : stateRecordIsCanonical r = true) :
    journal (flashWith r).mem = .ok r := by
  refine journal_single (funext fun side => ?_)
  cases side with
  | first =>
    rw [Function.update_self]
    refine copies_eq_some h ?_
    have hslice := slice_memcpy (memcpy (fun _ => 0xFF) Layout.slotASignedImageBase
      (factoryHeader ++ factoryPayload)) Layout.bootMetadataABase (encodedRecord r)
    rw [encodedRecord_length] at hslice
    exact hslice
  | second =>
    rw [Function.update_of_ne (by decide)]
    refine copies_eq_none ?_
    simp only [flashWith, memcpy, encodedRecord_length]
    rw [if_neg (by decide), if_neg (by decide)]

theorem slotVerify_factory : slotVerify factoryCrypto factoryKey (flashWith factoryRecord).mem
    (bootSlots .a) = .ok () := by decide +kernel

theorem slotVersion_factory : slotVersion (flashWith factoryRecord).mem (bootSlots .a) = 2 := by
  decide +kernel

/-- `verify_target_slot` looks at the slot it is asked about. -/
theorem verifiesAs_verifyTargetSlot {crypto : Crypto} {publicKey : List UInt8}
    {options : BootSlotSelectionOptions} (h : options.verifySlot = verifyTargetSlot crypto publicKey)
    (m : Mem) :
    VerifiesAs options m fun slot => verifyTargetSlot crypto publicKey 0 m (bootSlots slot) := by
  intro calls m' slot hsame
  have hpay : signedImagePrepareUpdateSlotBuffer (slotManifestBytes m' (bootSlots slot))
      (pointer m' (bootSlots slot).payloadBase) (bootSlots slot).maximumPayloadSize
      (bootSlots slot) =
    signedImagePrepareUpdateSlotBuffer (slotManifestBytes m (bootSlots slot))
      (pointer m (bootSlots slot).payloadBase) (bootSlots slot).maximumPayloadSize
      (bootSlots slot) := by
    have hvec : ∀ manifest payloadEnd, validateVectorTable manifest (updateSlotPolicy (bootSlots slot))
        (pointer m' (bootSlots slot).payloadBase) payloadEnd =
      validateVectorTable manifest (updateSlotPolicy (bootSlots slot))
        (pointer m (bootSlots slot).payloadBase) payloadEnd := by
      intro manifest payloadEnd
      refine validateVectorTable_congr fun i hi => hsame _ ?_ ?_ <;> cases slot <;>
        simp only [bootSlots] <;> omega
    rw [signedImagePrepareUpdateSlotBuffer, signedImagePrepareUpdateSlotBuffer,
      slotManifestBytes_congr hsame]
    simp only [hvec]
  have hverify : slotVerify crypto publicKey m' (bootSlots slot) =
      slotVerify crypto publicKey m (bootSlots slot) := slotVerify_congr hsame
  rw [h]
  simp only [verifyTargetSlot, hverify, hpay]

theorem verifyTargetSlot_passes {crypto : Crypto} {publicKey : List UInt8} {calls : ℕ} {m : Mem}
    {slot : BootSlotId} (h : slotVerify crypto publicKey m (bootSlots slot) = .ok ()) :
    (verifyTargetSlot crypto publicKey calls m (bootSlots slot)).Passes := by
  obtain ⟨context, hprepare⟩ := signedImagePrepareUpdateSlotBuffer_ok h
  rw [verifyTargetSlot]
  simp only [h, hprepare]
  exact ⟨rfl, rfl⟩

/-- A boot of a confirmed slot only reads. -/
theorem select_confirmed_ne_cut {options : BootSlotSelectionOptions}
    {outcomes : BootSlotId → VerifySlotOutcome} {s : Selector} {metadata : BootMetadataRecord}
    (hhook : options.faultHook = none) (hv : VerifiesAs options s.dev.mem outcomes)
    (hq : s.dev.Quiet) (hj : journal s.dev.mem = .ok metadata) (hstate : metadata.state = .confirmed)
    (s' : Selector) : bootSlotSelectionSelect options s ≠ .cut s' := by
  have hwp : wp (bootSlotSelectionSelect options) s (fun _ _ => True) (fun _ _ => True)
      (fun _ => False) := by
    rw [bootSlotSelectionSelect]
    simp only [wp_bind, wp_selectorModifyResult, onDev, wp_zoom]
    refine bootMetadataRecoverFromFlash_spec (fun vs _ => ?_) (fun vs hn => absurd hq hn)
      (fun vs hn => hn hq)
    rw [← journal_eq, hj]
    refine wp_ofExcept.mpr ⟨fun record h => ?_, fun _ h => (by cases h)⟩
    obtain rfl := Except.ok.inj h
    rw [hstate]
    exact wp.mono (selectConfirmedSlot_decides hhook hv (by exact fun slot x _ _ => rfl) .confirmed)
      (fun _ _ _ => trivial) (fun _ _ _ => trivial) (fun _ h => h)
  exact fun h => hwp.cut h

theorem bootSlotSelectionSelect_factory :
    ∃ s', bootSlotSelectionSelect (bootPolicyOptions factoryCrypto factoryKey)
        ⟨{}, 0, flashWith factoryRecord⟩ = .ret () s' ∧
      s'.result.decision = .confirmed ∧ s'.result.selectedSlot = BootSlotId.a.toUInt32 := by
  obtain ⟨-, hactive, -⟩ := bootSlotSelectionSelect_decides
    (bootPolicyOptions factoryCrypto factoryKey) _ ⟨{}, 0, flashWith factoryRecord⟩ rfl (verifiesAs_verifyTargetSlot rfl _)
  obtain ⟨d₁, hrec⟩ := recovers_of_quiet (d := flashWith factoryRecord) rfl
    (journal_flashWith (by decide))
  refine ((hactive ?_ ?_).1 .confirmed .a).mpr ⟨factoryRecord, d₁, hrec, ⟨rfl, ?_⟩, rfl⟩
  · rintro ⟨metadata, d₂, slot, hrec', hgranted⟩
    obtain ⟨rfl, -⟩ := hrec.unique hrec'
    exact not_trialGranted_of_state (by decide) (by decide) slot hgranted
  · exact select_confirmed_ne_cut rfl (verifiesAs_verifyTargetSlot rfl _) rfl
      (journal_flashWith (by decide)) rfl
  · exact verifyTargetSlot_passes slotVerify_factory

end Stm32SecurityLab
