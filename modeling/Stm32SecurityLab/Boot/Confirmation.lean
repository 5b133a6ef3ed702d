import Stm32SecurityLab.Installer.Effect

/-!
# Confirmation

`boot_confirmation.c`: an application that runs as a trial turns its slot into the confirmed one.

## Main definitions

* `bootConfirmCurrentSlot`
* `ConfirmStep` — the record a confirmation commits

## Main results

* `bootConfirmCurrentSlot_spec`, `quiet_bootConfirmCurrentSlot`
* `bootConfirmCurrentSlot_contract` — what a confirmation does to the journal
-/

namespace Stm32SecurityLab

open Crash

/-- `boot_confirm_status_t` without `OK`. -/
inductive BootConfirmError where
  | invalidArgument
  | metadata
  | ambiguousMetadata
  | slot
  | notPending
  | commit
  deriving DecidableEq, Repr

/-- `boot_confirm_result_t`; the defaults are those of `init_confirm_result`. -/
structure BootConfirmResult where
  confirmedSlot : UInt32 := bootSlotNone
  imageVersion : UInt32 := 0
  alreadyConfirmed : Bool := false
  metadataBefore : BootMetadataRecord := ⟨0, .empty, 0, 0, 0, 0, 0, 0⟩
  metadataRecovery : BootMetadataRecovery := {}

/-- The state of a confirmation. -/
structure Confirmer where
  result : BootConfirmResult := {}
  dev : Device

namespace Confirmer

/-- Run a program of the device. -/
def onDev {ε α : Type} (x : Prog Device ε α) : Prog Confirmer ε α :=
  x.zoom (·.dev) fun d s => { s with dev := d }

/-- Update the result structure. -/
def modifyResult {ε : Type} (f : BootConfirmResult → BootConfirmResult) : Prog Confirmer ε Unit :=
  .modify fun s => { s with result := f s.result }

end Confirmer

open Confirmer

/-- `boot_confirm_slot_from_vector_address`. -/
def bootConfirmSlotFromVectorAddress (vectorAddress : ℕ) : Except BootConfirmError BootSlotId :=
  if (bootSlots .a).payloadBase = vectorAddress then .ok .a
  else if (bootSlots .b).payloadBase = vectorAddress then .ok .b
  else .error .slot

/-- The status of a recovery that did not succeed. -/
def confirmMetadataFailure : BootMetadataError → BootConfirmError
  | .ambiguous => .ambiguousMetadata
  | _ => .metadata

/-- The part of `boot_confirm_current_slot` for a slot that is not confirmed yet. -/
def confirmPending (flash : BootFlash) (runningSlot : UInt32) (metadata : BootMetadataRecord) :
    Prog Confirmer BootConfirmError Unit := do
  .check (metadata.state = .pendingTrial ∧ metadata.candidateSlot = runningSlot ∧
    metadata.confirmationState = 0) .notPending
  let confirmed ← .ofExcept ((bootMetadataPrepareNext metadata .confirmed runningSlot bootSlotNone
    metadata.candidateImageVersion 0 1 0).mapError fun _ => .notPending)
  onDev ((bootMetadataCommit flash confirmed).mapErr fun _ => .commit)
  modifyResult fun result =>
    { result with
      confirmedSlot := runningSlot
      imageVersion := metadata.candidateImageVersion
      alreadyConfirmed := false }

/-- `boot_confirm_current_slot`. -/
def bootConfirmCurrentSlot (flash : BootFlash) (runningSlot : UInt32) :
    Prog Confirmer BootConfirmError Unit := do
  modifyResult fun _ => {}
  .check (bootSlotLookup runningSlot ≠ none) .slot
  let (recovery, status) ← onDev bootMetadataRecoverFromFlash
  let metadata ← .ofExcept (status.mapError confirmMetadataFailure)
  modifyResult fun result =>
    { result with metadataBefore := metadata, metadataRecovery := recovery }
  if metadata.state = .confirmed ∧ metadata.activeSlot = runningSlot ∧
      metadata.candidateSlot = bootSlotNone ∧ metadata.confirmationState = 1 then
    modifyResult fun result =>
      { result with
        alreadyConfirmed := true
        confirmedSlot := runningSlot
        imageVersion := metadata.candidateImageVersion }
  else
    confirmPending flash runningSlot metadata

/-! ### What a confirmation commits -/

/-- The record `next` confirms the candidate of `cur`, which was on trial. -/
structure ConfirmStep (cur next : BootMetadataRecord) : Prop where
  pending : cur.state = .pendingTrial
  state : next.state = .confirmed
  active : next.activeSlot = cur.candidateSlot
  version : next.candidateImageVersion = cur.candidateImageVersion

/-- What a confirmation did to the device. -/
structure Confirms (d d' : Device) : Prop where
  extends_meta : d.Extends MetaOp d'
  journal : journal d'.mem = journal d.mem ∨ ∃ cur next, Stm32SecurityLab.journal d.mem = .ok cur ∧
    Stm32SecurityLab.journal d'.mem = .ok next ∧ ConfirmStep cur next

theorem Confirms.of_quiet {d d' : Device} (h : d.Extends (fun _ => False) d') : Confirms d d' :=
  ⟨h.mono fun _ => False.elim, .inl (by rw [h.eq_of_false.1])⟩

theorem Confirms.not_writing {d d' : Device} (h : Confirms d d') :
    Stm32SecurityLab.journal d'.mem = Stm32SecurityLab.journal d.mem ∨ ∃ cur, Stm32SecurityLab.journal d.mem = .ok cur ∧ cur.state ≠ .writing := by
  refine h.journal.imp_right ?_
  rintro ⟨cur, next, hcur, -, hstep⟩
  refine ⟨cur, hcur, fun hw => ?_⟩
  have := hstep.pending
  rw [hw] at this
  cases this

/-- **A confirmation** commits the candidate that was on trial, or nothing. -/
theorem bootConfirmCurrentSlot_spec {flash : BootFlash} {runningSlot : UInt32} {s : Confirmer} :
    wp (bootConfirmCurrentSlot flash runningSlot) s
      (fun _ s' => Confirms s.dev s'.dev) (fun _ s' => Confirms s.dev s'.dev)
      (fun s' => Confirms s.dev s'.dev) := by
  unfold bootConfirmCurrentSlot Confirmer.onDev Confirmer.modifyResult
  simp only [wp_bind, wp_modify, wp_check, wp_zoom, wp_ofExcept]
  have hread : ∀ vs, (s.dev.Quiet → vs = []) →
      s.dev.Extends (fun _ => False) { s.dev with script := vs } := fun vs h => ⟨⟨[], by simp⟩, h⟩
  refine ⟨fun _ => ?_, fun _ => .of_quiet (Std.Refl.refl s.dev)⟩
  refine bootMetadataRecoverFromFlash_spec (fun vs hvs => ?_)
    (fun vs hn => ⟨fun _ h => (by cases h), fun _ _ => .of_quiet (hread vs fun hq => absurd hq hn)⟩)
    (fun vs hn => .of_quiet (hread vs fun hq => absurd hq hn))
  have hr := hread vs hvs
  refine ⟨fun metadata hm => ?_, fun _ _ => .of_quiet hr⟩
  replace hm := mapError_eq_ok.mp hm
  rw [← journal_eq] at hm
  rw [wp_ite]
  refine ⟨fun _ => .of_quiet hr, fun _ => ?_⟩
  unfold confirmPending Confirmer.onDev Confirmer.modifyResult
  simp only [wp_bind, wp_modify, wp_check, wp_zoom, wp_ofExcept, wp_mapErr]
  refine ⟨fun hpending => ?_, fun _ => .of_quiet hr⟩
  refine ⟨fun next hnext => ?_, fun _ _ => .of_quiet hr⟩
  obtain ⟨-, -, hfields⟩ := bootMetadataPrepareNext_ok.mp (mapError_eq_ok.mp hnext)
  have hstep : ConfirmStep metadata next := by
    rw [hfields]
    exact ⟨hpending.1, rfl, hpending.2.1.symm, rfl⟩
  have hconfirms : ∀ {d' : Device}, ({ s.dev with script := vs } : Device).Extends MetaOp d' →
      (journal d'.mem = journal s.dev.mem ∨ journal d'.mem = .ok next) → Confirms s.dev d' := by
    intro d' hext h
    exact ⟨IsTrans.trans _ _ _ (hr.mono fun _ => False.elim) hext,
      h.imp_right fun hj => ⟨metadata, next, hm, hj, hstep⟩⟩
  have hframe : Steps (Device.Extends MetaOp) (bootMetadataCommit flash next) :=
    steps_bootMetadataCommit fun side op hop _ => ⟨side, hop⟩
  exact (bootMetadataCommit_spec.and (hframe _)).mono
    (fun _ d' h => hconfirms h.2 (.inr h.1.1))
    (fun _ d' h => hconfirms h.2 (h.1.journal.imp_right And.left))
    (fun d' h => hconfirms h.2 (h.1.journal.imp_right And.left))

/-- On an undisturbed device a trial of the running slot is confirmed. -/
theorem quiet_bootConfirmCurrentSlot {flash : BootFlash} {slot : BootSlotId} {s : Confirmer}
    {r next : BootMetadataRecord} (hw : MetadataWritable flash) (hq : s.dev.Quiet)
    (hj : journal s.dev.mem = .ok r)
    (hpending : r.state = .pendingTrial ∧ r.candidateSlot = slot.toUInt32 ∧ r.confirmationState = 0)
    (hnext : bootMetadataPrepareNext r .confirmed slot.toUInt32 bootSlotNone
      r.candidateImageVersion 0 1 0 = .ok next) :
    wp (bootConfirmCurrentSlot flash slot.toUInt32) s
      (fun _ s' => journal s'.dev.mem = .ok next ∧ s'.dev.Quiet) (fun _ _ => False)
      (fun _ => False) := by
  obtain ⟨-, hvalid, -⟩ := bootMetadataPrepareNext_ok.mp hnext
  have hmay : MayFollow s.dev.mem next := by
    refine ⟨(by rw [hj]; intro h; cases h), ?_⟩
    rw [journalCurrent_of_ok hj]
    exact hvalid
  rw [bootConfirmCurrentSlot]
  simp only [Confirmer.onDev, Confirmer.modifyResult, wp_bind, wp_modify, wp_check, wp_zoom,
    wp_ofExcept]
  refine ⟨fun _ => ?_, fun hlookup => hlookup (by cases slot <;> (intro h; cases h))⟩
  refine bootMetadataRecoverFromFlash_spec (fun vs hvs => ?_) (fun _ hn => absurd hq hn)
    (fun _ hn => hn hq)
  rw [← journal_eq, hj]
  refine ⟨fun metadata hm => ?_, fun _ h => by cases h⟩
  cases hm
  rw [wp_ite]
  refine ⟨fun hconfirmed => ?_, fun _ => ?_⟩
  · rw [hpending.1] at hconfirmed
    cases hconfirmed.1
  rw [confirmPending]
  simp only [Confirmer.onDev, Confirmer.modifyResult, wp_bind, wp_modify, wp_check, wp_zoom,
    wp_ofExcept, wp_mapErr]
  refine ⟨fun _ => ?_, fun hn => hn hpending⟩
  rw [hnext]
  refine ⟨fun record hrecord => ?_, fun _ h => by cases h⟩
  cases hrecord
  have hq' : ({ s.dev with script := vs } : Device).Quiet := hvs hq
  have hframe : Steps (Device.Extends MetaOp) (bootMetadataCommit flash next) :=
    steps_bootMetadataCommit fun side op hop _ => ⟨side, hop⟩
  exact (quiet_bootMetadataCommit hw hq' hmay).spec
    ((bootMetadataCommit_spec.and (hframe _)).mono (fun _ d' h => ⟨h.1.1, h.2.quiet hq'⟩)
      (fun _ _ h => h) (fun _ h => h))

/-! ### The contract -/

section Contract

variable {flash : BootFlash} {runningSlot : UInt32} {s s' : Confirmer} {d d₁ d₂ : Device}
  {metadata next : BootMetadataRecord}

/-- The recovery that starts a confirmation on `d` returns `metadata` and leaves `d₁`. -/
def ConfirmRecovers (d : Device) (metadata : BootMetadataRecord) (d₁ : Device) : Prop :=
  ∃ recovery, (bootMetadataRecoverFromFlash : Prog Device BootConfirmError _) d =
    .ret (recovery, .ok metadata) d₁

/-- The running slot is confirmed. -/
def AlreadyConfirmed (runningSlot : UInt32) (metadata : BootMetadataRecord) : Prop :=
  metadata.state = .confirmed ∧ metadata.activeSlot = runningSlot

/-- The running slot is on trial, and `next` is the record that confirms it. -/
structure Confirming (runningSlot : UInt32) (metadata next : BootMetadataRecord) : Prop where
  pending : metadata.state = .pendingTrial
  candidate : metadata.candidateSlot = runningSlot
  prepared : bootMetadataPrepareNext metadata .confirmed runningSlot bootSlotNone
    metadata.candidateImageVersion 0 1 0 = .ok next

/-- Nothing was done to the flash. -/
structure Untouched (d d' : Device) : Prop where
  mem : d'.mem = d.mem
  log : d'.log = d.log

theorem ConfirmRecovers.unique {metadata' : BootMetadataRecord} (h : ConfirmRecovers d metadata d₁)
    (h' : ConfirmRecovers d metadata' d₂) : metadata = metadata' ∧ d₁ = d₂ := by
  obtain ⟨_, h⟩ := h
  obtain ⟨_, h'⟩ := h'
  rw [h] at h'
  cases h'
  exact ⟨rfl, rfl⟩

theorem ConfirmRecovers.spec (h : ConfirmRecovers d metadata d₁) :
    journal d.mem = .ok metadata ∧ Untouched d d₁ := by
  obtain ⟨recovery, hrun⟩ := h
  have hspec : wp (bootMetadataRecoverFromFlash : Prog Device BootConfirmError _) d
      (fun x d' => (∀ r, x.2 = .ok r → journal d.mem = .ok r) ∧ Untouched d d') (fun _ _ => False)
      (fun _ => True) := by
    refine bootMetadataRecoverFromFlash_spec (fun vs _ => ⟨fun r hr => ?_, rfl, rfl⟩)
      (fun vs _ => ⟨fun _ hr => (nomatch hr), rfl, rfl⟩) (fun _ _ => trivial)
    exact (journal_eq d.mem).trans hr
  obtain ⟨hj, huntouched⟩ := hspec.ret hrun
  exact ⟨hj metadata rfl, huntouched⟩

/-- What canonicity says about the fields that the confirmation looks at besides. -/
theorem alreadyConfirmed_iff (hcan : Canonical metadata) :
    AlreadyConfirmed runningSlot metadata ↔ metadata.state = .confirmed ∧
      metadata.activeSlot = runningSlot ∧ metadata.candidateSlot = bootSlotNone ∧
      metadata.confirmationState = 1 := by
  constructor
  · rintro ⟨hs, ha⟩
    exact ⟨hs, ha, (hcan.confirmed hs).2⟩
  · rintro ⟨hs, ha, -⟩
    exact ⟨hs, ha⟩

theorem Confirming.confirmationState (h : Confirming runningSlot metadata next)
    (hcan : Canonical metadata) : metadata.confirmationState = 0 :=
  (hcan.candidate (by rw [h.pending]; exact nofun) (by rw [h.pending]; exact nofun)).2.2

/-- A slot that is confirmed or on trial is one of the two. -/
theorem lookup_of_alreadyConfirmed (hcan : Canonical metadata)
    (h : AlreadyConfirmed runningSlot metadata) : bootSlotLookup runningSlot ≠ none := by
  obtain ⟨slot, hslot⟩ := hcan.active.resolve_left (hcan.confirmed h.1).1
  rw [← h.2, hslot, bootSlotLookup_toUInt32]
  exact nofun

theorem Confirming.lookup (h : Confirming runningSlot metadata next) (hcan : Canonical metadata) :
    bootSlotLookup runningSlot ≠ none := by
  obtain ⟨⟨slot, hslot⟩, -⟩ :=
    hcan.candidate (by rw [h.pending]; exact nofun) (by rw [h.pending]; exact nofun)
  rw [← h.candidate, hslot, bootSlotLookup_toUInt32]
  exact nofun

theorem Confirming.step (h : Confirming runningSlot metadata next) : ConfirmStep metadata next := by
  obtain ⟨-, -, hfields⟩ := bootMetadataPrepareNext_ok.mp h.prepared
  rw [hfields]
  exact ⟨h.pending, rfl, h.candidate.symm, rfl⟩

/-- **How a confirmation ends**, by what it recovered and how the commit ended. -/
theorem bootConfirmCurrentSlot_outcomes :
    wp (bootConfirmCurrentSlot flash runningSlot) s
      (fun _ s' => ∃ metadata d₁, ConfirmRecovers s.dev metadata d₁ ∧
        (AlreadyConfirmed runningSlot metadata ∧ s'.dev = d₁ ∨
          ∃ next, Confirming runningSlot metadata next ∧
            bootMetadataCommit flash next d₁ = .ret () s'.dev))
      (fun e s' => (e ≠ .commit ∧ Untouched s.dev s'.dev ∧ ∀ metadata d₁,
          ConfirmRecovers s.dev metadata d₁ → ¬ AlreadyConfirmed runningSlot metadata ∧
            ∀ next, ¬ Confirming runningSlot metadata next) ∨
        (e = .commit ∧ ∃ metadata d₁ next e', ConfirmRecovers s.dev metadata d₁ ∧
          Confirming runningSlot metadata next ∧
          bootMetadataCommit flash next d₁ = .err e' s'.dev))
      (fun s' => (Untouched s.dev s'.dev ∧ ∀ metadata d₁, ¬ ConfirmRecovers s.dev metadata d₁) ∨
        ∃ metadata d₁ next, ConfirmRecovers s.dev metadata d₁ ∧
          Confirming runningSlot metadata next ∧
          bootMetadataCommit flash next d₁ = .cut s'.dev) := by
  have hcanonical : ∀ {metadata d₁}, ConfirmRecovers s.dev metadata d₁ → Canonical metadata :=
    fun h => canonical_of_true (journal_canonical h.spec.1)
  have hreads : wp (bootMetadataRecoverFromFlash : Prog Device BootConfirmError _) s.dev
      (fun _ d' => Untouched s.dev d') (fun _ _ => False) (fun d' => Untouched s.dev d') :=
    bootMetadataRecoverFromFlash_spec (fun _ _ => ⟨rfl, rfl⟩) (fun _ _ => ⟨rfl, rfl⟩)
      (fun _ _ => ⟨rfl, rfl⟩)
  rw [bootConfirmCurrentSlot]
  simp only [Confirmer.onDev, Confirmer.modifyResult, wp_bind, wp_modify, wp_check, wp_zoom]
  refine ⟨fun hlookup => ?_, fun hlookup => .inl ⟨fun h => (by cases h), ⟨rfl, rfl⟩, fun metadata d₁ hrec => ?_⟩⟩
  swap
  · exact ⟨fun h => hlookup (lookup_of_alreadyConfirmed (hcanonical hrec) h),
      fun next h => hlookup (h.lookup (hcanonical hrec))⟩
  refine wp_of_outcome ?_ (fun e d₁ herr => (hreads.err herr).elim) ?_
  swap
  · intro d₁ hcut
    refine .inl ⟨hreads.cut hcut, ?_⟩
    rintro metadata d₂ ⟨_, hrec⟩
    rw [hcut] at hrec
    cases hrec
  rintro ⟨recovery, status⟩ d₁ hrun
  have huntouched := hreads.ret hrun
  have honly : ∀ {metadata d₂}, ConfirmRecovers s.dev metadata d₂ → status = .ok metadata ∧ d₁ = d₂ := by
    rintro metadata d₂ ⟨_, h⟩
    rw [hrun] at h
    cases h
    exact ⟨rfl, rfl⟩
  simp only [wp_ofExcept]
  cases status with
  | error e =>
    refine ⟨fun _ h => (by cases h), fun e' he => .inl ⟨?_, huntouched, fun metadata d₂ hrec => ?_⟩⟩
    · cases e <;> cases he <;> (intro h; cases h)
    · cases (honly hrec).1
  | ok metadata =>
    have hrec : ConfirmRecovers s.dev metadata d₁ := ⟨recovery, hrun⟩
    have hcan := hcanonical hrec
    refine ⟨fun record hrecord => ?_, fun _ h => by cases h⟩
    cases hrecord
    rw [wp_ite]
    refine ⟨fun hconfirmed => ?_, fun hnot => ?_⟩
    · exact ⟨metadata, d₁, hrec, .inl ⟨(alreadyConfirmed_iff hcan).mpr hconfirmed, rfl⟩⟩
    have hnotAlready : ¬ AlreadyConfirmed runningSlot metadata :=
      fun h => hnot ((alreadyConfirmed_iff hcan).mp h)
    have hrefused : (∀ next, ¬ Confirming runningSlot metadata next) → ∀ metadata' d₂,
        ConfirmRecovers s.dev metadata' d₂ → ¬ AlreadyConfirmed runningSlot metadata' ∧
          ∀ next, ¬ Confirming runningSlot metadata' next := by
      intro hnone metadata' d₂ hrec'
      obtain ⟨rfl, -⟩ := hrec.unique hrec'
      exact ⟨hnotAlready, hnone⟩
    rw [confirmPending]
    simp only [Confirmer.onDev, Confirmer.modifyResult, wp_bind, wp_modify, wp_check, wp_zoom,
      wp_ofExcept, wp_mapErr]
    refine ⟨fun hpending => ?_, fun hnotPending => .inl ⟨fun h => (by cases h), huntouched, hrefused fun next h => ?_⟩⟩
    swap
    · exact hnotPending ⟨h.pending, h.candidate, h.confirmationState hcan⟩
    refine ⟨fun next hnext => ?_, fun e he => .inl ⟨?_, huntouched, hrefused fun next h => ?_⟩⟩
    · have hconfirming : Confirming runningSlot metadata next :=
        ⟨hpending.1, hpending.2.1, mapError_eq_ok.mp hnext⟩
      exact wp_of_outcome
        (fun _ d₂ h => ⟨metadata, d₁, hrec, .inr ⟨next, hconfirming, h⟩⟩)
        (fun e d₂ h => .inr ⟨trivial, metadata, d₁, next, e, hrec, hconfirming, h⟩)
        (fun d₂ h => .inr ⟨metadata, d₁, next, hrec, hconfirming, h⟩)
    · rintro rfl
      rw [Except.mapError.eq_def] at he
      split at he <;> cases he
    · rw [h.prepared] at he
      cases he

/-- The trial is still on record, or confirmed. -/
def TrialOrConfirmed (runningSlot : UInt32) (m m' : Mem) : Prop :=
  ∃ r next, journal m = .ok r ∧ Confirming runningSlot r next ∧
    (journal m' = .ok r ∨ journal m' = .ok next)

theorem trialOrConfirmed_of_torn (hrec : ConfirmRecovers d metadata d₁)
    (hc : Confirming runningSlot metadata next) (ht : CommitTorn next d₁ d₂) :
    TrialOrConfirmed runningSlot d.mem d₂.mem := by
  obtain ⟨hj, hmem, -⟩ := hrec.spec
  refine ⟨metadata, next, hj, hc, ht.journal.imp (fun h => ?_) And.left⟩
  rw [h, hmem]
  exact hj

/-- On a device whose record confirms the running slot, a confirmation reads and no more, and
returns if it can read. -/
theorem bootConfirmCurrentSlot_again (flash : BootFlash) (hj : journal s.dev.mem = .ok metadata)
    (h : AlreadyConfirmed runningSlot metadata) :
    Untouched s.dev (bootConfirmCurrentSlot flash runningSlot s).state.dev ∧
      ((∃ d₁, ConfirmRecovers s.dev metadata d₁) →
        ∃ s', bootConfirmCurrentSlot flash runningSlot s = .ret () s') := by
  have hnot : ∀ {r d₁ next}, ConfirmRecovers s.dev r d₁ → ¬ Confirming runningSlot r next := by
    intro r d₁ next hrec hc
    obtain rfl : r = metadata := Except.ok.inj (hrec.spec.1.symm.trans hj)
    have hpending := hc.pending
    rw [h.1] at hpending
    cases hpending
  have hout : wp (bootConfirmCurrentSlot flash runningSlot) s _ _ _ :=
    bootConfirmCurrentSlot_outcomes
  cases hrun : bootConfirmCurrentSlot flash runningSlot s with
  | ret _ s' =>
    refine ⟨?_, fun _ => ⟨s', rfl⟩⟩
    obtain ⟨r, d₁, hrec, ⟨-, hdev⟩ | ⟨next, hc, -⟩⟩ := hout.ret hrun
    · rw [Outcome.state, hdev]
      exact hrec.spec.2
    · exact absurd hc (hnot hrec)
  | err e s' =>
    rcases hout.err hrun with ⟨-, huntouched, hrefused⟩ | ⟨-, r, d₁, next, _, hrec, hc, -⟩
    · exact ⟨huntouched, fun ⟨d₁, hrec⟩ => absurd h (hrefused metadata d₁ hrec).1⟩
    · exact absurd hc (hnot hrec)
  | cut s' =>
    rcases hout.cut hrun with ⟨huntouched, hnone⟩ | ⟨r, d₁, next, hrec, hc, -⟩
    · exact ⟨huntouched, fun ⟨d₁, hrec⟩ => absurd hrec (hnone metadata d₁)⟩
    · exact absurd hc (hnot hrec)

/-- An undisturbed device can be read. -/
theorem confirmRecovers_of_quiet (hq : d.Quiet) (hj : journal d.mem = .ok metadata) :
    ∃ d₁, ConfirmRecovers d metadata d₁ := by
  have hspec : wp (bootMetadataRecoverFromFlash : Prog Device BootConfirmError _) d
      (fun x _ => x.2 = .ok metadata) (fun _ _ => False) (fun _ => False) := by
    refine bootMetadataRecoverFromFlash_spec (fun vs _ => ?_) (fun vs hn => absurd hq hn)
      (fun vs hn => hn hq)
    rw [← journal_eq]
    exact hj
  cases hrun : (bootMetadataRecoverFromFlash : Prog Device BootConfirmError _) d with
  | ret x d₁ =>
    obtain ⟨recovery, status⟩ := x
    obtain rfl : status = .ok metadata := hspec.ret hrun
    exact ⟨d₁, recovery, hrun⟩
  | err e d₁ => exact (hspec.err hrun).elim
  | cut d₁ => exact (hspec.cut hrun).elim

/-- **The contract of a confirmation**, for every flash and every running slot. It returns exactly
if the record it recovers confirms the running slot already, or has it on trial and the commit of
the confirmed record returns. Then the record confirms the running slot, with the version it had,
and a further call returns without writing. A refusal leaves the flash as it was. After a commit
that failed or was cut the trial is still on record, or confirmed. -/
theorem bootConfirmCurrentSlot_contract (flash : BootFlash) (runningSlot : UInt32) (s : Confirmer) :
    ((∃ s', bootConfirmCurrentSlot flash runningSlot s = .ret () s') ↔
      ∃ metadata d₁, ConfirmRecovers s.dev metadata d₁ ∧
        (AlreadyConfirmed runningSlot metadata ∨ ∃ next d₂, Confirming runningSlot metadata next ∧
          bootMetadataCommit flash next d₁ = .ret () d₂)) ∧
    (∀ s', bootConfirmCurrentSlot flash runningSlot s = .ret () s' → ∃ r r',
      journal s.dev.mem = .ok r ∧ journal s'.dev.mem = .ok r' ∧ r'.state = .confirmed ∧
      r'.activeSlot = runningSlot ∧ r'.candidateImageVersion = r.candidateImageVersion ∧
      ∀ script t, t.dev = { s'.dev with script } →
        Untouched t.dev (bootConfirmCurrentSlot flash runningSlot t).state.dev ∧
        (script = [] ∨ (∃ d₁, ConfirmRecovers t.dev r' d₁) →
          ∃ t', bootConfirmCurrentSlot flash runningSlot t = .ret () t')) ∧
    (∀ e s', bootConfirmCurrentSlot flash runningSlot s = .err e s' → e ≠ .commit →
      Untouched s.dev s'.dev) ∧
    (∀ s', bootConfirmCurrentSlot flash runningSlot s = .err .commit s' →
      TrialOrConfirmed runningSlot s.dev.mem s'.dev.mem) ∧
    ∀ s', bootConfirmCurrentSlot flash runningSlot s = .cut s' →
      Untouched s.dev s'.dev ∨ TrialOrConfirmed runningSlot s.dev.mem s'.dev.mem := by
  have hout : wp (bootConfirmCurrentSlot flash runningSlot) s _ _ _ :=
    bootConfirmCurrentSlot_outcomes
  have hcommit : ∀ {next d}, wp (bootMetadataCommit flash next) d _ _ _ := bootMetadataCommit_spec
  refine ⟨⟨?_, ?_⟩, fun s' hrun => ?_, fun e s' hrun hne => ?_, fun s' hrun => ?_, fun s' hrun => ?_⟩
  · rintro ⟨s', hrun⟩
    obtain ⟨metadata, d₁, hrec, ⟨h, -⟩ | ⟨next, hc, hret⟩⟩ := hout.ret hrun
    · exact ⟨metadata, d₁, hrec, .inl h⟩
    · exact ⟨metadata, d₁, hrec, .inr ⟨next, s'.dev, hc, hret⟩⟩
  · rintro ⟨metadata, d₁, hrec, hok⟩
    -- with another ending the commit would have had that ending too
    have hsame : ∀ {r d₂ next}, ConfirmRecovers s.dev r d₂ → Confirming runningSlot r next →
        ∃ d₃, bootMetadataCommit flash next d₂ = .ret () d₃ := by
      intro r d₂ next hrec' hc
      obtain ⟨rfl, rfl⟩ := hrec.unique hrec'
      rcases hok with ⟨hs, -⟩ | ⟨next', d₃, hc', hret⟩
      · rw [hc.pending] at hs
        cases hs
      · obtain rfl : next = next' := Except.ok.inj (hc.prepared.symm.trans hc'.prepared)
        exact ⟨d₃, hret⟩
    cases hrun : bootConfirmCurrentSlot flash runningSlot s with
    | ret _ s' => exact ⟨s', rfl⟩
    | err e s' =>
      rcases hout.err hrun with ⟨-, -, hrefused⟩ | ⟨-, r, d₂, next, e', hrec', hc, herr⟩
      · obtain ⟨hnot, hnone⟩ := hrefused metadata d₁ hrec
        rcases hok with h | ⟨next, _, hc, -⟩
        · exact absurd h hnot
        · exact absurd hc (hnone next)
      · obtain ⟨d₃, hret⟩ := hsame hrec' hc
        rw [herr] at hret
        cases hret
    | cut s' =>
      rcases hout.cut hrun with ⟨-, hnone⟩ | ⟨r, d₂, next, hrec', hc, hcut⟩
      · exact absurd hrec (hnone metadata d₁)
      · obtain ⟨d₃, hret⟩ := hsame hrec' hc
        rw [hcut] at hret
        cases hret
  · obtain ⟨metadata, d₁, hrec, hcase⟩ := hout.ret hrun
    obtain ⟨r', hj', hconfirmed, hversion⟩ : ∃ r', journal s'.dev.mem = .ok r' ∧
        AlreadyConfirmed runningSlot r' ∧
        r'.candidateImageVersion = metadata.candidateImageVersion := by
      rcases hcase with ⟨h, hdev⟩ | ⟨next, hc, hret⟩
      · refine ⟨metadata, ?_, h, rfl⟩
        rw [hdev, hrec.spec.2.mem]
        exact hrec.spec.1
      · have hstep := hc.step
        exact ⟨next, (hcommit.ret hret).1, ⟨hstep.state, hstep.active.trans hc.candidate⟩,
          hstep.version⟩
    refine ⟨metadata, r', hrec.spec.1, hj', hconfirmed.1, hconfirmed.2, hversion, fun script t ht => ?_⟩
    have hjt : journal t.dev.mem = .ok r' := by
      rw [ht]
      exact hj'
    obtain ⟨huntouched, hreturns⟩ := bootConfirmCurrentSlot_again flash hjt hconfirmed
    refine ⟨huntouched, fun hread => hreturns ?_⟩
    rcases hread with rfl | hread
    · exact confirmRecovers_of_quiet (by rw [ht]; rfl) hjt
    · exact hread
  · rcases hout.err hrun with ⟨-, huntouched, -⟩ | ⟨hcommitError, -⟩
    · exact huntouched
    · exact absurd hcommitError hne
  · rcases hout.err hrun with ⟨hne, -⟩ | ⟨-, metadata, d₁, next, e', hrec, hc, herr⟩
    · exact absurd rfl hne
    · exact trialOrConfirmed_of_torn hrec hc (hcommit.err herr)
  · rcases hout.cut hrun with ⟨huntouched, -⟩ | ⟨metadata, d₁, next, hrec, hc, hcut⟩
    · exact .inl huntouched
    · exact .inr (trialOrConfirmed_of_torn hrec hc (hcommit.cut hcut))

end Contract

end Stm32SecurityLab
