import Stm32SecurityLab.System.Safety
import Stm32SecurityLab.System.Trials
import Stm32SecurityLab.Platform.Telemetry

/-!
# What the application says it is

The application publishes a firmware version in two places, the snapshot of the confirmation service
and the telemetry report. Both derive it from the state of the metadata alone: a record on trial
names its candidate, a confirmed one its image, and any other record nothing.

Which slot runs is decided by the boot before. The two agree as long as a boot that falls back to
the confirmed image leaves no trial behind. The boot tries to: it rejects a candidate that does not
verify or has no attempts left. But it runs the confirmed image also when that commit fails, and
when the commit of an attempt does.

## Main definitions

* `Reporter`, `reportCalls` — an application that calls the two services, in any order
* `Truthful` — what it publishes is nothing or about the slot it runs from
* `bootCommit` — the part of `boot_slot_selection_select` that writes
* `Answers` — the commit of a boot leaves no trial behind when it fails

## Main results

* `reportCalls_truthful` — metadata that names the running slot keeps the reports truthful
* `reports_truthful_iff` — the application that a boot starts publishes the truth exactly if the
  boot answers
-/

namespace Stm32SecurityLab

open Crash Machine

variable {ε : Type}

/-! ### Publishing -/

/-- The two places where a version is published, and the flash. -/
structure Reporter where
  service : ConfirmationService
  report : TelemetryReport := {}

namespace Reporter

/-- The flash. -/
def dev (s : Reporter) : Device := s.service.dev

/-- The variables of the application after a reset. -/
def fresh (d : Device) : Reporter where
  service := { confirmer := { dev := d } }

/-- Run a program of the confirmation service. -/
def onService {α : Type} (x : Prog ConfirmationService ε α) : Prog Reporter ε α :=
  x.zoom (·.service) fun service s => { s with service }

/-- Run a program of the telemetry. -/
def onTelemetry {α : Type} (x : Prog Telemetry ε α) : Prog Reporter ε α :=
  x.zoom (fun s => ⟨s.report, s.dev⟩) fun t s =>
    { report := t.report
      service := { s.service with confirmer := { s.service.confirmer with dev := t.dev } } }

end Reporter

/-- What the application calls. -/
inductive ReportCall where
  | confirmation (health : PlatformConfirmationHealth)
  | refresh

/-- One call of the application in `slot`, whose vector table is where the slot has it. -/
def reportCall (slot : BootSlotId) : ReportCall → Prog Reporter ε Unit
  | .confirmation health => do
    let _ ← Reporter.onService
      (platformConfirmationService (bootSlots slot).payloadBase.toUInt32 health)
    pure ()
  | .refresh => Reporter.onTelemetry experimentTelemetryRefreshMetadata

/-- Any number of calls. -/
def reportCalls (slot : BootSlotId) : List ReportCall → Prog Reporter ε Unit
  | [] => pure ()
  | call :: calls => do
    reportCall slot call
    reportCalls slot calls

/-- What is published is nothing, or about the image in `slot`. -/
structure Truthful (slot : BootSlotId) (s : Reporter) : Prop where
  snapshot : s.service.lastSnapshot.imageVersion = 0 ∨
    s.service.lastSnapshot.imageVersion = slotVersion s.dev.mem (bootSlots slot)
  report : s.report.imageVersion = 0 ∨
    s.report.imageVersion = slotVersion s.dev.mem (bootSlots slot)
  selected : s.report.selectedSlot = bootSlotNone ∨ s.report.selectedSlot = slot.toUInt32

/-- A record that would be published names the image in `slot`. -/
structure Names (slot : BootSlotId) (m : Mem) : Prop where
  trial : ∀ r, journal m = .ok r → r.state = .pendingTrial →
    r.candidateSlot = slot.toUInt32 ∧ r.candidateImageVersion = slotVersion m (bootSlots slot)
  confirmed : ∀ r, journal m = .ok r → r.state = .confirmed →
    r.activeSlot = slot.toUInt32 ∧ r.candidateImageVersion = slotVersion m (bootSlots slot)

section Publishing

variable {slot : BootSlotId} {m : Mem} {d d' : Device} {r : BootMetadataRecord} {s : Reporter}

theorem Names.version (h : Names slot m) (hj : journal m = .ok r) :
    trustedMetadataImageVersion r = 0 ∨
      trustedMetadataImageVersion r = slotVersion m (bootSlots slot) := by
  rw [trustedMetadataImageVersion]
  split_ifs with hs
  · rcases hs with hs | hs
    · exact .inr (h.trial r hj hs).2
    · exact .inr (h.confirmed r hj hs).2
  · exact .inl rfl

theorem Names.selected (h : Names slot m) (hj : journal m = .ok r) :
    trustedSelectedSlot r = bootSlotNone ∨ trustedSelectedSlot r = slot.toUInt32 := by
  rw [trustedSelectedSlot]
  split_ifs with htrial hconfirmed
  · exact .inr (h.trial r hj htrial).1
  · exact .inr (h.confirmed r hj hconfirmed).1
  · exact .inl rfl

/-- A confirmation of the running slot keeps the names right. -/
theorem Names.confirms (h : Names slot d.mem) (hc : Confirms d d') : Names slot d'.mem := by
  have hversion : slotVersion d'.mem (bootSlots slot) = slotVersion d.mem (bootSlots slot) :=
    slotVersion_congr (SlotSame.of_meta hc.extends_meta slot)
  rcases hc.journal with hj | ⟨cur, next, hcur, hnext, hstep⟩
  · refine ⟨fun r hr hs => ?_, fun r hr hs => ?_⟩
    · rw [hversion]
      exact h.trial r (hj ▸ hr) hs
    · rw [hversion]
      exact h.confirmed r (hj ▸ hr) hs
  · obtain ⟨hslot, hv⟩ := h.trial cur hcur hstep.pending
    refine ⟨fun r hr hs => ?_, fun r hr hs => ?_⟩
    · obtain rfl : r = next := Except.ok.inj (hr.symm.trans hnext)
      rw [hstep.state] at hs
      cases hs
    · obtain rfl : r = next := Except.ok.inj (hr.symm.trans hnext)
      rw [hversion, hstep.active, hstep.version]
      exact ⟨hslot, hv⟩

/-- The names are right and what is published so far is true. -/
structure ReporterInv (slot : BootSlotId) (s : Reporter) : Prop where
  names : Names slot s.dev.mem
  truthful : Truthful slot s

theorem reportCall_inv (h : ReporterInv slot s) (call : ReportCall) :
    wp (reportCall slot call : Prog Reporter ε Unit) s (fun _ s' => ReporterInv slot s')
      (fun _ _ => False) (fun _ => True) := by
  cases call with
  | confirmation health =>
    rw [reportCall, wp_bind, Reporter.onService, wp_zoom]
    refine (platformConfirmationService_spec.and platformConfirmationService_version).mono
      (fun _ s' h' => ?_) (fun _ _ h => h.1) (fun _ _ => trivial)
    have hc : Confirms s.dev s'.dev := h'.1.elim Confirms.of_quiet fun hc => hc.2.2
    have hversion : slotVersion s'.dev.mem (bootSlots slot) = slotVersion s.dev.mem (bootSlots slot) :=
      slotVersion_congr (SlotSame.of_meta hc.extends_meta slot)
    refine ⟨h.names.confirms hc, ⟨?_, ?_, h.truthful.selected⟩⟩
    · rcases h'.2 with hzero | ⟨r, hj, hv⟩
      · exact .inl hzero
      · exact (h.names.version hj).imp hv.trans fun ht => hv.trans (ht.trans hversion.symm)
    · exact h.truthful.report.imp_right fun hr => hr.trans hversion.symm
  | refresh =>
    rw [reportCall, Reporter.onTelemetry, wp_zoom]
    refine experimentTelemetryRefreshMetadata_spec.mono (fun _ t ht => ?_) (fun _ _ h => h)
      (fun _ _ => trivial)
    have hmem : t.dev.mem = s.dev.mem := ht.1.eq_of_false.1
    refine ⟨?_, ⟨?_, ?_, ?_⟩⟩
    · exact hmem.symm ▸ h.names
    · exact hmem.symm ▸ h.truthful.snapshot
    · rcases ht.2 with ⟨hsilent, -⟩ | ⟨r, hj, hv, -⟩
      · exact .inl hsilent.1
      · exact (h.names.version hj).imp hv.trans
          fun h => hv.trans (h.trans (congrArg (slotVersion · _) hmem.symm))
    · rcases ht.2 with ⟨hsilent, -⟩ | ⟨r, hj, -, hs⟩
      · exact .inl hsilent.2
      · exact (h.names.selected hj).imp hs.trans hs.trans

/-- **Metadata that names the running slot keeps the reports truthful**, whatever is called and
whatever the flash does. -/
theorem reportCalls_truthful (h : ReporterInv slot s) (calls : List ReportCall) :
    wp (reportCalls slot calls : Prog Reporter ε Unit) s (fun _ s' => ReporterInv slot s')
      (fun _ _ => False) (fun _ => True) := by
  induction calls generalizing s with
  | nil => exact h
  | cons call calls ih =>
    rw [reportCalls, wp_bind]
    exact (reportCall_inv h call).mono (fun _ _ h' => ih h') (fun _ _ h => h) (fun _ h => h)

theorem ReporterInv.fresh (h : Names slot d.mem) : ReporterInv slot (Reporter.fresh d) :=
  ⟨h, ⟨.inl rfl, .inl rfl, .inl rfl⟩⟩

end Publishing

/-! ### The commit of a boot -/

/-- Commit the record that was prepared, if it could be. -/
def commitPrepared (options : BootSlotSelectionOptions)
    (prepared : Except BootMetadataError BootMetadataRecord) (point : BootSlotSelectionFaultPoint)
    (detail : UInt32) : Prog Selector BootSlotSelectionError Unit :=
  match prepared with
  | .error _ => .fail .metadata
  | .ok next => commitNext options next point detail

/-- Commit the rejection of the candidate. -/
def commitRejection (options : BootSlotSelectionOptions) (metadata : BootMetadataRecord)
    (resultCode : UInt32) : Prog Selector BootSlotSelectionError Unit :=
  commitPrepared options
    (bootMetadataPrepareNext metadata .rejectedInvalid metadata.activeSlot metadata.candidateSlot
      metadata.candidateImageVersion 0 0 resultCode)
    .metadataRejectInvalid resultCode

/-- Commit one more attempt. -/
def commitAttempt (options : BootSlotSelectionOptions) (metadata : BootMetadataRecord)
    (nextAttempts : UInt32) (point : BootSlotSelectionFaultPoint) :
    Prog Selector BootSlotSelectionError Unit :=
  commitPrepared options
    (bootMetadataPrepareNext metadata .pendingTrial metadata.activeSlot metadata.candidateSlot
      metadata.candidateImageVersion nextAttempts 0
      (if options.trialResetResult ≠ 0 then options.trialResetResult
        else bootSlotSelectionResultNone))
    point nextAttempts

/-- The part of `start_or_continue_trial` that writes: what it does without falling back. -/
def offerCommit (options : BootSlotSelectionOptions) (metadata : BootMetadataRecord) :
    Prog Selector BootSlotSelectionError Unit :=
  match bootSlotLookup metadata.candidateSlot with
  | none => .fail .slot
  | some slot => do
    let (status, verifyStatus) ← verifySlot options slot .verifyCandidate
    Selector.modifyResult fun result => { result with candidateVerifyStatus := verifyStatus }
    match status with
    | .error e => do
      Selector.modifyResult fun result => { result with fallbackCause := .error e }
      commitRejection options metadata bootSlotSelectionResultCandidateVerifyFailed
    | .ok _ =>
      if metadata.state = .candidateReady then
        commitAttempt options metadata (bootMetadataMaxBootAttempts - 1) .metadataPendingTrial
      else if metadata.bootAttemptCount > 0 then
        commitAttempt options metadata (metadata.bootAttemptCount - 1) .metadataAttemptDecrement
      else
        commitRejection options metadata bootSlotSelectionResultAttemptsExhausted

/-- The part of `boot_slot_selection_select` that writes. -/
def bootCommit (options : BootSlotSelectionOptions) : Prog Selector BootSlotSelectionError Unit := do
  Selector.modifyResult fun _ => {}
  let (recovery, status) ← Selector.onDev bootMetadataRecoverFromFlash
  let metadata ← .ofExcept (status.mapError metadataFailure)
  Selector.modifyResult fun result =>
    { result with
      metadataBefore := metadata
      metadataRecovery := recovery
      confirmedSlot := metadata.activeSlot
      candidateSlot := metadata.candidateSlot
      imageVersion := metadata.candidateImageVersion
      attemptsRemainingBefore := metadata.bootAttemptCount
      attemptsRemainingAfter := metadata.bootAttemptCount }
  match metadata.state with
  | .candidateReady | .pendingTrial => offerCommit options metadata
  | _ => pure ()

/-- A trial is on record. -/
def OnTrial (m : Mem) : Prop := ∃ r, journal m = .ok r ∧ r.state = .pendingTrial

/-- **The boot answers the candidate on offer**: its commit succeeds, or leaves no trial on
record. -/
def Answers (options : BootSlotSelectionOptions) (s : Selector) : Prop :=
  wp (bootCommit options) s (fun _ _ => True) (fun _ s' => ¬ OnTrial s'.dev.mem) (fun _ => True)

/-- The boot selected the candidate on trial, or left no trial on record. -/
def Settled (s : Selector) : Prop := s.result.decision = .trial ∨ ¬ OnTrial s.dev.mem

section Boot

variable {options : BootSlotSelectionOptions} {metadata : BootMetadataRecord} {s : Selector}
  {A : Prop} {B : Mem → Prop}

/-- What a boot leaves, by how its commit ended: `A` if it returned, `B` if it failed. -/
def Outcomes (A : Prop) (B : Mem → Prop) (s : Selector) : Prop :=
  (A ∧ Settled s) ∨ (B s.dev.mem ∧ s.result.decision ≠ .trial)

/-- Falling back keeps the flash and never decides for a trial. -/
theorem fallbackToConfirmed_outcomes :
    wp (fallbackToConfirmed options metadata) s
      (fun _ s' => s'.dev.mem = s.dev.mem ∧ s'.result.decision ≠ .trial) (fun _ _ => True)
      (fun _ => True) := by
  refine fallbackToConfirmed_spec.mono (fun _ s' h => ⟨h.1.eq_of_false.1, fun hd => ?_⟩)
    (fun _ _ _ => trivial) (fun _ _ => trivial)
  rcases h.2.1 with hdecision | hdecision <;> rw [hd] at hdecision <;> cases hdecision

/-- A rejection and the fallback after it. -/
theorem rejectInvalidBestEffort_outcomes {resultCode : UInt32}
    {next : Prog Selector BootSlotSelectionError Unit}
    (h : wp (commitRejection options metadata resultCode) s (fun _ _ => A)
      (fun _ s' => B s'.dev.mem) (fun _ => True))
    (hnext : ∀ s, wp next s (fun _ s' => s'.dev.mem = s.dev.mem ∧ s'.result.decision ≠ .trial)
      (fun _ _ => True) (fun _ => True)) :
    wp (do rejectInvalidBestEffort options metadata resultCode; next) s
      (fun _ s' => Outcomes A B s') (fun _ _ => True) (fun _ => True) := by
  rw [rejectInvalidBestEffort, prepareRejectedInvalid, wp_bind]
  rw [commitRejection] at h
  cases hprepared : bootMetadataPrepareNext metadata .rejectedInvalid metadata.activeSlot
      metadata.candidateSlot metadata.candidateImageVersion 0 0 resultCode with
  | error e =>
    rw [hprepared] at h
    refine (hnext s).mono (fun _ s' h' => .inr ⟨?_, h'.2⟩) (fun _ _ h => h) (fun _ h => h)
    exact h'.1.symm ▸ h
  | ok rejected =>
    obtain ⟨hlt, -, hfields⟩ := bootMetadataPrepareNext_ok.mp hprepared
    have hseq : rejected.sequence ≠ 0 := by
      rw [hfields]
      intro hzero
      have hnat := congrArg UInt32.toNat hzero
      rw [toNat_succ (by rintro heq; rw [heq] at hlt; exact absurd hlt (by decide))] at hnat
      exact absurd hnat (Nat.succ_ne_zero _)
    rw [hprepared] at h
    rw [if_pos hseq, wp_bind, wp_attempt]
    refine (wp.and h commitNext_spec).mono (fun _ s₁ h₁ => ?_) (fun _ s₁ h₁ => ?_)
      (fun _ _ => trivial)
    · refine (hnext s₁).mono (fun _ s' h' => .inl ⟨h₁.1, .inr ?_⟩) (fun _ _ h => h) (fun _ h => h)
      rintro ⟨r, hj, hs⟩
      rw [h'.1, h₁.2.2] at hj
      cases hj
      rw [hfields] at hs
      cases hs
    · refine (hnext s₁).mono (fun _ s' h' => .inr ⟨?_, h'.2⟩) (fun _ _ h => h) (fun _ h => h)
      exact h'.1.symm ▸ h₁.1

theorem fallbackBecause_outcomes {cause : BootSlotSelectionError} :
    wp (fallbackBecause options metadata cause) s
      (fun _ s' => s'.dev.mem = s.dev.mem ∧ s'.result.decision ≠ .trial) (fun _ _ => True)
      (fun _ => True) := by
  rw [fallbackBecause, wp_bind, wp_selectorModifyResult]
  exact fallbackToConfirmed_outcomes

/-- One more attempt, or the fallback when it cannot be committed. -/
theorem commitTrial_outcomes {slot : BootSlotDescriptor} {context : SignedImageJumpContext}
    {verifyStatus : Except VerifyError Unit} {attempts : UInt32}
    {point : BootSlotSelectionFaultPoint}
    (h : wp (commitAttempt options metadata attempts point) s (fun _ _ => A)
      (fun _ s' => B s'.dev.mem) (fun _ => True)) :
    wp (commitTrial options metadata slot context verifyStatus attempts point) s
      (fun _ s' => Outcomes A B s') (fun _ _ => True) (fun _ => True) := by
  rw [commitTrial]
  rw [commitAttempt] at h
  cases hprepared : bootMetadataPrepareNext metadata .pendingTrial metadata.activeSlot
      metadata.candidateSlot metadata.candidateImageVersion attempts 0
      (if options.trialResetResult ≠ 0 then options.trialResetResult
        else bootSlotSelectionResultNone) with
  | error e =>
    rw [hprepared] at h
    refine fallbackBecause_outcomes.mono (fun _ s' h' => .inr ⟨?_, h'.2⟩) (fun _ _ h => h)
      (fun _ h => h)
    exact h'.1.symm ▸ h
  | ok next =>
    rw [hprepared] at h
    simp only [wp_bind, wp_attempt]
    refine h.mono (fun _ s₁ h₁ => ?_) (fun _ s₁ h₁ => ?_) (fun _ h => h)
    · rw [wp_selectorModifyResult]
      exact .inl ⟨h₁, .inl rfl⟩
    · refine fallbackBecause_outcomes.mono (fun _ s' h' => .inr ⟨?_, h'.2⟩) (fun _ _ h => h)
        (fun _ h => h)
      exact h'.1.symm ▸ h₁

theorem startOrContinueTrial_outcomes
    (h : wp (offerCommit options metadata) s (fun _ _ => A) (fun _ s' => B s'.dev.mem)
      (fun _ => True)) :
    wp (startOrContinueTrial options metadata) s (fun _ s' => Outcomes A B s') (fun _ _ => True)
      (fun _ => True) := by
  rw [offerCommit] at h
  rw [startOrContinueTrial]
  cases hlookup : bootSlotLookup metadata.candidateSlot with
  | none =>
    rw [hlookup] at h
    refine fallbackBecause_outcomes.mono (fun _ s' h' => .inr ⟨?_, h'.2⟩) (fun _ _ h => h)
      (fun _ h => h)
    exact h'.1.symm ▸ h
  | some slot =>
    rw [hlookup] at h
    simp only [wp_bind, wp_selectorModifyResult] at h ⊢
    refine wp.mono (h.and verifySlot_spec) (fun x s₁ h₁ => ?_) (fun _ _ _ => trivial)
      (fun _ _ => trivial)
    obtain ⟨h₁, -⟩ := h₁
    obtain ⟨status, verifyStatus⟩ := x
    cases status with
    | error e =>
      simp only [wp_bind, wp_selectorModifyResult] at h₁
      rw [wp_bind, wp_selectorModifyResult]
      exact rejectInvalidBestEffort_outcomes h₁ fun _ => fallbackToConfirmed_outcomes
    | ok context =>
      dsimp only at h₁ ⊢
      split_ifs at h₁ ⊢ with hready hpos
      · exact commitTrial_outcomes h₁
      · exact commitTrial_outcomes h₁
      · exact rejectInvalidBestEffort_outcomes h₁ fun _ => fallbackBecause_outcomes

/-- **A boot that returns** ends as its commit did: after a commit that returned it has selected the
trial or left none on record, and after one that failed it has not selected the trial. -/
theorem bootSlotSelectionSelect_outcomes
    (h : wp (bootCommit options) s (fun _ _ => A) (fun _ s' => B s'.dev.mem) (fun _ => True)) :
    wp (bootSlotSelectionSelect options) s (fun _ s' => Outcomes A B s') (fun _ _ => True)
      (fun _ => True) := by
  rw [bootCommit] at h
  rw [bootSlotSelectionSelect]
  simp only [wp_bind, wp_selectorModifyResult, Selector.onDev, wp_zoom, wp_ofExcept] at h ⊢
  have hrecovers : wp (bootMetadataRecoverFromFlash : Prog Device BootSlotSelectionError _) s.dev
      (fun x d => ∀ r, x.2 = .ok r → journal d.mem = .ok r) (fun _ _ => False) (fun _ => True) := by
    refine bootMetadataRecoverFromFlash_spec (fun vs _ r hr => ?_) (fun _ _ _ hr => by cases hr)
      (fun _ _ => trivial)
    exact (journal_eq s.dev.mem).trans hr
  refine wp.mono (h.and hrecovers) (fun x d₁ h₁ => ?_) (fun _ _ _ => trivial) (fun _ _ => trivial)
  refine ⟨fun r hr => ?_, fun _ _ => trivial⟩
  have hj := h₁.2 r (mapError_eq_ok.mp hr)
  have h₂ := h₁.1.1 r hr
  -- without a candidate on offer nothing is written, and what is on record is not a trial
  have hother : ∀ {y : Prog Selector BootSlotSelectionError Unit} {s₂ : Selector}, A →
      r.state ≠ .pendingTrial → s₂.dev = d₁ →
      wp y s₂ (fun _ s' => s'.dev.mem = s₂.dev.mem) (fun _ _ => True) (fun _ => True) →
      wp y s₂ (fun _ s' => Outcomes A B s') (fun _ _ => True) (fun _ => True) := by
    intro y s₂ hA hstate hdev hy
    refine hy.mono (fun _ s' hmem => .inl ⟨hA, .inr ?_⟩) (fun _ _ h => h) (fun _ h => h)
    rintro ⟨r', hj', hs'⟩
    rw [hmem, hdev, hj] at hj'
    cases hj'
    exact hstate hs'
  have hactive : ∀ {s₂ : Selector}, wp (fallbackToConfirmed options r) s₂
      (fun _ s' => s'.dev.mem = s₂.dev.mem) (fun _ _ => True) (fun _ => True) :=
    fallbackToConfirmed_outcomes.mono (fun _ _ h => h.1) (fun _ _ h => h) (fun _ h => h)
  cases hstate : r.state with
  | confirmed =>
    rw [hstate] at h₂
    refine hother h₂ (by rw [hstate]; intro h; cases h) rfl ?_
    exact (selectConfirmedSlot_spec (.inl rfl)).mono (fun _ _ h => h.1.eq_of_false.1)
      (fun _ _ _ => trivial) (fun _ _ => trivial)
  | candidateReady =>
    rw [hstate] at h₂
    exact startOrContinueTrial_outcomes h₂
  | pendingTrial =>
    rw [hstate] at h₂
    exact startOrContinueTrial_outcomes h₂
  | writing =>
    rw [hstate] at h₂
    exact hother h₂ (by rw [hstate]; intro h; cases h) rfl hactive
  | rejectedInvalid =>
    rw [hstate] at h₂
    exact hother h₂ (by rw [hstate]; intro h; cases h) rfl hactive
  | empty => trivial

end Boot

/-! ### The slot that runs and the metadata -/

section Running

variable {crypto : Crypto} {publicKey : List UInt8} {options : BootSlotSelectionOptions}
  {s s' : Selector} {d : Device} {m : Mem} {slot : BootSlotId} {r metadata : BootMetadataRecord}

/-- A boot that returned has settled exactly if its commit answered. -/
theorem answers_iff (h : bootSlotSelectionSelect options s = .ret () s') :
    Answers options s ↔ Settled s' := by
  constructor
  · intro hanswers
    have hout : wp (bootSlotSelectionSelect options) s
        (fun _ s' => Outcomes True (fun m => ¬ OnTrial m) s') (fun _ _ => True) (fun _ => True) :=
      bootSlotSelectionSelect_outcomes hanswers
    rcases hout.ret h with ⟨-, hs⟩ | ⟨hnot, -⟩
    · exact hs
    · exact .inr hnot
  · intro hs
    by_contra hnot
    have hfailed : wp (bootCommit options) s (fun _ _ => False) (fun _ s' => OnTrial s'.dev.mem)
        (fun _ => True) :=
      (wp_not hnot).mono (fun _ _ h => h trivial) (fun _ _ h => not_not.mp h) (fun _ _ => trivial)
    have hout : wp (bootSlotSelectionSelect options) s
        (fun _ s' => Outcomes False OnTrial s') (fun _ _ => True) (fun _ => True) :=
      bootSlotSelectionSelect_outcomes hfailed
    rcases hout.ret h with ⟨hfalse, -⟩ | ⟨htrial, hdecision⟩
    · exact hfalse
    · rcases hs with hs | hs
      · exact hdecision hs
      · exact hs htrial

/-- In a sound store a trial names the version of its candidate. -/
theorem version_of_trial (hsound : (store crypto publicKey m).Sound) (hj : journal m = .ok r)
    (hs : r.state = .pendingTrial) (hc : r.candidateSlot = slot.toUInt32) :
    r.candidateImageVersion = slotVersion m (bootSlots slot) := by
  have hoffered := hsound.offered
  rw [TwoSlot.Store.Offered, store_phase hj, phaseOf_trial hs hc] at hoffered
  exact UInt32.toNat_inj.mp hoffered.2.symm

/-- In a sound store a confirmed record names the version of its image. -/
theorem version_of_confirmed (hsound : (store crypto publicKey m).Sound) (hj : journal m = .ok r)
    (hs : r.state = .confirmed) (ha : r.activeSlot = slot.toUInt32) :
    r.candidateImageVersion = slotVersion m (bootSlots slot) := by
  have hnewer := hsound.newer
  rw [TwoSlot.Store.Newer, store_phase hj, phaseOf_confirmed hs ha] at hnewer
  exact UInt32.toNat_inj.mp hnewer.symm

/-- What a boot leaves on record has the slots of what it found. -/
theorem slots_of_booted {d' : Device} (h : Booted d d') (hm : journal d.mem = .ok metadata)
    (hr : journal d'.mem = .ok r) :
    r.activeSlot = metadata.activeSlot ∧ r.candidateSlot = metadata.candidateSlot := by
  rcases h.journal with hsame | ⟨cur, next, hcur, hnext, hstep⟩
  · obtain rfl : r = metadata := Except.ok.inj (hr.symm.trans (hsame.trans hm))
    exact ⟨rfl, rfl⟩
  · obtain rfl : cur = metadata := Except.ok.inj (hcur.symm.trans hm)
    obtain rfl : next = r := Except.ok.inj (hnext.symm.trans hr)
    exact ⟨hstep.active, hstep.candidate⟩

/-- A boot that selected `slot` has settled exactly if the metadata it left names `slot`. -/
theorem settled_iff_names (hsound : (store crypto publicKey s'.dev.mem).Sound)
    (hb : Booted d s'.dev) (hm : journal d.mem = .ok metadata)
    (hsel : Selects options metadata d.mem s'.dev.mem s'.result)
    (hslot : s'.result.selectedSlot = slot.toUInt32) :
    Settled s' ↔ Names slot s'.dev.mem := by
  constructor
  · intro hsettled
    refine ⟨fun r hr hs => ?_, fun r hr hs => ?_⟩
    · have hdecision := hsettled.resolve_right fun h => h ⟨r, hr, hs⟩
      rcases hsel with ⟨-, hselected, -⟩ | ⟨hother, -⟩
      · have hc : r.candidateSlot = slot.toUInt32 :=
          (slots_of_booted hb hm hr).2.trans (hselected.symm.trans hslot)
        exact ⟨hc, version_of_trial hsound hr hs hc⟩
      · rcases hother with h | h <;> rw [hdecision] at h <;> cases h
    · rcases hsel with ⟨-, -, ⟨next, hnext, -, hpending, -⟩, -⟩ | ⟨-, hselected, -⟩
      · obtain rfl : next = r := Except.ok.inj (hnext.symm.trans hr)
        rw [hs] at hpending
        cases hpending
      · have ha : r.activeSlot = slot.toUInt32 :=
          (slots_of_booted hb hm hr).1.trans (hselected.symm.trans hslot)
        exact ⟨ha, version_of_confirmed hsound hr hs ha⟩
  · intro hnames
    rcases hsel with ⟨hdecision, -⟩ | ⟨-, hselected, -⟩
    · exact .inl hdecision
    · refine .inr ?_
      rintro ⟨r, hr, hs⟩
      have hcan := canonical_of_true (journal_canonical hr)
      have hne := (hcan.candidate (by simp [hs]) (by simp [hs])).2.1
      refine hne ?_
      rw [(slots_of_booted hb hm hr).1, (hnames.trial r hr hs).1]
      exact hselected.symm.trans hslot

/-- What the application in `slot` publishes is true, whatever it calls and whatever the flash
does. -/
def ReportsTruth (slot : BootSlotId) (d : Device) : Prop :=
  ∀ vs calls, wp (reportCalls slot calls : Prog Reporter Empty Unit)
    (Reporter.fresh { d with script := vs }) (fun _ s => Truthful slot s) (fun _ _ => False)
    (fun _ => True)

/-- In a sound store the reports are true exactly if the metadata names the slot. -/
theorem reportsTruth_iff_names (hsound : (store crypto publicKey d.mem).Sound) :
    ReportsTruth slot d ↔ Names slot d.mem := by
  constructor
  · intro htruth
    -- one refresh of the telemetry on an undisturbed device says it all
    have hselected : ∀ r, journal d.mem = .ok r → trustedSelectedSlot r = bootSlotNone ∨
        trustedSelectedSlot r = slot.toUInt32 := by
      intro r hr
      have h := htruth [] [.refresh]
      rw [reportCalls, reportCall, wp_bind, Reporter.onTelemetry, wp_zoom] at h
      have hrun := h.and (experimentTelemetryRefreshMetadata_spec (ε := Empty))
      by_contra hnot
      have hfalse : wp (experimentTelemetryRefreshMetadata : Prog Telemetry Empty Unit)
          ⟨{}, { d with script := [] }⟩ (fun _ _ => False) (fun _ _ => False) (fun _ => False) := by
        refine hrun.mono (fun _ t ht => ?_) (fun _ _ h => h.1) (fun _ h => h.2.2 rfl)
        obtain ⟨htruthful, -, ⟨-, hsilent⟩ | ⟨r', hr', -, hs⟩⟩ := ht
        · exact hsilent rfl r hr
        · obtain rfl : r' = r := Except.ok.inj (hr'.symm.trans hr)
          refine hnot (htruthful.selected.imp (fun h => hs.symm.trans h) fun h => hs.symm.trans h)
      rw [wp] at hfalse
      split at hfalse <;> exact hfalse
    refine ⟨fun r hr hs => ?_, fun r hr hs => ?_⟩
    · have h := hselected r hr
      rw [trustedSelectedSlot, if_pos hs] at h
      have hcan := canonical_of_true (journal_canonical hr)
      obtain ⟨⟨c, hc⟩, -⟩ := hcan.candidate (by simp [hs]) (by simp [hs])
      have hc' := h.resolve_left fun hnone => by
        rw [hc] at hnone
        cases c <;> cases hnone
      exact ⟨hc', version_of_trial hsound hr hs hc'⟩
    · have h := hselected r hr
      rw [trustedSelectedSlot, if_neg (by simp [hs]), if_pos hs] at h
      have hcan := canonical_of_true (journal_canonical hr)
      have ha := h.resolve_left (hcan.confirmed hs).1
      exact ⟨ha, version_of_confirmed hsound hr hs ha⟩
  · intro hnames vs calls
    have hinv : ReporterInv slot (Reporter.fresh { d with script := vs }) := .fresh hnames
    exact (reportCalls_truthful hinv calls).mono (fun _ _ h => h.truthful) (fun _ _ h => h)
      (fun _ h => h)

end Running

/-! ### Every boot of every run -/

section Runs

variable {crypto : Crypto} {publicKey : List UInt8} {d : Device} {r : BootMetadataRecord}
  {slot : BootSlotId} {mc : Machine}

/-- **The reported version names the running image exactly if the boot before answered.** From a
confirmed record that names the version of its image, after any run: the application that a boot
starts publishes the truth, whatever it calls and whatever the flash does, exactly if the commit of
that boot succeeds or leaves no trial on record. -/
theorem reports_truthful_iff {active : BootSlotId} (hj : journal d.mem = .ok r)
    (hs : r.state = .confirmed) (ha : r.activeSlot = active.toUInt32)
    (hv : slotVersion d.mem (bootSlots active) = r.candidateImageVersion) (es : List Event)
    (options : BootSlotSelectionOptions) (script : List Verdict) (result : BootSlotSelectionResult)
    (hboot : bootReturn (run crypto publicKey (powerOn d) es) ⟨.boot options, script⟩ =
      some result) :
    ∃ slot : BootSlotId, result.selectedSlot = slot.toUInt32 ∧
      (ReportsTruth slot (run crypto publicKey (powerOn d)
          (es ++ [⟨.boot options, script⟩])).inst.dev ↔
        Answers options { dev := (run crypto publicKey (powerOn d) es).scripted script }) := by
  have hsound : (store crypto publicKey d.mem).Sound := sound_of_confirmed hj hs ha hv
  have hm : journal d.mem ≠ .error .ambiguous := by rw [hj]; exact nofun
  have hinv := powerOn_inv publicKey d
  have hafter : (store crypto publicKey (run crypto publicKey (powerOn d)
      (es ++ [⟨.boot options, script⟩])).mem).Sound :=
    hsound.steps (run_refines crypto hinv hm _).1
  obtain ⟨s', hrun, hresult, hdev⟩ := exists_of_bootReturn crypto publicKey hboot
  have hspec : wp (bootSlotSelectionSelect options)
      { dev := (run crypto publicKey (powerOn d) es).scripted script } _ _ _ :=
    bootSlotSelectionSelect_spec
  obtain ⟨hbooted, metadata, hmeta, hsel⟩ := hspec.ret hrun
  obtain ⟨slot, hslot⟩ : ∃ slot : BootSlotId, s'.result.selectedSlot = slot.toUInt32 := by
    rcases hsel with ⟨-, hselected, -, slot, hslot, -⟩ | ⟨-, hselected, slot, hslot, -⟩
    · exact ⟨slot, hselected.trans hslot⟩
    · exact ⟨slot, hselected.trans hslot⟩
  have hlast : (run crypto publicKey (powerOn d) (es ++ [⟨.boot options, script⟩])).inst.dev =
      s'.dev := by
    rw [run_append]
    exact hdev
  have hafter' : (store crypto publicKey s'.dev.mem).Sound := by
    rw [← hlast]
    exact hafter
  refine ⟨slot, by rw [← hresult]; exact hslot, ?_⟩
  calc ReportsTruth slot (run crypto publicKey (powerOn d) (es ++ [⟨.boot options, script⟩])).inst.dev
      ↔ ReportsTruth slot s'.dev := by rw [hlast]
    _ ↔ Names slot s'.dev.mem := reportsTruth_iff_names hafter'
    _ ↔ Settled s' := (settled_iff_names hafter' hbooted hmeta hsel hslot).symm
    _ ↔ Answers options { dev := (run crypto publicKey (powerOn d) es).scripted script } :=
      (answers_iff hrun).symm

/-- After the update, the first boot of the candidate and the second. -/
theorem reports_truthful_factory : ∃ (result : BootSlotSelectionResult) (slot : BootSlotId),
    result.decision = .trial ∧ result.selectedSlot = slot.toUInt32 ∧
    (ReportsTruth slot (run factoryCrypto factoryKey (powerOn (flashWith factoryRecord))
        ((updateEvents ++ [policyBoot factoryCrypto factoryKey []]) ++
          [policyBoot factoryCrypto factoryKey []])).inst.dev ↔
      Answers (bootPolicyOptions factoryCrypto factoryKey)
        { dev := (run factoryCrypto factoryKey (powerOn (flashWith factoryRecord))
          (updateEvents ++ [policyBoot factoryCrypto factoryKey []])).scripted [] }) := by
  obtain ⟨⟨result, hboot, hdecision⟩, -⟩ := @run_starts_trial factoryCrypto factoryKey _
    (triedRecord readyRecord) _ provisioned_factory journal_tried (.inr ⟨rfl, by decide⟩) (by decide)
  obtain ⟨slot, hslot, htruth⟩ := @reports_truthful_iff factoryCrypto factoryKey
    (flashWith factoryRecord) factoryRecord .a (journal_flashWith (by decide)) rfl rfl
    slotVersion_factory (updateEvents ++ [policyBoot factoryCrypto factoryKey []])
    (bootPolicyOptions factoryCrypto factoryKey) [] result hboot
  rw [← policyBoot] at htruth
  exact ⟨result, slot, hdecision, hslot, htruth⟩

end Runs

/-! ### A trial that is not selected -/

section Misreported

variable {crypto : Crypto} {publicKey : List UInt8} {options : BootSlotSelectionOptions}
  {outcomes : BootSlotId → VerifySlotOutcome} {metadata : BootMetadataRecord} {s : Selector}
  {c slot : BootSlotId} {damage : Damage} {mc : Machine}

/-- A refresh names the candidate of a trial on record. -/
theorem refresh_of_trial {d : Device} {r : BootMetadataRecord} (hj : journal d.mem = .ok r)
    (hs : r.state = .pendingTrial) :
    wp (reportCalls slot [.refresh] : Prog Reporter Empty Unit)
      (Reporter.fresh { d with script := [] })
      (fun _ s => s.dev.mem = d.mem ∧ s.report.selectedSlot = r.candidateSlot ∧
        s.report.imageVersion = r.candidateImageVersion)
      (fun _ _ => False) (fun _ => False) := by
  rw [reportCalls, reportCall, wp_bind, Reporter.onTelemetry, wp_zoom]
  refine wp.mono experimentTelemetryRefreshMetadata_spec (fun _ t ht => ?_) (fun _ _ h => h)
    (fun _ h => h.2 rfl)
  obtain ⟨hread, ⟨-, hsilent⟩ | ⟨r', hr', hversion, hslot⟩⟩ := ht
  · exact absurd hj (hsilent rfl r)
  · obtain rfl : r' = r := Except.ok.inj (hr'.symm.trans hj)
    refine ⟨hread.eq_of_false.1, hslot.trans ?_, hversion.trans ?_⟩
    · rw [trustedSelectedSlot, if_pos hs]
    · rw [trustedMetadataImageVersion, if_pos (.inl hs)]

/-- **A trial that is not selected stays on record.** A boot during a trial whose commit fails at
its first read runs the confirmed image, and the telemetry then names the candidate. -/
theorem trial_misreported (damage : Damage) {r : BootMetadataRecord}
    (hsound : (store crypto publicKey mc.mem).Sound)
    (hvalid : (store crypto publicKey mc.mem).ActiveValid) (hj : journal mc.mem = .ok r)
    (hs : r.state = .pendingTrial) (ha : r.activeSlot = slot.toUInt32)
    (hattempts : r.bootAttemptCount > 0) :
    ∃ result s,
      bootReturn mc (policyBoot crypto publicKey [.ok, .ok, .fail damage]) = some result ∧
      result.selectedSlot = slot.toUInt32 ∧
      (reportCalls slot [.refresh] : Prog Reporter Empty Unit)
        (Reporter.fresh { (step crypto publicKey mc (policyBoot crypto publicKey
          [.ok, .ok, .fail damage])).inst.dev with script := [] }) = .ret () s ∧
      s.report.selectedSlot = r.candidateSlot ∧
      slotVersion s.dev.mem (bootSlots slot) < s.report.imageVersion := by
  obtain ⟨c, hc, -⟩ := (bootable_of_sound hsound hvalid hj).1 (.inr hs)
  obtain ⟨result, hreturn, -, hselected, hmem⟩ :=
    boot_falls_back damage hsound hvalid hj hs ha hattempts
  obtain ⟨d', hd'⟩ : ∃ d', (step crypto publicKey mc (policyBoot crypto publicKey
      [.ok, .ok, .fail damage])).inst.dev = d' := ⟨_, rfl⟩
  have hmem' : d'.mem = mc.mem := hd' ▸ hmem
  have hreport := @refresh_of_trial slot d' r (by rw [hmem']; exact hj) hs
  obtain ⟨_, s, hrefresh⟩ := returns_iff.mp (hreport.mono (fun _ _ _ => trivial) (fun _ _ h => h)
    (fun _ h => h))
  obtain ⟨hsame, hcandidate, hversion⟩ := hreport.ret hrefresh
  rw [hd']
  refine ⟨result, s, hreturn, hselected, hrefresh, hcandidate, ?_⟩
  have hnewer := hsound.newer
  rw [TwoSlot.Store.Newer, store_phase hj, phaseOf_trial hs hc, ha, slotOf_toUInt32] at hnewer
  rw [hversion, hsame, hmem']
  exact UInt32.lt_iff_toNat_lt.mpr hnewer

/-- **A failed candidate is reported as running.** An update, one trial boot, and a boot whose first
read during the commit of the next attempt fails: the image in slot A runs, and the telemetry names
slot B and a version above that of slot A. -/
theorem failed_trial_reported : ∃ result s,
    bootReturn (run factoryCrypto factoryKey (powerOn (flashWith factoryRecord))
        (updateEvents ++ [policyBoot factoryCrypto factoryKey []]))
      (policyBoot factoryCrypto factoryKey [.ok, .ok, .fail ⟨0, .unchanged⟩]) = some result ∧
    result.selectedSlot = BootSlotId.a.toUInt32 ∧
    (reportCalls .a [.refresh] : Prog Reporter Empty Unit)
      (Reporter.fresh { (step factoryCrypto factoryKey (run factoryCrypto factoryKey
        (powerOn (flashWith factoryRecord))
        (updateEvents ++ [policyBoot factoryCrypto factoryKey []]))
        (policyBoot factoryCrypto factoryKey [.ok, .ok, .fail ⟨0, .unchanged⟩])).inst.dev with
          script := [] }) = .ret () s ∧
    s.report.selectedSlot = BootSlotId.b.toUInt32 ∧
    slotVersion s.dev.mem (bootSlots .a) < s.report.imageVersion := by
  obtain ⟨hsound, hvalid⟩ := sound_of_run provisioned_factory
    (updateEvents ++ [policyBoot factoryCrypto factoryKey []])
  exact @trial_misreported factoryCrypto factoryKey .a _ ⟨0, .unchanged⟩ (triedRecord readyRecord)
    hsound hvalid journal_tried rfl rfl (by decide)

end Misreported

end Stm32SecurityLab
