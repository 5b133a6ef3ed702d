import Stm32SecurityLab.Installer.Effect

/-!
# Slot selection

`boot_slot_selection.c`: which slot Stage 0 boots, given the journal and what the images verify
as. A candidate that is ready or on trial gets one more attempt, committed to the journal before
the boot goes on; one that does not verify or has no attempt left is rejected, as far as the
journal can be written. Everything else falls back to the confirmed slot.

The verification function and the fault hook of the options are arbitrary functions of the number
of earlier calls and their arguments. `verifyTargetSlot` is the one of `boot_policy.c`.

## Main definitions

* `BootSlotSelectionOptions`, `BootSlotSelectionResult`, `Selector`
* `bootSlotSelectionSelect`, `verifyTargetSlot`
* `BootStep` — the records a boot may commit

## Main results

* `bootSlotSelectionSelect_spec` — a boot commits at most one record, and a trial boot commits one
  with a smaller budget
-/

namespace Stm32SecurityLab

open Crash

/-! ### Types -/

/-- `boot_slot_selection_status_t` without `OK`. -/
inductive BootSlotSelectionError where
  | invalidArgument
  | metadata
  | ambiguousMetadata
  | slot
  | verify
  | commit
  | noBootableSlot
  | injected
  deriving DecidableEq, Repr

/-- `boot_slot_selection_decision_t`. -/
inductive BootSlotSelectionDecision where
  | none
  | confirmed
  | trial
  | fallback
  deriving DecidableEq, Repr

/-- `boot_slot_selection_fault_point_t`. -/
inductive BootSlotSelectionFaultPoint where
  | verifyCandidate
  | verifyConfirmed
  | metadataPendingTrial
  | metadataAttemptDecrement
  | metadataRejectInvalid
  deriving DecidableEq, Repr

/-- `BOOT_SLOT_SELECTION_RESULT_NONE`. -/
def bootSlotSelectionResultNone : UInt32 := 0

/-- `BOOT_SLOT_SELECTION_RESULT_ATTEMPTS_EXHAUSTED`. -/
def bootSlotSelectionResultAttemptsExhausted : UInt32 := 1

/-- `BOOT_SLOT_SELECTION_RESULT_CANDIDATE_VERIFY_FAILED`. -/
def bootSlotSelectionResultCandidateVerifyFailed : UInt32 := 2

/-- A cleared `signed_image_jump_context_t`. -/
def clearJumpContext : SignedImageJumpContext := ⟨0, 0, 0, 0, 0, 0⟩

/-- What a verification function returns and stores through its pointers. -/
structure VerifySlotOutcome where
  status : Except BootSlotSelectionError Unit
  verifyStatus : Except VerifyError Unit
  jumpContext : SignedImageJumpContext := clearJumpContext

/-- `boot_slot_selection_options_t`. The first argument of the two functions is the number of
earlier calls; it stands for their contexts. -/
structure BootSlotSelectionOptions where
  metadataFlash : BootFlash
  verifySlot : ℕ → Mem → BootSlotDescriptor → VerifySlotOutcome
  faultHook : Option (ℕ → BootSlotSelectionFaultPoint → UInt32 → Except BootSlotSelectionError Unit)
  trialResetResult : UInt32

/-- `boot_slot_selection_result_t`; the defaults are those of `init_result`. -/
structure BootSlotSelectionResult where
  decision : BootSlotSelectionDecision := .none
  selectedSlot : UInt32 := bootSlotNone
  confirmedSlot : UInt32 := bootSlotNone
  candidateSlot : UInt32 := bootSlotNone
  imageVersion : UInt32 := 0
  attemptsRemainingBefore : UInt32 := 0
  attemptsRemainingAfter : UInt32 := 0
  metadataBefore : BootMetadataRecord := ⟨0, .empty, 0, 0, 0, 0, 0, 0⟩
  metadataRecovery : BootMetadataRecovery := {}
  selectedVerifyStatus : Except VerifyError Unit := .error .badPayloadRange
  candidateVerifyStatus : Except VerifyError Unit := .error .badPayloadRange
  confirmedVerifyStatus : Except VerifyError Unit := .error .badPayloadRange
  fallbackCause : Except BootSlotSelectionError Unit := .ok ()
  jumpContext : SignedImageJumpContext := clearJumpContext

/-- The state of a selection: the result structure, the number of calls of the options' functions,
and the device. -/
structure Selector where
  result : BootSlotSelectionResult := {}
  calls : ℕ := 0
  dev : Device

namespace Selector

/-- Run a program of the device. -/
def onDev {ε α : Type} (x : Prog Device ε α) : Prog Selector ε α :=
  x.zoom (·.dev) fun d s => { s with dev := d }

/-- Update the result structure. -/
def modifyResult {ε : Type} (f : BootSlotSelectionResult → BootSlotSelectionResult) :
    Prog Selector ε Unit :=
  .modify fun s => { s with result := f s.result }

/-- Count a call. -/
def countCall {ε : Type} : Prog Selector ε ℕ := fun s => .ret s.calls { s with calls := s.calls + 1 }

end Selector

open Selector

/-! ### Selection -/

/-- `maybe_inject`. -/
def maybeInject (options : BootSlotSelectionOptions) (point : BootSlotSelectionFaultPoint)
    (detail : UInt32) : Prog Selector BootSlotSelectionError Unit :=
  match options.faultHook with
  | none => pure ()
  | some hook => do
    let calls ← countCall
    .ofExcept (hook calls point detail)

/-- `verify_slot`: its status with the jump context, and the `verify_status_t`. -/
def verifySlot (options : BootSlotSelectionOptions) (slot : BootSlotDescriptor)
    (faultPoint : BootSlotSelectionFaultPoint) :
    Prog Selector BootSlotSelectionError
      (Except BootSlotSelectionError SignedImageJumpContext × Except VerifyError Unit) := do
  match ← (maybeInject options faultPoint slot.id.toUInt32).attempt with
  | .error status => pure (.error status, .error .badPayloadRange)
  | .ok () => do
    let calls ← countCall
    let s ← .get
    let outcome := options.verifySlot calls s.dev.mem slot
    match outcome.status, outcome.verifyStatus with
    | .error status, verifyStatus => pure (.error status, verifyStatus)
    | .ok (), .ok () => pure (.ok outcome.jumpContext, .ok ())
    | .ok (), .error e => pure (.error .verify, .error e)

/-- `commit_next`. -/
def commitNext (options : BootSlotSelectionOptions) (next : BootMetadataRecord)
    (faultPoint : BootSlotSelectionFaultPoint) (detail : UInt32) :
    Prog Selector BootSlotSelectionError Unit := do
  maybeInject options faultPoint detail
  onDev ((bootMetadataCommit options.metadataFlash next).mapErr fun _ => .commit)

/-- `prepare_rejected_invalid`. -/
def prepareRejectedInvalid (current : BootMetadataRecord) (resultCode : UInt32) :
    BootMetadataRecord :=
  match bootMetadataPrepareNext current .rejectedInvalid current.activeSlot current.candidateSlot
      current.candidateImageVersion 0 0 resultCode with
  | .ok next => next
  | .error _ => bootMetadataEmpty

/-- `reject_invalid_best_effort`. -/
def rejectInvalidBestEffort (options : BootSlotSelectionOptions) (current : BootMetadataRecord)
    (resultCode : UInt32) : Prog Selector BootSlotSelectionError Unit :=
  let rejected := prepareRejectedInvalid current resultCode
  if rejected.sequence ≠ 0 then do
    let _ ← ((commitNext options rejected .metadataRejectInvalid resultCode).attempt :
      Prog Selector BootSlotSelectionError _)
    pure ()
  else
    pure ()

/-- `select_confirmed_slot`. -/
def selectConfirmedSlot (options : BootSlotSelectionOptions) (metadata : BootMetadataRecord)
    (decision : BootSlotSelectionDecision) : Prog Selector BootSlotSelectionError Unit :=
  match bootSlotLookup metadata.activeSlot with
  | none => .fail .slot
  | some slot => do
    let (status, verifyStatus) ← verifySlot options slot .verifyConfirmed
    modifyResult fun result => { result with confirmedVerifyStatus := verifyStatus }
    match status with
    | .error .verify => .fail .noBootableSlot
    | .error e => .fail e
    | .ok jumpContext =>
      modifyResult fun result =>
        { result with
          decision
          selectedSlot := slot.id.toUInt32
          selectedVerifyStatus := verifyStatus
          jumpContext }

/-- `fallback_to_confirmed`. -/
def fallbackToConfirmed (options : BootSlotSelectionOptions) (metadata : BootMetadataRecord) :
    Prog Selector BootSlotSelectionError Unit :=
  if metadata.activeSlot = bootSlotNone then .fail .noBootableSlot
  else selectConfirmedSlot options metadata .fallback

/-- Fall back with a cause. -/
def fallbackBecause (options : BootSlotSelectionOptions) (metadata : BootMetadataRecord)
    (cause : BootSlotSelectionError) : Prog Selector BootSlotSelectionError Unit := do
  modifyResult fun result => { result with fallbackCause := .error cause }
  fallbackToConfirmed options metadata

/-- The end of `start_or_continue_trial`, with the attempts that are left. -/
def commitTrial (options : BootSlotSelectionOptions) (metadata : BootMetadataRecord)
    (slot : BootSlotDescriptor) (jumpContext : SignedImageJumpContext)
    (verifyStatus : Except VerifyError Unit) (nextAttempts : UInt32)
    (faultPoint : BootSlotSelectionFaultPoint) : Prog Selector BootSlotSelectionError Unit :=
  match bootMetadataPrepareNext metadata .pendingTrial metadata.activeSlot metadata.candidateSlot
      metadata.candidateImageVersion nextAttempts 0
      (if options.trialResetResult ≠ 0 then options.trialResetResult
        else bootSlotSelectionResultNone) with
  | .error _ => fallbackBecause options metadata .metadata
  | .ok next => do
    match ← (commitNext options next faultPoint nextAttempts).attempt with
    | .error status => fallbackBecause options metadata status
    | .ok () =>
      modifyResult fun result =>
        { result with
          decision := .trial
          selectedSlot := slot.id.toUInt32
          selectedVerifyStatus := verifyStatus
          attemptsRemainingAfter := nextAttempts
          jumpContext }

/-- `start_or_continue_trial`. -/
def startOrContinueTrial (options : BootSlotSelectionOptions) (metadata : BootMetadataRecord) :
    Prog Selector BootSlotSelectionError Unit :=
  match bootSlotLookup metadata.candidateSlot with
  | none => fallbackBecause options metadata .slot
  | some slot => do
    let (status, verifyStatus) ← verifySlot options slot .verifyCandidate
    modifyResult fun result => { result with candidateVerifyStatus := verifyStatus }
    match status with
    | .error e => do
      modifyResult fun result => { result with fallbackCause := .error e }
      rejectInvalidBestEffort options metadata bootSlotSelectionResultCandidateVerifyFailed
      fallbackToConfirmed options metadata
    | .ok jumpContext =>
      if metadata.state = .candidateReady then
        commitTrial options metadata slot jumpContext verifyStatus
          (bootMetadataMaxBootAttempts - 1) .metadataPendingTrial
      else if metadata.bootAttemptCount > 0 then
        commitTrial options metadata slot jumpContext verifyStatus (metadata.bootAttemptCount - 1)
          .metadataAttemptDecrement
      else do
        rejectInvalidBestEffort options metadata bootSlotSelectionResultAttemptsExhausted
        fallbackBecause options metadata .noBootableSlot

/-- The status of a recovery that did not succeed. -/
def metadataFailure : BootMetadataError → BootSlotSelectionError
  | .ambiguous => .ambiguousMetadata
  | _ => .metadata

/-- `boot_slot_selection_select`. -/
def bootSlotSelectionSelect (options : BootSlotSelectionOptions) :
    Prog Selector BootSlotSelectionError Unit := do
  modifyResult fun _ => {}
  let (recovery, status) ← onDev bootMetadataRecoverFromFlash
  let metadata ← .ofExcept (status.mapError metadataFailure)
  modifyResult fun result =>
    { result with
      metadataBefore := metadata
      metadataRecovery := recovery
      confirmedSlot := metadata.activeSlot
      candidateSlot := metadata.candidateSlot
      imageVersion := metadata.candidateImageVersion
      attemptsRemainingBefore := metadata.bootAttemptCount
      attemptsRemainingAfter := metadata.bootAttemptCount }
  match metadata.state with
  | .confirmed => selectConfirmedSlot options metadata .confirmed
  | .candidateReady | .pendingTrial => startOrContinueTrial options metadata
  | .writing | .rejectedInvalid => fallbackToConfirmed options metadata
  | .empty => .fail .noBootableSlot

/-- `verify_target_slot` of `boot_policy.c`. -/
def verifyTargetSlot (crypto : Crypto) (publicKey : List UInt8) (_calls : ℕ) (m : Mem)
    (slot : BootSlotDescriptor) : VerifySlotOutcome :=
  match slotVerify crypto publicKey m slot with
  | .error e => ⟨.error .verify, .error e, clearJumpContext⟩
  | .ok () =>
    match signedImagePrepareUpdateSlotBuffer (slotManifestBytes m slot) (pointer m slot.payloadBase)
        slot.maximumPayloadSize slot with
    | .ok jumpContext => ⟨.ok (), .ok (), jumpContext⟩
    | .error e => ⟨.error .verify, .error e, clearJumpContext⟩

/-- The options of `boot_policy_select`. -/
def bootPolicyOptions (crypto : Crypto) (publicKey : List UInt8) : BootSlotSelectionOptions where
  metadataFlash := ⟨bootFlashTargetProgramAlignment, metadataWriteRegions,
    bootFlashTargetProgramAlignment_pow, metadataWriteRegions_valid⟩
  verifySlot := verifyTargetSlot crypto publicKey
  faultHook := none
  trialResetResult := 0

/-! ### What a boot commits -/

/-- The record `next` is the one the boot policy commits over `cur`: one more attempt, or the
rejection of the candidate. -/
structure BootStep (cur next : BootMetadataRecord) : Prop where
  active : next.activeSlot = cur.activeSlot
  candidate : next.candidateSlot = cur.candidateSlot
  version : next.candidateImageVersion = cur.candidateImageVersion
  state : (next.state = .pendingTrial ∧
      ((cur.state = .candidateReady ∧ next.bootAttemptCount = bootMetadataMaxBootAttempts - 1) ∨
        (cur.state = .pendingTrial ∧
          next.bootAttemptCount.toNat + 1 = cur.bootAttemptCount.toNat))) ∨
    (next.state = .rejectedInvalid ∧ (cur.state = .candidateReady ∨ cur.state = .pendingTrial))

/-- What a boot did to the device: it committed one record, or none. -/
structure Booted (d d' : Device) : Prop where
  extends_meta : d.Extends MetaOp d'
  journal : journal d'.mem = journal d.mem ∨ ∃ cur next, Stm32SecurityLab.journal d.mem = .ok cur ∧
    Stm32SecurityLab.journal d'.mem = .ok next ∧ BootStep cur next

/-- A boot that only read. -/
theorem Booted.of_quiet {d d' : Device} (h : d.Extends (fun _ => False) d') : Booted d d' :=
  ⟨h.mono fun _ => False.elim, .inl (by rw [h.eq_of_false.1])⟩

/-- Reading afterwards makes no difference. -/
theorem Booted.read {d d' d'' : Device} (h : Booted d d') (hr : d'.Extends (fun _ => False) d'') :
    Booted d d'' := by
  refine ⟨IsTrans.trans _ _ _ h.extends_meta (hr.mono fun _ => False.elim), ?_⟩
  rw [hr.eq_of_false.1]
  exact h.journal

/-- While the journal says `WRITING`, a boot leaves it alone. -/
theorem Booted.not_writing {d d' : Device} (h : Booted d d') :
    Stm32SecurityLab.journal d'.mem = Stm32SecurityLab.journal d.mem ∨ ∃ cur, Stm32SecurityLab.journal d.mem = .ok cur ∧ cur.state ≠ .writing := by
  refine h.journal.imp_right ?_
  rintro ⟨cur, next, hcur, -, hstep⟩
  refine ⟨cur, hcur, fun hw => ?_⟩
  rcases hstep.state with ⟨-, ⟨hs, -⟩ | ⟨hs, -⟩⟩ | ⟨-, hs | hs⟩ <;> rw [hw] at hs <;> cases hs

/-! ### Specifications -/

variable {options : BootSlotSelectionOptions} {s s' : Selector} {metadata : BootMetadataRecord}

/-- Only calls were counted and the device was extended. -/
structure Counts (R : FlashOp → Prop) (s s' : Selector) : Prop where
  result : s'.result = s.result
  dev : s.dev.Extends R s'.dev

variable {R : FlashOp → Prop}

instance : Std.Refl (Counts R) where
  refl s := ⟨rfl, Std.Refl.refl s.dev⟩

instance : IsTrans Selector (Counts R) where
  trans _ _ _ h h' := ⟨h'.result.trans h.result, IsTrans.trans _ _ _ h.dev h'.dev⟩

theorem steps_maybeInject (point : BootSlotSelectionFaultPoint) (detail : UInt32) :
    StepsFrom (Counts R) (maybeInject options point detail) s := by
  rw [maybeInject]
  split
  · exact StepsFrom.pure ()
  · refine StepsFrom.bind (?_ : StepsFrom (Counts R) countCall s) fun _ _ _ => StepsFrom.ofExcept _
    exact ⟨rfl, Std.Refl.refl s.dev⟩

@[simp] theorem wp_selectorModifyResult {ε : Type}
    {f : BootSlotSelectionResult → BootSlotSelectionResult} {Q : Unit → Selector → Prop}
    {E : ε → Selector → Prop} {C : Selector → Prop} :
    wp (Selector.modifyResult f : Prog Selector ε Unit) s Q E C ↔
      Q () { s with result := f s.result } := Iff.rfl

@[simp] theorem wp_countCall {ε : Type} {Q : ℕ → Selector → Prop} {E : ε → Selector → Prop}
    {C : Selector → Prop} :
    wp (countCall : Prog Selector ε ℕ) s Q E C ↔ Q s.calls { s with calls := s.calls + 1 } :=
  Iff.rfl

/-- Verification changes nothing, and it passes if the options' function says so. -/
theorem verifySlot_spec {slot : BootSlotDescriptor} {point : BootSlotSelectionFaultPoint} :
    wp (verifySlot options slot point) s
      (fun x s' => Counts (fun _ => False) s s' ∧ ∀ context, x.1 = .ok context →
        ∃ calls, (options.verifySlot calls s.dev.mem slot).status = .ok () ∧
          (options.verifySlot calls s.dev.mem slot).verifyStatus = .ok ())
      (fun _ _ => False) (fun s' => Counts (fun _ => False) s s') := by
  rw [verifySlot]
  simp only [wp_bind, wp_attempt]
  refine wp.mono (steps_maybeInject (R := fun _ => False) point slot.id.toUInt32)
    (fun _ s₁ h₁ => ?_) (fun _ s₁ h₁ => ⟨h₁, fun _ h => by cases h⟩) (fun _ h => h)
  have hcount : Counts (fun _ => False) s { s₁ with calls := s₁.calls + 1 } := ⟨h₁.result, h₁.dev⟩
  simp only [wp_countCall, wp_get]
  rw [h₁.dev.eq_of_false.1]
  split
  · exact ⟨hcount, fun _ h => by cases h⟩
  · rename_i hstatus hverify
    exact ⟨hcount, fun _ _ => ⟨_, hstatus, hverify⟩⟩
  · exact ⟨hcount, fun _ h => by cases h⟩

/-- The slot a boot that is not a trial selects. -/
def SelectsActive (options : BootSlotSelectionOptions) (metadata : BootMetadataRecord) (m : Mem)
    (result : BootSlotSelectionResult) : Prop :=
  (result.decision = .confirmed ∨ result.decision = .fallback) ∧
    result.selectedSlot = metadata.activeSlot ∧ ∃ slot : BootSlotId,
      metadata.activeSlot = slot.toUInt32 ∧
      ∃ calls, (options.verifySlot calls m (bootSlots slot)).verifyStatus = .ok ()

theorem selectConfirmedSlot_spec {decision : BootSlotSelectionDecision}
    (hd : decision = .confirmed ∨ decision = .fallback) :
    wp (selectConfirmedSlot options metadata decision) s
      (fun _ s' => s.dev.Extends (fun _ => False) s'.dev ∧
        SelectsActive options metadata s'.dev.mem s'.result)
      (fun _ s' => s.dev.Extends (fun _ => False) s'.dev)
      (fun s' => s.dev.Extends (fun _ => False) s'.dev) := by
  rw [selectConfirmedSlot]
  split
  · exact Std.Refl.refl s.dev
  rename_i descriptor hlookup
  obtain ⟨slot, hslot, rfl⟩ := eq_of_bootSlotLookup hlookup
  rw [wp_bind]
  refine verifySlot_spec.mono ?_ (fun _ _ h => h.elim) (fun _ h => h.dev)
  rintro ⟨status, verifyStatus⟩ s₁ ⟨h₁, hok⟩
  simp only [wp_bind, wp_selectorModifyResult]
  split
  · exact h₁.dev
  · exact h₁.dev
  · rename_i context
    obtain ⟨calls, -, hverify⟩ := hok context rfl
    rw [← h₁.dev.eq_of_false.1] at hverify
    refine ⟨h₁.dev, hd, ?_, slot, hslot, calls, hverify⟩
    simp only [bootSlots_id]
    exact hslot.symm

theorem fallbackToConfirmed_spec :
    wp (fallbackToConfirmed options metadata) s
      (fun _ s' => s.dev.Extends (fun _ => False) s'.dev ∧
        SelectsActive options metadata s'.dev.mem s'.result)
      (fun _ s' => s.dev.Extends (fun _ => False) s'.dev)
      (fun s' => s.dev.Extends (fun _ => False) s'.dev) := by
  rw [fallbackToConfirmed]
  split
  · exact Std.Refl.refl s.dev
  · exact selectConfirmedSlot_spec (.inr rfl)

theorem commitNext_spec {next : BootMetadataRecord} {point : BootSlotSelectionFaultPoint}
    {detail : UInt32} :
    wp (commitNext options next point detail) s
      (fun _ s' => Counts MetaOp s s' ∧ journal s'.dev.mem = .ok next)
      (fun _ s' => Counts MetaOp s s' ∧
        (journal s'.dev.mem = journal s.dev.mem ∨ journal s'.dev.mem = .ok next))
      (fun s' => Counts MetaOp s s' ∧
        (journal s'.dev.mem = journal s.dev.mem ∨ journal s'.dev.mem = .ok next)) := by
  rw [commitNext]
  rw [wp_bind]
  have hmem : ∀ {s' : Selector}, Counts (fun _ => False) s s' → s'.dev.mem = s.dev.mem :=
    fun h => h.dev.eq_of_false.1
  have hcounts : ∀ {s'}, Counts (fun _ => False) s s' → Counts MetaOp s s' :=
    fun h => ⟨h.result, h.dev.mono fun _ => False.elim⟩
  refine wp.mono (steps_maybeInject (R := fun _ => False) point detail) (fun _ s₁ h₁ => ?_)
    (fun _ s₁ h₁ => ⟨hcounts h₁, .inl (by rw [hmem h₁])⟩)
    (fun s₁ h₁ => ⟨hcounts h₁, .inl (by rw [hmem h₁])⟩)
  rw [Selector.onDev]
  simp only [wp_zoom, wp_mapErr]
  have hframe : Steps (Device.Extends MetaOp) (bootMetadataCommit options.metadataFlash next) :=
    steps_bootMetadataCommit fun side op hop _ => ⟨side, hop⟩
  have hdev : ∀ {d'}, s₁.dev.Extends MetaOp d' → Counts MetaOp s { s₁ with dev := d' } :=
    fun hext => IsTrans.trans _ _ _ (hcounts h₁) ⟨rfl, hext⟩
  have htorn : ∀ {d'}, CommitTorn next s₁.dev d' →
      journal d'.mem = journal s.dev.mem ∨ journal d'.mem = .ok next := by
    intro d' ht
    rw [← hmem h₁]
    exact ht.journal.imp_right And.left
  exact (bootMetadataCommit_spec.and (hframe s₁.dev)).mono
    (fun _ d' h => ⟨hdev h.2, h.1.1⟩) (fun _ d' h => ⟨hdev h.2, htorn h.1⟩)
    (fun d' h => ⟨hdev h.2, htorn h.1⟩)

/-- The slot a trial boot selects, and what it has committed before. -/
def SelectsTrial (options : BootSlotSelectionOptions) (metadata : BootMetadataRecord) (m m' : Mem)
    (result : BootSlotSelectionResult) : Prop :=
  result.decision = .trial ∧ result.selectedSlot = metadata.candidateSlot ∧
    (∃ next, journal m' = .ok next ∧ BootStep metadata next ∧ next.state = .pendingTrial ∧
      result.attemptsRemainingAfter = next.bootAttemptCount) ∧
    ∃ slot : BootSlotId, metadata.candidateSlot = slot.toUInt32 ∧
      ∃ calls, (options.verifySlot calls m (bootSlots slot)).verifyStatus = .ok ()

/-- What a boot that succeeded has selected. -/
def Selects (options : BootSlotSelectionOptions) (metadata : BootMetadataRecord) (m m' : Mem)
    (result : BootSlotSelectionResult) : Prop :=
  SelectsTrial options metadata m m' result ∨ SelectsActive options metadata m' result

/-- Falling back after the device has been written. -/
theorem fallback_spec {d : Device} {m : Mem} (h : Booted d s.dev) :
    wp (fallbackToConfirmed options metadata) s
      (fun _ s' => Booted d s'.dev ∧ Selects options metadata m s'.dev.mem s'.result)
      (fun _ s' => Booted d s'.dev) (fun s' => Booted d s'.dev) :=
  fallbackToConfirmed_spec.mono (fun _ _ h' => ⟨h.read h'.1, .inr h'.2⟩)
    (fun _ _ h' => h.read h') (fun _ h' => h.read h')

/-- A commit of the boot policy, whole or torn. -/
theorem Booted.of_commit {cur next : BootMetadataRecord} {d d' : Device}
    (hext : d.Extends MetaOp d') (hj : Stm32SecurityLab.journal d.mem = .ok cur)
    (hstep : BootStep cur next)
    (hj' : Stm32SecurityLab.journal d'.mem = Stm32SecurityLab.journal d.mem ∨
      Stm32SecurityLab.journal d'.mem = .ok next) : Booted d d' :=
  ⟨hext, hj'.imp_right fun h => ⟨cur, next, hj, h, hstep⟩⟩

/-- Rejecting a candidate, if it can be done. -/
theorem rejectInvalidBestEffort_spec {resultCode : UInt32} (hj : journal s.dev.mem = .ok metadata)
    (hs : metadata.state = .candidateReady ∨ metadata.state = .pendingTrial) :
    wp (rejectInvalidBestEffort options metadata resultCode) s
      (fun _ s' => Booted s.dev s'.dev) (fun _ _ => False) (fun s' => Booted s.dev s'.dev) := by
  have hrefl : Booted s.dev s.dev := .of_quiet (Std.Refl.refl s.dev)
  rw [rejectInvalidBestEffort, prepareRejectedInvalid]
  cases hnext : bootMetadataPrepareNext metadata .rejectedInvalid metadata.activeSlot
      metadata.candidateSlot metadata.candidateImageVersion 0 0 resultCode with
  | error e => exact hrefl
  | ok next =>
    obtain ⟨-, -, hfields⟩ := bootMetadataPrepareNext_ok.mp hnext
    have hstep : BootStep metadata next := by
      rw [hfields]
      exact ⟨rfl, rfl, rfl, .inr ⟨rfl, hs⟩⟩
    rw [wp_ite]
    refine ⟨fun _ => ?_, fun _ => hrefl⟩
    simp only [wp_bind, wp_attempt, wp_pure]
    exact commitNext_spec.mono (fun _ _ h => .of_commit h.1.dev hj hstep (.inr h.2))
      (fun _ _ h => .of_commit h.1.dev hj hstep h.2) (fun _ h => .of_commit h.1.dev hj hstep h.2)

/-- Committing one more attempt. -/
theorem commitTrial_spec {slot : BootSlotId} {context : SignedImageJumpContext}
    {verifyStatus : Except VerifyError Unit} {attempts : UInt32}
    {point : BootSlotSelectionFaultPoint} {d : Device} (hread : d.Extends (fun _ => False) s.dev)
    (hj : journal d.mem = .ok metadata) (hslot : metadata.candidateSlot = slot.toUInt32)
    (hs : (metadata.state = .candidateReady ∧ attempts = bootMetadataMaxBootAttempts - 1) ∨
      (metadata.state = .pendingTrial ∧ attempts.toNat + 1 = metadata.bootAttemptCount.toNat))
    (hverify : ∃ calls, (options.verifySlot calls d.mem (bootSlots slot)).verifyStatus = .ok ()) :
    wp (commitTrial options metadata (bootSlots slot) context verifyStatus attempts point) s
      (fun _ s' => Booted d s'.dev ∧ Selects options metadata d.mem s'.dev.mem s'.result)
      (fun _ s' => Booted d s'.dev) (fun s' => Booted d s'.dev) := by
  rw [commitTrial]
  split
  · rw [fallbackBecause]
    simp only [wp_bind, wp_selectorModifyResult]
    exact fallback_spec (.of_quiet hread)
  rename_i next hnext
  obtain ⟨-, -, hfields⟩ := bootMetadataPrepareNext_ok.mp hnext
  have hstep : BootStep metadata next := by
    rw [hfields]
    exact ⟨rfl, rfl, rfl, .inl ⟨rfl, hs⟩⟩
  have hbooted : ∀ {d' : Device}, s.dev.Extends MetaOp d' →
      (journal d'.mem = journal s.dev.mem ∨ journal d'.mem = .ok next) → Booted d d' := by
    intro d' hext h
    rw [hread.eq_of_false.1] at h
    exact .of_commit (IsTrans.trans _ _ _ (hread.mono fun _ => False.elim) hext) hj hstep h
  simp only [wp_bind, wp_attempt]
  refine commitNext_spec.mono ?_ ?_ (fun s' h => hbooted h.1.dev h.2)
  · rintro _ s₁ ⟨hc, hj₁⟩
    rw [wp_selectorModifyResult]
    refine ⟨hbooted hc.dev (.inr hj₁), .inl ⟨rfl, ?_, ⟨next, hj₁, hstep, ?_, ?_⟩, slot, hslot, hverify⟩⟩
    · simp only [bootSlots_id]
      exact hslot.symm
    · rw [hfields]
    · rw [hfields]
  · rintro e s₁ ⟨hc, hj₁⟩
    rw [fallbackBecause]
    simp only [wp_bind, wp_selectorModifyResult]
    exact fallback_spec (hbooted hc.dev hj₁)

theorem startOrContinueTrial_spec {d : Device} (hread : d.Extends (fun _ => False) s.dev)
    (hj : journal d.mem = .ok metadata)
    (hs : metadata.state = .candidateReady ∨ metadata.state = .pendingTrial) :
    wp (startOrContinueTrial options metadata) s
      (fun _ s' => Booted d s'.dev ∧ Selects options metadata d.mem s'.dev.mem s'.result)
      (fun _ s' => Booted d s'.dev) (fun s' => Booted d s'.dev) := by
  have hj' : journal s.dev.mem = .ok metadata := by rw [hread.eq_of_false.1, hj]
  rw [startOrContinueTrial]
  split
  · rw [fallbackBecause]
    simp only [wp_bind, wp_selectorModifyResult]
    exact fallback_spec (.of_quiet hread)
  rename_i descriptor hlookup
  obtain ⟨slot, hslot, rfl⟩ := eq_of_bootSlotLookup hlookup
  rw [wp_bind]
  refine verifySlot_spec.mono ?_ (fun _ _ h => h.elim)
    (fun _ h => .of_quiet (IsTrans.trans _ _ _ hread h.dev))
  rintro ⟨status, verifyStatus⟩ s₁ ⟨h₁, hok⟩
  have hread₁ : d.Extends (fun _ => False) s₁.dev := IsTrans.trans _ _ _ hread h₁.dev
  have hj₁ : journal s₁.dev.mem = .ok metadata := by rw [hread₁.eq_of_false.1, hj]
  -- a rejection is committed over the record that was recovered, so it is a boot step from `d` too
  have hreject : ∀ {d' : Device}, Booted s₁.dev d' → Booted d d' := fun h =>
    ⟨IsTrans.trans _ _ _ (hread₁.mono fun _ => False.elim) h.extends_meta,
      hread₁.eq_of_false.1 ▸ h.journal⟩
  simp only [wp_bind, wp_selectorModifyResult]
  split
  · simp only [wp_bind, wp_selectorModifyResult]
    refine wp.mono (rejectInvalidBestEffort_spec hj₁ hs) (fun _ s₂ h₂ => ?_)
      (fun _ _ h => h.elim) (fun _ h => hreject h)
    exact fallback_spec (hreject h₂)
  · rename_i context
    obtain ⟨calls, -, hverify⟩ := hok context rfl
    rw [hread.eq_of_false.1] at hverify
    split
    · rename_i hready
      exact commitTrial_spec hread₁ hj hslot (.inl ⟨hready, rfl⟩) ⟨calls, hverify⟩
    rename_i hready
    have hpending := hs.resolve_left hready
    split
    · rename_i hpos
      refine commitTrial_spec hread₁ hj hslot (.inr ⟨hpending, ?_⟩) ⟨calls, hverify⟩
      have hle : (1 : UInt32) ≤ metadata.bootAttemptCount := by
        rw [UInt32.le_iff_toNat_le]
        exact UInt32.lt_iff_toNat_lt.mp hpos
      rw [UInt32.toNat_sub_of_le _ _ hle]
      have := UInt32.lt_iff_toNat_lt.mp hpos
      change metadata.bootAttemptCount.toNat - 1 + 1 = _
      change 0 < metadata.bootAttemptCount.toNat at this
      omega
    · simp only [wp_bind]
      refine wp.mono (rejectInvalidBestEffort_spec hj₁ hs) (fun _ s₂ h₂ => ?_)
        (fun _ _ h => h.elim) (fun _ h => hreject h)
      rw [fallbackBecause]
      simp only [wp_bind, wp_selectorModifyResult]
      exact fallback_spec (hreject h₂)

/-- **A boot** commits at most one record. It selects the confirmed slot, or it selects the
candidate after committing one more attempt. -/
theorem bootSlotSelectionSelect_spec :
    wp (bootSlotSelectionSelect options) s
      (fun _ s' => Booted s.dev s'.dev ∧ ∃ metadata, journal s.dev.mem = .ok metadata ∧
        Selects options metadata s.dev.mem s'.dev.mem s'.result)
      (fun _ s' => Booted s.dev s'.dev) (fun s' => Booted s.dev s'.dev) := by
  rw [bootSlotSelectionSelect, Selector.onDev]
  simp only [wp_bind, wp_selectorModifyResult, wp_zoom, wp_ofExcept]
  have hread : ∀ vs, (s.dev.Quiet → vs = []) →
      s.dev.Extends (fun _ => False) { s.dev with script := vs } := fun vs h => ⟨⟨[], by simp⟩, h⟩
  refine bootMetadataRecoverFromFlash_spec (fun vs hvs => ?_)
    (fun vs hn => ⟨fun _ h => (by cases h), fun _ _ => .of_quiet (hread vs fun hq => absurd hq hn)⟩)
    (fun vs hn => .of_quiet (hread vs fun hq => absurd hq hn))
  refine ⟨fun metadata hm => ?_, fun _ _ => .of_quiet (hread vs hvs)⟩
  replace hm := mapError_eq_ok.mp hm
  rw [← journal_eq] at hm
  have hfall : ∀ {x : Prog Selector BootSlotSelectionError Unit} {s' : Selector},
      wp x s' (fun _ s'' => Booted s.dev s''.dev ∧
        Selects options metadata s.dev.mem s''.dev.mem s''.result)
        (fun _ s'' => Booted s.dev s''.dev) (fun s'' => Booted s.dev s''.dev) →
      wp x s' (fun _ s'' => Booted s.dev s''.dev ∧ ∃ metadata, journal s.dev.mem = .ok metadata ∧
        Selects options metadata s.dev.mem s''.dev.mem s''.result)
        (fun _ s'' => Booted s.dev s''.dev) (fun s'' => Booted s.dev s''.dev) := fun h =>
    h.mono (fun _ _ h => ⟨h.1, metadata, hm, h.2⟩) (fun _ _ h => h) (fun _ h => h)
  split
  · refine hfall ((selectConfirmedSlot_spec (.inl rfl)).mono (fun _ _ h => ⟨?_, .inr h.2⟩)
      (fun _ _ h => ?_) (fun _ h => ?_))
    · exact .of_quiet (IsTrans.trans _ _ _ (hread vs hvs) h.1)
    · exact .of_quiet (IsTrans.trans _ _ _ (hread vs hvs) h)
    · exact .of_quiet (IsTrans.trans _ _ _ (hread vs hvs) h)
  · rename_i hs
    exact hfall (startOrContinueTrial_spec (hread vs hvs) hm (.inl hs))
  · rename_i hs
    exact hfall (startOrContinueTrial_spec (hread vs hvs) hm (.inr hs))
  · exact hfall (fallback_spec (.of_quiet (hread vs hvs)))
  · exact hfall (fallback_spec (.of_quiet (hread vs hvs)))
  · exact .of_quiet (hread vs hvs)

end Stm32SecurityLab
