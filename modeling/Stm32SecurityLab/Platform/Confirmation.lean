import Stm32SecurityLab.Boot.Confirmation

/-!
# The confirmation service of the research application

`platform_confirmation.c`: the main loop of the application calls the service in every round until
it gets an answer other than `NOT_HEALTHY`. The service finds the running slot from the vector
table address, recovers the metadata, and confirms the slot if the health gate lets it.

## Main definitions

* `platformConfirmationHealthGate`, `platformConfirmationService`
* `trustedMetadataImageVersion` — the version the application publishes

## Main results

* `platformConfirmationService_spec` — the flash is written only behind the gate, and then the
  answer is final
* `platformConfirmationService_version` — the published version is that of the recovered record
-/

namespace Stm32SecurityLab

open Crash

/-! ### The service -/

/-- `platform_confirmation_status_t`. -/
inductive PlatformConfirmationStatus where
  | ok
  | notHealthy
  | slot
  | flash
  | metadata
  | ambiguousMetadata
  | notPending
  | commit
  deriving DecidableEq, Repr

/-- `platform_confirmation_health_t`. -/
structure PlatformConfirmationHealth where
  earlyPlatformInitDone : Bool
  runningSlotIdentified : Bool
  coreSelfChecksPassed : Bool
  criticalInitializationFailure : Bool
  stableExecutionPointReached : Bool
  metadataAllowsConfirmation : Bool
  uartDiagnosticsReady : Bool
  runtimeMonitorReady : Bool
  mpuPolicyReady : Bool
  watchdogActive : Bool
  applicationHealthOk : Bool
  deriving DecidableEq, Repr

/-- `platform_confirmation_snapshot_t`; the defaults are the initial value of `last_snapshot`. -/
structure PlatformConfirmationSnapshot where
  runningSlot : UInt32 := bootSlotNone
  metadataState : BootMetadataState := .empty
  metadataSequence : UInt32 := 0
  confirmedSlot : UInt32 := bootSlotNone
  candidateSlot : UInt32 := bootSlotNone
  remainingTrialAttempts : UInt32 := 0
  imageVersion : UInt32 := 0
  metadataAllowsConfirmation : Bool := false
  alreadyConfirmed : Bool := false
  lastStatus : PlatformConfirmationStatus := .notHealthy
  confirmStatus : Except BootConfirmError Unit := .error .notPending
  metadataStatus : Except BootMetadataError Unit := .error .noValidCopy

/-- `snapshot_clear`: the last status stays. -/
def snapshotClear (snapshot : PlatformConfirmationSnapshot) : PlatformConfirmationSnapshot :=
  { lastStatus := snapshot.lastStatus }

/-- `trusted_metadata_image_version`. -/
def trustedMetadataImageVersion (metadata : BootMetadataRecord) : UInt32 :=
  if metadata.state = .pendingTrial ∨ metadata.state = .confirmed then
    metadata.candidateImageVersion
  else
    0

/-- `platform_confirmation_health_gate`. -/
def platformConfirmationHealthGate (health : PlatformConfirmationHealth) : Bool :=
  health.earlyPlatformInitDone && health.runningSlotIdentified && health.coreSelfChecksPassed &&
    !health.criticalInitializationFailure && health.stableExecutionPointReached &&
    health.uartDiagnosticsReady && health.runtimeMonitorReady && health.mpuPolicyReady &&
    health.watchdogActive && health.applicationHealthOk && health.metadataAllowsConfirmation

/-- `metadata_allows_confirmation`: the answer, and whether the slot is confirmed already. -/
def metadataAllowsConfirmation (metadata : BootMetadataRecord) (runningSlot : UInt32) :
    Bool × Bool :=
  if metadata.state = .pendingTrial ∧ metadata.candidateSlot = runningSlot ∧
      metadata.confirmationState = 0 then
    (true, false)
  else if metadata.state = .confirmed ∧ metadata.activeSlot = runningSlot ∧
      metadata.candidateSlot = bootSlotNone ∧ metadata.confirmationState = 1 then
    (true, true)
  else
    (false, false)

/-- `map_confirm_status`. -/
def mapConfirmStatus : Except BootConfirmError Unit → PlatformConfirmationStatus
  | .ok () => .ok
  | .error .invalidArgument | .error .slot => .slot
  | .error .metadata => .metadata
  | .error .ambiguousMetadata => .ambiguousMetadata
  | .error .notPending => .notPending
  | .error .commit => .commit

/-- The state of the service: the published snapshot, and what a confirmation works on. -/
structure ConfirmationService where
  lastSnapshot : PlatformConfirmationSnapshot := {}
  confirmer : Confirmer

namespace ConfirmationService

/-- The flash of the service. -/
def dev (s : ConfirmationService) : Device := s.confirmer.dev

/-- Run a program of the confirmation. -/
def onConfirmer {ε α : Type} (x : Prog Confirmer ε α) : Prog ConfirmationService ε α :=
  x.zoom (·.confirmer) fun c s => { s with confirmer := c }

/-- Update the snapshot. -/
def modifySnapshot {ε : Type} (f : PlatformConfirmationSnapshot → PlatformConfirmationSnapshot) :
    Prog ConfirmationService ε Unit :=
  .modify fun s => { s with lastSnapshot := f s.lastSnapshot }

end ConfirmationService

open ConfirmationService

/-- The status of a recovery that did not succeed. -/
def platformMetadataFailure : BootMetadataError → PlatformConfirmationStatus
  | .ambiguous => .ambiguousMetadata
  | _ => .metadata

/-- The status when the gate stays closed. -/
def gateClosedStatus (health : PlatformConfirmationHealth) : PlatformConfirmationStatus :=
  if health.earlyPlatformInitDone = true ∧ health.runningSlotIdentified = true ∧
      health.coreSelfChecksPassed = true ∧ health.criticalInitializationFailure = false ∧
      health.stableExecutionPointReached = true ∧ health.metadataAllowsConfirmation = false then
    .notPending
  else
    .notHealthy

/-- What the service knows of the health when it asks the gate. -/
def gateHealth (baseHealth : PlatformConfirmationHealth) (metadata : BootMetadataRecord)
    (runningSlot : BootSlotId) : PlatformConfirmationHealth :=
  { baseHealth with
    runningSlotIdentified := true
    metadataAllowsConfirmation := (metadataAllowsConfirmation metadata runningSlot.toUInt32).1 }

/-- The fields of the snapshot that come from the recovered record. -/
def publishMetadata (metadata : BootMetadataRecord) (runningSlot : BootSlotId)
    (snapshot : PlatformConfirmationSnapshot) : PlatformConfirmationSnapshot :=
  { snapshot with
    metadataState := metadata.state
    metadataSequence := metadata.sequence
    confirmedSlot := metadata.activeSlot
    candidateSlot := metadata.candidateSlot
    remainingTrialAttempts := metadata.bootAttemptCount
    imageVersion := trustedMetadataImageVersion metadata
    metadataAllowsConfirmation := (metadataAllowsConfirmation metadata runningSlot.toUInt32).1
    alreadyConfirmed := (metadataAllowsConfirmation metadata runningSlot.toUInt32).2 }

/-- The part of `platform_confirmation_service` behind the gate. -/
def confirmBehindGate (flash : BootFlash) (runningSlot : BootSlotId) :
    Prog ConfirmationService PlatformConfirmationStatus Unit := do
  let status ← onConfirmer (bootConfirmCurrentSlot flash runningSlot.toUInt32).attempt
  modifySnapshot fun snapshot => { snapshot with confirmStatus := status }
  .check (status = .ok ()) (mapConfirmStatus status)
  let s ← .get
  modifySnapshot fun snapshot =>
    { snapshot with
      confirmedSlot := s.confirmer.result.confirmedSlot
      imageVersion := s.confirmer.result.imageVersion
      alreadyConfirmed := s.confirmer.result.alreadyConfirmed }

/-- The body of `platform_confirmation_service`: an early return is a status. -/
def confirmationBody (vectorAddress : UInt32) (baseHealth : PlatformConfirmationHealth) :
    Prog ConfirmationService PlatformConfirmationStatus Unit := do
  modifySnapshot snapshotClear
  let running := bootConfirmSlotFromVectorAddress vectorAddress.toNat
  modifySnapshot fun snapshot => { snapshot with confirmStatus := running.map fun _ => () }
  let runningSlot ← .ofExcept (running.mapError fun _ => .slot)
  modifySnapshot fun snapshot => { snapshot with runningSlot := runningSlot.toUInt32 }
  let flash ← .ofExcept (bootFlashTargetInitMetadata.mapError fun _ => .flash)
  let (_, status) ← onConfirmer (Confirmer.onDev bootMetadataRecoverFromFlash)
  modifySnapshot fun snapshot => { snapshot with metadataStatus := status.map fun _ => () }
  let metadata ← .ofExcept (status.mapError platformMetadataFailure)
  modifySnapshot (publishMetadata metadata runningSlot)
  .check (platformConfirmationHealthGate (gateHealth baseHealth metadata runningSlot) = true)
    (gateClosedStatus (gateHealth baseHealth metadata runningSlot))
  confirmBehindGate flash runningSlot

/-- The status of the body. -/
def confirmationStatus : Except PlatformConfirmationStatus Unit → PlatformConfirmationStatus
  | .ok () => .ok
  | .error status => status

/-- `platform_confirmation_service`. -/
def platformConfirmationService {ε : Type} (vectorAddress : UInt32)
    (baseHealth : PlatformConfirmationHealth) :
    Prog ConfirmationService ε PlatformConfirmationStatus := do
  let result ← (confirmationBody vectorAddress baseHealth).attempt
  modifySnapshot fun snapshot => { snapshot with lastStatus := confirmationStatus result }
  pure (confirmationStatus result)

/-! ### Behind the gate -/

/-- What the caller of the service has to report for the gate to open. -/
structure BaseHealthy (health : PlatformConfirmationHealth) : Prop where
  early_init : health.earlyPlatformInitDone = true
  self_checks : health.coreSelfChecksPassed = true
  no_critical_failure : health.criticalInitializationFailure = false
  stable : health.stableExecutionPointReached = true
  uart : health.uartDiagnosticsReady = true
  runtime_monitor : health.runtimeMonitorReady = true
  mpu_policy : health.mpuPolicyReady = true
  watchdog : health.watchdogActive = true
  application : health.applicationHealthOk = true

theorem baseHealthy_of_gate {baseHealth : PlatformConfirmationHealth}
    {metadata : BootMetadataRecord} {runningSlot : BootSlotId}
    (h : platformConfirmationHealthGate (gateHealth baseHealth metadata runningSlot) = true) :
    BaseHealthy baseHealth := by
  simp only [platformConfirmationHealthGate, gateHealth, Bool.and_eq_true,
    Bool.not_eq_true'] at h
  obtain ⟨⟨⟨⟨⟨⟨⟨⟨⟨⟨h₁, -⟩, h₂⟩, h₃⟩, h₄⟩, h₅⟩, h₆⟩, h₇⟩, h₈⟩, h₉⟩, -⟩ := h
  exact ⟨h₁, h₂, h₃, h₄, h₅, h₆, h₇, h₈, h₉⟩

theorem mapConfirmStatus_ne_notHealthy (status : Except BootConfirmError Unit) :
    mapConfirmStatus status ≠ .notHealthy := by
  rcases status with (_ | _ | _ | _ | _ | _) | _ <;> exact nofun

variable {s : ConfirmationService} {vectorAddress : UInt32}
  {baseHealth : PlatformConfirmationHealth}

/-- The device was only read. -/
abbrev Device.ReadOnly (d d' : Device) : Prop := d.Extends (fun _ => False) d'

/-- Behind the gate the status is that of the confirmation, and never `NOT_HEALTHY`. -/
theorem confirmBehindGate_spec {flash : BootFlash} {runningSlot : BootSlotId} :
    wp (confirmBehindGate flash runningSlot) s
      (fun _ s' => Confirms s.dev s'.dev)
      (fun status s' => status ≠ .notHealthy ∧ Confirms s.dev s'.dev)
      (fun s' => Confirms s.dev s'.dev) := by
  rw [confirmBehindGate]
  simp only [onConfirmer, modifySnapshot, wp_bind, wp_zoom, wp_attempt, wp_modify, wp_check,
    wp_get]
  refine bootConfirmCurrentSlot_spec.mono (fun _ c h => ?_) (fun e c h => ?_) (fun c h => h)
  · exact ⟨fun _ => h, fun hne => absurd trivial hne⟩
  · exact ⟨fun he => (by cases he), fun _ => ⟨mapConfirmStatus_ne_notHealthy _, h⟩⟩

/-- The body writes only behind the gate. -/
theorem confirmationBody_spec :
    wp (confirmationBody vectorAddress baseHealth) s
      (fun _ s' => s.dev.ReadOnly s'.dev ∨ BaseHealthy baseHealth ∧ Confirms s.dev s'.dev)
      (fun status s' => s.dev.ReadOnly s'.dev ∨
        BaseHealthy baseHealth ∧ status ≠ .notHealthy ∧ Confirms s.dev s'.dev)
      (fun s' => s.dev.ReadOnly s'.dev ∨ BaseHealthy baseHealth ∧ Confirms s.dev s'.dev) := by
  have hself : s.dev.ReadOnly s.dev := Std.Refl.refl s.dev
  have hread : ∀ vs, (s.dev.Quiet → vs = []) → s.dev.ReadOnly { s.dev with script := vs } :=
    fun vs h => ⟨⟨[], by simp⟩, h⟩
  rw [confirmationBody]
  simp only [onConfirmer, Confirmer.onDev, modifySnapshot, wp_bind, wp_zoom, wp_modify, wp_check,
    wp_ofExcept]
  refine ⟨fun runningSlot _ => ⟨fun flash _ => ?_, fun _ _ => .inl hself⟩, fun _ _ => .inl hself⟩
  refine bootMetadataRecoverFromFlash_spec (fun vs hvs => ?_)
    (fun vs hn => ⟨fun _ h => (by cases h), fun _ _ => .inl (hread vs fun hq => absurd hq hn)⟩)
    (fun vs hn => .inl (hread vs fun hq => absurd hq hn))
  have hr := hread vs hvs
  refine ⟨fun metadata _ => ⟨fun hgate => ?_, fun _ => .inl hr⟩, fun _ _ => .inl hr⟩
  have hbase := baseHealthy_of_gate hgate
  have hconfirms : ∀ {d : Device}, Confirms { s.dev with script := vs } d → Confirms s.dev d :=
    fun h => ⟨IsTrans.trans _ _ _ (hr.mono fun _ => False.elim) h.extends_meta, h.journal⟩
  exact confirmBehindGate_spec.mono (fun _ _ h => .inr ⟨hbase, hconfirms h⟩)
    (fun _ _ h => .inr ⟨hbase, h.1, hconfirms h.2⟩) (fun _ h => .inr ⟨hbase, hconfirms h⟩)

/-- **The service writes only behind the gate**, and then its answer is final: the main loop does
not call it again. -/
theorem platformConfirmationService_spec {ε : Type} :
    wp (platformConfirmationService vectorAddress baseHealth : Prog ConfirmationService ε _) s
      (fun status s' => s.dev.ReadOnly s'.dev ∨
        BaseHealthy baseHealth ∧ status ≠ .notHealthy ∧ Confirms s.dev s'.dev)
      (fun _ _ => False)
      (fun s' => s.dev.ReadOnly s'.dev ∨ BaseHealthy baseHealth ∧ Confirms s.dev s'.dev) := by
  rw [platformConfirmationService]
  simp only [modifySnapshot, wp_bind, wp_attempt, wp_modify, wp_pure]
  refine confirmationBody_spec.mono (fun _ s' h => ?_) (fun status s' h => h) (fun s' h => h)
  exact h.imp_right fun hc => ⟨hc.1, fun h => (by cases h), hc.2⟩

/-- Behind an open gate and on an undisturbed device the trial of the running slot is confirmed. -/
theorem quiet_platformConfirmationService {ε : Type} {slot : BootSlotId}
    {r next : BootMetadataRecord} (hbase : BaseHealthy baseHealth) (hq : s.dev.Quiet)
    (hvector : vectorAddress.toNat = (bootSlots slot).payloadBase)
    (hj : journal s.dev.mem = .ok r)
    (hpending : r.state = .pendingTrial ∧ r.candidateSlot = slot.toUInt32 ∧ r.confirmationState = 0)
    (hnext : bootMetadataPrepareNext r .confirmed slot.toUInt32 bootSlotNone
      r.candidateImageVersion 0 1 0 = .ok next) :
    wp (platformConfirmationService vectorAddress baseHealth : Prog ConfirmationService ε _) s
      (fun status s' => status = .ok ∧ journal s'.dev.mem = .ok next ∧ s'.dev.Quiet)
      (fun _ _ => False) (fun _ => False) := by
  have hslot : bootConfirmSlotFromVectorAddress vectorAddress.toNat = .ok slot := by
    rw [hvector]
    cases slot <;> rfl
  have hgate : platformConfirmationHealthGate (gateHealth baseHealth r slot) = true := by
    simp only [platformConfirmationHealthGate, gateHealth, metadataAllowsConfirmation,
      hbase.early_init, hbase.self_checks, hbase.no_critical_failure, hbase.stable, hbase.uart,
      hbase.runtime_monitor, hbase.mpu_policy, hbase.watchdog, hbase.application, if_pos hpending]
    rfl
  obtain ⟨flash, hflash⟩ : ∃ flash, bootFlashTargetInitMetadata = .ok flash := ⟨_, rfl⟩
  rw [platformConfirmationService, confirmationBody, hslot, hflash]
  simp only [onConfirmer, Confirmer.onDev, modifySnapshot, wp_bind, wp_attempt, wp_zoom, wp_modify,
    wp_pure, wp_check, wp_ofExcept]
  refine ⟨fun running hrunning => ?_, fun _ h => by cases h⟩
  cases hrunning
  refine ⟨fun flash' hflash' => ?_, fun _ h => by cases h⟩
  cases hflash'
  refine bootMetadataRecoverFromFlash_spec (fun vs hvs => ?_) (fun _ hn => absurd hq hn)
    (fun _ hn => hn hq)
  have hstatus : (recovered s.confirmer.dev.mem).2 = .ok r := (journal_eq _).symm.trans hj
  rw [hstatus]
  refine ⟨fun metadata hm => ?_, fun _ h => by cases h⟩
  cases hm
  refine ⟨fun _ => ?_, fun hn => absurd hgate hn⟩
  rw [confirmBehindGate]
  simp only [onConfirmer, modifySnapshot, wp_bind, wp_zoom, wp_attempt, wp_modify, wp_check,
    wp_get]
  refine wp.mono (quiet_bootConfirmCurrentSlot (metadataWritable_target hflash) (by exact hvs hq)
    (by exact hj) hpending hnext) (fun _ c h => ?_) (fun _ _ h => h.elim) (fun _ h => h)
  exact ⟨fun _ => ⟨rfl, h⟩, fun hn => absurd trivial hn⟩

/-! ### The published version -/

/-- The recovered record names the version. -/
def Publishes (m : Mem) (version : UInt32) : Prop :=
  ∃ r, journal m = .ok r ∧ version = trustedMetadataImageVersion r

/-- A confirmation reports the version of the record it found. -/
theorem bootConfirmCurrentSlot_version {flash : BootFlash} {runningSlot : UInt32} {c : Confirmer} :
    wp (bootConfirmCurrentSlot flash runningSlot) c
      (fun _ c' => Publishes c.dev.mem c'.result.imageVersion) (fun _ _ => True)
      (fun _ => True) := by
  rw [bootConfirmCurrentSlot]
  simp only [Confirmer.onDev, Confirmer.modifyResult, wp_bind, wp_modify, wp_check, wp_zoom,
    wp_ofExcept]
  refine ⟨fun _ => ?_, fun _ => trivial⟩
  refine bootMetadataRecoverFromFlash_spec (fun vs _ => ⟨fun metadata hm => ?_, fun _ _ => trivial⟩)
    (fun vs _ => ⟨fun _ h => (by cases h), fun _ _ => trivial⟩) (fun _ _ => trivial)
  replace hm := mapError_eq_ok.mp hm
  rw [← journal_eq] at hm
  rw [wp_ite]
  refine ⟨fun hconfirmed => ?_, fun _ => ?_⟩
  · exact ⟨metadata, hm, (if_pos (.inr hconfirmed.1)).symm⟩
  · rw [confirmPending]
    simp only [Confirmer.onDev, Confirmer.modifyResult, wp_bind, wp_modify, wp_check, wp_zoom,
      wp_ofExcept, wp_mapErr]
    refine ⟨fun hpending => ⟨fun next _ => ?_, fun _ _ => trivial⟩, fun _ => trivial⟩
    have hversion : Publishes c.dev.mem metadata.candidateImageVersion :=
      ⟨metadata, hm, (if_pos (.inl hpending.1)).symm⟩
    exact wp_of_outcome (fun _ _ _ => hversion) (fun _ _ _ => trivial) (fun _ _ => trivial)

/-- **The published version** is none, or the one the record recovered from the flash names. -/
theorem platformConfirmationService_version {ε : Type} :
    wp (platformConfirmationService vectorAddress baseHealth : Prog ConfirmationService ε _) s
      (fun _ s' => s'.lastSnapshot.imageVersion = 0 ∨
        Publishes s.dev.mem s'.lastSnapshot.imageVersion)
      (fun _ _ => False) (fun _ => True) := by
  rw [platformConfirmationService, confirmationBody]
  simp only [onConfirmer, Confirmer.onDev, modifySnapshot, wp_bind, wp_attempt, wp_zoom, wp_modify,
    wp_pure, wp_check, wp_ofExcept]
  refine ⟨fun runningSlot _ => ⟨fun flash _ => ?_, fun _ _ => .inl rfl⟩, fun _ _ => .inl rfl⟩
  refine bootMetadataRecoverFromFlash_spec (fun vs _ => ?_)
    (fun vs _ => ⟨fun _ h => (by cases h), fun _ _ => .inl rfl⟩) (fun _ _ => trivial)
  refine ⟨fun metadata hm => ?_, fun _ _ => .inl rfl⟩
  replace hm := mapError_eq_ok.mp hm
  rw [← journal_eq] at hm
  have hpublished : Publishes s.dev.mem (trustedMetadataImageVersion metadata) :=
    ⟨metadata, hm, rfl⟩
  refine ⟨fun _ => ?_, fun _ => .inr hpublished⟩
  rw [confirmBehindGate]
  simp only [onConfirmer, modifySnapshot, wp_bind, wp_zoom, wp_attempt, wp_modify, wp_check,
    wp_get]
  refine bootConfirmCurrentSlot_version.mono (fun _ c h => ?_) (fun e c _ => ?_)
    (fun _ _ => trivial)
  · exact ⟨fun _ => .inr h, fun hne => absurd trivial hne⟩
  · exact ⟨fun he => (by cases he), fun _ => .inr hpublished⟩

end Stm32SecurityLab
