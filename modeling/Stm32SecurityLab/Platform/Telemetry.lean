import Stm32SecurityLab.Platform.Confirmation

/-!
# The metadata part of the telemetry report

`experiment_telemetry_refresh_metadata` of `experiment_telemetry.c`: at boot, and again when the
confirmation service has given its final answer, the application copies the recovered metadata
into the report it publishes.

## Main definitions

* `TelemetryReport`, `experimentTelemetryRefreshMetadata`

## Main results

* `experimentTelemetryRefreshMetadata_spec` — what the report says of a recovered record
-/

namespace Stm32SecurityLab

open Crash

/-- The fields of `experiment_telemetry_report_t` that a refresh sets; the first eight defaults
are those it starts from. -/
structure TelemetryReport where
  selectedSlot : UInt32 := bootSlotNone
  confirmedSlot : UInt32 := bootSlotNone
  candidateSlot : UInt32 := bootSlotNone
  metadataState : BootMetadataState := .empty
  metadataSequence : UInt32 := 0
  remainingTrialAttempts : UInt32 := 0
  imageVersion : UInt32 := 0
  metadataValid : Bool := false
  metadataAmbiguous : Bool := false
  metadataUnrecoverable : Bool := false
  lastUpdateResult : UInt32 := 0
  commitMarker : BootMetadataCopy := .none

/-- The report and the flash it is made from. -/
structure Telemetry where
  report : TelemetryReport := {}
  dev : Device

namespace Telemetry

/-- Update the report. -/
def modifyReport {ε : Type} (f : TelemetryReport → TelemetryReport) : Prog Telemetry ε Unit :=
  .modify fun t => { t with report := f t.report }

end Telemetry

/-- `boot_flash_target_init_readonly`. -/
def bootFlashTargetInitReadonly : Except BootFlashError BootFlash :=
  bootFlashInit [] bootFlashTargetProgramAlignment

/-- The slot a record says is running. -/
def trustedSelectedSlot (metadata : BootMetadataRecord) : UInt32 :=
  if metadata.state = .pendingTrial then metadata.candidateSlot
  else if metadata.state = .confirmed then metadata.activeSlot
  else bootSlotNone

/-- The report as a refresh clears it. -/
def TelemetryReport.cleared (report : TelemetryReport) : TelemetryReport :=
  { lastUpdateResult := report.lastUpdateResult, commitMarker := report.commitMarker }

/-- The report of a recovered record. -/
def TelemetryReport.recovered (report : TelemetryReport) (metadata : BootMetadataRecord)
    (recovery : BootMetadataRecovery) : TelemetryReport :=
  { report with
    metadataValid := true
    metadataState := metadata.state
    metadataSequence := metadata.sequence
    confirmedSlot := metadata.activeSlot
    candidateSlot := metadata.candidateSlot
    remainingTrialAttempts := metadata.bootAttemptCount
    imageVersion := trustedMetadataImageVersion metadata
    lastUpdateResult := metadata.result
    commitMarker := recovery.selectedCopy
    selectedSlot := trustedSelectedSlot metadata }

/-- The report of a recovery that did not succeed. -/
def TelemetryReport.failed (report : TelemetryReport) : BootMetadataError → TelemetryReport
  | .ambiguous => { report with metadataAmbiguous := true }
  | _ => { report with metadataUnrecoverable := true }

/-- `experiment_telemetry_refresh_metadata`. -/
def experimentTelemetryRefreshMetadata {ε : Type} : Prog Telemetry ε Unit := do
  Telemetry.modifyReport TelemetryReport.cleared
  match bootFlashTargetInitReadonly with
  | .error _ => Telemetry.modifyReport fun report => { report with metadataUnrecoverable := true }
  | .ok _ => do
    match ← Prog.zoom (·.dev) (fun d t => { t with dev := d }) bootMetadataRecoverFromFlash with
    | (recovery, .ok metadata) =>
      Telemetry.modifyReport fun report => report.recovered metadata recovery
    | (_, .error e) => Telemetry.modifyReport fun report => report.failed e

/-- A report that names nothing. -/
def TelemetryReport.Silent (report : TelemetryReport) : Prop :=
  report.imageVersion = 0 ∧ report.selectedSlot = bootSlotNone

theorem TelemetryReport.silent_failed (report : TelemetryReport) (e : BootMetadataError)
    (h : report.Silent) : (report.failed e).Silent := by
  cases e <;> exact h

/-- **A refresh** only reads, and the report names nothing or what the recovered record says. On an
undisturbed device with a recoverable record it names what the record says. -/
theorem experimentTelemetryRefreshMetadata_spec {ε : Type} {t : Telemetry} :
    wp (experimentTelemetryRefreshMetadata : Prog Telemetry ε Unit) t
      (fun _ t' => t.dev.ReadOnly t'.dev ∧
        (t'.report.Silent ∧ (t.dev.Quiet → ∀ r, journal t.dev.mem ≠ .ok r) ∨
          ∃ r, journal t.dev.mem = .ok r ∧
            t'.report.imageVersion = trustedMetadataImageVersion r ∧
            t'.report.selectedSlot = trustedSelectedSlot r))
      (fun _ _ => False) (fun t' => t.dev.ReadOnly t'.dev ∧ ¬ t.dev.Quiet) := by
  have hread : ∀ vs, (t.dev.Quiet → vs = []) → t.dev.ReadOnly { t.dev with script := vs } :=
    fun vs h => ⟨⟨[], by simp⟩, h⟩
  obtain ⟨flash, hflash⟩ : ∃ flash, bootFlashTargetInitReadonly = .ok flash := ⟨_, rfl⟩
  rw [experimentTelemetryRefreshMetadata, hflash]
  simp only [Telemetry.modifyReport, wp_bind, wp_modify, wp_zoom]
  refine bootMetadataRecoverFromFlash_spec (fun vs hvs => ?_) (fun vs hn => ?_)
    (fun vs hn => ⟨hread vs fun hq => absurd hq hn, hn⟩)
  · have hj := journal_eq t.dev.mem
    rcases hrec : recovered t.dev.mem with ⟨recovery, status⟩
    rw [hrec] at hj
    cases status with
    | ok r => exact ⟨hread vs hvs, .inr ⟨r, hj, rfl, rfl⟩⟩
    | error e =>
      refine ⟨hread vs hvs, .inl ⟨TelemetryReport.silent_failed _ e ⟨rfl, rfl⟩, fun _ r h => ?_⟩⟩
      rw [hj] at h
      cases h
  · exact ⟨hread vs fun hq => absurd hq hn,
      .inl ⟨⟨rfl, rfl⟩, fun hq => absurd hq hn⟩⟩

end Stm32SecurityLab
