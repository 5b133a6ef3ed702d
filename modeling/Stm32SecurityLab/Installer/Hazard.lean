import Stm32SecurityLab.Installer.Install
import Stm32SecurityLab.Crash.Hazard

/-!
# A flash failure that lies ahead

A device on which one flash operation is going to fail, and none after it. Until then the installer
does what it would do on an undisturbed device: it reads no clock and counts no operations, so it
cannot know. The installer may have a fault hook as long as the hook lets everything pass.

## Main definitions

* `flashHazard`, `installHazard` — the failure ahead, for the device and for the installer

## Main results

* `oblivious_updateInstallerBegin`, `oblivious_updateInstallerWrite`,
  `oblivious_updateInstallerFinish`
-/

namespace Stm32SecurityLab

open Crash Installer

/-! ### The device -/

/-- One operation fails after `k` others, and then everything succeeds. -/
def flashHazard : Hazard Device where
  ahead d := ∃ k damage, d.script = List.replicate k .ok ++ [.fail damage]
  past d := d.Quiet
  calm d := { d with script := [] }

theorem oblivious_modifyFlash {f : Device → Device} (hscript : ∀ d, (f d).script = d.script)
    (hcalm : ∀ d, f (flashHazard.calm d) = flashHazard.calm (f d)) :
    Oblivious flashHazard (Prog.modify f : Prog Device BootFlashError Unit) := by
  refine .modify (fun d hd => ?_) (fun d hd => ?_) hcalm
  · exact (hscript d).trans hd
  · obtain ⟨k, damage, hd⟩ := hd
    exact ⟨k, damage, (hscript d).trans hd⟩

theorem oblivious_verdict : Oblivious flashHazard Device.verdict := by
  constructor
  · intro d hd
    have hscript : d.script = [] := hd
    rw [Device.verdict, hscript]
    exact hd
  · rintro d ⟨k, damage, hscript⟩
    cases k with
    | zero =>
      refine .inl ?_
      rw [Device.verdict, hscript]
      exact (rfl : ([] : List Verdict) = [])
    | succ k =>
      rw [List.replicate_succ, List.cons_append] at hscript
      refine .inr ?_
      rw [Device.verdict, Device.verdict, hscript]
      exact ⟨⟨k, damage, rfl⟩, rfl⟩

theorem oblivious_operate (op : FlashOp) (full : Mem → Mem) (damaged : Damage → Mem → Mem) :
    Oblivious flashHazard (Device.operate op full damaged) := by
  rw [Device.operate]
  refine .bind (oblivious_modifyFlash (fun _ => rfl) fun _ => rfl) fun _ =>
    .bind oblivious_verdict fun verdict => ?_
  cases verdict with
  | ok => exact oblivious_modifyFlash (fun _ => rfl) fun _ => rfl
  | fail damage =>
    exact .bind (oblivious_modifyFlash (fun _ => rfl) fun _ => rfl) fun _ => .fail _
  | cut damage => exact .bind (oblivious_modifyFlash (fun _ => rfl) fun _ => rfl) fun _ => .cut

theorem oblivious_bootFlashRead (address length : ℕ) :
    Oblivious flashHazard (bootFlashRead targetOps address length) := by
  rw [bootFlashRead]
  refine .bind (.check _ _) fun _ => ?_
  split
  · exact .pure _
  show Oblivious flashHazard (targetRead address length)
  rw [targetRead]
  refine .bind (.check _ _) fun _ => ?_
  split
  · exact .pure _
  refine .bind oblivious_verdict fun verdict => ?_
  cases verdict with
  | ok => exact .get_bind (fun _ => rfl) fun _ => .pure _
  | fail damage => exact .fail _
  | cut damage => exact .cut

theorem oblivious_bootFlashEraseSector (flash : BootFlash) (sectorId : ℕ) :
    Oblivious flashHazard (bootFlashEraseSector targetOps flash sectorId) := by
  rw [bootFlashEraseSector]
  refine .bind (.ofExcept _) fun sector => .bind (.check _ _) fun _ => ?_
  show Oblivious flashHazard (targetEraseSector sectorId)
  rw [targetEraseSector]
  split
  · exact .fail _
  · exact oblivious_operate _ _ _

theorem oblivious_verifyLoop (address : ℕ) (data : List UInt8) (fuel offset : ℕ) :
    Oblivious flashHazard (verifyLoop targetOps address data fuel offset) := by
  induction fuel generalizing offset with
  | zero => exact .pure ()
  | succ fuel ih =>
    rw [verifyLoop]
    split
    · exact .bind (oblivious_bootFlashRead _ _) fun _ => .bind (.check _ _) fun _ => ih _
    · exact .pure ()

theorem oblivious_bootFlashProgramAligned (flash : BootFlash) (address : ℕ) (data : List UInt8) :
    Oblivious flashHazard (bootFlashProgramAligned targetOps flash address data) := by
  have hprogram : Oblivious flashHazard (targetOps.program address data) := by
    show Oblivious flashHazard (targetProgram address data)
    rw [targetProgram]
    exact .bind (.check _ _) fun _ => oblivious_operate _ _ _
  rw [bootFlashProgramAligned]
  split
  · exact .pure ()
  · exact .bind (.check _ _) fun _ => .bind (.check _ _) fun _ => .bind (.check _ _) fun _ =>
      .bind hprogram fun _ => oblivious_verifyLoop _ _ _ _

/-! ### The metadata -/

theorem oblivious_recover {ε : Type} :
    Oblivious flashHazard (bootMetadataRecoverFromFlash : Prog Device ε _) := by
  rw [bootMetadataRecoverFromFlash]
  refine .bind (.attempt (oblivious_bootFlashRead _ _)) fun copyA => ?_
  cases copyA with
  | error e => exact .pure _
  | ok copyA =>
    refine .bind (.attempt (oblivious_bootFlashRead _ _)) fun copyB => ?_
    cases copyB <;> exact .pure _

theorem oblivious_writeCopy (flash : BootFlash) (copy : BootMetadataCopy)
    (record : BootMetadataRecord) : Oblivious flashHazard (writeCopy flash copy record) := by
  have hrest (place : ℕ × ℕ) : Oblivious flashHazard (do
      let encoded ← Prog.ofExcept ((bootMetadataEncode record).mapError fun _ => .badFormat)
      (bootFlashEraseSector targetOps flash place.2).mapErr fun _ => BootMetadataError.flash
      (bootFlashProgramAligned targetOps flash place.1
        (encoded.take metadataCommitOffset)).mapErr fun _ => .flash
      (bootFlashProgramAligned targetOps flash (place.1 + metadataCommitOffset)
        ((encoded.drop metadataCommitOffset).take metadataCommitSize)).mapErr fun _ => .flash) :=
    .bind (.ofExcept _) fun _ => .bind (.mapErr (oblivious_bootFlashEraseSector _ _) _)
      fun _ => .bind (.mapErr (oblivious_bootFlashProgramAligned _ _ _) _)
      fun _ => .mapErr (oblivious_bootFlashProgramAligned _ _ _) _
  rw [writeCopy.eq_def]
  cases copy with
  | a | b => exact .bind (.pure _) hrest
  | none => exact .bind (.fail _) hrest

theorem oblivious_bootMetadataCommit (flash : BootFlash) (next : BootMetadataRecord) :
    Oblivious flashHazard (bootMetadataCommit flash next) := by
  rw [bootMetadataCommit]
  exact .bind oblivious_recover fun _ => .bind (.ofExcept _) fun _ => .bind (.ofExcept _)
    fun _ => oblivious_writeCopy _ _ _

theorem oblivious_bootMetadataReinitializeForRecovery (flash : BootFlash)
    (next : BootMetadataRecord) :
    Oblivious flashHazard (bootMetadataReinitializeForRecovery flash next) := by
  rw [bootMetadataReinitializeForRecovery]
  exact .bind (.check _ _) fun _ => .bind (.mapErr (oblivious_bootFlashEraseSector _ _) _)
    fun _ => .bind (.mapErr (oblivious_bootFlashEraseSector _ _) _)
    fun _ => oblivious_writeCopy _ _ _

/-! ### The installer -/

/-- The hook lets everything pass. -/
def UpdateInstallOptions.Harmless (options : UpdateInstallOptions) : Prop :=
  ∀ hook ∈ options.faultHook, ∀ calls point detail, hook calls point detail = .ok ()

/-- The session without its hook. -/
def UpdateInstallerSession.calm (session : UpdateInstallerSession) : UpdateInstallerSession :=
  { session with
    options := { session.options with faultHook := none }
    faultCalls := 0 }

/-- A failure of the flash that lies ahead of the installer. -/
def installHazard : Hazard Installer where
  ahead s := flashHazard.ahead s.dev ∧ s.session.options.Harmless
  past s := s.dev.Quiet
  calm s := { s with dev := flashHazard.calm s.dev, session := s.session.calm }

variable {ε α : Type}

theorem oblivious_onDev {x : Prog Device ε α} (hx : Oblivious flashHazard x) :
    Oblivious installHazard (onDev x) :=
  hx.zoom ⟨fun _ ht => ht, fun _ _ hs => hs, fun _ ht => ht.1, fun _ _ hs ht => ⟨hs, ht.2⟩,
    fun _ => rfl, fun _ _ => rfl⟩

theorem oblivious_getSession {f : UpdateInstallerSession → Prog Installer ε α}
    (hcalm : ∀ session, f session.calm = f session)
    (hf : ∀ session, Oblivious installHazard (f session)) :
    Oblivious installHazard (getSession >>= f) := by
  have hget : ∀ s, (getSession >>= f) s = f s.session s := fun _ => rfl
  refine ⟨fun s hs => (hf s.session).past s hs, fun s hs => ?_⟩
  have hsession : (installHazard.calm s).session = s.session.calm := rfl
  rw [hget, hget, hsession, hcalm]
  exact (hf s.session).ahead s hs

theorem oblivious_modifySession {f : UpdateInstallerSession → UpdateInstallerSession}
    (hoptions : ∀ session, (f session).options = session.options)
    (hcalm : ∀ session, f session.calm = (f session).calm) :
    Oblivious installHazard (modifySession f : Prog Installer ε Unit) := by
  refine .modify (fun s hs => hs) (fun s hs => ⟨hs.1, ?_⟩) fun s => ?_
  · show (f s.session).options.Harmless
    rw [hoptions]
    exact hs.2
  · show ({ s with dev := _, session := f s.session.calm } : Installer) = _
    rw [hcalm]
    rfl

theorem oblivious_modifyResult (f : UpdateInstallResult → UpdateInstallResult) :
    Oblivious installHazard (modifyResult f : Prog Installer ε Unit) := by
  have hresult (s : Installer) :
      ∃ result, (if s.session.hasResult then { s with result := f s.result } else s) =
        { s with result } := by
    split
    · exact ⟨_, rfl⟩
    · exact ⟨s.result, rfl⟩
  refine .modify (fun s hs => ?_) (fun s hs => ?_) fun s => ?_
  · obtain ⟨result, h⟩ := hresult s
    rw [h]
    exact hs
  · obtain ⟨result, h⟩ := hresult s
    rw [h]
    exact hs
  · have hcalm : (installHazard.calm s).session.hasResult = s.session.hasResult := rfl
    rw [hcalm]
    split <;> rfl

theorem oblivious_modifyBuffer {f : Installer → Mem}
    (hcalm : ∀ s, f (installHazard.calm s) = f s) :
    Oblivious installHazard
      (Prog.modify fun s => { s with programBuffer := f s } : Prog Installer ε Unit) := by
  refine .modify (fun _ hs => hs) (fun _ hs => hs) fun s => ?_
  rw [hcalm]
  rfl

theorem oblivious_failSession {x : Prog Installer UpdateInstallError α}
    (hx : Oblivious installHazard x) : Oblivious installHazard (failSession x) :=
  hx.onErr (fun _ hs => hs) (fun _ hs => hs) fun _ => rfl

/-- A hook that lets everything pass cannot be told from no hook. -/
theorem oblivious_maybeFault (point : UpdateInstallFaultPoint) (detail : UInt32) :
    Oblivious installHazard (maybeFault point detail) := by
  constructor
  · intro s hs
    have hsteady : Steady (fun _ => False) s (maybeFault point detail s).state :=
      wp_state_iff.mp (steps_maybeFault point detail)
    exact hsteady.dev.quiet hs
  · intro s hs
    have hcalm : maybeFault point detail (installHazard.calm s) = .ret () (installHazard.calm s) := rfl
    refine .inr ?_
    rw [hcalm]
    cases hhook : s.session.options.faultHook with
    | none =>
      have hrun : maybeFault point detail s = .ret () s := by
        rw [maybeFault]
        refine (bind_of_ret (x := getSession) rfl).trans ?_
        rw [hhook]
        rfl
      rw [hrun]
      exact ⟨hs, rfl⟩
    | some hook =>
      have hrun : maybeFault point detail s =
          Prog.ofExcept (hook s.session.faultCalls point detail)
            { s with session := { s.session with faultCalls := s.session.faultCalls + 1 } } := by
        rw [maybeFault]
        refine (bind_of_ret (x := getSession) rfl).trans ?_
        rw [hhook]
        rfl
      rw [hrun, hs.2 hook hhook]
      exact ⟨hs, rfl⟩

/-! ### Erasing and programming -/

theorem oblivious_eraseSectors (sectors : List ℕ) :
    Oblivious installHazard (eraseSectors sectors) := by
  induction sectors with
  | nil => exact .pure ()
  | cons sector sectors ih =>
    rw [eraseSectors]
    exact .bind (oblivious_maybeFault _ _) fun _ => oblivious_getSession (fun _ => rfl) fun _ =>
      .bind (oblivious_onDev (.mapErr (oblivious_bootFlashEraseSector _ _) _)) fun _ =>
      .bind (oblivious_modifyResult _) fun _ => ih

theorem oblivious_programAlignedBlock (address : ℕ) (data : List UInt8) :
    Oblivious installHazard (programAlignedBlock address data) := by
  rw [programAlignedBlock]
  refine oblivious_getSession (fun _ => rfl) fun session => .bind (oblivious_maybeFault _ _) fun _ =>
    .bind (oblivious_onDev (.mapErr (oblivious_bootFlashProgramAligned _ _ _) _)) fun _ =>
    .bind (oblivious_maybeFault _ _) fun _ =>
    .bind (oblivious_onDev (.mapErr (oblivious_bootFlashRead _ _) _)) fun _ => ?_
  exact .bind (.check _ _) fun _ => .bind (.check _ _) fun _ =>
    .bind (oblivious_modifySession (fun _ => rfl) fun _ => rfl) fun _ => oblivious_modifyResult _

theorem oblivious_programSourceLoop (base : ℕ) (source : List UInt8) (dataSize paddedSize : ℕ)
    (fuel offset : ℕ) :
    Oblivious installHazard (programSourceLoop base source dataSize paddedSize fuel offset) := by
  induction fuel generalizing offset with
  | zero => exact .pure ()
  | succ fuel ih =>
    rw [programSourceLoop]
    split
    swap
    · exact .pure ()
    refine oblivious_getSession (fun _ => rfl) fun session =>
      .bind (oblivious_modifyBuffer fun _ => rfl) fun _ => ?_
    split
    · exact .fail _
    · exact .get_bind (fun _ => rfl) fun _ => .bind (oblivious_programAlignedBlock _ _) fun _ => ih _

theorem oblivious_programHeader (headerBytes : List UInt8) :
    Oblivious installHazard (programHeader headerBytes) := by
  rw [programHeader, eraseCandidateSlot]
  refine .bind (oblivious_getSession (fun _ => rfl) fun _ => oblivious_eraseSectors _) fun _ =>
    .bind (oblivious_modifySession (fun _ => rfl) fun _ => rfl) fun _ =>
    oblivious_getSession (fun _ => rfl) fun session => ?_
  rw [programSourceRange]
  exact .bind (.check _ _) fun _ => oblivious_programSourceLoop _ _ _ _ _ _

theorem oblivious_flushPayloadProgramBuffer (finalFlush : Bool) :
    Oblivious installHazard (flushPayloadProgramBuffer finalFlush) := by
  have hlength : Oblivious installHazard (flushLength finalFlush) := by
    rw [flushLength]
    refine oblivious_getSession (fun _ => rfl) fun session => ?_
    split
    · split
      · exact .fail _
      · exact .bind (oblivious_modifyBuffer fun _ => rfl) fun _ => .pure _
    · exact .bind (.check _ _) fun _ => .pure _
  rw [flushPayloadProgramBuffer]
  refine oblivious_getSession (fun _ => rfl) fun session => ?_
  split
  · exact .pure ()
  refine .bind hlength fun programLength => .bind (.check _ _) fun _ => ?_
  split
  · exact .fail _
  · exact .get_bind (fun _ => rfl) fun _ => .bind (oblivious_programAlignedBlock _ _) fun _ =>
      oblivious_modifySession (fun _ => rfl) fun _ => rfl

/-! ### The calls -/

theorem oblivious_commitMetadataState (current : BootMetadataRecord) (state : BootMetadataState)
    (active candidate version : UInt32) (point : UpdateInstallFaultPoint) :
    Oblivious installHazard
      (commitMetadataState current state active candidate version point) := by
  rw [commitMetadataState]
  exact .bind (.ofExcept _) fun _ => .bind (oblivious_maybeFault _ _) fun _ =>
    oblivious_getSession (fun _ => rfl) fun _ =>
    oblivious_onDev (.mapErr (oblivious_bootMetadataCommit _ _) _)

theorem oblivious_commitWriting : Oblivious installHazard commitWriting := by
  rw [commitWriting]
  refine oblivious_getSession (fun _ => rfl) fun session => ?_
  split
  · exact .bind (.ofExcept _) fun _ => .bind (oblivious_maybeFault _ _) fun _ =>
      oblivious_onDev (.mapErr (oblivious_bootMetadataReinitializeForRecovery _ _) _)
  · exact oblivious_commitMetadataState _ _ _ _ _ _

theorem oblivious_beginChecks (crypto : Crypto) (headerBytes : List UInt8) :
    Oblivious installHazard (beginChecks crypto headerBytes) := by
  rw [beginChecks]
  refine oblivious_getSession (fun _ => rfl) fun session =>
    .bind (oblivious_onDev oblivious_recover) fun recovery => .bind (.ofExcept _) fun current =>
    .bind (.check _ _) fun _ => .bind (oblivious_modifyResult _) fun _ =>
    .bind (.ofExcept _) fun header =>
    .bind (oblivious_modifySession (fun _ => rfl) fun _ => rfl) fun _ => ?_
  exact .get_bind (fun _ => rfl) fun _ => .bind (.ofExcept _) fun _ => .bind (.check _ _) fun _ =>
    .bind (.ofExcept _) fun _ =>
    .bind (oblivious_modifySession (fun _ => rfl) fun _ => rfl) fun _ => oblivious_modifyResult _

theorem oblivious_readBackWriting : Oblivious installHazard readBackWriting := by
  rw [readBackWriting]
  exact .bind (oblivious_onDev oblivious_recover) fun _ =>
    .bind (oblivious_modifySession (fun _ => rfl) fun _ => rfl) fun _ =>
    .bind (.ofExcept _) fun _ => oblivious_getSession (fun _ => rfl) fun _ => .check _ _

theorem oblivious_updateInstallerBegin (crypto : Crypto) (headerBytes : List UInt8) :
    Oblivious installHazard (updateInstallerBegin crypto headerBytes) := by
  rw [updateInstallerBegin]
  exact oblivious_getSession (fun _ => rfl) fun _ => .bind (.check _ _) fun _ =>
    oblivious_failSession (.bind (oblivious_beginChecks _ _) fun _ =>
      .bind oblivious_commitWriting fun _ =>
      .bind (oblivious_modifySession (fun _ => rfl) fun _ => rfl) fun _ =>
      .bind oblivious_readBackWriting fun _ => .bind (oblivious_programHeader _) fun _ =>
      oblivious_modifySession (fun _ => rfl) fun _ => rfl)

theorem oblivious_writeLoop (fuel : ℕ) (input : List UInt8) :
    Oblivious installHazard (writeLoop fuel input) := by
  induction fuel generalizing input with
  | zero => exact .pure ()
  | succ fuel ih =>
    rw [writeLoop]
    split
    swap
    · exact .pure ()
    refine oblivious_getSession (fun _ => rfl) fun session =>
      .bind (.modify (fun _ hs => hs) (fun _ hs => hs) fun _ => rfl) fun _ => .bind ?_ fun _ => ih _
    rw [flushIfFull]
    refine oblivious_getSession (fun _ => rfl) fun session => ?_
    split
    · exact oblivious_flushPayloadProgramBuffer false
    · exact .pure ()

theorem oblivious_updateInstallerWrite (payloadOffset : ℕ) (data : List UInt8) :
    Oblivious installHazard (updateInstallerWrite payloadOffset data) := by
  rw [updateInstallerWrite]
  refine oblivious_getSession (fun _ => rfl) fun session =>
    .bind (oblivious_failSession (.check _ _)) fun _ => .bind (.check _ _) fun _ =>
    .bind (.check _ _) fun _ => oblivious_failSession (.bind (.check _ _) fun _ =>
      .bind (.check _ _) fun _ => .bind (oblivious_writeLoop _ _) fun _ => ?_)
  refine oblivious_modifySession (fun session => ?_) fun session => ?_
  · split <;> rfl
  · have hreceived : session.calm.payloadReceived = session.payloadReceived := rfl
    have hheader : session.calm.header = session.header := rfl
    rw [hreceived, hheader]
    split <;> rfl

theorem oblivious_hashInstalledLoop (payloadBase payloadSize readbackSize fuel offset : ℕ)
    (ctx : List UInt8) :
    Oblivious flashHazard
      (hashInstalledLoop payloadBase payloadSize readbackSize fuel offset ctx) := by
  induction fuel generalizing offset ctx with
  | zero => exact .pure _
  | succ fuel ih =>
    rw [hashInstalledLoop]
    split
    · split
      · exact .fail _
      · exact .bind (.mapErr (oblivious_bootFlashRead _ _) _) fun _ => ih _ _
    · exact .pure _

theorem oblivious_hashInstalledPayload (crypto : Crypto) :
    Oblivious installHazard (hashInstalledPayload crypto) := by
  rw [hashInstalledPayload]
  exact oblivious_getSession (fun _ => rfl) fun _ => .bind (oblivious_maybeFault _ _) fun _ =>
    .bind (oblivious_onDev (oblivious_hashInstalledLoop _ _ _ _ _ _)) fun _ =>
    .bind (oblivious_maybeFault _ _) fun _ => .check _ _

theorem oblivious_verifyInstalledPackage (crypto : Crypto) :
    Oblivious installHazard (verifyInstalledPackage crypto) := by
  rw [verifyInstalledPackage]
  refine oblivious_getSession (fun _ => rfl) fun session => .bind (oblivious_maybeFault _ _) fun _ =>
    .get_bind (fun _ => rfl) fun s => .bind (oblivious_modifyResult _) fun _ => ?_
  split
  · exact .pure ()
  · exact .fail _

theorem oblivious_updateInstallerFinish (crypto : Crypto) :
    Oblivious installHazard (updateInstallerFinish crypto) := by
  have hhash : Oblivious installHazard (verifyStreamingPayloadHash crypto) := by
    rw [verifyStreamingPayloadHash]
    exact oblivious_getSession (fun _ => rfl) fun _ =>
      .bind (oblivious_modifySession (fun _ => rfl) fun _ => rfl) fun _ => .check _ _
  rw [updateInstallerFinish]
  refine oblivious_getSession (fun _ => rfl) fun session =>
    .bind (oblivious_failSession (.check _ _)) fun _ => .bind (.check _ _) fun _ =>
    oblivious_failSession (.bind (oblivious_flushPayloadProgramBuffer true) fun _ => ?_)
  refine oblivious_getSession (fun _ => rfl) fun flushed => .bind (.check _ _) fun _ =>
    .bind hhash fun _ => .bind (oblivious_hashInstalledPayload _) fun _ =>
    .bind (oblivious_verifyInstalledPackage _) fun _ =>
    .bind (oblivious_commitMetadataState _ _ _ _ _ _) fun _ => ?_
  exact oblivious_modifySession (fun _ => rfl) fun _ => rfl

end Stm32SecurityLab
