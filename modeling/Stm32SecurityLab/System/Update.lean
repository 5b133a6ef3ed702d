import Stm32SecurityLab.Boot.Quiet
import Stm32SecurityLab.Installer.Bootstrap
import Stm32SecurityLab.Installer.Install
import Stm32SecurityLab.System.Bootable

/-!
# Boots of a candidate

What the boot policy of the bootloader makes of a candidate on a device that left the factory sound,
after any run: it starts a trial while there are attempts left, and if the commit of the attempt
fails it starts the confirmed image and leaves the record alone.

The run at the end streams an image to the device of `Boot.Decision` and boots it.

## Main definitions

* `bootReturn` — what a boot that succeeded returned
* `triedRecord` — the record of a candidate after one trial more
* `updateEvents` — the calls that put an image on offer

## Main results

* `boot_starts_trial` — a candidate with attempts left is started
* `boot_falls_back` — the boot whose commit fails starts the confirmed image
* `run_confirms` — a trial boot and its confirmation
* `run_updateEvents` — the image is on offer
-/

namespace Stm32SecurityLab

open Crash Machine

/-! ### Boots -/

/-- What a boot that succeeded returned. -/
def bootReturn (mc : Machine) (e : Event) : Option BootSlotSelectionResult :=
  match e.call with
  | .boot options =>
    match bootSlotSelectionSelect options { dev := mc.scripted e.script } with
    | .ret _ s => some s.result
    | _ => none
  | _ => none

/-- A boot with the policy of the bootloader. -/
def policyBoot (crypto : Crypto) (publicKey : List UInt8) (script : List Verdict) : Event :=
  ⟨.boot (bootPolicyOptions crypto publicKey), script⟩

/-- The record of a candidate after one trial more. -/
def triedRecord (r : BootMetadataRecord) : BootMetadataRecord :=
  ⟨r.sequence + 1, .pendingTrial, r.activeSlot, r.candidateSlot, r.candidateImageVersion,
    attemptsAfter r, 0, 0⟩

section Boots

variable {crypto : Crypto} {publicKey : List UInt8} {options : BootSlotSelectionOptions}
  {outcomes : BootSlotId → VerifySlotOutcome} {metadata r : BootMetadataRecord} {s : Selector}
  {c slot : BootSlotId} {damage : Damage} {mc : Machine} {script : List Verdict}

/-- A boot that succeeded, and the machine it leaves. -/
theorem exists_of_bootReturn (crypto : Crypto) (publicKey : List UInt8)
    {result : BootSlotSelectionResult} (h : bootReturn mc ⟨.boot options, script⟩ = some result) :
    ∃ s', bootSlotSelectionSelect options { dev := mc.scripted script } = .ret () s' ∧
      s'.result = result ∧ (step crypto publicKey mc ⟨.boot options, script⟩).inst.dev = s'.dev := by
  rw [bootReturn] at h
  dsimp only at h
  cases hrun : bootSlotSelectionSelect options { dev := mc.scripted script } with
  | ret _ s' =>
    rw [hrun] at h
    have hstep : step crypto publicKey mc ⟨.boot options, script⟩ =
        ⟨{ mc.inst with dev := s'.dev }, some s'.result⟩ := congrArg mc.settleBoot hrun
    exact ⟨s', rfl, Option.some.inj h, by rw [hstep]⟩
  | err _ s' =>
    rw [hrun] at h
    cases h
  | cut s' =>
    rw [hrun] at h
    cases h

/-- A boot that always returns, as an event. -/
theorem bootReturn_of_wp {Q : Selector → Prop}
    (h : wp (bootSlotSelectionSelect (bootPolicyOptions crypto publicKey))
      { dev := mc.scripted script } (fun _ s' => Q s') (fun _ _ => False) fun _ => False) :
    ∃ s', bootReturn mc (policyBoot crypto publicKey script) = some s'.result ∧ Q s' ∧
      step crypto publicKey mc (policyBoot crypto publicKey script) =
        ⟨{ mc.inst with dev := s'.dev }, some s'.result⟩ := by
  obtain ⟨_, s', hrun⟩ :=
    returns_iff.mp (h.mono (fun _ _ _ => trivial) (fun _ _ h => h) fun _ h => h)
  refine ⟨s', ?_, h.ret hrun, congrArg mc.settleBoot hrun⟩
  rw [bootReturn, policyBoot]
  dsimp only
  rw [hrun]

/-- A commit whose first read fails writes nothing. -/
theorem bootMetadataCommit_fail {flash : BootFlash} {next : BootMetadataRecord} {d : Device}
    {vs : List Verdict} (hs : d.script = .fail damage :: vs) :
    wp (bootMetadataCommit flash next) d (fun _ _ => False)
      (fun _ d' => d' = { d with script := vs }) (fun _ => False) := by
  rw [bootMetadataCommit, bootMetadataRecoverFromFlash]
  simp only [wp_bind, wp_attempt]
  refine (bootFlashRead_fail (by decide) (by decide) (by decide) hs).mono (fun _ _ h => h.elim)
    (fun _ _ h => ?_) (fun _ h => h)
  exact h

/-- A boot during a trial whose commit fails at its first read runs the confirmed image. -/
theorem select_falls_back (hhook : options.faultHook = none)
    (hv : VerifiesAs options s.dev.mem outcomes) (hs : s.dev.script = [.ok, .ok, .fail damage])
    (hj : journal s.dev.mem = .ok metadata) (hstate : metadata.state = .pendingTrial)
    (hc : metadata.candidateSlot = c.toUInt32) (hpass : (outcomes c).Passes)
    (hpos : metadata.bootAttemptCount > 0) (hactive : ActiveBootable outcomes metadata slot) :
    wp (bootSlotSelectionSelect options) s
      (fun _ s' => s'.dev.mem = s.dev.mem ∧ Chosen outcomes s'.result .fallback slot)
      (fun _ _ => False) (fun _ => False) := by
  have hfall : ∀ {cause} {s₁ : Selector}, s₁.dev.mem = s.dev.mem →
      wp (fallbackBecause options metadata cause) s₁
        (fun _ s' => s'.dev.mem = s.dev.mem ∧ Chosen outcomes s'.result .fallback slot)
        (fun _ _ => False) (fun _ => False) := by
    intro cause s₁ hmem
    rw [fallbackBecause, wp_bind, wp_selectorModifyResult]
    refine wp.mono ((fallbackToConfirmed_decides hhook hv ?_).and fallbackToConfirmed_spec)
      (fun _ s' h => ?_) (fun _ _ h => h.1 slot hactive) (fun _ h => h.1)
    · exact fun other x _ _ => congrFun hmem x
    · obtain ⟨⟨other, hother, hchosen⟩, hread, -⟩ := h
      obtain rfl : other = slot :=
        BootSlotId.toUInt32_inj.mp (hother.active.symm.trans hactive.active)
      exact ⟨hread.eq_of_false.1.trans hmem, hchosen⟩
  rw [bootSlotSelectionSelect]
  simp only [wp_bind, wp_selectorModifyResult, Selector.onDev, wp_zoom, wp_ofExcept]
  refine wp_of_ret (bootMetadataRecoverFromFlash_ok hs) ⟨fun r hr => ?_, fun e he => ?_⟩
  · rw [mapError_eq_ok, ← journal_eq, hj] at hr
    obtain rfl := Except.ok.inj hr
    have hsame : SlotsSame s.dev.mem
        ⟨{}, s.calls, { s.dev with script := [.fail damage] }⟩ := fun _ _ _ _ => rfl
    rw [hstate]
    simp only [startOrContinueTrial, hc, bootSlotLookup_toUInt32, wp_bind]
    rw [wp_verifySlot hhook hv (by exact hsame), verifyAnswer_of_passes hpass]
    simp only [wp_selectorModifyResult]
    rw [if_neg (by rw [hstate]; exact nofun), if_pos hpos, commitTrial]
    split
    · exact hfall rfl
    · rw [wp_bind, wp_attempt, commitNext, maybeInject_none hhook, wp_bind, wp_pure]
      simp only [Selector.onDev, wp_zoom, wp_mapErr]
      refine (bootMetadataCommit_fail rfl).mono (fun _ _ h => h.elim) (fun _ d' h => ?_)
        (fun _ h => h)
      subst h
      exact hfall rfl
  · rw [← journal_eq, hj] at he
    cases he

/-- **A candidate with attempts left is started**, and one of them is taken before. -/
theorem boot_starts_trial (hsound : (store crypto publicKey mc.mem).Sound)
    (hvalid : (store crypto publicKey mc.mem).ActiveValid) (hj : journal mc.mem = .ok r)
    (hstate : r.state = .candidateReady ∨ (r.state = .pendingTrial ∧ 0 < r.bootAttemptCount))
    (hsequence : r.sequence < 0xFFFFFFFE) :
    ∃ result, bootReturn mc (policyBoot crypto publicKey []) = some result ∧
      result.decision = .trial ∧ result.selectedSlot = r.candidateSlot ∧
      (step crypto publicKey mc (policyBoot crypto publicKey [])).lastBoot = some result ∧
      journal (step crypto publicKey mc (policyBoot crypto publicKey [])).mem =
        .ok (triedRecord r) := by
  obtain ⟨c, hc, hverify, -⟩ := (bootable_of_sound hsound hvalid hj).1 (hstate.imp_right And.left)
  have hnext := prepare_trial 0 hstate (journal_canonical hj) hsequence
  have hwp := @quiet_boot_trial (bootPolicyOptions crypto publicKey) _
    { dev := mc.scripted [] } r (triedRecord r) c rfl (metadataWritable_target rfl)
    (verifiesAs_verifyTargetSlot rfl _) rfl (by exact hj) hc hstate (verifyTargetSlot_passes hverify)
    hnext
  obtain ⟨s', hreturn, hboots, hstep⟩ := bootReturn_of_wp hwp
  rw [hstep]
  exact ⟨s'.result, hreturn, hboots.chosen.decision, hboots.chosen.selected.trans hc.symm, rfl,
    hboots.recorded⟩

/-- **The boot whose commit fails starts the confirmed image**, and leaves the trial on record. -/
theorem boot_falls_back (damage : Damage) (hsound : (store crypto publicKey mc.mem).Sound)
    (hvalid : (store crypto publicKey mc.mem).ActiveValid) (hj : journal mc.mem = .ok r)
    (hs : r.state = .pendingTrial) (ha : r.activeSlot = slot.toUInt32)
    (hattempts : r.bootAttemptCount > 0) :
    ∃ result, bootReturn mc (policyBoot crypto publicKey [.ok, .ok, .fail damage]) = some result ∧
      result.decision = .fallback ∧ result.selectedSlot = slot.toUInt32 ∧
      (step crypto publicKey mc (policyBoot crypto publicKey [.ok, .ok, .fail damage])).mem =
        mc.mem := by
  have hcan := canonical_of_true (journal_canonical hj)
  obtain ⟨c, hc, hverify, -⟩ := (bootable_of_sound hsound hvalid hj).1 (.inr hs)
  have hactive : slotVerify crypto publicKey mc.mem (bootSlots slot) = .ok () := by
    refine hvalid slot ?_
    rw [store_phase hj, phaseOf_active hcan, ha, slotOf_toUInt32]
  obtain ⟨s', hreturn, ⟨hmem, hchosen⟩, hstep⟩ := @bootReturn_of_wp _ _ mc _ _
    (@select_falls_back (bootPolicyOptions crypto publicKey) _ r
      { dev := mc.scripted [.ok, .ok, .fail damage] } c slot damage rfl
      (verifiesAs_verifyTargetSlot rfl _) rfl (by exact hj) hs hc (verifyTargetSlot_passes hverify)
      hattempts ⟨ha, verifyTargetSlot_passes hactive⟩)
  rw [hstep]
  exact ⟨s'.result, hreturn, hchosen.decision, hchosen.selected, hmem⟩

/-- A confirmation, after the boot of the candidate. -/
theorem step_confirms {result : BootSlotSelectionResult} {flash : BootFlash}
    (hw : MetadataWritable flash) (hj : journal mc.mem = .ok r) (hs : r.state = .pendingTrial)
    (hlast : mc.lastBoot = some result) (hselected : result.selectedSlot = r.candidateSlot)
    (hsequence : r.sequence < 0xFFFFFFFE) :
    journal (step crypto publicKey mc ⟨.confirm flash, []⟩).mem =
      .ok ⟨r.sequence + 1, .confirmed, r.candidateSlot, bootSlotNone, r.candidateImageVersion, 0, 1,
        0⟩ := by
  have hcan := canonical_of_true (journal_canonical hj)
  obtain ⟨⟨c, hc⟩, -, hconfirmation⟩ :=
    hcan.candidate (by rw [hs]; decide) (by rw [hs]; decide)
  have hnext := prepare_confirmed hs (journal_canonical hj) hsequence
  rw [hc] at hnext hselected ⊢
  have hwp := @quiet_bootConfirmCurrentSlot flash c { dev := mc.scripted [] } r _ hw rfl
    (by exact hj) ⟨hs, hc, hconfirmation⟩ hnext
  obtain ⟨_, s', hrun⟩ :=
    returns_iff.mp (hwp.mono (fun _ _ _ => trivial) (fun _ _ h => h) fun _ h => h)
  have hstep : step crypto publicKey mc ⟨.confirm flash, []⟩ = mc.settleConfirm (.ret () s') := by
    simp only [step, hlast]
    rw [hselected]
    exact congrArg mc.settleConfirm hrun
  rw [hstep]
  exact (hwp.ret hrun).1

end Boots

/-! ### An update of the device of `Boot.Decision` -/

section Update

variable {crypto : Crypto} {publicKey : List UInt8} {mc : Machine} {d : Device}
  {r : BootMetadataRecord} {es : List Event}

/-- The events of an update that gets as far as its header. -/
def startUpdate (flash : BootFlash) (options : UpdateInstallOptions) (headerBytes : List UInt8) :
    List Event :=
  [⟨.sessionInit flash options false, []⟩, ⟨.beginUpdate headerBytes, []⟩]

/-- The calls that stream the image for slot B. -/
def updateEvents : List Event :=
  startUpdate updateModeFlash (updateModeOptions false) updateHeader ++
    [⟨.write 0 updatePayload, []⟩, ⟨.finish, []⟩]

/-- A call of the installer that returns on an undisturbed device. -/
theorem step_of_ret {x : Prog Installer UpdateInstallError Unit} {s s' : Installer}
    (hq : s.dev.Quiet) (hinst : mc.inst = s) (h : x s = .ret () s') :
    (mc.settle (x (mc.installer []))) = { mc with inst := s' } := by
  have hinstaller : mc.installer [] = s := by
    rw [Device.Quiet] at hq
    rw [installer, scripted, hinst, ← hq]
  rw [hinstaller, h]
  rfl

/-- The image for slot B is begun. -/
theorem run_startUpdate (hq : mc.inst.dev.Quiet) (hj : journal mc.mem = .ok factoryRecord) :
    ∃ s₁ s₂, run factoryCrypto factoryKey mc (startUpdate updateModeFlash (updateModeOptions false)
        updateHeader) = { mc with inst := s₂ } ∧
      s₁.session.candidate = .b ∧ s₁.session.activeSlotId = BootSlotId.a.toUInt32 ∧
      s₁.session.metadataBefore.sequence = 1 ∧
      s₂.session.header = headerOf updateManifest updateSignature ∧
      Begins factoryCrypto factoryKey updateHeader s₁ s₂ := by
  obtain ⟨s₁, s₂, hinit, hbegin, hcand, hseq, hheader, hbegins⟩ :=
    @update_begins mc.inst 1 _ hq hj (by decide)
  obtain ⟨hread, -, hsel⟩ := (updateInstallerSessionInit_spec :
    wp (updateInstallerSessionInit updateModeFlash factoryKey (updateModeOptions false) false)
      mc.inst _ _ _).ret hinit
  refine ⟨s₁, s₂, ?_, hcand, ?_, hseq, hheader, hbegins⟩
  · have h₁ : step factoryCrypto factoryKey mc
        ⟨.sessionInit updateModeFlash (updateModeOptions false) false, []⟩ = { mc with inst := s₁ } :=
      step_of_ret hq rfl hinit
    have h₂ : step factoryCrypto factoryKey { mc with inst := s₁ } ⟨.beginUpdate updateHeader, []⟩ =
        { mc with inst := s₂ } := step_of_ret (hread.quiet hq) rfl hbegin
    rw [startUpdate, run_cons, run_cons, run_nil, h₁, h₂]
  · rcases hsel.source with ⟨slot, hup⟩ | hboot
    · rw [hup.activeSlotId]
      cases slot with
      | a => rfl
      | b => exact absurd (hcand.symm.trans hup.candidate) (by decide)
    · exact absurd (hcand.symm.trans hboot.candidate) (by decide)

/-- After the calls the image is on offer. -/
theorem run_updateEvents (hq : mc.inst.dev.Quiet) (hj : journal mc.mem = .ok factoryRecord) :
    journal (run factoryCrypto factoryKey mc updateEvents).mem = .ok readyRecord := by
  obtain ⟨s₁, s₂, hstart, hcand, hactive, hseq, hheader, hbegins⟩ := run_startUpdate hq hj
  have hpayload : updatePayload.length = s₂.session.header.payloadSize := by
    rw [hheader]
    decide
  obtain ⟨s₃, s₅, hblocks, hcomplete, hfinished, -, hready⟩ := hbegins.finishes hpayload
    (by rw [hcand]; exact updatePackage_accepted) (hbegins.sequence_iff.mpr (by rw [hseq]; decide))
  have hwrite : updateInstallerWrite 0 updatePayload s₂ = .ret () s₃ := by
    have h := hblocks [updatePayload] (by decide) (by decide)
    change Prog.bind (updateInstallerWrite 0 updatePayload) (fun _ => pure ()) s₂ = _ at h
    rw [Prog.bind] at h
    cases hrun : updateInstallerWrite 0 updatePayload s₂ with
    | ret _ s' => rw [hrun] at h; exact h
    | err e s' => rw [hrun] at h; cases h
    | cut s' => rw [hrun] at h; cases h
  have hrecord : readyRecordOf s₂.session = readyRecord := by
    have hsequence : s₂.session.writingMetadata.sequence = s₁.session.metadataBefore.sequence + 1 := by
      rw [(bootMetadataPrepareNext_ok.mp hbegins.writing).2.2]
    rw [readyRecordOf, hsequence, hseq, hbegins.active, hactive, hbegins.candidate, hcand, hheader]
    decide
  have hrun : run factoryCrypto factoryKey mc updateEvents = { mc with inst := s₅ } := by
    have h₃ : step factoryCrypto factoryKey { mc with inst := s₂ } ⟨.write 0 updatePayload, []⟩ =
        { mc with inst := s₃ } := step_of_ret hbegins.content.undisturbed.quiet rfl hwrite
    have h₄ : step factoryCrypto factoryKey { mc with inst := s₃ } ⟨.finish, []⟩ =
        { mc with inst := s₅ } := step_of_ret hcomplete.streamed.content.undisturbed.quiet rfl hfinished
    rw [updateEvents, run_append, hstart, run_cons, run_cons, run_nil, h₃, h₄]
  rw [hrun, ← hrecord]
  exact hready

/-- What a run leaves of a device that was provisioned is sound. -/
theorem sound_of_run (h : Provisioned crypto publicKey d.mem) (es : List Event) :
    (store crypto publicKey (run crypto publicKey (powerOn d) es).mem).Sound ∧
      (store crypto publicKey (run crypto publicKey (powerOn d) es).mem).ActiveValid := by
  obtain ⟨hsound, hvalid, hm⟩ := sound_of_provisioned h
  obtain ⟨hsteps, -⟩ := run_refines crypto (powerOn_inv publicKey d) hm es
  exact ⟨hsound.steps hsteps, hvalid.steps hsound.toSettled hsteps⟩

/-- A trial boot at the end of a run. -/
theorem run_starts_trial (h : Provisioned crypto publicKey d.mem)
    (hj : journal (run crypto publicKey (powerOn d) es).mem = .ok r)
    (hstate : r.state = .candidateReady ∨ (r.state = .pendingTrial ∧ 0 < r.bootAttemptCount))
    (hsequence : r.sequence < 0xFFFFFFFE) :
    (∃ result, bootReturn (run crypto publicKey (powerOn d) es) (policyBoot crypto publicKey []) =
        some result ∧ result.decision = .trial) ∧
      journal (run crypto publicKey (powerOn d) (es ++ [policyBoot crypto publicKey []])).mem =
        .ok (triedRecord r) := by
  obtain ⟨hsound, hvalid⟩ := sound_of_run h es
  obtain ⟨result, hreturn, hdecision, -, -, hrecord⟩ :=
    boot_starts_trial hsound hvalid hj hstate hsequence
  rw [run_append]
  exact ⟨⟨result, hreturn, hdecision⟩, hrecord⟩

/-- A trial boot at the end of a run, and its confirmation. -/
theorem run_confirms {flash : BootFlash} (hw : MetadataWritable flash)
    (h : Provisioned crypto publicKey d.mem)
    (hj : journal (run crypto publicKey (powerOn d) es).mem = .ok r)
    (hstate : r.state = .candidateReady ∨ (r.state = .pendingTrial ∧ 0 < r.bootAttemptCount))
    (hsequence : r.sequence < 0xFFFFFFFE) (hnext : r.sequence + 1 < 0xFFFFFFFE) :
    journal (run crypto publicKey (powerOn d)
        (es ++ [policyBoot crypto publicKey [], ⟨.confirm flash, []⟩])).mem =
      .ok ⟨r.sequence + 1 + 1, .confirmed, r.candidateSlot, bootSlotNone, r.candidateImageVersion,
        0, 1, 0⟩ := by
  obtain ⟨hsound, hvalid⟩ := sound_of_run h es
  obtain ⟨result, -, -, hselected, hlast, hrecord⟩ :=
    boot_starts_trial hsound hvalid hj hstate hsequence
  rw [run_append]
  exact @step_confirms crypto publicKey (triedRecord r) _ result flash hw hrecord rfl hlast hselected
    hnext

/-- The device of `Boot.Decision` with the update on offer. -/
theorem journal_updated : journal (run factoryCrypto factoryKey (powerOn (flashWith factoryRecord))
    updateEvents).mem = .ok readyRecord :=
  run_updateEvents rfl (journal_flashWith (by decide))

/-- And after its first trial. -/
theorem journal_tried : journal (run factoryCrypto factoryKey (powerOn (flashWith factoryRecord))
    (updateEvents ++ [policyBoot factoryCrypto factoryKey []])).mem =
      .ok (triedRecord readyRecord) :=
  (run_starts_trial provisioned_factory journal_updated (.inl rfl) (by decide)).2

/-- The call of the application that confirms it. -/
def confirmEvent : Event := ⟨.confirm (bootPolicyOptions factoryCrypto factoryKey).metadataFlash, []⟩

/-- The image in slot B is confirmed. -/
def updatedRecord : BootMetadataRecord :=
  ⟨5, .confirmed, BootSlotId.b.toUInt32, bootSlotNone, 3, 0, 1, 0⟩

theorem journal_confirmed : journal (run factoryCrypto factoryKey (powerOn (flashWith factoryRecord))
    (updateEvents ++ [policyBoot factoryCrypto factoryKey [], confirmEvent])).mem =
      .ok updatedRecord :=
  run_confirms (metadataWritable_target rfl) provisioned_factory journal_updated (.inl rfl)
    (by decide) (by decide)

end Update

end Stm32SecurityLab
