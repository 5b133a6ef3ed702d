import Stm32SecurityLab.Installer.Cleanup
import Stm32SecurityLab.System.Safety

/-!
# Starting an update

Whether an update can be started on the flash a run has left behind, when the flash works. Two
devices are of interest: one with a confirmed image, on which an update should always be possible
once no trial is outstanding, and one that does not boot, on which a recovery session should be.

Both are more than the code does. `update_installer_session_init` accepts `CONFIRMED` and
`REJECTED_INVALID`, and nothing takes a record out of `WRITING` after a reset, so an update that
was interrupted while writing is the last one. The theorems say exactly where the line is.

## Main definitions

* `CanBegin` — a session is opened and a header is accepted
* `Unhindered` — the flash operations succeed

## Main results

* `canBegin_iff` — when an update can be started
* `interrupted_update_retry_iff`, `recovery_begin_iff` — on the flash contents of every run
-/

namespace Stm32SecurityLab

open Crash Installer Machine

variable {crypto : Crypto} {publicKey headerBytes : List UInt8} {s : Installer} {m : Mem}
  {r : BootMetadataRecord} {flash : BootFlash} {options : UpdateInstallOptions} {withResult : Bool}
  {header : UpdatePackageHeader}

/-- `update_installer_session_init` succeeds, and `update_installer_begin` accepts the header. -/
def CanBegin (crypto : Crypto) (publicKey : List UInt8) (flash : BootFlash)
    (options : UpdateInstallOptions) (withResult : Bool) (headerBytes : List UInt8)
    (s : Installer) : Prop :=
  ∃ s₁ s₂, updateInstallerSessionInit flash publicKey options withResult s = .ret () s₁ ∧
    updateInstallerBegin crypto headerBytes s₁ = .ret () s₂

/-- The flash operations of a session opened with these arguments succeed. -/
structure Unhindered (flash : BootFlash) (options : UpdateInstallOptions) (s : Installer) :
    Prop where
  quiet : s.dev.Quiet
  hook : options.faultHook = none
  aligned : flash.programAlignment ∣ 8
  valid : optionsAreValid flash options = true

/-- The version an update has to exceed: the recorded one where the record is `CONFIRMED`, and that
of the manifest in the active slot otherwise. -/
def floorVersion (m : Mem) (r : BootMetadataRecord) (slot : BootSlotId) : UInt32 :=
  if r.state = .confirmed then r.candidateImageVersion else slotVersion m (bootSlots slot)

/-- A package for the slot an update of the flash contents `m` writes, and of a version that is
high enough. -/
structure Offers (crypto : Crypto) (publicKey : List UInt8) (m : Mem) (headerBytes : List UInt8)
    (header : UpdatePackageHeader) : Prop where
  accepted : ∃ c, Target m c ∧ HeaderAccepted crypto publicKey headerBytes (bootSlots c) header
  newer : ∀ r slot, journal m = .ok r → r.activeSlot = slot.toUInt32 →
    floorVersion m r slot < header.manifest.imageVersion
  first : ∀ e, journal m = .error e → minImageVersion ≤ header.manifest.imageVersion

/-! ### When an update can be started -/

theorem metadataOrBootstrap_current {bootstrap flag : Bool} {cur : BootMetadataRecord}
    (h : metadataOrBootstrap bootstrap (journal m) = .ok (cur, flag)) : cur = journalCurrent m := by
  rcases metadataOrBootstrap_ok h with ⟨-, hok⟩ | ⟨-, rfl, -, herr | herr⟩
  · rw [journalCurrent_of_ok hok]
  · rw [journalCurrent_of_error herr]
  · rw [journalCurrent_of_error herr]

/-- A session writes the slot an update of the flash contents it was opened on may write. -/
theorem Selected.target {session : UpdateInstallerSession} {bootstrap flag : Bool} {c : BootSlotId}
    (hsel : Selected publicKey session)
    (hfresh : metadataOrBootstrap bootstrap (journal m) = .ok (session.metadataBefore, flag))
    (hc : Target m c) : c = session.candidate := by
  rcases hsel.source with ⟨slot, hup⟩ | hboot
  · obtain ⟨hne, -⟩ := (target_of_ok (hup.recorded hfresh)).mp hc
    rw [hup.candidate]
    exact BootSlotId.eq_other_of_ne fun heq => hne (by rw [hup.before, heq])
  · rw [hboot.candidate]
    rcases hboot.not_recorded hfresh with hj | hj <;> exact (target_of_error hj).mp hc

/-- The header of an offered package passes the checks of a session opened on the same flash. -/
theorem Offers.begin_accepted {session : UpdateInstallerSession}
    (h : Offers crypto publicKey m headerBytes header) (hsel : Selected publicKey session)
    (hvalid : (store crypto publicKey m).ActiveValid)
    (hfresh : ∃ flag, metadataOrBootstrap session.options.recoveryBootstrap (journal m) =
      .ok (session.metadataBefore, flag)) :
    BeginAccepted crypto session m headerBytes header ∧ header.manifest.imageVersion ≠ 0 := by
  obtain ⟨c, hc, haccepted⟩ := h.accepted
  obtain ⟨flag, hfresh'⟩ := hfresh
  have hpos : ∀ {v : UInt32}, v < header.manifest.imageVersion →
      header.manifest.imageVersion ≠ 0 := by
    intro v hv hzero
    rw [hzero] at hv
    exact absurd (UInt32.lt_iff_toNat_lt.mp hv) (Nat.not_lt_zero _)
  have hcand : c = session.candidate := hsel.target hfresh' hc
  rcases hsel.source with ⟨slot, hup⟩ | hboot
  · have hj := hup.recorded hfresh'
    have hnewer := h.newer _ slot hj hup.before
    refine ⟨⟨⟨flag, hfresh'⟩, by rw [hsel.key, ← hcand]; exact haccepted, _, ?_, hnewer⟩, hpos hnewer⟩
    rw [confirmedVersionForUpdate, floorVersion]
    split
    · rfl
    · have hverify : slotVerify crypto publicKey m (bootSlots slot) = .ok () := by
        refine hvalid slot ?_
        rw [store_phase hj, phaseOf_active (canonical_of_true (journal_canonical hj))]
        exact slotOf_eq_some.mpr hup.before
      rw [hup.active, hsel.key]
      simp only [hverify]
  · have hmin : minImageVersion ≤ header.manifest.imageVersion := by
      rcases hboot.not_recorded hfresh' with hj | hj <;> exact h.first _ hj
    have hlt : minImageVersion - 1 < header.manifest.imageVersion :=
      UInt32.lt_of_lt_of_le (by decide) hmin
    refine ⟨⟨⟨flag, hfresh'⟩, by rw [hsel.key, ← hcand]; exact haccepted, _, ?_, hlt⟩, hpos hlt⟩
    rw [confirmedVersionForUpdate]
    rw [if_neg (by rw [hboot.before]; decide), hboot.active]

/-- On a device with a confirmed image: a package for the other slot, above the floor. -/
theorem Offers.of_active {slot : BootSlotId} (hj : journal m = .ok r)
    (ha : r.activeSlot = slot.toUInt32)
    (hacc : HeaderAccepted crypto publicKey headerBytes (bootSlots slot.other) header)
    (hnew : floorVersion m r slot < header.manifest.imageVersion) :
    Offers crypto publicKey m headerBytes header := by
  refine ⟨⟨slot.other, (target_of_ok hj).mpr (by simp [ha]), hacc⟩,
    fun r' slot' hr' hslot' => ?_, fun e he => ?_⟩
  · obtain rfl : r = r' := Except.ok.inj (hj.symm.trans hr')
    obtain rfl : slot = slot' := BootSlotId.toUInt32_inj.mp (ha.symm.trans hslot')
    exact hnew
  · rw [hj] at he
    cases he

/-- On a device without metadata: a package for slot A. -/
theorem Offers.of_error {e : BootMetadataError} (hj : journal m = .error e)
    (hacc : HeaderAccepted crypto publicKey headerBytes (bootSlots .a) header)
    (hmin : minImageVersion ≤ header.manifest.imageVersion) :
    Offers crypto publicKey m headerBytes header := by
  refine ⟨⟨.a, (target_of_error hj).mpr rfl, hacc⟩, fun r _ hr _ => ?_, fun _ _ => hmin⟩
  rw [hj] at hr
  cases hr

/-- On a device with a candidate and no confirmed image: a package for the candidate's slot. -/
theorem Offers.of_candidate {slot : BootSlotId} (hj : journal m = .ok r)
    (ha : r.activeSlot = bootSlotNone) (hc : r.candidateSlot = slot.toUInt32)
    (hacc : HeaderAccepted crypto publicKey headerBytes (bootSlots slot) header) :
    Offers crypto publicKey m headerBytes header := by
  have hne := slot.toUInt32_ne_none
  refine ⟨⟨slot, (target_of_ok hj).mpr ⟨fun h => hne (h.symm.trans ha), fun _ => hc⟩, hacc⟩,
    fun r' slot' hr' hslot' => ?_, fun e he => ?_⟩
  · obtain rfl : r = r' := Except.ok.inj (hj.symm.trans hr')
    exact absurd (hslot'.symm.trans ha) slot'.toUInt32_ne_none
  · rw [hj] at he
    cases he

/-- **When an update can be started.** -/
theorem canBegin_iff (hu : Unhindered flash options s)
    (hvalid : (store crypto publicKey s.dev.mem).ActiveValid)
    (hoffer : Offers crypto publicKey s.dev.mem headerBytes header) :
    CanBegin crypto publicKey flash options withResult headerBytes s ↔
      Openable options.recoveryBootstrap s.dev.mem ∧
        (journalCurrent s.dev.mem).sequence < 0xFFFFFFFE := by
  constructor
  · rintro ⟨s₁, s₂, hinit, hbegin⟩
    have hopen := (returns_updateInstallerSessionInit_iff hu.quiet).mp
      (returns_iff.mpr ⟨_, s₁, hinit⟩)
    obtain ⟨-, hfound, hsel⟩ := updateInstallerSessionInit_spec.ret hinit
    obtain ⟨flag, hfresh⟩ := hfound.fresh
    have hinv : SessionInv publicKey s₁ := by
      rw [SessionInv]
      rw [hfound.state]
      exact hsel
    obtain ⟨-, header', writing, -, hnext⟩ := updateInstallerBegin_admitted hinv (.inl ⟨s₂, hbegin⟩)
    refine ⟨hopen.2, ?_⟩
    rw [← metadataOrBootstrap_current hfresh]
    exact (bootMetadataPrepareNext_ok.mp hnext).1
  · rintro ⟨hopen, hseq⟩
    have hreturns : Returns (updateInstallerSessionInit flash publicKey options withResult) s :=
      (returns_updateInstallerSessionInit_iff hu.quiet).mpr ⟨hu.valid, hopen⟩
    obtain ⟨_, s₁, hinit⟩ := returns_iff.mp hreturns
    obtain ⟨hread, hfound, hsel⟩ := updateInstallerSessionInit_spec.ret hinit
    have hmem : s₁.dev.mem = s.dev.mem := hread.eq_of_false.1
    have hinv : SessionInv publicKey s₁ := by
      rw [SessionInv]
      rw [hfound.state]
      exact hsel
    have hu₁ : Undisturbed s₁ :=
      ⟨hread.quiet hu.quiet, by rw [hfound.options]; exact hu.hook,
        by rw [hfound.alignment]; exact hu.aligned, hsel.restricted⟩
    obtain ⟨hacc, hne⟩ := hoffer.begin_accepted hsel hvalid hfound.fresh
    obtain ⟨flag, hfresh⟩ := hfound.fresh
    obtain ⟨writing, hnext⟩ := (hsel.prepare_iff hne).mpr
      (by rw [metadataOrBootstrap_current hfresh]; exact hseq)
    rw [← hmem] at hacc
    obtain ⟨_, s₂, hbegin⟩ := returns_iff.mp ((returns_updateInstallerBegin_iff hu₁ hinv).mpr
      ⟨hfound.state, header, writing, hacc, hnext⟩)
    exact ⟨s₁, s₂, hinit, hbegin⟩

/-! ### On the flash contents of a run -/

/-- `CONFIRMED` metadata with an active image that verifies. -/
def ConfirmedImage (crypto : Crypto) (publicKey : List UInt8) (m : Mem) : Prop :=
  ∃ r, journal m = .ok r ∧ r.state = .confirmed ∧ ∃ slot : BootSlotId,
    r.activeSlot = slot.toUInt32 ∧ slotVerify crypto publicKey m (bootSlots slot) = .ok ()

/-- On blank flash or with a confirmed image, the active image keeps verifying. -/
theorem run_activeValid {d : Device}
    (h : journal d.mem = .error .noValidCopy ∨ ConfirmedImage crypto publicKey d.mem)
    (es : List Event) :
    (store crypto publicKey (run crypto publicKey (powerOn d) es).mem).ActiveValid ∧
      journal (run crypto publicKey (powerOn d) es).mem ≠ .error .ambiguous := by
  have hstart : (store crypto publicKey d.mem).Settled ∧ (store crypto publicKey d.mem).ActiveValid ∧
      journal d.mem ≠ .error .ambiguous := by
    rcases h with hj | ⟨r, hj, hs, slot, ha, hok⟩
    · have hphase : (store crypto publicKey d.mem).phase = .blank := store_phase_blank hj
      refine ⟨settled_of_phase (.inl hphase), fun s hact => ?_, by rw [hj]; simp⟩
      rw [hphase] at hact
      cases hact
    · have hphase : (store crypto publicKey d.mem).phase = _ := store_phase_confirmed hj hs ha
      refine ⟨settled_of_phase (.inr ⟨_, _, hphase⟩), fun s hact => ?_, by rw [hj]; simp⟩
      rw [hphase] at hact
      cases hact
      exact hok
  obtain ⟨hsettled, hvalid, hm⟩ := hstart
  obtain ⟨hsteps, hm'⟩ := run_refines crypto (powerOn_inv publicKey d) hm es
  exact ⟨hvalid.steps hsettled hsteps, hm'⟩

/-- A device with a confirmed image has one after every run. -/
theorem run_active {d : Device} (h : ConfirmedImage crypto publicKey d.mem) (es : List Event) :
    ∃ r, ∃ slot : BootSlotId, journal (run crypto publicKey (powerOn d) es).mem = .ok r ∧
      r.activeSlot = slot.toUInt32 := by
  obtain ⟨r, hj, hs, slot, ha, -⟩ := h
  have hm : journal d.mem ≠ .error .ambiguous := by rw [hj]; simp
  have hactive : (store crypto publicKey d.mem).phase.active ≠ none := by
    rw [store_phase_confirmed hj hs ha]
    simp [TwoSlot.Phase.active]
  obtain ⟨hsteps, -⟩ := run_refines crypto (powerOn_inv publicKey d) hm es
  obtain ⟨v, hv⟩ := Option.ne_none_iff_exists'.mp (TwoSlot.Store.active_steps hactive hsteps)
  have hfloor : (store crypto publicKey (run crypto publicKey (powerOn d) es).mem).Floor
      (slotVersion (run crypto publicKey (powerOn d) es).mem (bootSlots v)).toNat := ⟨v, hv, rfl⟩
  obtain ⟨_, ⟨r', hr', slot', hslot', -⟩, -⟩ := exists_confirmedVersion hfloor
  exact ⟨r', slot', hr', hslot'⟩

/-- The events of a reset and the boot that follows. -/
def reboot (options : BootSlotSelectionOptions) (script : List Verdict) : List Event :=
  [⟨.reset, []⟩, ⟨.boot options, script⟩]

/-- An update that has been started has `WRITING` in the journal. -/
theorem startUpdate_writing {d : Device}
    (h : CanBegin crypto publicKey flash options false headerBytes ((powerOn d).installer [])) :
    ∃ r, journal (run crypto publicKey (powerOn d) (startUpdate flash options headerBytes)).mem =
        .ok r ∧ r.state = .writing ∧ r.activeSlot = (journalCurrent d.mem).activeSlot ∧
      (∀ c, Target d.mem c → r.candidateSlot = c.toUInt32) ∧
      r.candidateImageVersion = (decodeManifestBytes (byteAt headerBytes)).imageVersion := by
  obtain ⟨s₁, s₂, hinit, hbegin⟩ := h
  obtain ⟨hread, hfound, hsel⟩ := updateInstallerSessionInit_spec.ret hinit
  have hmid : (Machine.mk s₁ none).installer [] = s₁ := by
    have hquiet : s₁.dev.script = [] := hread.quiet rfl
    exact congrArg (Installer.mk s₁.session s₁.programBuffer s₁.result)
      (congrArg (Device.mk s₁.dev.mem · s₁.dev.log) hquiet.symm)
  have hinv : SessionInv publicKey s₁ := by
    rw [SessionInv]
    rw [hfound.state]
    exact hsel
  obtain ⟨-, hfill, -, header, size, writing, hacc, -, -, hsteady⟩ :=
    (updateInstallerBegin_spec hinv).ret hbegin
  have hheader : s₂.session.header = header := congrArg (·.header) hsteady
  obtain ⟨flag, hfresh⟩ := hfound.fresh
  refine ⟨s₂.session.writingMetadata, ?_, hfill.state, ?_, fun c hc => ?_, ?_⟩
  · have hrun : run crypto publicKey (powerOn d) (startUpdate flash options headerBytes) =
        { inst := s₂, lastBoot := none } := by
      simp only [startUpdate, run_cons, run_nil, step, hinit, settle]
      rw [show (powerOn d).lastBoot = none from rfl, hmid, hbegin]
    rw [hrun]
    exact hfill.recorded
  · have hactive : s₂.session.activeSlotId = s₁.session.activeSlotId :=
      congrArg (·.activeSlotId) hsteady
    have hcurrent : s₁.session.metadataBefore = journalCurrent d.mem :=
      metadataOrBootstrap_current hfresh
    rw [hfill.active, hactive, ← hcurrent]
    rcases hsel.source with ⟨slot, hup⟩ | hboot
    · rw [hup.activeSlotId, hup.before]
    · rw [hboot.activeSlotId, hboot.before]
      rfl
  · have hcand : s₂.session.candidate = s₁.session.candidate := congrArg (·.candidate) hsteady
    rw [hfill.candidate, hcand, hsel.target hfresh hc]
  · rw [hfill.version, hheader, hacc.accepted.manifest]

/-- What a reset and a boot do to the flash. -/
theorem reboot_booted (crypto : Crypto) (publicKey : List UInt8) (mc : Machine)
    (bootOptions : BootSlotSelectionOptions) (script : List Verdict) :
    ∃ d d', d.mem = mc.mem ∧ Booted d d' ∧
      (run crypto publicKey mc (reboot bootOptions script)).mem = d'.mem :=
  settleBoot_of_wp (P := fun mc' => ∃ d d', d.mem = mc.mem ∧ Booted d d' ∧ mc'.mem = d'.mem)
    bootSlotSelectionSelect_spec (fun s' h => ⟨mc.scripted script, s'.dev, rfl, h.1, rfl⟩)
    (fun _ s' h => ⟨mc.scripted script, s'.dev, rfl, h, rfl⟩)
    (fun s' h => ⟨mc.scripted script, s'.dev, rfl, h, rfl⟩)

/-- A boot leaves the record as it is unless a candidate is on offer. -/
theorem reboot_journal {mc : Machine} (hj : journal mc.mem = .ok r)
    (hready : r.state ≠ .candidateReady) (htrial : r.state ≠ .pendingTrial)
    (bootOptions : BootSlotSelectionOptions) (script : List Verdict) :
    journal (run crypto publicKey mc (reboot bootOptions script)).mem = .ok r := by
  obtain ⟨d, d', hsame, hbooted, hmem⟩ := reboot_booted crypto publicKey mc bootOptions script
  rw [← hsame] at hj
  rw [hmem]
  rcases hbooted.journal with h | ⟨cur, next, hcur, -, hstep⟩
  · exact h.trans hj
  · obtain rfl : r = cur := Except.ok.inj (hj.symm.trans hcur)
    rcases BootStep.states hstep with h | h
    · exact absurd h hready
    · exact absurd h htrial

/-- The version an interrupted update was writing is above the floor. -/
theorem floorVersion_lt {slot : BootSlotId} (hsound : (store crypto publicKey m).Sound)
    (hj : journal m = .ok r) (hs : r.state = .writing) (ha : r.activeSlot = slot.toUInt32) :
    floorVersion m r slot < r.candidateImageVersion := by
  obtain ⟨⟨c, hc⟩, -⟩ := (canonical_of_true (journal_canonical hj)).candidate (by simp [hs])
    (by simp [hs])
  have hnewer := hsound.newer
  rw [TwoSlot.Store.Newer] at hnewer
  rw [store_phase hj, phaseOf_writing hs hc, ha, slotOf_toUInt32] at hnewer
  rw [floorVersion]
  rw [if_neg (by simp [hs])]
  exact UInt32.lt_iff_toNat_lt.mpr hnewer

/-- Without a confirmed image and without a candidate, a boot fails. -/
theorem boot_fails (mc : Machine) (bootOptions : BootSlotSelectionOptions)
    (h : ∀ r, journal mc.mem = .ok r → r.state = .writing ∧ r.activeSlot = bootSlotNone) :
    ∃ e sel, bootSlotSelectionSelect bootOptions { dev := mc.scripted [] } = .err e sel ∧
      sel.dev.mem = mc.mem := by
  have hq : (mc.scripted []).Quiet := rfl
  have hwp : wp (bootSlotSelectionSelect bootOptions) { dev := mc.scripted [] } (fun _ _ => False)
      (fun _ sel => sel.dev.mem = mc.mem) (fun _ => False) := by
    rw [bootSlotSelectionSelect, Selector.onDev]
    simp only [wp_bind, wp_selectorModifyResult, wp_zoom, wp_ofExcept]
    refine bootMetadataRecoverFromFlash_spec (fun vs _ => ⟨fun r hr => ?_, fun _ _ => rfl⟩)
      (fun _ hn => absurd hq hn) (fun _ hn => absurd hq hn)
    replace hr := mapError_eq_ok.mp hr
    rw [← journal_eq] at hr
    obtain ⟨hs, ha⟩ := h r hr
    simp only [hs, fallbackToConfirmed, if_pos ha, wp_fail]
    rfl
  rw [wp] at hwp
  cases hrun : bootSlotSelectionSelect bootOptions { dev := mc.scripted [] } with
  | ret u sel => rw [hrun] at hwp; exact hwp.elim
  | err e sel => rw [hrun] at hwp; exact ⟨e, sel, rfl, hwp⟩
  | cut sel => rw [hrun] at hwp; exact hwp.elim

/-- No session can be opened over a record that says `WRITING`. -/
theorem not_canBegin_of_writing (hq : s.dev.Quiet) (hj : journal s.dev.mem = .ok r)
    (hs : r.state = .writing) :
    ¬ CanBegin crypto publicKey flash options withResult headerBytes s := by
  rintro ⟨s₁, s₂, hinit, -⟩
  have hopen := ((returns_updateInstallerSessionInit_iff hq).mp
    (returns_iff.mpr ⟨_, s₁, hinit⟩)).2
  rw [Openable] at hopen
  rw [hj] at hopen
  rcases hopen.1 with h | h <;> rw [hs] at h <;> cases h

/-- **An update that was interrupted cannot be retried.** The package that was being written is
still acceptable, and no session takes it. -/
theorem startUpdate_locks_out {d : Device} {slot : BootSlotId} (hj : journal d.mem = .ok r)
    (hs : r.state = .confirmed) (ha : r.activeSlot = slot.toUInt32)
    (hv : slotVersion d.mem (bootSlots slot) = r.candidateImageVersion)
    (h : CanBegin crypto publicKey flash options false headerBytes ((powerOn d).installer []))
    (bootOptions : BootSlotSelectionOptions) (script : List Verdict) :
    ∃ r', journal (run crypto publicKey (powerOn d)
        (startUpdate flash options headerBytes ++ reboot bootOptions script)).mem = .ok r' ∧
      r'.state = .writing ∧ r'.activeSlot = slot.toUInt32 ∧
      floorVersion (run crypto publicKey (powerOn d) (startUpdate flash options headerBytes ++
        reboot bootOptions script)).mem r' slot <
          (decodeManifestBytes (byteAt headerBytes)).imageVersion := by
  obtain ⟨r', hr', hs', ha', -, hv'⟩ := startUpdate_writing h
  rw [journalCurrent_of_ok hj] at ha'
  obtain ⟨hsteps, -⟩ := run_refines crypto (powerOn_inv publicKey d)
    (by rw [show journal (powerOn d).mem = .ok r from hj]; simp)
    (startUpdate flash options headerBytes ++ reboot bootOptions script)
  have hsound : (store crypto publicKey d.mem).Sound := sound_of_confirmed hj hs ha hv
  have hj' : journal (run crypto publicKey (powerOn d)
      (startUpdate flash options headerBytes ++ reboot bootOptions script)).mem = .ok r' := by
    rw [run_append]
    exact reboot_journal hr' (by simp [hs']) (by simp [hs']) _ _
  refine ⟨r', hj', hs', ha'.trans ha, ?_⟩
  rw [← hv']
  exact floorVersion_lt (hsound.steps hsteps) hj' hs' (ha'.trans ha)

/-! ### The device of `update_mode.c` -/

theorem unhindered_updateMode (recoveryBootstrap : Bool) (mc : Machine) :
    Unhindered updateModeFlash (updateModeOptions recoveryBootstrap) (mc.installer []) :=
  ⟨rfl, rfl, by decide, by cases recoveryBootstrap <;> decide⟩

theorem journal_factory : journal (powerOn (flashWith factoryRecord)).mem = .ok factoryRecord :=
  journal_flashWith (by decide)

theorem active_factory : factoryRecord.activeSlot = BootSlotId.a.toUInt32 := rfl

theorem confirmedImage_factory :
    ConfirmedImage factoryCrypto factoryKey (flashWith factoryRecord).mem :=
  ⟨factoryRecord, journal_flashWith (by decide), rfl, .a, rfl, slotVerify_factory⟩

/-! ### Retrying -/

/-- **Retrying an update.** From a confirmed image, after any run, a reset and a boot: unless a
trial is outstanding, a signed package for the inactive slot with a version above the confirmed
one is accepted exactly when the record is not `WRITING` and sequence numbers are left. -/
theorem interrupted_update_retry_iff {d : Device} (h : ConfirmedImage crypto publicKey d.mem)
    (es : List Event) (bootOptions : BootSlotSelectionOptions) (script : List Verdict) :
    ∃ r slot, journal (run crypto publicKey (powerOn d) (es ++ reboot bootOptions script)).mem =
        .ok r ∧ r.activeSlot = slot.toUInt32 ∧
      (r.state ≠ .candidateReady → r.state ≠ .pendingTrial →
        ∀ flash options withResult s headerBytes header,
          s.dev.mem = (run crypto publicKey (powerOn d) (es ++ reboot bootOptions script)).mem →
          Unhindered flash options s →
          HeaderAccepted crypto publicKey headerBytes (bootSlots slot.other) header →
          floorVersion s.dev.mem r slot < header.manifest.imageVersion →
          (CanBegin crypto publicKey flash options withResult headerBytes s ↔
            r.state ≠ .writing ∧ r.sequence < 0xFFFFFFFE)) := by
  obtain ⟨r, slot, hj, ha⟩ := run_active h (es ++ reboot bootOptions script)
  refine ⟨r, slot, hj, ha, fun hready htrial flash options withResult s headerBytes header hmem hu
    hacc hnew => ?_⟩
  have hvalid := (run_activeValid (.inr h) (es ++ reboot bootOptions script)).1
  rw [← hmem] at hj hvalid
  rw [canBegin_iff hu hvalid (.of_active hj ha hacc hnew), journalCurrent_of_ok hj]
  refine and_congr_left fun _ => ?_
  rw [Openable]
  rw [hj]
  have hcan := canonical_of_true (journal_canonical hj)
  have hne : r.activeSlot ≠ bootSlotNone := by
    rw [ha]
    exact slot.toUInt32_ne_none
  constructor
  · rintro ⟨hs | hs, -⟩ <;> rw [hs] <;> decide
  · intro hwriting
    refine ⟨?_, hne⟩
    cases hs : r.state with
    | confirmed => exact .inl rfl
    | rejectedInvalid => exact .inr rfl
    | empty => exact absurd (hcan.empty hs) hne
    | writing => exact absurd hs hwriting
    | candidateReady => exact absurd hs hready
    | pendingTrial => exact absurd hs htrial

theorem floorVersion_factory (m : Mem) : floorVersion m factoryRecord .a <
    (headerOf updateManifest updateSignature).manifest.imageVersion := by
  have hconfirmed : factoryRecord.state = .confirmed := rfl
  rw [floorVersion]
  rw [if_pos hconfirmed]
  decide

/-- The calls of an update that is given up after its header, and what they leave on record. -/
def abandonedUpdate : List Event :=
  startUpdate updateModeFlash (updateModeOptions false) updateHeader ++ [⟨.abort, []⟩]

theorem run_abandonedUpdate : ∃ r,
    journal (run factoryCrypto factoryKey (powerOn (flashWith factoryRecord)) abandonedUpdate).mem =
      .ok r ∧ r.state = .rejectedInvalid ∧ r.activeSlot = BootSlotId.a.toUInt32 ∧ r.sequence = 3 ∧
      slotVersion (run factoryCrypto factoryKey (powerOn (flashWith factoryRecord))
        abandonedUpdate).mem (bootSlots .a) <
          (headerOf updateManifest updateSignature).manifest.imageVersion := by
  obtain ⟨s₁, s₂, hstart, -, hactive, hseq, hheader, hbegins⟩ :=
    @run_startUpdate (powerOn (flashWith factoryRecord)) rfl journal_factory
  have hwriting : s₂.session.writingMetadata.sequence = 2 := by
    rw [(bootMetadataPrepareNext_ok.mp hbegins.writing).2.2, hseq]
    rfl
  have hundisturbed := hbegins.content.undisturbed
  have hunder : UnderWay s₂ := hbegins.filling.underWay hundisturbed.quiet hundisturbed.aligned
    (by rw [hbegins.state]; decide) (by rw [hwriting]; decide)
  have habort := updateInstallerAbort_rejects hunder
  obtain ⟨_, s₃, hrun⟩ :=
    returns_iff.mp (habort.mono (fun _ _ _ => trivial) (fun _ _ h => h) fun _ h => h)
  obtain ⟨hext, -, r, hr, hr', -, hversion⟩ := habort.ret hrun
  obtain rfl : s₂.session.writingMetadata = r :=
    Except.ok.inj (hbegins.filling.recorded.symm.trans hr)
  have habandoned : run factoryCrypto factoryKey (powerOn (flashWith factoryRecord))
      abandonedUpdate = { powerOn (flashWith factoryRecord) with inst := s₃ } := by
    rw [abandonedUpdate, run_append, hstart, run_cons, run_nil]
    exact step_of_ret hundisturbed.quiet rfl hrun
  have ha : s₂.session.writingMetadata.activeSlot = BootSlotId.a.toUInt32 := by
    rw [hbegins.filling.active, hbegins.active, hactive]
  have hsound := (sound_of_run provisioned_factory
    (startUpdate updateModeFlash (updateModeOptions false) updateHeader)).1
  rw [hstart] at hsound
  have hlt := floorVersion_lt hsound hbegins.filling.recorded hbegins.filling.state ha
  rw [floorVersion, if_neg (by rw [hbegins.filling.state]; decide), hversion, hheader] at hlt
  rw [habandoned]
  refine ⟨_, hr', rfl, ha, ?_, ?_⟩
  · rw [abortedRecord, hwriting]
    rfl
  · exact (slotVersion_congr (SlotSame.of_meta hext .a)).symm ▸ hlt

/-- After an update that was given up, a reset and a boot, the update can be started again. -/
theorem interrupted_update_retry_iff_factory :
    CanBegin factoryCrypto factoryKey updateModeFlash (updateModeOptions false) false updateHeader
      ((run factoryCrypto factoryKey (powerOn (flashWith factoryRecord))
        (abandonedUpdate ++ reboot (bootPolicyOptions factoryCrypto factoryKey) [])).installer []) := by
  obtain ⟨r, slot, hr, hslot, hiff⟩ := interrupted_update_retry_iff confirmedImage_factory
    abandonedUpdate (bootPolicyOptions factoryCrypto factoryKey) []
  obtain ⟨rejected, hrejected, hstate, hactive, hseq, hversion⟩ := run_abandonedUpdate
  have hj := @reboot_journal factoryCrypto factoryKey _ _ hrejected (by rw [hstate]; decide)
    (by rw [hstate]; decide) (bootPolicyOptions factoryCrypto factoryKey) []
  rw [← run_append, hr] at hj
  obtain rfl : r = rejected := Except.ok.inj hj
  obtain rfl : slot = .a := BootSlotId.toUInt32_inj.mp (hslot.symm.trans hactive)
  refine (hiff (by rw [hstate]; decide) (by rw [hstate]; decide) updateModeFlash
    (updateModeOptions false) false _ updateHeader _ (installer_mem _ _)
    (unhindered_updateMode false _) updateHeader_accepted ?_).mpr ⟨by rw [hstate]; decide, by
      rw [hseq]; decide⟩
  obtain ⟨d, d', hsame, hbooted, hmem⟩ := reboot_booted factoryCrypto factoryKey
    (run factoryCrypto factoryKey (powerOn (flashWith factoryRecord)) abandonedUpdate)
    (bootPolicyOptions factoryCrypto factoryKey) []
  rw [floorVersion, if_neg (by rw [hstate]; decide), installer_mem, run_append, hmem,
    slotVersion_congr (SlotSame.of_meta hbooted.extends_meta .a), hsame]
  exact hversion

theorem canBegin_factory : CanBegin factoryCrypto factoryKey updateModeFlash
    (updateModeOptions false) false updateHeader
    ((powerOn (flashWith factoryRecord)).installer []) := by
  have hj : journal ((powerOn (flashWith factoryRecord)).installer []).dev.mem =
      .ok factoryRecord := journal_factory
  have hvalid : (store factoryCrypto factoryKey
      ((powerOn (flashWith factoryRecord)).installer []).dev.mem).ActiveValid :=
    (run_activeValid (.inr confirmedImage_factory) []).1
  refine (canBegin_iff (unhindered_updateMode false _) hvalid
    (.of_active hj active_factory updateHeader_accepted (floorVersion_factory _))).mpr ⟨?_, ?_⟩
  · rw [Openable]
    rw [hj]
    exact ⟨.inl rfl, by decide⟩
  · rw [journalCurrent_of_ok hj]
    decide

/-- The device after an update that was reset once its header had been written. -/
def interrupted : Machine :=
  run factoryCrypto factoryKey (powerOn (flashWith factoryRecord))
    (startUpdate updateModeFlash (updateModeOptions false) updateHeader ++
      reboot (bootPolicyOptions factoryCrypto factoryKey) [])

/-- That device takes no update any more. -/
theorem interrupted_update_locked_out :
    ConfirmedImage factoryCrypto factoryKey (flashWith factoryRecord).mem ∧
    ∃ r, journal interrupted.mem = .ok r ∧ r.state ≠ .candidateReady ∧ r.state ≠ .pendingTrial ∧
      r.activeSlot = BootSlotId.a.toUInt32 ∧
      Unhindered updateModeFlash (updateModeOptions false) (interrupted.installer []) ∧
      HeaderAccepted factoryCrypto factoryKey updateHeader (bootSlots .b)
        (headerOf updateManifest updateSignature) ∧
      floorVersion interrupted.mem r .a <
        (headerOf updateManifest updateSignature).manifest.imageVersion ∧
      ¬ CanBegin factoryCrypto factoryKey updateModeFlash (updateModeOptions false) false
        updateHeader (interrupted.installer []) := by
  obtain ⟨r, hj, hs, ha, hnewer⟩ := startUpdate_locks_out journal_factory rfl active_factory
    slotVersion_factory canBegin_factory (bootPolicyOptions factoryCrypto factoryKey) []
  have hj' : journal (interrupted.installer []).dev.mem = .ok r := by
    rw [installer_mem]
    exact hj
  refine ⟨confirmedImage_factory, r, hj, by simp [hs], by simp [hs], ha,
    unhindered_updateMode false _, updateHeader_accepted, ?_,
    not_canBegin_of_writing (unhindered_updateMode false interrupted).quiet hj' hs⟩
  rw [updateHeader_accepted.manifest]
  exact hnewer

/-! ### Recovering -/

/-- **Recovering.** On a device that started blank or with a confirmed image, after any run that
ends in a boot that fails: a recovery session accepts a signed package of sufficiently high version
exactly when there is no metadata, or the record is `CONFIRMED` or `REJECTED_INVALID` with an active
slot and sequence numbers are left. -/
theorem recovery_begin_iff {d : Device}
    (h : journal d.mem = .error .noValidCopy ∨ ConfirmedImage crypto publicKey d.mem)
    (es : List Event) {bootOptions : BootSlotSelectionOptions} {script : List Verdict}
    {e : BootSlotSelectionError} {sel : Selector}
    (hboot : bootSlotSelectionSelect bootOptions
      { dev := (run crypto publicKey (powerOn d) es).scripted script } = .err e sel)
    (hmem : s.dev.mem = sel.dev.mem) (hu : Unhindered flash options s)
    (hrecovery : options.recoveryBootstrap = true)
    (hoffer : Offers crypto publicKey s.dev.mem headerBytes header) :
    CanBegin crypto publicKey flash options withResult headerBytes s ↔
      journal s.dev.mem = .error .noValidCopy ∨ ∃ r, journal s.dev.mem = .ok r ∧
        (r.state = .confirmed ∨ r.state = .rejectedInvalid) ∧ r.activeSlot ≠ bootSlotNone ∧
        r.sequence < 0xFFFFFFFE := by
  have hrun : (run crypto publicKey (powerOn d) (es ++ [⟨.boot bootOptions, script⟩])).mem =
      s.dev.mem := by
    have hstep : step crypto publicKey (run crypto publicKey (powerOn d) es)
        ⟨.boot bootOptions, script⟩ = settleBoot (run crypto publicKey (powerOn d) es)
          (bootSlotSelectionSelect bootOptions
            { dev := (run crypto publicKey (powerOn d) es).scripted script }) := rfl
    rw [run_append, run_cons, run_nil, hstep, hboot, hmem]
    rfl
  obtain ⟨hvalid, hm⟩ := run_activeValid h (es ++ [⟨.boot bootOptions, script⟩])
  rw [hrun] at hvalid hm
  rw [canBegin_iff hu hvalid hoffer, hrecovery]
  rw [Openable]
  rcases journal_cases s.dev.mem with ⟨r, hr⟩ | hr | hr
  · rw [journalCurrent_of_ok hr, hr]
    simp [and_assoc]
  · rw [journalCurrent_of_error hr, hr]
    simp [bootMetadataEmpty]
  · exact absurd hr hm

/-- A device on which nothing has ever been written. -/
def blankDevice : Device := ⟨fun _ => 0xFF, [], []⟩

theorem journal_blank : journal (powerOn blankDevice).mem = .error .noValidCopy :=
  journal_of_copies (funext fun side => by cases side <;> exact copies_eq_none rfl)

theorem offers_blank (mc : Machine) (h : journal mc.mem = .error .noValidCopy) :
    Offers factoryCrypto factoryKey (mc.installer []).dev.mem factoryHeader
      (headerOf factoryManifest factorySignature) := by
  rw [installer_mem]
  exact .of_error h factoryHeader_accepted (by decide)

theorem recovery_begin_iff_blank :
    CanBegin factoryCrypto factoryKey updateModeFlash (updateModeOptions true) false factoryHeader
      ((powerOn blankDevice).installer []) := by
  obtain ⟨e, sel, hboot, hmem⟩ := boot_fails (powerOn blankDevice)
    (bootPolicyOptions factoryCrypto factoryKey) fun r hr => by
      rw [journal_blank] at hr
      cases hr
  have hj : journal ((powerOn blankDevice).installer []).dev.mem = .error .noValidCopy := by
    rw [installer_mem]
    exact journal_blank
  exact (recovery_begin_iff (.inl journal_blank) [] hboot ((installer_mem _ _).trans hmem.symm)
    (unhindered_updateMode true _) rfl (offers_blank _ journal_blank)).mpr (.inl hj)

theorem canBegin_blank : CanBegin factoryCrypto factoryKey updateModeFlash
    (updateModeOptions true) false factoryHeader ((powerOn blankDevice).installer []) := by
  have hj : journal ((powerOn blankDevice).installer []).dev.mem = .error .noValidCopy := by
    rw [installer_mem]
    exact journal_blank
  have hvalid : (store factoryCrypto factoryKey
      ((powerOn blankDevice).installer []).dev.mem).ActiveValid :=
    (run_activeValid (.inl journal_blank) []).1
  refine (canBegin_iff (unhindered_updateMode true _) hvalid
    (offers_blank _ journal_blank)).mpr ⟨?_, ?_⟩
  · rw [Openable]
    rw [hj]
    rfl
  · rw [journalCurrent_of_error hj]
    decide

/-- The blank device after a recovery that was reset once its header had been written. -/
def interruptedRecovery : Machine :=
  run factoryCrypto factoryKey (powerOn blankDevice)
    (startUpdate updateModeFlash (updateModeOptions true) factoryHeader ++ [⟨.reset, []⟩])

/-- That device neither boots nor recovers. -/
theorem interrupted_recovery_locked_out :
    journal (powerOn blankDevice).mem = .error .noValidCopy ∧
    ∃ e sel, bootSlotSelectionSelect (bootPolicyOptions factoryCrypto factoryKey)
        { dev := interruptedRecovery.scripted [] } = .err e sel ∧
      (interruptedRecovery.installer []).dev.mem = sel.dev.mem ∧
      Unhindered updateModeFlash (updateModeOptions true) (interruptedRecovery.installer []) ∧
      Offers factoryCrypto factoryKey (interruptedRecovery.installer []).dev.mem factoryHeader
        (headerOf factoryManifest factorySignature) ∧
      ¬ CanBegin factoryCrypto factoryKey updateModeFlash (updateModeOptions true) false
        factoryHeader (interruptedRecovery.installer []) := by
  have hblank : journal blankDevice.mem = .error .noValidCopy := journal_blank
  obtain ⟨r, hr, hs, ha, hc, -⟩ := startUpdate_writing (d := blankDevice) canBegin_blank
  rw [journalCurrent_of_error hblank] at ha
  replace hc : r.candidateSlot = BootSlotId.a.toUInt32 := hc .a ((target_of_error hblank).mpr rfl)
  have hj : journal interruptedRecovery.mem = .ok r := by
    rw [interruptedRecovery]
    rw [run_append, run_reset_mem]
    exact hr
  have hj' : journal (interruptedRecovery.installer []).dev.mem = .ok r := by
    rw [installer_mem]
    exact hj
  obtain ⟨e, sel, hboot, hmem⟩ := boot_fails interruptedRecovery
    (bootPolicyOptions factoryCrypto factoryKey) fun r' hr' => by
      obtain rfl : r = r' := Except.ok.inj (hj.symm.trans hr')
      exact ⟨hs, ha⟩
  refine ⟨journal_blank, e, sel, hboot, (installer_mem _ _).trans hmem.symm,
    unhindered_updateMode true _, .of_candidate hj' ha hc factoryHeader_accepted,
    not_canBegin_of_writing (unhindered_updateMode true interruptedRecovery).quiet hj' hs⟩

end Stm32SecurityLab
