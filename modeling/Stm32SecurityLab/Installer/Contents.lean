import Stm32SecurityLab.Installer.Install
import Stm32SecurityLab.Metadata.Contents

/-!
# What an install leaves

The specifications of the calls say what the metadata recovers to, and what is in the slot. Between
the two a flash has more bytes: those of the other metadata copy, of the blank end of a sector, and
all that an install must not touch. Here is what all of them are.

Outside the slot an install is two commits, and inside the slot it is the package.

## Main definitions

* `SlotOnly` — two memories that differ in a slot at most

## Main results

* `updateInstallerBegin_stores`, `updateInstallerFinish_stores` — one commit each
* `updateInstallerInstall_stores` — all bytes that a call leaves
-/

namespace Stm32SecurityLab

open Crash Installer

variable {crypto : Crypto} {publicKey headerBytes payload : List UInt8} {s s' : Installer}
  {c : BootSlotId} {m m' m'' : Mem} {next : BootMetadataRecord}

/-! ### Outside the slot -/

/-- Two memories that differ in a slot at most. -/
def SlotOnly (c : BootSlotId) (m m' : Mem) : Prop :=
  ∀ x, ¬ ((bootSlots c).signedImageBase ≤ x ∧ x < (bootSlots c).slotEnd) → m' x = m x

namespace SlotOnly

theorem of_eq (h : m' = m) : SlotOnly c m m' := fun x _ => congrFun h x

theorem trans (h : SlotOnly c m m') (h' : SlotOnly c m' m'') : SlotOnly c m m'' := fun x hx =>
  (h' x hx).trans (h x hx)

theorem of_inSlot {d d' : Device} (h : d.Extends (InSlot c) d') : SlotOnly c d.mem d'.mem := by
  intro x hx
  refine h.mem_eq fun op hop hcover => hx ?_
  obtain ⟨hbase, hend⟩ := hop
  exact ⟨hbase.trans hcover.1, Nat.lt_of_lt_of_le hcover.2 hend⟩

/-- The metadata is not in a slot. -/
theorem not_mem_of_copy {side : TwoCopy.Side} {x : ℕ} (hx : x < (copySector side).endAddr) :
    ¬ ((bootSlots c).signedImageBase ≤ x ∧ x < (bootSlots c).slotEnd) := by
  have hcopy : (copySector side).endAddr ≤ (bootSlots c).signedImageBase := by
    cases side <;> cases c <;> decide
  omega

theorem copies_eq (h : SlotOnly c m m') : copies m' = copies m := by
  funext side
  have hend := copySector_endAddr side
  rw [copies, slice_congr fun x _ hx => h x (@not_mem_of_copy c side x ?_), copies]
  rw [hend]
  exact hx.trans (Nat.add_lt_add_left (by decide) _)

/-- A commit does not depend on what is in a slot. -/
theorem committed (h : SlotOnly c m m') :
    SlotOnly c (committed m next) (Stm32SecurityLab.committed m' next) := fun x hx =>
  committed_congr h.copies_eq (h x hx)

end SlotOnly

/-! ### One commit each -/

theorem commitMetadataState_stores {current : BootMetadataRecord} {state : BootMetadataState}
    {active candidate version : UInt32} {point : UpdateInstallFaultPoint} :
    wp (commitMetadataState current state active candidate version point) s
      (fun _ s' => ∃ next,
        bootMetadataPrepareNext current state active candidate version 0 0 0 = .ok next ∧
        s'.dev.mem = committed s.dev.mem next)
      (fun _ _ => True) (fun _ => True) := by
  rw [commitMetadataState]
  simp only [wp_bind, wp_ofExcept]
  refine ⟨fun next hnext => ?_, fun _ _ => trivial⟩
  refine wp.mono (steps_maybeFault (R := fun _ => False) point version) (fun _ s₁ h₁ => ?_)
    (fun _ _ _ => trivial) (fun _ _ => trivial)
  rw [wp_getSession, onDev, wp_zoom, wp_mapErr]
  refine bootMetadataCommit_stores.mono (fun _ d' hd' => ?_) (fun _ _ _ => trivial)
    (fun _ _ => trivial)
  rw [h₁.dev.eq_of_false.1] at hd'
  exact ⟨next, mapError_eq_ok.mp hnext, hd'⟩

/-- `WRITING` is committed like every other record where there is a record to follow. -/
theorem commitWriting_stores {slot : BootSlotId} (hup : SelectedUpdate s.session slot) :
    wp commitWriting s
      (fun _ s' => ∃ next, bootMetadataPrepareNext s.session.metadataBefore .writing
          s.session.activeSlotId s.session.candidate.toUInt32
          s.session.header.manifest.imageVersion 0 0 0 = .ok next ∧
        s'.dev.mem = committed s.dev.mem next)
      (fun _ _ => True) (fun _ => True) := by
  rw [commitWriting, wp_bind, wp_getSession, if_neg]
  · exact commitMetadataState_stores
  · rintro ⟨-, ha, hb⟩
    rcases hup.recovery with h | h
    · exact Bool.false_ne_true (ha.symm.trans h)
    · exact Bool.false_ne_true (hb.symm.trans h)

/-- **A session that begins** commits `WRITING`, and goes on in the slot. -/
theorem updateInstallerBegin_stores (hinv : SessionInv publicKey s) {slot : BootSlotId}
    (hup : SelectedUpdate s.session slot) :
    wp (updateInstallerBegin crypto headerBytes) s
      (fun _ s' => SlotOnly s.session.candidate
        (committed s.dev.mem s'.session.writingMetadata) s'.dev.mem)
      (fun _ _ => True) (fun _ => True) := by
  rw [updateInstallerBegin]
  simp only [wp_bind, wp_getSession, wp_check, wp_failSession]
  refine ⟨fun hstate => ?_, fun _ => trivial⟩
  have hsel := hinv.selected hstate
  refine beginChecks_spec.mono ?_ (fun _ _ _ => trivial) (fun _ _ => trivial)
  rintro _ s₁ ⟨hread, header, size, hsession₁, hacc, -⟩
  have hmem₁ : s₁.dev.mem = s.dev.mem := hread.eq_of_false.1
  have hsel₁ : Selected publicKey s₁.session := by
    rw [hsession₁]
    exact hsel.of_header header size
  have hup₁ : SelectedUpdate s₁.session slot := by
    rw [hsession₁]
    exact ⟨hup.state, hup.canonical, hup.before, hup.active, hup.candidate, hup.activeSlotId,
      hup.recovery⟩
  obtain ⟨flag, hfresh⟩ := hacc.fresh
  have hfresh₁ : metadataOrBootstrap s₁.session.options.recoveryBootstrap (journal s₁.dev.mem) =
      .ok (s₁.session.metadataBefore, flag) := by
    rw [hsession₁, hmem₁]
    exact hfresh
  refine ((commitWriting_stores hup₁).and (commitWriting_spec hsel₁ hfresh₁)).mono ?_
    (fun _ _ _ => trivial) (fun _ _ => trivial)
  rintro _ s₂ ⟨⟨next, hnext, hmem₂⟩, hsteady₂, next', hnext', hj₂⟩
  obtain rfl : next = next' := Except.ok.inj (hnext.symm.trans hnext')
  refine (readBackWriting_spec (s := { s₂ with session :=
    { s₂.session with metadataWritingCommitted := true } }) hj₂).mono ?_
    (fun _ _ _ => trivial) (fun _ _ => trivial)
  rintro _ s₃ ⟨hread₃, hsession₃, -⟩
  have hcand₃ : s₃.session.candidate = s.session.candidate := by
    rw [hsession₃]
    exact hsteady₂.candidate.trans (by rw [hsession₁])
  have hrestricted₃ : s₃.session.Restricted := by
    rw [hsession₃]
    exact hsteady₂.restricted hsel₁.restricted
  refine (programHeader_spec hrestricted₃).mono ?_ (fun _ _ _ => trivial) (fun _ _ => trivial)
  rintro _ s₄ ⟨hdev₄, hsteady₄⟩
  have hwriting : s₄.session.writingMetadata = next := by
    have hkept : s₄.session.writingMetadata = s₃.session.writingMetadata :=
      congrArg (·.writingMetadata) hsteady₄
    rw [hkept, hsession₃]
  have hslot := SlotOnly.of_inSlot hdev₄
  rw [hcand₃, hread₃.eq_of_false.1, hmem₂, hmem₁, ← hwriting] at hslot
  exact hslot

/-- **A session that finishes** writes the rest of the slot, and commits `CANDIDATE_READY`. -/
theorem updateInstallerFinish_stores (hinv : SessionInv publicKey s) :
    wp (updateInstallerFinish crypto) s
      (fun _ s' => SlotOnly s.session.candidate (committed s.dev.mem (readyRecordOf s.session))
        s'.dev.mem)
      (fun _ _ => True) (fun _ => True) := by
  rw [updateInstallerFinish]
  simp only [wp_bind, wp_getSession, wp_check, wp_failSession, wp_modifySession]
  refine ⟨fun _ => ⟨fun hstate => ?_, fun _ => trivial⟩, fun _ => trivial⟩
  have hfill := hinv.filling (.inr hstate)
  refine wp.mono (steps_flushPayloadProgramBuffer true hfill.restricted) (fun _ s₁ h₁ => ?_)
    (fun _ _ _ => trivial) (fun _ _ => trivial)
  refine ⟨fun _ => ?_, fun _ => trivial⟩
  refine wp.mono (steps_verifyStreamingPayloadHash (R := InSlot s.session.candidate) crypto)
    (fun _ s₂ h₂ => ?_) (fun _ _ _ => trivial) (fun _ _ => trivial)
  have hs₂ := IsTrans.trans _ _ _ h₁ h₂
  refine wp.mono (steps_streams (steps_hashInstalledPayload (R := InSlot s.session.candidate) crypto))
    (fun _ s₃ h₃ => ?_) (fun _ _ _ => trivial) (fun _ _ => trivial)
  have hs₃ := IsTrans.trans _ _ _ hs₂ h₃
  refine verifyInstalledPackage_spec.mono ?_ (fun _ _ _ => trivial) (fun _ _ => trivial)
  rintro _ s₄ ⟨h₄, -⟩
  have hs₄ := IsTrans.trans _ _ _ hs₃ (h₄.streams.mono fun _ => False.elim)
  refine commitMetadataState_stores.mono ?_ (fun _ _ _ => trivial) (fun _ _ => trivial)
  rintro _ s₅ ⟨next, hnext, hmem₅⟩
  have hready : next = readyRecordOf s.session := (bootMetadataPrepareNext_ok.mp hnext).2.2
  rw [hmem₅, hready]
  exact (SlotOnly.of_inSlot hs₄.dev).committed

/-! ### The call -/

variable {flash : BootFlash} {options : UpdateInstallOptions} {withResult : Bool}
  {s₀ s₁ s₂ : Installer}

/-- On an undisturbed device the checks do not lose power. -/
theorem quiet_beginChecks_uncut (hq : s.dev.Quiet) :
    wp (beginChecks crypto headerBytes) s (fun _ _ => True) (fun _ _ => True) (fun _ => False) := by
  rw [beginChecks]
  simp only [wp_bind, wp_getSession]
  refine wp_recover (fun s₁ h₁ => ?_) (fun _ _ hn => absurd hq hn) (fun _ _ hn => hn hq)
  simp only [wp_ofExcept, wp_check]
  refine ⟨fun x _ => ⟨fun _ => wp_modifyResult fun result => ?_, fun _ => trivial⟩,
    fun _ _ => trivial⟩
  simp only [wp_modifySession, wp_get]
  refine ⟨fun header _ => ⟨fun v _ => ⟨fun _ => ⟨fun size _ => ?_, fun _ _ => trivial⟩,
    fun _ => trivial⟩, fun _ _ => trivial⟩, fun _ _ => trivial⟩
  exact wp_modifyResult fun _ => trivial

/-- A package whose header is not accepted by the session is not installed. -/
theorem updateInstallerInstall_rejected {package : List UInt8} (hq : s₀.dev.Quiet)
    (hinit : updateInstallerSessionInit flash publicKey options withResult s₀ = .ret () s₁)
    (hnot : ∀ header, ¬ BeginAccepted crypto s₁.session s₁.dev.mem
      (package.take Layout.signedImageHeaderSize) header) :
    ∃ e s', updateInstallerInstall crypto flash package publicKey options withResult s₀ =
      .err e s' := by
  obtain ⟨hread, -⟩ := (updateInstallerSessionInit_spec :
    wp (updateInstallerSessionInit flash publicKey options withResult) s₀ _ _ _).ret hinit
  have hwp : wp (updateInstallerInstall crypto flash package publicKey options withResult) s₀
      (fun _ _ => False) (fun _ _ => True) (fun _ => False) := by
    rw [updateInstallerInstall]
    simp only [wp_bind]
    refine wp_of_ret hinit ?_
    rw [wp_getSession]
    refine wp_modifyResult fun result => ?_
    rw [wp_ofExcept]
    refine ⟨fun parsed _ => ?_, fun _ _ => trivial⟩
    rw [updateInstallerBegin]
    simp only [wp_bind, wp_getSession, wp_check, wp_failSession]
    refine ⟨fun _ => ?_, fun _ => trivial⟩
    have hq₁ : ({ s₁ with result } : Installer).dev.Quiet := hread.quiet hq
    refine ((quiet_beginChecks_uncut hq₁).and beginChecks_spec).mono ?_ (fun _ _ _ => trivial)
      (fun _ h => h.1.elim)
    rintro _ s₂ ⟨-, -, header, -, -, haccepted, -⟩
    exact (hnot header haccepted).elim
  cases hrun : updateInstallerInstall crypto flash package publicKey options withResult s₀ with
  | ret u s' => exact (hwp.ret hrun).elim
  | err e s' => exact ⟨e, s', rfl⟩
  | cut s' => exact (hwp.cut hrun).elim

/-- **What a call leaves**: the package in the slot, and two commits outside of it. -/
theorem updateInstallerInstall_stores (hq : s₀.dev.Quiet) (hhook : options.faultHook = none)
    (hinit : updateInstallerSessionInit flash publicKey options withResult s₀ = .ret () s₁)
    {slot : BootSlotId} (hup : SelectedUpdate s₁.session slot)
    (hbegin : updateInstallerBegin crypto headerBytes s₁ = .ret () s₂)
    (hpayload : payload.length = s₂.session.header.payloadSize)
    (hpackage : Host.PackageAccepted crypto (headerBytes ++ payload) publicKey s₁.session.candidate)
    (hsequence : s₂.session.writingMetadata.sequence < 0xFFFFFFFE) :
    ∃ s', updateInstallerInstall crypto flash (headerBytes ++ payload) publicKey options withResult
        s₀ = .ret () s' ∧
      SlotFilled headerBytes payload s₁.session.candidate s'.dev.mem ∧
      SlotOnly s₁.session.candidate (committed (committed s₀.dev.mem s₂.session.writingMetadata)
        (readyRecordOf s₂.session)) s'.dev.mem := by
  obtain ⟨hread, hinitialized, hsel⟩ := (updateInstallerSessionInit_spec :
    wp (updateInstallerSessionInit flash publicKey options withResult) s₀ _ _ _).ret hinit
  have hinv : SessionInv publicKey s₁ := by
    rw [SessionInv, hinitialized.state]
    exact hsel
  have hbegins := begins_of_begin hinv (hread.quiet hq) (by rw [hinitialized.options, hhook]) hbegin
  have hstores : wp (updateInstallerInstall crypto flash (headerBytes ++ payload) publicKey options
      withResult) s₀ (fun _ s' => SlotOnly s₁.session.candidate
        (committed (committed s₀.dev.mem s₂.session.writingMetadata) (readyRecordOf s₂.session))
        s'.dev.mem) (fun _ _ => True) (fun _ => True) := by
    refine wp_updateInstallerInstall hq hhook hinit hbegin hpayload hpackage
      fun result s₂' s₃ hrun hbegins' hheader hwriting hcomplete => ?_
    have hslot₂ := (updateInstallerBegin_stores (s := { s₁ with result }) hinv hup :
      wp (updateInstallerBegin crypto headerBytes) _ _ _ _).ret hrun
    have hslot₃ := SlotOnly.of_inSlot hcomplete.streamed.dev
    have hcand₂ : s₂'.session.candidate = s₁.session.candidate := hbegins'.candidate
    have hcand₃ : s₃.session.candidate = s₁.session.candidate := hcomplete.candidate
    have hactive₃ : s₃.session.activeSlotId = s₂.session.activeSlotId :=
      (congrArg (·.activeSlotId) hcomplete.streamed.opened).trans
        (hbegins'.active.trans hbegins.active.symm)
    have hready : readyRecordOf s₃.session = readyRecordOf s₂.session := by
      rw [readyRecordOf, hcomplete.writing, hwriting, hactive₃, hcand₃, ← hbegins.candidate,
        hcomplete.header, hheader, readyRecordOf]
    rw [hread.eq_of_false.1, hwriting] at hslot₂
    rw [hcand₂] at hslot₃
    rw [abortOnError, wp_bind, wp_attempt]
    refine (updateInstallerFinish_stores hcomplete.inv).mono (fun _ s₄ h₄ => ?_) (fun _ s₄ _ => ?_)
      (fun _ _ => trivial)
    · rw [hcand₃, hready] at h₄
      exact (hslot₂.trans hslot₃).committed.trans h₄
    · simp only [wp_bind, wp_attempt, wp_fail]
      exact wp_of_outcome (fun _ _ _ => trivial) (fun _ _ _ => trivial) fun _ _ => trivial
  have hinstall := quiet_updateInstallerInstall hq hhook hinit hbegin hpayload hpackage
  cases hrun : updateInstallerInstall crypto flash (headerBytes ++ payload) publicKey options
      withResult s₀ with
  | ret u s' =>
    have hfilled := (hinstall.ret hrun).2.1
    rw [hbegins.candidate] at hfilled
    exact ⟨s', rfl, hfilled, hstores.ret hrun⟩
  | err e s' => exact absurd hsequence (hinstall.err hrun).1
  | cut s' => exact (hinstall.cut hrun).elim

end Stm32SecurityLab
