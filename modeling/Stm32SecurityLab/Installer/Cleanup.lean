import Stm32SecurityLab.Installer.Quiet
import Stm32SecurityLab.Metadata.Transitions

/-!
# Cleaning up

What the journal says when a call of the installer has ended, on a device whose flash operations
succeed. A fault hook may still stop the installer wherever it is asked.

A session is under way from the commit of `WRITING` on, and every error leaves it under way. An
abort then rejects the candidate, and there is no other way out but to finish. The one exception is
a record with the last sequence number there is: nothing can follow that.

## Main definitions

* `Calm` — the flash operations of a session succeed
* `UnderWay` — `WRITING` is in the journal, and the session can reject it
* `CleanedUp` — there is nothing to clean up

## Main results

* `updateInstallerBegin_calm`, `updateInstallerWrite_underWay`, `updateInstallerFinish_underWay`
* `updateInstallerAbort_underWay`, `updateInstallerAbort_cleanedUp`
-/

namespace Stm32SecurityLab

open Crash Installer

variable {crypto : Crypto} {publicKey headerBytes : List UInt8} {s s' : Installer}
  {R : FlashOp → Prop}

/-- Nothing will go wrong with the flash operations of the session. There may be a fault hook. -/
structure Calm (s : Installer) : Prop where
  quiet : s.dev.Quiet
  aligned : s.session.restrictedFlash.programAlignment ∣ 8
  restricted : s.session.Restricted

namespace Calm

theorem streams (h : Calm s) (hs : Streams R s s') : Calm s' :=
  ⟨hs.dev.quiet h.quiet, by rw [hs.restrictedFlash]; exact h.aligned, hs.restricted h.restricted⟩

theorem metadataWritable (h : Calm s) : MetadataWritable s.session.restrictedFlash :=
  metadataWritable_of_restricted h.aligned h.restricted

end Calm

/-! ### Before the commit of `WRITING` -/

/-- A session that has just been opened has committed nothing. -/
theorem updateInstallerSessionInit_uncommitted {flash : BootFlash} {options : UpdateInstallOptions}
    {withResult : Bool} :
    wp (updateInstallerSessionInit flash publicKey options withResult) s
      (fun _ s' => s'.session.metadataWritingCommitted = false)
      (fun _ s' => s'.session.metadataWritingCommitted = false)
      (fun s' => s'.session.metadataWritingCommitted = false) := by
  rw [updateInstallerSessionInit]
  simp only [wp_bind, wp_modifySession, wp_check, wp_modify]
  refine ⟨fun _ => ?_, fun _ => trivial⟩
  generalize hs₀ : (if withResult = true then _ else _ : Installer) = s₀
  have hsession₀ : s₀.session.metadataWritingCommitted = false := by
    rw [← hs₀]
    cases withResult <;> rfl
  have hkept {s₁ : Installer} (h : Reads s₀ s₁) : s₁.session.metadataWritingCommitted = false := by
    rw [h.session]
    exact hsession₀
  refine wp_recover (fun s₁ h₁ => ?_) (fun s₁ h₁ _ => ?_) (fun s₁ h₁ _ => hkept h₁)
  all_goals
    have hflag := hkept h₁
    simp only [wp_failSession, wp_bind, wp_ofExcept, wp_modifySession]
    refine ⟨fun x _ => ⟨fun y _ => ⟨fun restricted _ => ?_, fun _ _ => hflag⟩, fun _ _ => hflag⟩,
      fun _ _ => hflag⟩
    exact wp_modifyResult fun _ => hflag

theorem beginChecks_uncommitted (hs : s.session.metadataWritingCommitted = false) :
    wp (beginChecks crypto headerBytes) s (fun _ _ => True)
      (fun _ s' => s'.session.metadataWritingCommitted = false) fun _ => True := by
  have hkept {s₁ : Installer} (h : Reads s s₁) : s₁.session.metadataWritingCommitted = false := by
    rw [h.session]
    exact hs
  rw [beginChecks]
  simp only [wp_bind, wp_getSession]
  refine wp_recover (fun s₁ h₁ => ?_) (fun s₁ h₁ _ => ?_) (fun _ _ _ => trivial)
  all_goals
    have hflag := hkept h₁
    simp only [wp_ofExcept, wp_check]
    refine ⟨fun x _ => ⟨fun _ => ?_, fun _ => hflag⟩, fun _ _ => hflag⟩
    refine wp_modifyResult fun result => ⟨fun header _ => ?_, fun _ _ => hflag⟩
    simp only [wp_modifySession, wp_get]
    refine ⟨fun v _ => ⟨fun _ => ⟨fun size _ => ?_, fun _ _ => hflag⟩, fun _ => hflag⟩,
      fun _ _ => hflag⟩
    exact wp_modifyResult fun _ => trivial

/-- A header that is not accepted leaves nothing to clean up. -/
theorem updateInstallerBegin_uncommitted (hs : s.session.metadataWritingCommitted = false) :
    wp (updateInstallerBegin crypto headerBytes) s (fun _ _ => True)
      (fun _ s' => s'.session.metadataWritingCommitted = false ∨
        ∃ header, BeginAccepted crypto s.session s.dev.mem headerBytes header) fun _ => True := by
  rw [updateInstallerBegin, wp_bind, wp_getSession, wp_bind, wp_check]
  refine ⟨fun _ => ?_, fun _ => .inl hs⟩
  rw [wp_failSession, wp_bind]
  refine (beginChecks_spec.and (beginChecks_uncommitted hs)).mono ?_
    (fun _ _ h => .inl h.2) fun _ _ => trivial
  rintro _ s₁ ⟨⟨-, header, -, -, hacc, -⟩, -⟩
  exact wp_of_outcome (fun _ _ _ => trivial) (fun _ _ _ => .inr ⟨header, hacc⟩) fun _ _ => trivial

/-- There is nothing to abort. -/
theorem updateInstallerAbort_uncommitted (hs : s.session.metadataWritingCommitted = false) :
    wp updateInstallerAbort s
      (fun _ s' => s'.dev = s.dev ∧ s'.session.metadataWritingCommitted = false)
      (fun _ s' => s'.dev = s.dev ∧ s'.session.metadataWritingCommitted = false)
      (fun _ => False) := by
  rw [updateInstallerAbort, wp_bind, wp_getSession, wp_bind, wp_check]
  refine ⟨fun _ => ?_, fun _ => ⟨rfl, hs⟩⟩
  rw [wp_ite]
  refine ⟨fun _ => ⟨rfl, hs⟩, fun _ => ?_⟩
  rw [wp_bind, wp_failSession, if_neg (by rw [hs]; decide), wp_pure, wp_modifySession]
  exact ⟨rfl, hs⟩

/-! ### Commits -/

section Commits

variable {cur : BootMetadataRecord} {state : BootMetadataState} {active candidate version : UInt32}
  {point : UpdateInstallFaultPoint}

/-- A commit that fails has not been started. -/
theorem commitMetadataState_calm (h : Calm s) (hj : journal s.dev.mem = .ok cur) :
    wp (commitMetadataState cur state active candidate version point) s
      (fun _ s' => Steady MetaOp s s' ∧ Committed cur state active candidate version s'.dev)
      (fun _ s' => Steady MetaOp s s' ∧ s'.dev.mem = s.dev.mem) (fun _ => True) := by
  have hfail : wp (commitMetadataState cur state active candidate version point) s
      (fun _ _ => True) (fun _ s' => s'.dev.mem = s.dev.mem) (fun _ => True) := by
    rw [commitMetadataState]
    simp only [wp_bind, wp_ofExcept]
    refine ⟨fun next hnext => ?_, fun _ _ => trivial⟩
    obtain ⟨-, hvalid, -⟩ := bootMetadataPrepareNext_ok.mp (mapError_eq_ok.mp hnext)
    refine wp.mono (steps_maybeFault (R := fun _ => False) _ _) (fun _ s₁ h₁ => ?_)
      (fun _ s₁ h₁ => h₁.dev.eq_of_false.1) (fun _ _ => trivial)
    have hmem₁ : s₁.dev.mem = s.dev.mem := h₁.dev.eq_of_false.1
    have hcalm₁ := h.streams h₁.streams
    have hfollow : MayFollow s₁.dev.mem next := by
      rw [MayFollow, hmem₁, journalCurrent_of_ok hj, hj]
      exact ⟨by simp, hvalid⟩
    rw [wp_getSession]
    exact (Returns.onDev_session (Returns.mapErr (quiet_bootMetadataCommit hcalm₁.metadataWritable
      hcalm₁.quiet hfollow) _)).mono (fun _ _ _ => trivial) (fun _ _ h => h.elim) fun _ h => h.elim
  exact (commitMetadataState_spec.and hfail).mono (fun _ _ h => h.1)
    (fun _ _ h => ⟨h.1.1, h.2⟩) fun _ _ => trivial

/-- The same for both ways to commit `WRITING`. -/
theorem commitWriting_calm {flag : Bool} (h : Calm s) (hsel : Selected publicKey s.session)
    (hfresh : metadataOrBootstrap s.session.options.recoveryBootstrap (journal s.dev.mem) =
      .ok (s.session.metadataBefore, flag)) :
    wp commitWriting s
      (fun _ s' => Steady MetaOp s s' ∧ Committed s.session.metadataBefore .writing
        s.session.activeSlotId s.session.candidate.toUInt32 s.session.header.manifest.imageVersion
        s'.dev)
      (fun _ s' => Steady MetaOp s s' ∧ s'.dev.mem = s.dev.mem) (fun _ => True) := by
  have hfail : wp commitWriting s (fun _ _ => True) (fun _ s' => s'.dev.mem = s.dev.mem)
      (fun _ => True) := by
    rw [commitWriting, wp_bind, wp_getSession]
    rcases hsel.source with ⟨slot, hup⟩ | hboot
    · rw [if_neg]
      · exact (commitMetadataState_calm h (hup.recorded hfresh)).mono (fun _ _ _ => trivial)
          (fun _ _ h => h.2) fun _ _ => trivial
      · rintro ⟨-, ha, hb⟩
        rcases hup.recovery with h | h
        · rw [ha] at h
          cases h
        · rw [hb] at h
          cases h
    · rw [if_pos ⟨hboot.bootstrap, by rw [hboot.recovery], by rw [hboot.recovery]⟩]
      simp only [wp_bind, wp_ofExcept]
      refine ⟨fun next hnext => ?_, fun _ _ => trivial⟩
      obtain ⟨-, hvalid, hfields⟩ := bootMetadataPrepareNext_ok.mp (mapError_eq_ok.mp hnext)
      refine wp.mono (steps_maybeFault (R := fun _ => False) _ _) (fun _ s₁ h₁ => ?_)
        (fun _ s₁ h₁ => h₁.dev.eq_of_false.1) (fun _ _ => trivial)
      have hquiet₁ := (h.streams h₁.streams).quiet
      rw [hboot.before] at hvalid
      refine (Returns.onDev_session (Returns.mapErr (quiet_bootMetadataReinitializeForRecovery
        h.metadataWritable hquiet₁ ⟨?_, ?_, ?_, ?_, hvalid⟩) _)).mono (fun _ _ _ => trivial)
        (fun _ _ h => h.elim) fun _ h => h.elim
      · rw [hfields, hboot.before]
        rfl
      · rw [hfields]
      · rw [hfields, hboot.activeSlotId]
      · rw [hfields, hboot.candidate]
  exact ((commitWriting_spec hsel hfresh).and hfail).mono (fun _ _ h => h.1)
    (fun _ _ h => ⟨h.1.1, h.2⟩) fun _ _ => trivial

/-- A commit of `WRITING` that succeeds has been let through. -/
theorem commitWriting_letsCommit (hcalls : s.session.faultCalls = 0) :
    wp commitWriting s
      (fun _ _ => s.session.options.LetsCommit s.session.header.manifest.imageVersion)
      (fun _ _ => True) (fun _ => True) := by
  have hfault {f : Unit → Prog Installer UpdateInstallError Unit} :
      wp (maybeFault .metadataWriting s.session.header.manifest.imageVersion >>= f) s
        (fun _ _ => s.session.options.LetsCommit s.session.header.manifest.imageVersion)
        (fun _ _ => True) (fun _ => True) := by
    have hafter (hpass : s.session.options.LetsCommit s.session.header.manifest.imageVersion)
        (s' : Installer) : wp (f ()) s'
          (fun _ _ => s.session.options.LetsCommit s.session.header.manifest.imageVersion)
          (fun _ _ => True) (fun _ => True) :=
      wp_of_outcome (fun _ _ _ => hpass) (fun _ _ _ => trivial) fun _ _ => trivial
    rw [wp_bind, maybeFault, wp_bind, wp_getSession]
    cases hhook : s.session.options.faultHook with
    | none => exact hafter (fun hook hsome => by rw [hhook] at hsome; cases hsome) s
    | some hook =>
      simp only [wp_bind, wp_modifySession, wp_ofExcept]
      refine ⟨fun _ hok => hafter (fun hook' hsome => ?_) _, fun _ _ => trivial⟩
      obtain rfl : hook = hook' := Option.some.inj (hhook.symm.trans hsome)
      rw [← hcalls]
      exact hok
  rw [commitWriting, wp_bind, wp_getSession]
  dsimp only
  split
  · rw [wp_bind, wp_ofExcept]
    exact ⟨fun _ _ => hfault, fun _ _ => trivial⟩
  · rw [commitMetadataState, wp_bind, wp_ofExcept]
    exact ⟨fun _ _ => hfault, fun _ _ => trivial⟩

end Commits

/-- A record that is being written can be rejected until the sequence numbers run out. -/
theorem prepare_rejected {cur : BootMetadataRecord} (hcanonical : stateRecordIsCanonical cur = true)
    (hstate : cur.state = .writing) (hseq : cur.sequence < 0xFFFFFFFE) :
    ∃ next, bootMetadataPrepareNext cur .rejectedInvalid cur.activeSlot cur.candidateSlot
      cur.candidateImageVersion 0 0 0 = .ok next := by
  have hlt : cur.sequence.toNat < 0xFFFFFFFE := UInt32.lt_iff_toNat_lt.mp hseq
  have hmax : cur.sequence ≠ 0xFFFFFFFF := by
    intro heq
    rw [heq] at hlt
    exact absurd hlt (by decide)
  have hne (v : UInt32) (hv : v.toNat = 0 ∨ v.toNat = 0xFFFFFFFF) : cur.sequence + 1 ≠ v := by
    intro heq
    rw [← heq, toNat_succ hmax] at hv
    omega
  refine ⟨_, bootMetadataPrepareNext_ok.mpr ⟨hseq, validateTransition_iff.mpr
    ⟨⟨⟨hne 0 (.inl rfl), hne _ (.inr rfl), hmax, rfl⟩, ?_, ?_⟩, ?_⟩, rfl⟩⟩
  · rw [stateRecordIsCanonical] at hcanonical ⊢
    simp only [hstate] at hcanonical
    simp only [hne 0 (.inl rfl), hne 0xFFFFFFFF (.inr rfl)]
    split at hcanonical
    · cases hcanonical
    · simp_all
  · rw [hstate]
    rfl
  · exact transitionFieldsAllowed_of_not_compared (by simp [Compared, hstate])

/-! ### Sessions -/

/-- `WRITING` is in the journal for the update of the session, and it can still be rejected. -/
structure UnderWay (s : Installer) : Prop where
  calm : Calm s
  committed : s.session.metadataWritingCommitted = true
  state : s.session.state ≠ .finished ∧ s.session.state ≠ .aborted
  recorded : ∃ r, journal s.dev.mem = .ok r ∧ r.state = .writing ∧
    r.activeSlot = s.session.activeSlotId ∧ r.candidateSlot = s.session.candidate.toUInt32 ∧
    r.candidateImageVersion = s.session.header.manifest.imageVersion ∧ r.sequence < 0xFFFFFFFE

/-- The session has nothing to clean up. -/
def CleanedUp (s : Installer) : Prop :=
  s.session.metadataWritingCommitted = false ∨ s.session.state = .finished ∨
    s.session.state = .aborted

/-- The candidate of the session has been rejected. -/
def RejectedIn (m : Mem) : Prop := ∃ r, journal m = .ok r ∧ r.state = .rejectedInvalid

namespace UnderWay

/-- Whatever changes neither the journal nor the session leaves the update under way. -/
theorem streams (h : UnderWay s) (hs : Streams R s s') (hj : journal s'.dev.mem = journal s.dev.mem) :
    UnderWay s' := by
  obtain ⟨r, hr, hrecord⟩ := h.recorded
  refine ⟨h.calm.streams hs, ?_, ?_, r, hj.trans hr, ?_⟩
  · exact (congrArg (·.metadataWritingCommitted) hs.core).trans h.committed
  · rw [hs.state]
    exact h.state
  · have hactive : s'.session.activeSlotId = s.session.activeSlotId :=
      congrArg (·.activeSlotId) hs.core
    have hheader : s'.session.header = s.session.header := congrArg (·.header) hs.core
    rw [hactive, hs.candidate, hheader]
    exact hrecord

/-- Filling the candidate slot. -/
theorem filled (h : UnderWay s) (hs : Streams (InSlot s.session.candidate) s s') : UnderWay s' :=
  h.streams hs (journal_of_inSlot hs.dev)

theorem of_state (h : UnderWay s) {state : UpdateInstallerSessionState}
    (hstate : state ≠ .finished ∧ state ≠ .aborted) :
    UnderWay { s with session := { s.session with state } } :=
  ⟨⟨h.calm.quiet, h.calm.aligned, h.calm.restricted⟩, h.committed, hstate, h.recorded⟩

/-- A call that fails leaves the update under way. -/
theorem failed (h : UnderWay s) : UnderWay { s with session := { s.session with state := .failed } } :=
  h.of_state ⟨by decide, by decide⟩

end UnderWay

/-! ### `update_installer_begin` -/

/-- The record that `WRITING` was committed for can be rejected, unless it has the last sequence
number. -/
theorem UnderWay.of_committed (h : Calm s) (hflag : s.session.metadataWritingCommitted = true)
    (hstate : s.session.state ≠ .finished ∧ s.session.state ≠ .aborted)
    {before : BootMetadataRecord} (hseq : before.sequence ≠ 0xFFFFFFFD)
    (hcommitted : Committed before .writing s.session.activeSlotId s.session.candidate.toUInt32
      s.session.header.manifest.imageVersion s.dev) : UnderWay s := by
  obtain ⟨next, hnext, hj⟩ := hcommitted
  obtain ⟨hlt, -, hfields⟩ := bootMetadataPrepareNext_ok.mp hnext
  refine ⟨h, hflag, hstate, next, hj, ?_⟩
  have hlt : before.sequence.toNat < 0xFFFFFFFE := UInt32.lt_iff_toNat_lt.mp hlt
  have hne : before.sequence.toNat ≠ 0xFFFFFFFD := fun hn => hseq (UInt32.toNat_inj.mp hn)
  have hsucc : (before.sequence + 1).toNat = before.sequence.toNat + 1 := by
    refine toNat_succ fun heq => ?_
    rw [heq] at hlt
    exact absurd hlt (by decide)
  rw [hfields]
  refine ⟨rfl, rfl, rfl, rfl, UInt32.lt_iff_toNat_lt.mpr ?_⟩
  show (before.sequence + 1).toNat < 0xFFFFFFFE
  omega

/-- What has begun is an update that can be rejected, except with the last sequence number. -/
theorem Filling.underWay (hf : Filling publicKey s.dev.mem s.session) (hquiet : s.dev.Quiet)
    (haligned : s.session.restrictedFlash.programAlignment ∣ 8)
    (hlive : s.session.state ≠ .finished ∧ s.session.state ≠ .aborted)
    (hseq : s.session.writingMetadata.sequence < 0xFFFFFFFE) : UnderWay s :=
  ⟨⟨hquiet, haligned, hf.restricted⟩, hf.committed, hlive, _, hf.recorded, hf.state, hf.active,
    hf.candidate, hf.version, hseq⟩

theorem readBackWriting_underWay (h : UnderWay s) :
    wp readBackWriting s (fun _ s' => UnderWay s') (fun _ s' => UnderWay s') (fun _ => True) := by
  have hread {s₁ : Installer} (h₁ : Reads s s₁) : UnderWay s₁ := by
    have hsteady : Steady (InSlot s.session.candidate) s s₁ :=
      ⟨by rw [h₁.session], h₁.dev.mono fun _ => False.elim⟩
    exact h.filled hsteady.streams
  have hkept {s₁ : Installer} (h₁ : Reads s s₁) (writingMetadata : BootMetadataRecord) :
      UnderWay { s₁ with session := { s₁.session with writingMetadata } } :=
    ⟨⟨(hread h₁).calm.quiet, (hread h₁).calm.aligned, (hread h₁).calm.restricted⟩,
      (hread h₁).committed, (hread h₁).state, (hread h₁).recorded⟩
  rw [readBackWriting]
  simp only [wp_bind, wp_ofExcept, wp_modifySession, wp_getSession, wp_check]
  refine wp_recover (fun s₁ h₁ => ?_) (fun _ _ hn => absurd h.calm.quiet hn) (fun _ _ _ => trivial)
  exact ⟨fun _ _ => ⟨fun _ => hkept h₁ _, fun _ => hkept h₁ _⟩, fun _ _ => hkept h₁ _⟩

theorem programHeader_underWay (h : UnderWay s) :
    wp (programHeader headerBytes) s (fun _ s' => UnderWay s') (fun _ s' => UnderWay s')
      (fun _ => True) := by
  rw [programHeader]
  simp only [wp_bind, wp_modifySession, wp_getSession]
  refine wp.mono (steps_eraseCandidateSlot h.calm.restricted) (fun _ s₁ h₁ => ?_)
    (fun _ s₁ h₁ => h.filled h₁.streams) (fun _ _ => trivial)
  have hunder₁ := h.filled h₁.streams
  have herased : UnderWay { s₁ with session := { s₁.session with candidateErased := true } } :=
    ⟨⟨hunder₁.calm.quiet, hunder₁.calm.aligned, hunder₁.calm.restricted⟩, hunder₁.committed,
      hunder₁.state, hunder₁.recorded⟩
  exact wp.mono (steps_programSourceRange herased.calm.restricted)
    (fun _ _ h₂ => herased.filled h₂.streams) (fun _ _ h₂ => herased.filled h₂.streams)
    fun _ _ => trivial

/-- **A header that is refused leaves nothing to clean up, or an update that is under way.** -/
theorem updateInstallerBegin_calm (h : Calm s) (hinv : SessionInv publicKey s)
    (hflag : s.session.metadataWritingCommitted = false) (hcalls : s.session.faultCalls = 0)
    (hseq : ∀ header r, BeginAccepted crypto s.session s.dev.mem headerBytes header →
      s.session.options.LetsCommit header.manifest.imageVersion →
      journal s.dev.mem = .ok r → r.sequence ≠ 0xFFFFFFFD) :
    wp (updateInstallerBegin crypto headerBytes) s (fun _ s' => UnderWay s')
      (fun _ s' => (s'.dev.Quiet ∧ s'.session.metadataWritingCommitted = false ∧
        s'.dev.mem = s.dev.mem) ∨ UnderWay s') (fun _ => True) := by
  rw [updateInstallerBegin, wp_bind, wp_getSession, wp_bind, wp_check]
  refine ⟨fun hstate => ?_, fun _ => .inl ⟨h.quiet, hflag, rfl⟩⟩
  have hsel := hinv.selected hstate
  rw [wp_failSession, wp_bind]
  refine (beginChecks_spec.and (beginChecks_uncommitted hflag)).mono ?_
    (fun _ s₁ h₁ => .inl ⟨h₁.1.quiet h.quiet, h₁.2, h₁.1.eq_of_false.1⟩) fun _ _ => trivial
  rintro _ s₁ ⟨⟨hread, header, size, hsession₁, hacc, -⟩, -⟩
  have hmem₁ : s₁.dev.mem = s.dev.mem := hread.eq_of_false.1
  have hcalm₁ : Calm s₁ := by
    refine ⟨hread.quiet h.quiet, ?_, ?_⟩ <;> rw [hsession₁]
    · exact h.aligned
    · exact h.restricted
  have hsel₁ : Selected publicKey s₁.session := by
    rw [hsession₁]
    exact hsel.of_header header size
  obtain ⟨flag, hfresh⟩ := hacc.fresh
  have hfresh₁ : metadataOrBootstrap s₁.session.options.recoveryBootstrap (journal s₁.dev.mem) =
      .ok (s₁.session.metadataBefore, flag) := by
    rw [hsession₁, hmem₁]
    exact hfresh
  have hcalls₁ : s₁.session.faultCalls = 0 := by
    rw [hsession₁]
    exact hcalls
  have hseq₁ (hpass : s₁.session.options.LetsCommit s₁.session.header.manifest.imageVersion) :
      s₁.session.metadataBefore.sequence ≠ 0xFFFFFFFD := by
    rw [hsession₁] at hpass ⊢
    rcases metadataOrBootstrap_ok hfresh with ⟨-, hok⟩ | ⟨-, hempty, -⟩
    · exact hseq header _ hacc hpass hok
    · show s.session.metadataBefore.sequence ≠ _
      rw [hempty]
      decide
  have hflag₁ : s₁.session.metadataWritingCommitted = false := by
    rw [hsession₁]
    exact hflag
  rw [wp_bind]
  refine ((commitWriting_calm hcalm₁ hsel₁ hfresh₁).and (commitWriting_letsCommit hcalls₁)).mono
    ?_ ?_ fun _ _ => trivial
  · rintro _ s₂ ⟨⟨hsteady₂, hcommitted₂⟩, hpass⟩
    have hunder₂ : UnderWay
        { s₂ with session := { s₂.session with metadataWritingCommitted := true } } := by
      have hcalm₂ := hcalm₁.streams hsteady₂.streams
      refine .of_committed ⟨hcalm₂.quiet, hcalm₂.aligned, hcalm₂.restricted⟩ rfl ?_ (hseq₁ hpass) ?_
      · show s₂.session.state ≠ _ ∧ s₂.session.state ≠ _
        have hstate₁ : s₁.session.state = .initialized := by rw [hsession₁, ← hstate]
        rw [hsteady₂.streams.state, hstate₁]
        decide
      · have hactive : s₂.session.activeSlotId = s₁.session.activeSlotId :=
          congrArg (·.activeSlotId) hsteady₂.steady
        have hheader : s₂.session.header = s₁.session.header :=
          congrArg (·.header) hsteady₂.steady
        show Committed _ _ s₂.session.activeSlotId s₂.session.candidate.toUInt32
          s₂.session.header.manifest.imageVersion _
        rw [hactive, hheader, hsteady₂.candidate]
        exact hcommitted₂
    rw [wp_bind, wp_modifySession, wp_bind]
    refine (readBackWriting_underWay hunder₂).mono ?_ (fun _ _ h₃ => .inr h₃.failed)
      fun _ _ => trivial
    intro _ s₃ hunder₃
    rw [wp_bind]
    refine (programHeader_underWay hunder₃).mono ?_ (fun _ _ h₄ => .inr h₄.failed)
      fun _ _ => trivial
    intro _ s₄ hunder₄
    have hwriting : UpdateInstallerSessionState.writing ≠ .finished ∧
        UpdateInstallerSessionState.writing ≠ .aborted := by decide
    rw [wp_modifySession]
    exact ⟨⟨hunder₄.calm.quiet, hunder₄.calm.aligned, hunder₄.calm.restricted⟩, hunder₄.committed,
      hwriting, hunder₄.recorded⟩
  · rintro _ s₂ ⟨⟨hsteady₂, hmem₂⟩, -⟩
    refine .inl ⟨(hcalm₁.streams hsteady₂.streams).quiet, ?_, hmem₂.trans hmem₁⟩
    exact (congrArg (·.metadataWritingCommitted) hsteady₂.steady).trans hflag₁

/-! ### `update_installer_write` and `update_installer_finish` -/

theorem updateInstallerWrite_underWay {payloadOffset : ℕ} {data : List UInt8} (h : UnderWay s) :
    wp (updateInstallerWrite payloadOffset data) s (fun _ s' => UnderWay s')
      (fun _ s' => UnderWay s') (fun _ => True) := by
  rw [updateInstallerWrite]
  simp only [wp_bind, wp_getSession, wp_check, wp_failSession, wp_modifySession]
  refine ⟨fun _ => ⟨fun _ => ⟨fun _ => ⟨fun _ => ⟨fun _ => ?_, fun _ => h.failed⟩,
    fun _ => h.failed⟩, fun _ => h⟩, fun _ => h⟩, fun _ => h.failed⟩
  refine wp.mono (steps_writeLoop h.calm.restricted) (fun _ s₁ h₁ => ?_)
    (fun _ _ h₁ => (h.filled h₁).failed) (fun _ _ => trivial)
  split
  · exact (h.filled h₁).of_state ⟨by decide, by decide⟩
  · exact h.filled h₁

/-- **An update that does not finish stays under way.** -/
theorem updateInstallerFinish_underWay (h : UnderWay s) (hinv : SessionInv publicKey s) :
    wp (updateInstallerFinish crypto) s
      (fun _ s' => s'.dev.Quiet ∧ s'.session.state = .finished ∧
        ∃ r, journal s'.dev.mem = .ok r ∧ r.state = .candidateReady)
      (fun _ s' => UnderWay s') (fun _ => True) := by
  rw [updateInstallerFinish]
  simp only [wp_bind, wp_getSession, wp_check, wp_failSession, wp_modifySession]
  refine ⟨fun _ => ⟨fun hstate => ?_, fun _ => h⟩, fun _ => h.failed⟩
  have hfill := hinv.filling (.inr hstate)
  refine wp.mono (steps_flushPayloadProgramBuffer true h.calm.restricted) (fun _ s₁ h₁ => ?_)
    (fun _ _ h₁ => (h.filled h₁).failed) (fun _ _ => trivial)
  refine ⟨fun _ => ?_, fun _ => (h.filled h₁).failed⟩
  refine wp.mono (steps_verifyStreamingPayloadHash crypto) (fun _ s₂ h₂ => ?_)
    (fun _ _ h₂ => (h.filled (IsTrans.trans _ _ _ h₁ h₂)).failed) (fun _ _ => trivial)
  have hs₂ := IsTrans.trans _ _ _ h₁ h₂
  refine wp.mono (steps_streams (steps_hashInstalledPayload crypto)) (fun _ s₃ h₃ => ?_)
    (fun _ _ h₃ => (h.filled (IsTrans.trans _ _ _ hs₂ h₃)).failed) (fun _ _ => trivial)
  have hs₃ := IsTrans.trans _ _ _ hs₂ h₃
  have hverified {s₄ : Installer} (h₄ : Steady (fun _ => False) s₃ s₄) :
      Streams (InSlot s.session.candidate) s s₄ :=
    IsTrans.trans _ _ _ hs₃ (h₄.streams.mono fun _ => False.elim)
  refine verifyInstalledPackage_spec.mono ?_ (fun _ _ h₄ => (h.filled (hverified h₄)).failed)
    (fun _ _ => trivial)
  rintro _ s₄ ⟨h₄, -⟩
  have hunder₄ := h.filled (hverified h₄)
  have hj₄ : journal s₄.dev.mem = .ok s.session.writingMetadata :=
    (journal_of_inSlot (hverified h₄).dev).trans hfill.recorded
  refine (commitMetadataState_calm hunder₄.calm hj₄).mono ?_ ?_ fun _ _ => trivial
  · rintro _ s₅ ⟨hsteady₅, next, hnext, hj₅⟩
    obtain ⟨-, -, hfields⟩ := bootMetadataPrepareNext_ok.mp hnext
    exact ⟨(hunder₄.calm.streams hsteady₅.streams).quiet, trivial, next, hj₅, by rw [hfields]⟩
  · rintro _ s₅ ⟨hsteady₅, hmem₅⟩
    exact (hunder₄.streams hsteady₅.streams (by rw [hmem₅])).failed

/-! ### `update_installer_abort` -/

/-- The record of an update that was aborted. -/
def abortedRecord (r : BootMetadataRecord) : BootMetadataRecord :=
  ⟨r.sequence + 1, .rejectedInvalid, r.activeSlot, r.candidateSlot, r.candidateImageVersion, 0, 0, 0⟩

/-- **Aborting an update that is under way rejects its candidate**, and writes nothing but that. -/
theorem updateInstallerAbort_rejects (h : UnderWay s) :
    wp updateInstallerAbort s
      (fun _ s' => s.dev.Extends MetaOp s'.dev ∧ s'.session.state = .aborted ∧
        ∃ r, journal s.dev.mem = .ok r ∧ journal s'.dev.mem = .ok (abortedRecord r) ∧
          r.candidateSlot = s.session.candidate.toUInt32 ∧
          r.candidateImageVersion = s.session.header.manifest.imageVersion)
      (fun _ _ => False) (fun _ => False) := by
  obtain ⟨r, hr, hstate, hactive, hcandidate, hversion, hseq⟩ := h.recorded
  obtain ⟨next, hnext⟩ := prepare_rejected (journal_canonical hr) hstate hseq
  rw [updateInstallerAbort, wp_bind, wp_getSession, wp_bind, wp_check]
  refine ⟨fun _ => ?_, fun hn => hn h.state.1⟩
  rw [if_neg h.state.2, wp_bind, wp_failSession, if_pos h.committed, abortWriting]
  simp only [wp_bind, wp_ofExcept]
  refine wp_recover (fun s₁ h₁ => ?_) (fun _ _ hn => absurd h.calm.quiet hn)
    (fun _ _ hn => absurd h.calm.quiet hn)
  have hquiet₁ := h₁.dev.quiet h.calm.quiet
  rw [← journal_eq, hr]
  refine ⟨fun current hcurrent => ?_, fun _ herror => by cases herror⟩
  obtain rfl : r = current := Except.ok.inj hcurrent
  rw [if_pos ⟨hstate, hactive, hcandidate, hversion⟩, ← hactive, ← hcandidate, ← hversion, hnext]
  simp only [wp_bind, wp_ofExcept]
  refine ⟨fun rejected hrejected => ?_, fun _ herror => by cases herror⟩
  obtain rfl : next = rejected := Except.ok.inj hrejected
  obtain ⟨-, hvalid, hfields⟩ := bootMetadataPrepareNext_ok.mp hnext
  have hfollow : MayFollow s₁.dev.mem next := by
    rw [MayFollow, h₁.mem, journalCurrent_of_ok hr, hr]
    exact ⟨by simp, hvalid⟩
  have hframe : Steps (Device.Extends MetaOp)
      (bootMetadataCommit s.session.restrictedFlash next) :=
    steps_bootMetadataCommit fun side op hop _ => ⟨side, hop⟩
  have hcommit : Returns (bootMetadataCommit s.session.restrictedFlash next) s₁.dev :=
    quiet_bootMetadataCommit h.calm.metadataWritable hquiet₁ hfollow
  rw [onDev, wp_zoom, wp_mapErr]
  refine (hcommit.spec (bootMetadataCommit_spec.and (hframe s₁.dev))).mono ?_ (fun _ _ h => h)
    fun _ h => h
  rintro _ d' ⟨⟨hj, -⟩, hext⟩
  refine ⟨IsTrans.trans _ _ _ (h₁.dev.mono fun _ => False.elim) hext, rfl, r, rfl, ?_, rfl, rfl⟩
  rw [hj, hfields]
  rfl

theorem updateInstallerAbort_underWay (h : UnderWay s) :
    wp updateInstallerAbort s
      (fun _ s' => s'.dev.Quiet ∧ s'.session.state = .aborted ∧ RejectedIn s'.dev.mem)
      (fun _ _ => False) (fun _ => False) :=
  (updateInstallerAbort_rejects h).mono
    (fun _ _ h' => ⟨h'.1.quiet h.calm.quiet, h'.2.1, h'.2.2.elim fun _ hr => ⟨_, hr.2.1, rfl⟩⟩)
    (fun _ _ h => h) fun _ h => h

/-- Aborting a session that is cleaned up does nothing to the device. -/
theorem updateInstallerAbort_cleanedUp (h : CleanedUp s) :
    wp updateInstallerAbort s (fun _ s' => s'.dev = s.dev ∧ s'.session.state = .aborted)
      (fun _ s' => s' = s) (fun _ => False) := by
  rw [updateInstallerAbort, wp_bind, wp_getSession, wp_bind, wp_check]
  refine ⟨fun hfinished => ?_, fun _ => rfl⟩
  rw [wp_ite]
  refine ⟨fun haborted => ⟨rfl, haborted⟩, fun haborted => ?_⟩
  have hflag : s.session.metadataWritingCommitted = false :=
    h.resolve_right (not_or.mpr ⟨hfinished, haborted⟩)
  rw [wp_bind, wp_failSession, if_neg (by rw [hflag]; decide), wp_pure, wp_modifySession]
  exact ⟨rfl, rfl⟩

theorem sessionInv_aborted (h : s.session.state = .aborted) : SessionInv publicKey s := by
  rw [SessionInv, h]
  trivial

end Stm32SecurityLab
