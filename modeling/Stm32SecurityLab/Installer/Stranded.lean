import Stm32SecurityLab.Installer.Cleanup
import Stm32SecurityLab.Installer.Hazard

/-!
# One call that fails

`update_installer_install` aborts its session when a block or the end of the stream fails. It does
not when `update_installer_begin` fails, although that call may have committed `WRITING` by then;
the protocol, which makes the same calls one by one, does.

What a failed call may leave behind is the record it found, the rejection of its candidate, or the
candidate ready. There are four ways to leave something else, and a session is stranded in them:

```
durable    the commit of WRITING reports an error, but the record is there
survivor   a bootstrap loses one of two conflicting copies, and the other one is back
late       update_installer_begin fails after the commit
last       WRITING has the last sequence number, and can be neither finished nor rejected
```

## Main definitions

* `OneFailure` — one failure of the flash, or of the fault hook
* `InstallCleaned` — what a failed call may leave
* `BeginStrands`, `InstallStrands` — the four ways

## Main results

* `update_installer_install_cleans` — a failed call cleans up exactly when it is not stranded
-/

namespace Stm32SecurityLab

open Crash Installer

variable {crypto : Crypto} {publicKey headerBytes payload packageBytes : List UInt8}
  {s s' s₀ s₁ s₂ s₃ : Installer}

/-! ### The parts of a call -/

/-- `update_installer_install` up to the call of `update_installer_begin`. -/
def installOpen (crypto : Crypto) (flash : BootFlash) (packageBytes publicKey : List UInt8)
    (options : UpdateInstallOptions) (withResult : Bool) :
    Prog Installer UpdateInstallError UpdatePackage := do
  updateInstallerSessionInit flash publicKey options withResult
  let session ← getSession
  let (packageStatus, packageVerifyStatus) := updatePackageVerifyForSlot crypto packageBytes publicKey
    (bootSlots session.candidate)
  modifyResult fun result => { result with packageVerifyStatus }
  .ofExcept (packageStatus.mapError fun _ => .package)

/-- `update_installer_begin` after the commit of `WRITING`. -/
def programSlot (headerBytes : List UInt8) : Prog Installer UpdateInstallError Unit := do
  modifySession fun session => { session with metadataWritingCommitted := true }
  readBackWriting
  programHeader headerBytes
  modifySession fun session => { session with payloadHashCtx := [], state := .writing }

/-- The loop of `update_installer_install` without the cleanup in it. -/
def streamPayload (package : UpdatePackage) (programBufferSize : ℕ) :
    ℕ → ℕ → Prog Installer UpdateInstallError Unit
  | 0, _ => pure ()
  | fuel + 1, payloadOffset =>
    if payloadOffset < package.payloadSize then do
      let chunk := min (package.payloadSize - payloadOffset) programBufferSize
      updateInstallerWrite payloadOffset ((package.payload.drop payloadOffset).take chunk)
      streamPayload package programBufferSize fuel (payloadOffset + chunk)
    else
      pure ()

/-- `update_installer_install` from the return of `update_installer_begin` on. -/
def streamAndFinish (crypto : Crypto) (package : UpdatePackage) (programBufferSize : ℕ) :
    Prog Installer UpdateInstallError Unit := do
  streamPayload package programBufferSize package.payloadSize 0
  updateInstallerFinish crypto

section Abort

variable {x y : Prog Installer UpdateInstallError Unit} {e : UpdateInstallError}

theorem abortOnError_of_ret (h : x s = .ret () s') : abortOnError x s = .ret () s' := by
  have hrun : (x.attempt : Prog Installer UpdateInstallError _) s = .ret (.ok ()) s' := by
    rw [Prog.attempt, h]
  exact bind_of_ret hrun

theorem abortOnError_of_cut (h : x s = .cut s') : abortOnError x s = .cut s' := by
  have hrun : (x.attempt : Prog Installer UpdateInstallError _) s = .cut s' := by
    rw [Prog.attempt, h]
  exact bind_of_cut hrun

/-- The status of an error is the one before the abort. -/
theorem abortOnError_of_err (h : x s = .err e s₁) :
    (abortOnError x s = .err e (updateInstallerAbort s₁).state ∧
      ∀ s', updateInstallerAbort s₁ ≠ .cut s') ∨
      abortOnError x s = .cut (updateInstallerAbort s₁).state := by
  have hrun : (x.attempt : Prog Installer UpdateInstallError _) s = .ret (.error e) s₁ := by
    rw [Prog.attempt, h]
  have habort : abortOnError x s =
      ((updateInstallerAbort.attempt : Prog Installer UpdateInstallError _) >>=
        fun _ => (.fail e : Prog Installer UpdateInstallError Unit)) s₁ := bind_of_ret hrun
  rw [habort]
  cases hend : updateInstallerAbort s₁ with
  | ret u s' =>
    have hattempt : (updateInstallerAbort.attempt : Prog Installer UpdateInstallError _) s₁ =
        .ret (.ok u) s' := by
      rw [Prog.attempt, hend]
    exact .inl ⟨bind_of_ret hattempt, fun _ hcut => by cases hcut⟩
  | err e' s' =>
    have hattempt : (updateInstallerAbort.attempt : Prog Installer UpdateInstallError _) s₁ =
        .ret (.error e') s' := by
      rw [Prog.attempt, hend]
    exact .inl ⟨bind_of_ret hattempt, fun _ hcut => by cases hcut⟩
  | cut s' =>
    have hattempt : (updateInstallerAbort.attempt : Prog Installer UpdateInstallError _) s₁ =
        .cut s' := by
      rw [Prog.attempt, hend]
    exact .inr (bind_of_cut hattempt)

theorem abortOnError_eq_err (h : abortOnError x s = .err e s') :
    ∃ s₁, x s = .err e s₁ ∧ s' = (updateInstallerAbort s₁).state ∧
      ∀ s'', updateInstallerAbort s₁ ≠ .cut s'' := by
  cases hx : x s with
  | ret u s₁ =>
    rw [abortOnError_of_ret hx] at h
    cases h
  | cut s₁ =>
    rw [abortOnError_of_cut hx] at h
    cases h
  | err e₁ s₁ =>
    rcases abortOnError_of_err hx with ⟨hrun, hends⟩ | hrun <;> rw [hrun] at h <;> cases h
    exact ⟨s₁, rfl, rfl, hends⟩

/-- Cleaning up after each part is cleaning up after the whole. -/
theorem abortOnError_bind :
    (abortOnError x >>= fun _ => abortOnError y) = abortOnError (x >>= fun _ => y) := by
  funext s
  cases hx : x s with
  | ret u s₁ =>
    rw [bind_of_ret (abortOnError_of_ret hx), abortOnError, abortOnError]
    have hbind : ((x >>= fun _ => y).attempt : Prog Installer UpdateInstallError _) s =
        (y.attempt : Prog Installer UpdateInstallError _) s₁ := by
      rw [Prog.attempt, Prog.attempt, bind_of_ret hx]
    show Prog.bind _ _ s₁ = Prog.bind _ _ s
    rw [Prog.bind, Prog.bind, hbind]
  | err e s₁ =>
    have hwhole : (x >>= fun _ => y) s = .err e s₁ := bind_of_err hx
    have hsame : abortOnError (x >>= fun _ => y) s = abortOnError x s := by
      have hattempt : ((x >>= fun _ => y).attempt : Prog Installer UpdateInstallError _) s =
          (x.attempt : Prog Installer UpdateInstallError _) s := by
        rw [Prog.attempt, Prog.attempt, hwhole, hx]
      show Prog.bind _ _ s = Prog.bind _ _ s
      rw [Prog.bind, Prog.bind, hattempt]
    rw [hsame]
    rcases abortOnError_of_err hx with ⟨hrun, -⟩ | hrun
    · rw [bind_of_err hrun, hrun]
    · rw [bind_of_cut hrun, hrun]
  | cut s₁ =>
    have hwhole : (x >>= fun _ => y) s = .cut s₁ := bind_of_cut hx
    rw [bind_of_cut (abortOnError_of_cut hx), abortOnError_of_cut hwhole]

end Abort

theorem installLoop_eq (package : UpdatePackage) (programBufferSize fuel payloadOffset : ℕ) :
    installLoop package programBufferSize fuel payloadOffset =
      abortOnError (streamPayload package programBufferSize fuel payloadOffset) := by
  induction fuel generalizing payloadOffset with
  | zero => rfl
  | succ fuel ih =>
    rw [installLoop, streamPayload]
    split
    · rw [← abortOnError_bind, ← ih]
    · rfl

/-- **A call in three parts**, the last of which cleans up. -/
theorem updateInstallerInstall_eq (crypto : Crypto) (flash : BootFlash)
    (packageBytes publicKey : List UInt8) (options : UpdateInstallOptions) (withResult : Bool) :
    updateInstallerInstall crypto flash packageBytes publicKey options withResult = (do
      let package ← installOpen crypto flash packageBytes publicKey options withResult
      updateInstallerBegin crypto (packageBytes.take Layout.signedImageHeaderSize)
      abortOnError (streamAndFinish crypto package options.programBufferSize)) := by
  rw [updateInstallerInstall, installOpen]
  simp only [bind_assoc]
  simp only [streamAndFinish, ← abortOnError_bind, installLoop_eq]

/-- A session that may begin goes through three stages. -/
theorem updateInstallerBegin_eq (hstate : s.session.state = .initialized) :
    updateInstallerBegin crypto headerBytes s = failSession (do
      beginChecks crypto headerBytes
      commitWriting
      programSlot headerBytes) s := by
  have hcheck : (Prog.check (s.session.state = .initialized) .state :
      Prog Installer UpdateInstallError Unit) s = .ret () s := by
    rw [Prog.check, if_pos hstate]
    rfl
  rw [updateInstallerBegin]
  exact (bind_of_ret rfl).trans (bind_of_ret hcheck)

/-! ### What may go wrong, and what may be left -/

/-- At most one operation of the flash fails, or there is a fault hook that stops the installer. A
hook is not asked again after that. -/
def OneFailure (options : UpdateInstallOptions) (d : Device) : Prop :=
  (flashHazard.ahead d ∧ options.Harmless) ∨ d.Quiet

/-- The update of the slot `c` to the version is over. -/
def ResolvedFor (c : BootSlotId) (version : UInt32) (r : BootMetadataRecord) : Prop :=
  (r.state = .rejectedInvalid ∨ r.state = .candidateReady) ∧ r.candidateSlot = c.toUInt32 ∧
    r.candidateImageVersion = version

/-- What a failed call may leave: what it found, or the update of the package resolved. -/
def InstallCleaned (packageBytes : List UInt8) (m m' : Mem) : Prop :=
  (journal m').toOption = (journal m).toOption ∨ ∃ c r, Target m c ∧ journal m' = .ok r ∧
    ResolvedFor c (decodeManifestBytes (byteAt packageBytes)).imageVersion r

/-- The ways to leave something else, from the call of `update_installer_begin` on. -/
inductive BeginStrands (crypto : Crypto) (headerBytes : List UInt8) (s₁ : Installer) : Prop
  | durable {s₂ s₃ : Installer} {e : UpdateInstallError} {r : BootMetadataRecord}
      (hchecks : beginChecks crypto headerBytes s₁ = .ret () s₂)
      (hcommit : commitWriting s₂ = .err e s₃)
      (hj : journal s₃.dev.mem = .ok r) (hr : r.state = .writing)
  | survivor {s₂ s₃ : Installer} {e : UpdateInstallError} {r : BootMetadataRecord}
      (hchecks : beginChecks crypto headerBytes s₁ = .ret () s₂)
      (hcommit : commitWriting s₂ = .err e s₃)
      (hconflict : journal s₁.dev.mem = .error .ambiguous)
      (hlost : copies s₃.dev.mem = Function.update (copies s₁.dev.mem) .first none)
      (hleft : copies s₁.dev.mem .second = some r)
      (hr : ¬ ResolvedFor .a (decodeManifestBytes (byteAt headerBytes)).imageVersion r)
  | late {s₂ s₃ s₄ : Installer} {e : UpdateInstallError}
      (hchecks : beginChecks crypto headerBytes s₁ = .ret () s₂)
      (hcommit : commitWriting s₂ = .ret () s₃)
      (hslot : programSlot headerBytes s₃ = .err e s₄)
  | last {s₂ : Installer} {r : BootMetadataRecord}
      (hbegin : updateInstallerBegin crypto headerBytes s₁ = .ret () s₂)
      (hj : journal s₁.dev.mem = .ok r) (hr : r.sequence = 0xFFFFFFFD)

/-- The call comes to `update_installer_begin`, and is stranded from there on. -/
def InstallStrands (crypto : Crypto) (flash : BootFlash) (packageBytes publicKey : List UInt8)
    (options : UpdateInstallOptions) (withResult : Bool) (s₀ : Installer) : Prop :=
  ∃ package s₁,
    installOpen crypto flash packageBytes publicKey options withResult s₀ = .ret package s₁ ∧
    BeginStrands crypto (packageBytes.take Layout.signedImageHeaderSize) s₁

/-! ### Opening -/

/-- What `update_installer_begin` starts from. -/
structure InstallOpened (crypto : Crypto) (flash : BootFlash) (packageBytes publicKey : List UInt8)
    (options : UpdateInstallOptions) (package : UpdatePackage) (s₀ s₁ : Installer) : Prop where
  dev : s₀.dev.Extends (fun _ => False) s₁.dev
  initialized : Initialized flash options s₀.dev.mem s₁.session
  selected : Selected publicKey s₁.session
  verified : (updatePackageVerifyForSlot crypto packageBytes publicKey
    (bootSlots s₁.session.candidate)).1 = .ok package

theorem installOpen_spec {flash : BootFlash} {options : UpdateInstallOptions} {withResult : Bool} :
    wp (installOpen crypto flash packageBytes publicKey options withResult) s
      (fun package s' => InstallOpened crypto flash packageBytes publicKey options package s s')
      (fun _ s' => s.dev.Extends (fun _ => False) s'.dev)
      (fun s' => s.dev.Extends (fun _ => False) s'.dev) := by
  rw [installOpen]
  simp only [wp_bind]
  refine updateInstallerSessionInit_spec.mono ?_ (fun _ _ h => h.1) fun _ h => h
  rintro _ s₁ ⟨hdev, hinit, hsel⟩
  rw [wp_getSession]
  refine wp_modifyResult fun result => ?_
  rw [wp_ofExcept]
  exact ⟨fun package hpackage => ⟨hdev, hinit, hsel, mapError_eq_ok.mp hpackage⟩, fun _ _ => hdev⟩

namespace InstallOpened

variable {flash : BootFlash} {options : UpdateInstallOptions} {package : UpdatePackage}

theorem mem (h : InstallOpened crypto flash packageBytes publicKey options package s₀ s₁) :
    s₁.dev.mem = s₀.dev.mem := h.dev.eq_of_false.1

theorem inv (h : InstallOpened crypto flash packageBytes publicKey options package s₀ s₁) :
    SessionInv publicKey s₁ := by
  rw [SessionInv, h.initialized.state]
  exact h.selected

/-- The candidate is the slot an update may write. -/
theorem target (h : InstallOpened crypto flash packageBytes publicKey options package s₀ s₁) :
    Target s₁.dev.mem s₁.session.candidate := by
  obtain ⟨flag, hfresh⟩ := h.initialized.fresh
  rw [← h.mem] at hfresh
  rcases h.selected.source with ⟨slot, hup⟩ | hboot
  · rw [target_of_ok (hup.recorded hfresh), hup.before, hup.candidate]
    refine ⟨fun hsame => ?_, fun hnone => absurd hnone slot.toUInt32_ne_none⟩
    exact slot.other_ne (BootSlotId.toUInt32_inj.mp hsame).symm
  · rw [hboot.candidate]
    rcases hboot.not_recorded hfresh with herror | herror <;> exact (target_of_error herror).mpr rfl

/-- The hazard has passed, or it is still ahead. -/
theorem hazard (h : InstallOpened crypto flash packageBytes publicKey options package s₀ s₁)
    (hfail : installHazard.past s₁ ∨ flashHazard.ahead s₁.dev ∧ options.Harmless) :
    installHazard.past s₁ ∨ installHazard.ahead s₁ := by
  refine hfail.imp_right fun ⟨hahead, hharmless⟩ => ⟨hahead, ?_⟩
  rw [h.initialized.options]
  exact hharmless

end InstallOpened

/-- Opening does not get past a failure that is ahead, except by meeting it. -/
theorem installOpen_settled {flash : BootFlash} {options : UpdateInstallOptions}
    {withResult : Bool} (hd : flashHazard.past s.dev ∨ flashHazard.ahead s.dev) :
    wp (installOpen crypto flash packageBytes publicKey options withResult) s
      (fun _ s' => flashHazard.past s'.dev ∨ flashHazard.ahead s'.dev) (fun _ _ => True)
      (fun _ => True) := by
  rw [installOpen, updateInstallerSessionInit]
  simp only [wp_bind, wp_modifySession, wp_check, wp_modify]
  refine ⟨fun _ => ?_, fun _ => trivial⟩
  generalize hs₀ : (if withResult = true then _ else _ : Installer) = s₀
  have hdev₀ : s₀.dev = s.dev := by
    rw [← hs₀]
    cases withResult <;> rfl
  rw [← hdev₀] at hd
  have hread : wp (bootMetadataRecoverFromFlash : Prog Device UpdateInstallError _) s₀.dev
      (fun _ d' => flashHazard.past d' ∨ flashHazard.ahead d')
      (fun _ d' => flashHazard.past d' ∨ flashHazard.ahead d')
      (fun d' => flashHazard.past d' ∨ flashHazard.ahead d') :=
    wp_state_iff.mpr (oblivious_recover.settled hd)
  rw [onDev, wp_zoom]
  refine hread.mono ?_ (fun _ _ _ => trivial) fun _ _ => trivial
  intro recovery d₁ hd₁
  simp only [wp_failSession, wp_bind, wp_ofExcept, wp_modifySession]
  refine ⟨fun current _ => ⟨fun slots _ => ⟨fun restricted _ => ?_, fun _ _ => trivial⟩,
    fun _ _ => trivial⟩, fun _ _ => trivial⟩
  refine wp_modifyResult fun result => ?_
  rw [wp_getSession]
  refine wp_modifyResult fun result' => ?_
  exact ⟨fun _ _ => hd₁, fun _ _ => trivial⟩

/-! ### Committing `WRITING` -/

/-- What a commit of `WRITING` that fails does to the metadata. -/
inductive WritingTorn (m m' : Mem) : Prop
  | same (hj : journal m' = journal m)
  | durable {r : BootMetadataRecord} (hj : journal m' = .ok r) (hr : r.state = .writing)
  | lost {e e' : BootMetadataError} (hj : journal m = .error e) (hj' : journal m' = .error e')
  | survivor {r : BootMetadataRecord} (hj : journal m = .error .ambiguous)
      (hlost : copies m' = Function.update (copies m) .first none)
      (hleft : copies m .second = some r)

/-- A journal with two readable copies. -/
theorem copies_of_ambiguous {m : Mem} (h : journal m = .error .ambiguous) (side : TwoCopy.Side) :
    ∃ r, copies m side = some r := by
  rw [journal_eq_read] at h
  have hread : TwoCopy.read recordSeq (copies m) = .conflict := by
    cases hr : TwoCopy.read recordSeq (copies m) <;> rw [hr] at h <;> first | rfl | cases h
  rw [TwoCopy.read] at hread
  cases hfirst : copies m .first <;> cases hsecond : copies m .second <;>
    rw [hfirst, hsecond] at hread <;> first
      | cases hread
      | (cases side
         · exact ⟨_, hfirst⟩
         · exact ⟨_, hsecond⟩)

/-- The copy that is left says what the journal is. -/
theorem journal_of_survivor {m m' : Mem} {r : BootMetadataRecord}
    (hlost : copies m' = Function.update (copies m) .first none) (hleft : copies m .second = some r) :
    journal m' = .ok r := by
  have hfirst : copies m' .first = none := by rw [hlost, Function.update_self]
  have hsecond : copies m' .second = some r := by
    rw [hlost, Function.update_of_ne (by decide), hleft]
  rw [journal_eq_read, TwoCopy.read, hfirst, hsecond]

theorem commitWriting_torn {flag : Bool} (hsel : Selected publicKey s.session)
    (hfresh : metadataOrBootstrap s.session.options.recoveryBootstrap (journal s.dev.mem) =
      .ok (s.session.metadataBefore, flag)) :
    wp commitWriting s (fun _ _ => True) (fun _ s' => WritingTorn s.dev.mem s'.dev.mem)
      (fun _ => True) := by
  rcases hsel.source with ⟨slot, hup⟩ | hboot
  · have hj := hup.recorded hfresh
    refine (commitWriting_spec hsel hfresh).mono (fun _ _ _ => trivial) ?_ fun _ _ => trivial
    rintro _ s' ⟨-, hcommit⟩
    rcases hcommit.journal (by rw [hj]; simp) with hsame | ⟨next, hnext, hj'⟩
    · exact .same hsame
    · exact .durable hj' (by rw [(bootMetadataPrepareNext_ok.mp hnext).2.2])
  · rw [commitWriting, wp_bind, wp_getSession,
      if_pos ⟨hboot.bootstrap, by rw [hboot.recovery], by rw [hboot.recovery]⟩]
    simp only [wp_bind, wp_ofExcept]
    refine ⟨fun next hnext => ?_, fun _ _ => .same rfl⟩
    have hwriting : next.state = .writing := by
      rw [(bootMetadataPrepareNext_ok.mp (mapError_eq_ok.mp hnext)).2.2]
    refine wp.mono (steps_maybeFault (R := fun _ => False) _ _) (fun _ s₁ h₁ => ?_)
      (fun _ s₁ h₁ => .same (by rw [h₁.dev.eq_of_false.1])) (fun _ _ => trivial)
    rw [onDev, wp_zoom, wp_mapErr, ← h₁.dev.eq_of_false.1]
    refine bootMetadataReinitializeForRecovery_spec.mono (fun _ _ _ => trivial) ?_ fun _ _ => trivial
    rintro _ d₂ (⟨hmem, -⟩ | ⟨-, htorn⟩)
    · exact .same (by rw [hmem])
    have hnone := hboot.not_recorded hfresh
    rw [← h₁.dev.eq_of_false.1] at hnone
    rcases htorn with hcopies | hcopies | hcopies | hcopies
    · exact .same (journal_congr hcopies)
    · rcases hnone with hempty | hconflict
      · refine .same (journal_congr (hcopies.trans ?_))
        rw [copies_of_noValidCopy hempty]
        exact Function.update_eq_self _ _
      · obtain ⟨r, hr⟩ := copies_of_ambiguous hconflict .second
        exact .survivor hconflict hcopies hr
    · rcases hnone with hempty | hconflict
      · exact .lost hempty (journal_of_copies hcopies)
      · exact .lost hconflict (journal_of_copies hcopies)
    · exact .durable (journal_single hcopies) hwriting

theorem programSlot_journal {writing : BootMetadataRecord} (hrestricted : s.session.Restricted)
    (hj : journal s.dev.mem = .ok writing) :
    wp (programSlot headerBytes) s (fun _ _ => True)
      (fun _ s' => journal s'.dev.mem = .ok writing) (fun _ => True) := by
  rw [programSlot]
  simp only [wp_bind, wp_modifySession]
  refine (readBackWriting_spec (s := { s with session :=
    { s.session with metadataWritingCommitted := true } }) hj).mono ?_
    (fun _ s₁ h₁ => ?_) fun _ _ => trivial
  · rintro _ s₁ ⟨hread₁, hsession₁, -⟩
    have hj₁ : journal s₁.dev.mem = .ok writing := by rw [hread₁.eq_of_false.1, hj]
    have hrestricted₁ : s₁.session.Restricted := by
      rw [hsession₁]
      exact hrestricted
    exact (programHeader_spec hrestricted₁).mono (fun _ _ _ => trivial)
      (fun _ s₂ h₂ => (journal_of_inSlot h₂).trans hj₁) fun _ _ => trivial
  · rw [h₁.eq_of_false.1, hj]

/-! ### `update_installer_begin` fails -/

section Begin

variable {m m' : Mem} {r : BootMetadataRecord} {version : UInt32} {flash : BootFlash}
  {options : UpdateInstallOptions} {package : UpdatePackage} {e : UpdateInstallError}

/-- A record that was `WRITING` is not the one from before, and resolves nothing. -/
theorem not_cleaned_of_writing (hbefore : ∀ r, journal m = .ok r → r.state ≠ .writing)
    (hj : journal m' = .ok r) (hr : r.state = .writing) : ¬ InstallCleaned packageBytes m m' := by
  rintro (hsame | ⟨c, r', -, hj', hresolved, -⟩)
  · rw [hj] at hsame
    exact hbefore r (toOption_eq_some.mp hsame.symm) hr
  · rw [hj] at hj'
    cases hj'
    rw [hr] at hresolved
    rcases hresolved with h | h <;> cases h

theorem InstallCleaned.of_journal (hj : journal m' = journal m) : InstallCleaned packageBytes m m' :=
  .inl (by rw [hj])

theorem InstallOpened.not_writing
    (h : InstallOpened crypto flash packageBytes publicKey options package s₀ s₁) :
    ∀ r, journal s₁.dev.mem = .ok r → r.state ≠ .writing := by
  intro r hr hwriting
  obtain ⟨flag, hfresh⟩ := h.initialized.fresh
  rw [← h.mem] at hfresh
  rcases h.selected.source with ⟨slot, hup⟩ | hboot
  · have hj := hup.recorded hfresh
    rw [hr] at hj
    cases hj
    rcases hup.state with hs | hs <;> rw [hs] at hwriting <;> cases hwriting
  · rcases hboot.not_recorded hfresh with hj | hj <;> rw [hr] at hj <;> cases hj

/-- The commit of `WRITING` has failed, and left something else. -/
def CommitStrands (version : UInt32) (m m' : Mem) : Prop :=
  (∃ r, journal m' = .ok r ∧ r.state = .writing) ∨
    ∃ r, journal m = .error .ambiguous ∧
      copies m' = Function.update (copies m) .first none ∧ copies m .second = some r ∧
      ¬ ResolvedFor .a version r

/-- The survivor of a conflict is cleaned up when it resolves the update of the package. -/
theorem survivor_cleaned_iff
    (hversion : version = (decodeManifestBytes (byteAt packageBytes)).imageVersion)
    (hconflict : journal m = .error .ambiguous)
    (hlost : copies m' = Function.update (copies m) .first none)
    (hleft : copies m .second = some r) :
    InstallCleaned packageBytes m m' ↔ ResolvedFor .a version r := by
  have hj := journal_of_survivor hlost hleft
  constructor
  · rintro (hsame | ⟨c, r', hc, hj', hr'⟩)
    · rw [hconflict, hj] at hsame
      cases hsame
    · cases hj.symm.trans hj'
      rw [(target_of_error hconflict).mp hc, ← hversion] at hr'
      exact hr'
  · intro hr
    refine .inr ⟨.a, r, (target_of_error hconflict).mpr rfl, hj, ?_⟩
    rw [← hversion]
    exact hr

/-- **When the commit of `WRITING` fails**, the call is not cleaned up in two ways. -/
theorem WritingTorn.cleaned_iff (h : WritingTorn m m')
    (hversion : version = (decodeManifestBytes (byteAt packageBytes)).imageVersion)
    (hbefore : ∀ r, journal m = .ok r → r.state ≠ .writing) :
    InstallCleaned packageBytes m m' ↔ ¬ CommitStrands version m m' := by
  cases h with
  | same hj =>
    refine iff_of_true (.of_journal hj) ?_
    rintro (⟨r, hr, hwriting⟩ | ⟨r, hconflict, hlost, hleft, -⟩)
    · exact hbefore r (hj.symm.trans hr) hwriting
    · rw [journal_of_survivor hlost hleft, hconflict] at hj
      cases hj
  | durable hj hr =>
    exact iff_of_false (not_cleaned_of_writing hbefore hj hr) (not_not_intro (.inl ⟨_, hj, hr⟩))
  | lost hj hj' =>
    refine iff_of_true (.inl ?_) ?_
    · rw [hj, hj']
      rfl
    · rintro (⟨r, hr, -⟩ | ⟨r, -, hlost, hleft, -⟩)
      · rw [hj'] at hr
        cases hr
      · rw [journal_of_survivor hlost hleft] at hj'
        cases hj'
  | @survivor r hconflict hlost hleft =>
    rw [survivor_cleaned_iff hversion hconflict hlost hleft]
    constructor
    · rintro hr (⟨r', hr', hwriting⟩ | ⟨r', -, -, hleft', hr'⟩)
      · cases (journal_of_survivor hlost hleft).symm.trans hr'
        rcases hr.1 with hs | hs <;> rw [hs] at hwriting <;> cases hwriting
      · cases hleft.symm.trans hleft'
        exact hr' hr
    · exact fun hnot => by_contra fun hr => hnot (.inr ⟨r, hconflict, hlost, hleft, hr⟩)

/-- Checks that fail strand nothing. -/
theorem not_beginStrands_of_checks (hstate : s₁.session.state = .initialized)
    (hchecks : beginChecks crypto headerBytes s₁ = .err e s₂) :
    ¬ BeginStrands crypto headerBytes s₁ := by
  rintro (⟨hc, -⟩ | ⟨hc, -⟩ | ⟨hc, -⟩ | ⟨hb, -⟩)
  · cases hchecks.symm.trans hc
  · cases hchecks.symm.trans hc
  · cases hchecks.symm.trans hc
  · rw [updateInstallerBegin_eq hstate, failSession, Prog.onErr, bind_of_err hchecks] at hb
    cases hb

/-- A commit that fails strands what it leaves. -/
theorem beginStrands_of_commit (hstate : s₁.session.state = .initialized)
    (hchecks : beginChecks crypto headerBytes s₁ = .ret () s₂)
    (hcommit : commitWriting s₂ = .err e s₃) :
    BeginStrands crypto headerBytes s₁ ↔
      CommitStrands (decodeManifestBytes (byteAt headerBytes)).imageVersion s₁.dev.mem
        s₃.dev.mem := by
  constructor
  · rintro (⟨hc, hw, hj, hr⟩ | ⟨hc, hw, hconflict, hlost, hleft, hr⟩ | ⟨hc, hw, -⟩ | ⟨hb, -⟩)
    · cases hchecks.symm.trans hc
      cases hcommit.symm.trans hw
      exact .inl ⟨_, hj, hr⟩
    · cases hchecks.symm.trans hc
      cases hcommit.symm.trans hw
      exact .inr ⟨_, hconflict, hlost, hleft, hr⟩
    · cases hchecks.symm.trans hc
      cases hcommit.symm.trans hw
    · rw [updateInstallerBegin_eq hstate, failSession, Prog.onErr, bind_of_ret hchecks,
        bind_of_err hcommit] at hb
      cases hb
  · rintro (⟨r, hj, hr⟩ | ⟨r, hconflict, hlost, hleft, hr⟩)
    · exact .durable hchecks hcommit hj hr
    · exact .survivor hchecks hcommit hconflict hlost hleft hr

/-- What the commit of `WRITING` starts from. -/
theorem InstallOpened.checked
    (h : InstallOpened crypto flash packageBytes publicKey options package s₀ s₁)
    (hchecks : beginChecks crypto headerBytes s₁ = .ret () s₂) :
    s₂.dev.mem = s₁.dev.mem ∧ Selected publicKey s₂.session ∧
      ∃ flag, metadataOrBootstrap s₂.session.options.recoveryBootstrap (journal s₂.dev.mem) =
        .ok (s₂.session.metadataBefore, flag) := by
  obtain ⟨hread, header, size, hsession, hacc, -⟩ :=
    (beginChecks_spec : wp (beginChecks crypto headerBytes) s₁ _ _ _).ret hchecks
  have hmem : s₂.dev.mem = s₁.dev.mem := hread.eq_of_false.1
  obtain ⟨flag, hfresh⟩ := hacc.fresh
  rw [hsession, hmem]
  exact ⟨rfl, h.selected.of_header header size, flag, hfresh⟩

/-- **When `update_installer_begin` fails**, the call is not cleaned up in three ways. -/
theorem begin_failed (h : InstallOpened crypto flash packageBytes publicKey options package s₀ s₁)
    (hversion : (decodeManifestBytes (byteAt headerBytes)).imageVersion =
      (decodeManifestBytes (byteAt packageBytes)).imageVersion)
    (hrun : updateInstallerBegin crypto headerBytes s₁ = .err e s') :
    InstallCleaned packageBytes s₁.dev.mem s'.dev.mem ↔ ¬ BeginStrands crypto headerBytes s₁ := by
  have hstate := h.initialized.state
  rw [updateInstallerBegin_eq hstate, failSession, onErr_eq_err] at hrun
  obtain ⟨s₃, hrun, rfl⟩ := hrun
  rw [bind_eq_err] at hrun
  rcases hrun with hchecks | ⟨⟨⟩, s₂, hchecks, hrun⟩
  · -- the checks only read
    have hread := (beginChecks_spec : wp (beginChecks crypto headerBytes) s₁ _ _ _).err hchecks
    exact iff_of_true (.of_journal (congrArg journal hread.eq_of_false.1))
      (not_beginStrands_of_checks hstate hchecks)
  obtain ⟨hmem, hsel, flag, hfresh⟩ := h.checked hchecks
  rw [bind_eq_err] at hrun
  rcases hrun with hcommit | ⟨⟨⟩, s₄, hcommit, hslot⟩
  · -- the commit fails
    have htorn := (commitWriting_torn hsel hfresh).err hcommit
    rw [hmem] at htorn
    rw [beginStrands_of_commit hstate hchecks hcommit]
    exact htorn.cleaned_iff hversion h.not_writing
  · -- something fails after the commit
    obtain ⟨hsteady, next, hnext, hj⟩ := (commitWriting_spec hsel hfresh).ret hcommit
    have hj' := (programSlot_journal (hsteady.restricted hsel.restricted) hj).err hslot
    have hwriting : next.state = .writing := by rw [(bootMetadataPrepareNext_ok.mp hnext).2.2]
    exact iff_of_false (not_cleaned_of_writing h.not_writing hj' hwriting)
      (not_not_intro (.late hchecks hcommit hslot))

end Begin

/-! ### The stream fails -/

/-- The session is the same update, and the metadata is the same. -/
structure SameUpdate (s s' : Installer) : Prop where
  opened : s'.session.opened = s.session.opened
  journal : journal s'.dev.mem = journal s.dev.mem
  live : s.session.state ≠ .finished ∧ s.session.state ≠ .aborted →
    s'.session.state ≠ .finished ∧ s'.session.state ≠ .aborted

namespace SameUpdate

theorem refl (s : Installer) : SameUpdate s s := ⟨rfl, rfl, id⟩

theorem trans (h : SameUpdate s s₁) (h' : SameUpdate s₁ s') : SameUpdate s s' :=
  ⟨h'.opened.trans h.opened, h'.journal.trans h.journal, fun hs => h'.live (h.live hs)⟩

theorem of_streams {R : FlashOp → Prop} (h : Streams R s s')
    (hj : Stm32SecurityLab.journal s'.dev.mem = Stm32SecurityLab.journal s.dev.mem) :
    SameUpdate s s' := by
  refine ⟨?_, hj, fun hs => by rwa [h.state]⟩
  rw [UpdateInstallerSession.opened, h.core, UpdateInstallerSession.opened]

theorem filled (h : Streams (InSlot s.session.candidate) s s') : SameUpdate s s' :=
  .of_streams h (journal_of_inSlot h.dev)

theorem of_state (h : SameUpdate s s') {state : UpdateInstallerSessionState}
    (hstate : state ≠ .finished ∧ state ≠ .aborted) :
    SameUpdate s { s' with session := { s'.session with state } } :=
  ⟨h.opened, h.journal, fun _ => hstate⟩

theorem failed (h : SameUpdate s s') :
    SameUpdate s { s' with session := { s'.session with state := .failed } } :=
  h.of_state ⟨by decide, by decide⟩

theorem filling (h : SameUpdate s s') (hf : Filling publicKey s.dev.mem s.session) :
    Filling publicKey s'.dev.mem s'.session := by
  have hopened : ∀ {m : Mem} {session : UpdateInstallerSession},
      Filling publicKey m session.opened ↔ Filling publicKey m session := fun {m session} =>
    ⟨fun h => ⟨h.restricted, h.key, h.committed, h.recorded, h.state, h.active, h.candidate,
      h.version⟩, fun h => ⟨h.restricted, h.key, h.committed, h.recorded, h.state, h.active,
      h.candidate, h.version⟩⟩
  rw [← hopened, h.opened, hopened]
  exact hf.of_journal h.journal

end SameUpdate

theorem updateInstallerWrite_sameUpdate {payloadOffset : ℕ} {data : List UInt8}
    (hrestricted : s.session.Restricted) :
    wp (updateInstallerWrite payloadOffset data) s (fun _ s' => SameUpdate s s')
      (fun _ s' => SameUpdate s s') (fun _ => True) := by
  rw [updateInstallerWrite]
  simp only [wp_bind, wp_getSession, wp_check, wp_failSession, wp_modifySession]
  have hfailed := (SameUpdate.refl s).failed
  refine ⟨fun _ => ⟨fun _ => ⟨fun _ => ⟨fun _ => ⟨fun _ => ?_, fun _ => hfailed⟩, fun _ => hfailed⟩,
    fun _ => .refl s⟩, fun _ => .refl s⟩, fun _ => hfailed⟩
  refine wp.mono (steps_writeLoop hrestricted) (fun _ s₁ h₁ => ?_)
    (fun _ _ h₁ => (SameUpdate.filled h₁).failed) (fun _ _ => trivial)
  split
  · exact (SameUpdate.filled h₁).of_state ⟨by decide, by decide⟩
  · exact .filled h₁

theorem streamPayload_sameUpdate {package : UpdatePackage} {programBufferSize fuel payloadOffset : ℕ}
    (hf : Filling publicKey s.dev.mem s.session) :
    wp (streamPayload package programBufferSize fuel payloadOffset) s (fun _ s' => SameUpdate s s')
      (fun _ s' => SameUpdate s s') (fun _ => True) := by
  induction fuel generalizing s payloadOffset with
  | zero => exact .refl s
  | succ fuel ih =>
    rw [streamPayload]
    split
    · rw [wp_bind]
      refine (updateInstallerWrite_sameUpdate hf.restricted).mono (fun _ s₁ h₁ => ?_)
        (fun _ _ h₁ => h₁) fun _ _ => trivial
      exact (ih (h₁.filling hf)).mono (fun _ _ h₂ => h₁.trans h₂) (fun _ _ h₂ => h₁.trans h₂)
        fun _ _ => trivial
    · exact .refl s

/-- A stream that cannot be finished stays what it was, or it is ready all the same. -/
theorem updateInstallerFinish_sameUpdate (hf : Filling publicKey s.dev.mem s.session) :
    wp (updateInstallerFinish crypto) s (fun _ _ => True)
      (fun _ s' => SameUpdate s s' ∨ Committed s.session.writingMetadata .candidateReady
        s.session.activeSlotId s.session.candidate.toUInt32 s.session.header.manifest.imageVersion
        s'.dev) (fun _ => True) := by
  rw [updateInstallerFinish]
  simp only [wp_bind, wp_getSession, wp_check, wp_failSession, wp_modifySession]
  refine ⟨fun _ => ⟨fun _ => ?_, fun _ => .inl (.refl s)⟩, fun _ => .inl (SameUpdate.refl s).failed⟩
  have hfilled {s' : Installer} (h : Streams (InSlot s.session.candidate) s s') :
      SameUpdate s { s' with session := { s'.session with state := .failed } } :=
    (SameUpdate.filled h).failed
  refine wp.mono (steps_flushPayloadProgramBuffer true hf.restricted) (fun _ s₁ h₁ => ?_)
    (fun _ _ h₁ => .inl (hfilled h₁)) (fun _ _ => trivial)
  refine ⟨fun _ => ?_, fun _ => .inl (hfilled h₁)⟩
  refine wp.mono (steps_verifyStreamingPayloadHash crypto) (fun _ s₂ h₂ => ?_)
    (fun _ _ h₂ => .inl (hfilled (IsTrans.trans _ _ _ h₁ h₂))) (fun _ _ => trivial)
  have hs₂ := IsTrans.trans _ _ _ h₁ h₂
  refine wp.mono (steps_streams (steps_hashInstalledPayload crypto)) (fun _ s₃ h₃ => ?_)
    (fun _ _ h₃ => .inl (hfilled (IsTrans.trans _ _ _ hs₂ h₃))) (fun _ _ => trivial)
  have hs₃ := IsTrans.trans _ _ _ hs₂ h₃
  have hverified {s₄ : Installer} (h₄ : Steady (fun _ => False) s₃ s₄) :
      Streams (InSlot s.session.candidate) s s₄ :=
    IsTrans.trans _ _ _ hs₃ (h₄.streams.mono fun _ => False.elim)
  refine verifyInstalledPackage_spec.mono ?_ (fun _ _ h₄ => .inl (hfilled (hverified h₄)))
    fun _ _ => trivial
  rintro _ s₄ ⟨h₄, -⟩
  have hsame₄ := SameUpdate.filled (hverified h₄)
  have hj₄ : journal s₄.dev.mem = .ok s.session.writingMetadata :=
    hsame₄.journal.trans hf.recorded
  refine commitMetadataState_spec.mono (fun _ _ _ => trivial) ?_ fun _ _ => trivial
  rintro _ s₅ ⟨hsteady₅, hcommit⟩
  rcases hcommit.journal (by rw [hj₄]; simp) with hsame | hcommitted
  · exact .inl (hsame₄.trans (.of_streams hsteady₅.streams hsame)).failed
  · exact .inr hcommitted

theorem streamAndFinish_sameUpdate {package : UpdatePackage} {programBufferSize : ℕ}
    (hf : Filling publicKey s.dev.mem s.session) :
    wp (streamAndFinish crypto package programBufferSize) s (fun _ _ => True)
      (fun _ s' => SameUpdate s s' ∨ Committed s.session.writingMetadata .candidateReady
        s.session.activeSlotId s.session.candidate.toUInt32 s.session.header.manifest.imageVersion
        s'.dev) (fun _ => True) := by
  rw [streamAndFinish, wp_bind]
  refine (streamPayload_sameUpdate hf).mono (fun _ s₁ h₁ => ?_) (fun _ _ h₁ => .inl h₁)
    fun _ _ => trivial
  refine (updateInstallerFinish_sameUpdate (h₁.filling hf)).mono (fun _ _ h => h) (fun _ s₂ h₂ => ?_)
    fun _ h => h
  refine h₂.imp h₁.trans fun hcommitted => ?_
  have hwriting : s₁.session.writingMetadata = s.session.writingMetadata :=
    congrArg (·.writingMetadata) h₁.opened
  have hactive : s₁.session.activeSlotId = s.session.activeSlotId :=
    congrArg (·.activeSlotId) h₁.opened
  have hcandidate : s₁.session.candidate = s.session.candidate := congrArg (·.candidate) h₁.opened
  have hheader : s₁.session.header = s.session.header := congrArg (·.header) h₁.opened
  rw [hwriting, hactive, hcandidate, hheader] at hcommitted
  exact hcommitted

/-- A stream does not notice a failure that is ahead. -/
theorem oblivious_streamAndFinish (crypto : Crypto) (package : UpdatePackage)
    (programBufferSize : ℕ) :
    Oblivious installHazard (streamAndFinish crypto package programBufferSize) := by
  have hstream (fuel payloadOffset : ℕ) :
      Oblivious installHazard (streamPayload package programBufferSize fuel payloadOffset) := by
    induction fuel generalizing payloadOffset with
    | zero => exact .pure ()
    | succ fuel ih =>
      rw [streamPayload]
      split
      · exact .bind (oblivious_updateInstallerWrite _ _) fun _ => ih _
      · exact .pure ()
  rw [streamAndFinish]
  exact .bind (hstream _ _) fun _ => oblivious_updateInstallerFinish crypto

section Tail

variable {flash : BootFlash} {options : UpdateInstallOptions} {package : UpdatePackage}
  {e : UpdateInstallError}

/-- The selection does not depend on the hook. -/
theorem Selected.calm {session : UpdateInstallerSession} (h : Selected publicKey session) :
    Selected publicKey session.calm where
  restricted := h.restricted
  key := h.key
  options := h.options
  blocks := h.blocks
  received := h.received
  programmed := h.programmed
  fill := h.fill
  uncommitted := h.uncommitted
  source := h.source.imp
    (fun ⟨slot, h⟩ => ⟨slot, h.state, h.canonical, h.before, h.active, h.candidate, h.activeSlotId,
      h.recovery⟩)
    fun h => ⟨h.before, h.active, h.candidate, h.activeSlotId, h.recovery, h.bootstrap⟩

/-- **Without the failure the stream would have been finished**: the package had been verified. -/
theorem InstallOpened.returns
    (h : InstallOpened crypto flash packageBytes publicKey options package s₀ s₁)
    (hbegin : updateInstallerBegin crypto (packageBytes.take Layout.signedImageHeaderSize)
      (installHazard.calm s₁) = .ret () (installHazard.calm s₂))
    (hseq : s₂.session.writingMetadata.sequence < 0xFFFFFFFE) :
    Returns (streamAndFinish crypto package options.programBufferSize) (installHazard.calm s₂) := by
  have hinv : SessionInv publicKey (installHazard.calm s₁) := by
    have hstate : (installHazard.calm s₁).session.state = .initialized := h.initialized.state
    rw [SessionInv, hstate]
    exact h.selected.calm
  have hquiet : (installHazard.calm s₁).dev.Quiet := (rfl : ([] : List Verdict) = [])
  have hbegins := begins_of_begin hinv hquiet rfl hbegin
  obtain ⟨hbytes, hsize, -⟩ := updatePackageVerifyForSlot_parsed h.verified
  have haccepted := Host.updatePackageVerifyForSlot_iff.mp ⟨package, h.verified⟩
  have hpackage : packageBytes.take Layout.signedImageHeaderSize ++
      packageBytes.drop Layout.signedImageHeaderSize = packageBytes := List.take_append_drop _ _
  have hlength := haccepted.length
  rw [← hpackage] at haccepted hsize
  rw [decodeManifestBytes_package hbegins.accepted.length, ← hbegins.accepted.manifest,
    ← hbegins.accepted.payloadSize] at hsize
  have hpayload : (packageBytes.drop Layout.signedImageHeaderSize).length =
      (installHazard.calm s₂).session.header.payloadSize := by
    rw [← hpackage, decodeManifestBytes_package hbegins.accepted.length,
      ← hbegins.accepted.manifest, ← hbegins.accepted.payloadSize, hpackage] at hlength
    rw [List.length_drop, hlength, Nat.add_sub_cancel_left]
  have hoptions : (installHazard.calm s₂).session.options.programBufferSize =
      options.programBufferSize := by
    rw [hbegins.options]
    exact congrArg (·.programBufferSize) h.initialized.options
  have hloop := hbegins.installLoop hbytes (hsize.trans hpayload.symm) hpayload
  rw [hoptions, installLoop_eq] at hloop
  rw [streamAndFinish]
  refine wp_bind.mpr (wp_of_outcome (fun _ s₃ hrun => ?_) (fun e s₃ hrun => ?_) fun s₃ hrun => ?_)
  · have hcomplete := hloop.ret (abortOnError_of_ret hrun)
    obtain ⟨s₄, -, hfilled, -, hfinish⟩ := hcomplete.finish
    have hfinishable := (hbegins.finishable_iff hpayload hfilled haccepted).mpr hseq
    exact hfinish.mono (fun _ _ _ => trivial) (fun _ _ hn => hn.1 hfinishable) fun _ hn => hn
  · rcases abortOnError_of_err hrun with ⟨habort, -⟩ | habort
    · exact hloop.err habort
    · exact hloop.cut habort
  · exact hloop.cut (abortOnError_of_cut hrun)

/-- An update that `update_installer_begin` has begun. -/
structure StreamOpened (packageBytes publicKey : List UInt8) (s₁ s₂ : Installer) : Prop where
  filling : Filling publicKey s₂.dev.mem s₂.session
  aligned : s₂.session.restrictedFlash.programAlignment ∣ 8
  candidate : s₂.session.candidate = s₁.session.candidate
  version : s₂.session.header.manifest.imageVersion =
    (decodeManifestBytes (byteAt packageBytes)).imageVersion
  live : s₂.session.state ≠ .finished ∧ s₂.session.state ≠ .aborted
  before : s₁.session.metadataBefore.sequence < 0xFFFFFFFE
  sequence : s₂.session.writingMetadata.sequence = s₁.session.metadataBefore.sequence + 1
  fresh : ∃ flag, metadataOrBootstrap s₁.session.options.recoveryBootstrap
    (journal s₁.dev.mem) = .ok (s₁.session.metadataBefore, flag)

theorem InstallOpened.begun
    (h : InstallOpened crypto flash packageBytes publicKey options package s₀ s₁)
    (hbegin : updateInstallerBegin crypto (packageBytes.take Layout.signedImageHeaderSize) s₁ =
      .ret () s₂) : StreamOpened packageBytes publicKey s₁ s₂ := by
  have hspec : wp (updateInstallerBegin crypto (packageBytes.take Layout.signedImageHeaderSize)) s₁
    _ _ _ := updateInstallerBegin_spec h.inv
  obtain ⟨-, hf, -, header, size, writing, hacc, hwriting, -, hsteady⟩ := hspec.ret hbegin
  have haligned := (updateInstallerBegin_aligned : wp (updateInstallerBegin crypto
    (packageBytes.take Layout.signedImageHeaderSize)) s₁ _ _ _).ret hbegin
  have hflash : s₂.session.restrictedFlash = s₁.session.restrictedFlash :=
    congrArg (·.restrictedFlash) hsteady
  have hheader : s₂.session.header = header := congrArg (·.header) hsteady
  have hrecord : s₂.session.writingMetadata = writing := congrArg (·.writingMetadata) hsteady
  have hstate : s₂.session.state = .writing := congrArg (·.state) hsteady
  obtain ⟨hlt, -, hfields⟩ := bootMetadataPrepareNext_ok.mp hwriting
  refine ⟨hf, ?_, congrArg (·.candidate) hsteady, ?_, ?_, hlt, ?_, hacc.fresh⟩
  · rw [hflash]
    exact haligned
  · rw [hheader, hacc.accepted.manifest, ← decodeManifestBytes_take, List.take_take,
      show min Layout.signedManifestSize Layout.signedImageHeaderSize = Layout.signedManifestSize
        from rfl, decodeManifestBytes_take]
  · rw [hstate]
    exact ⟨by decide, by decide⟩
  · rw [hrecord, hfields]

/-- The number after the last that can be rejected. -/
theorem StreamOpened.exhausted_iff (h : StreamOpened packageBytes publicKey s₁ s₂) :
    ¬ s₂.session.writingMetadata.sequence < 0xFFFFFFFE ↔
      s₁.session.metadataBefore.sequence = 0xFFFFFFFD := by
  have hlt : s₁.session.metadataBefore.sequence.toNat < 0xFFFFFFFE :=
    UInt32.lt_iff_toNat_lt.mp h.before
  have hsucc : s₂.session.writingMetadata.sequence.toNat =
      s₁.session.metadataBefore.sequence.toNat + 1 := by
    rw [h.sequence]
    refine toNat_succ fun heq => ?_
    rw [heq] at hlt
    exact absurd hlt (by decide)
  rw [UInt32.lt_iff_toNat_lt, hsucc, ← UInt32.toNat_inj]
  have hready : (0xFFFFFFFE : UInt32).toNat = 0xFFFFFFFE := rfl
  have hlast : (0xFFFFFFFD : UInt32).toNat = 0xFFFFFFFD := rfl
  omega

/-- What strands a session that has begun is its last sequence number. -/
theorem BeginStrands.last_of_begin (h : BeginStrands crypto headerBytes s₁)
    (hstate : s₁.session.state = .initialized)
    (hbegin : updateInstallerBegin crypto headerBytes s₁ = .ret () s₂) :
    ∃ r, journal s₁.dev.mem = .ok r ∧ r.sequence = 0xFFFFFFFD := by
  have hrun := hbegin
  rw [updateInstallerBegin_eq hstate, failSession, Prog.onErr] at hrun
  rcases h with ⟨hc, hw, -⟩ | ⟨hc, hw, -⟩ | ⟨hc, hw, hslot⟩ | ⟨-, hj, hr⟩
  · rw [bind_of_ret hc, bind_of_err hw] at hrun
    cases hrun
  · rw [bind_of_ret hc, bind_of_err hw] at hrun
    cases hrun
  · rw [bind_of_ret hc, bind_of_ret hw, hslot] at hrun
    cases hrun
  · exact ⟨_, hj, hr⟩

/-- The sequence number decides. -/
theorem StreamOpened.beginStrands_iff (h : StreamOpened packageBytes publicKey s₁ s₂)
    (hstate : s₁.session.state = .initialized)
    (hbegin : updateInstallerBegin crypto headerBytes s₁ = .ret () s₂) :
    BeginStrands crypto headerBytes s₁ ↔
      ¬ s₂.session.writingMetadata.sequence < 0xFFFFFFFE := by
  rw [h.exhausted_iff]
  obtain ⟨flag, hfresh⟩ := h.fresh
  constructor
  · intro hstrands
    obtain ⟨r, hj, hr⟩ := hstrands.last_of_begin hstate hbegin
    rcases metadataOrBootstrap_ok hfresh with ⟨-, hok⟩ | ⟨-, -, -, herror | herror⟩
    · cases hj.symm.trans hok
      exact hr
    · cases hj.symm.trans herror
    · cases hj.symm.trans herror
  · intro hr
    rcases metadataOrBootstrap_ok hfresh with ⟨-, hok⟩ | ⟨-, hempty, -⟩
    · exact .last hbegin hok hr
    · rw [hempty] at hr
      exact absurd hr (by decide)

/-- The record that says the candidate is ready resolves the update. -/
theorem StreamOpened.ready {next : BootMetadataRecord}
    (h : StreamOpened packageBytes publicKey s₁ s₂)
    (hnext : bootMetadataPrepareNext s₂.session.writingMetadata .candidateReady
      s₂.session.activeSlotId s₂.session.candidate.toUInt32
      s₂.session.header.manifest.imageVersion 0 0 0 = .ok next) :
    s₂.session.writingMetadata.sequence < 0xFFFFFFFE ∧
      ResolvedFor s₁.session.candidate (decodeManifestBytes (byteAt packageBytes)).imageVersion
        next ∧ next.state ≠ .writing := by
  obtain ⟨hlt, -, hfields⟩ := bootMetadataPrepareNext_ok.mp hnext
  rw [hfields, ← h.version, ← h.candidate]
  exact ⟨hlt, ⟨.inr rfl, rfl, rfl⟩, fun hw => by cases hw⟩

/-- The abort of a record that is not being written, or that has no number left. -/
theorem journal_aborted {r : BootMetadataRecord} (hj : journal s.dev.mem = .ok r)
    (hr : r.state = .writing → ¬ r.sequence < 0xFFFFFFFE)
    (hends : ∀ s', updateInstallerAbort s ≠ .cut s') :
    journal (updateInstallerAbort s).state.dev.mem = .ok r := by
  have habort := updateInstallerAbort_exhausted hj hr
  cases hend : updateInstallerAbort s with
  | ret u s' => exact (congrArg journal (habort.ret hend)).trans hj
  | err e' s' => exact (congrArg journal (habort.err hend)).trans hj
  | cut s' => exact absurd hend (hends s')

/-- A stream that fails with a sequence number left has met the failure. -/
theorem InstallOpened.stream_past
    (h : InstallOpened crypto flash packageBytes publicKey options package s₀ s₁)
    (hfail : installHazard.past s₁ ∨ installHazard.ahead s₁)
    (hbegin : updateInstallerBegin crypto (packageBytes.take Layout.signedImageHeaderSize) s₁ =
      .ret () s₂)
    (hseq : s₂.session.writingMetadata.sequence < 0xFFFFFFFE)
    (hrun : streamAndFinish crypto package options.programBufferSize s₂ = .err e s₃) :
    installHazard.past s₃ := by
  have hobegin := oblivious_updateInstallerBegin crypto
    (packageBytes.take Layout.signedImageHeaderSize)
  have hostream := oblivious_streamAndFinish crypto package options.programBufferSize
  by_contra hn
  have hend : ¬ installHazard.past (streamAndFinish crypto package
      options.programBufferSize s₂).state := by
    rw [hrun]
    exact hn
  have hmid : ¬ installHazard.past (updateInstallerBegin crypto
      (packageBytes.take Layout.signedImageHeaderSize) s₁).state := by
    rw [hbegin]
    exact fun hpast => hend (hostream.past s₂ hpast)
  -- the run on a device that does not fail
  obtain ⟨-, hcalm₁⟩ := hobegin.calm hfail hmid
  have hsettled := hobegin.settled hfail
  rw [hbegin] at hcalm₁ hsettled
  obtain ⟨-, hcalm₂⟩ := hostream.calm hsettled hend
  obtain ⟨u, s', hret⟩ := returns_iff.mp (h.returns hcalm₁ hseq)
  change streamAndFinish crypto package options.programBufferSize (installHazard.calm s₂) =
    (streamAndFinish crypto package options.programBufferSize s₂).map installHazard.calm at hcalm₂
  rw [hcalm₂, hrun] at hret
  cases hret

/-- An update that has not gone on since it began can be rejected. -/
theorem StreamOpened.rejects (h : StreamOpened packageBytes publicKey s₁ s₂)
    (hpast : installHazard.past s₃) (hsame : SameUpdate s₂ s₃)
    (hseq : s₂.session.writingMetadata.sequence < 0xFFFFFFFE) :
    ∃ r, journal (updateInstallerAbort s₃).state.dev.mem = .ok r ∧
      ResolvedFor s₁.session.candidate (decodeManifestBytes (byteAt packageBytes)).imageVersion
        r := by
  have hflash : s₃.session.restrictedFlash = s₂.session.restrictedFlash :=
    congrArg (·.restrictedFlash) hsame.opened
  have hrecord : s₃.session.writingMetadata = s₂.session.writingMetadata :=
    congrArg (·.writingMetadata) hsame.opened
  have hcandidate : s₃.session.candidate = s₁.session.candidate :=
    (congrArg (·.candidate) hsame.opened).trans h.candidate
  have hheader : s₃.session.header = s₂.session.header := congrArg (·.header) hsame.opened
  have hunder := (hsame.filling h.filling).underWay hpast (by rw [hflash]; exact h.aligned)
    (hsame.live h.live) (by rw [hrecord]; exact hseq)
  obtain ⟨r, -, hj, hslot, hversion⟩ := (updateInstallerAbort_rejects hunder).state
    (fun _ _ h => h.2.2) fun _ _ h => h.elim
  rw [hcandidate] at hslot
  rw [hheader, h.version] at hversion
  exact ⟨abortedRecord r, hj, .inl rfl, hslot, hversion⟩

/-- **When the stream fails**, the call is cleaned up unless no sequence number is left. -/
theorem stream_failed
    (h : InstallOpened crypto flash packageBytes publicKey options package s₀ s₁)
    (hfail : installHazard.past s₁ ∨ installHazard.ahead s₁)
    (hbegin : updateInstallerBegin crypto (packageBytes.take Layout.signedImageHeaderSize) s₁ =
      .ret () s₂)
    (hrun : streamAndFinish crypto package options.programBufferSize s₂ = .err e s₃)
    (hends : ∀ s', updateInstallerAbort s₃ ≠ .cut s') :
    InstallCleaned packageBytes s₁.dev.mem (updateInstallerAbort s₃).state.dev.mem ↔
      ¬ BeginStrands crypto (packageBytes.take Layout.signedImageHeaderSize) s₁ := by
  have hbegun := h.begun hbegin
  have hf := hbegun.filling
  rw [hbegun.beginStrands_iff h.initialized.state hbegin, not_not]
  by_cases hseq : s₂.session.writingMetadata.sequence < 0xFFFFFFFE
  · refine iff_of_true (.inr ⟨s₁.session.candidate, ?_⟩) hseq
    rcases (streamAndFinish_sameUpdate hf).err hrun with hsame | ⟨next, hnext, hj⟩
    · -- the failure is over, and the candidate can be rejected
      obtain ⟨r, hr, hresolved⟩ :=
        hbegun.rejects (h.stream_past hfail hbegin hseq hrun) hsame hseq
      exact ⟨r, h.target, hr, hresolved⟩
    · obtain ⟨-, hresolved, hstate⟩ := hbegun.ready hnext
      exact ⟨next, h.target, journal_aborted hj (fun hw => absurd hw hstate) hends, hresolved⟩
  · refine iff_of_false ?_ hseq
    rcases (streamAndFinish_sameUpdate hf).err hrun with hsame | ⟨next, hnext, -⟩
    · have hj := hsame.journal.trans hf.recorded
      exact not_cleaned_of_writing h.not_writing (journal_aborted hj (fun _ => hseq) hends) hf.state
    · exact absurd (hbegun.ready hnext).1 hseq

end Tail

/-- **What `update_installer_install` leaves when it fails once**: the record it found, or the
update of the package resolved, except when it is stranded. -/
theorem update_installer_install_cleans {flash : BootFlash} {options : UpdateInstallOptions}
    {withResult : Bool} {e : UpdateInstallError} (hfail : OneFailure options s₀.dev)
    (hrun : updateInstallerInstall crypto flash packageBytes publicKey options withResult s₀ =
      .err e s') :
    InstallCleaned packageBytes s₀.dev.mem s'.dev.mem ↔
      ¬ InstallStrands crypto flash packageBytes publicKey options withResult s₀ := by
  rw [updateInstallerInstall_eq, bind_eq_err] at hrun
  rcases hrun with hopen | ⟨package, s₁, hopen, hrun⟩
  · -- nothing has been written yet
    have hread := (installOpen_spec : wp (installOpen crypto flash packageBytes publicKey options
      withResult) s₀ _ _ _).err hopen
    refine iff_of_true (.of_journal (by rw [hread.eq_of_false.1])) ?_
    rintro ⟨package, s₁, hopen', -⟩
    cases hopen.symm.trans hopen'
  have hopened := (installOpen_spec : wp (installOpen crypto flash packageBytes publicKey options
    withResult) s₀ _ _ _).ret hopen
  have hstrands : InstallStrands crypto flash packageBytes publicKey options withResult s₀ ↔
      BeginStrands crypto (packageBytes.take Layout.signedImageHeaderSize) s₁ := by
    constructor
    · rintro ⟨package', s₁', hopen', hstrands⟩
      cases hopen.symm.trans hopen'
      exact hstrands
    · exact fun hstrands => ⟨package, s₁, hopen, hstrands⟩
  rw [hstrands, ← hopened.mem]
  rw [bind_eq_err] at hrun
  rcases hrun with hbegin | ⟨⟨⟩, s₂, hbegin, hrun⟩
  · refine begin_failed hopened ?_ hbegin
    rw [← decodeManifestBytes_take, List.take_take,
      show min Layout.signedManifestSize Layout.signedImageHeaderSize = Layout.signedManifestSize
        from rfl, decodeManifestBytes_take]
  · obtain ⟨s₃, hstream, rfl, hends⟩ := abortOnError_eq_err hrun
    have hdev : flashHazard.past s₀.dev ∨ flashHazard.ahead s₀.dev :=
      hfail.elim (fun h => .inr h.1) .inl
    have hsettled : wp (installOpen crypto flash packageBytes publicKey options withResult) s₀ _ _ _ :=
      installOpen_settled hdev
    have hhazard : installHazard.past s₁ ∨ flashHazard.ahead s₁.dev ∧ options.Harmless := by
      rcases hsettled.ret hopen with hpast | hahead
      · exact .inl hpast
      · rcases hfail with ⟨-, hharmless⟩ | hquiet
        · exact .inr ⟨hahead, hharmless⟩
        · exact .inl (hopened.dev.quiet hquiet)
    exact stream_failed hopened (hopened.hazard hhazard) hbegin hstream hends

/-- A package that verifies is stranded when `WRITING` takes the last sequence number. -/
theorem updateInstallerInstall_last {flash : BootFlash} {options : UpdateInstallOptions}
    {withResult : Bool} (hquiet : s₀.dev.Quiet) (hhook : options.faultHook = none)
    (hinit : updateInstallerSessionInit flash publicKey options withResult s₀ = .ret () s₁)
    (hbegin : updateInstallerBegin crypto headerBytes s₁ = .ret () s₂)
    (hpayload : payload.length = s₂.session.header.payloadSize)
    (hpackage : Host.PackageAccepted crypto (headerBytes ++ payload) publicKey s₁.session.candidate)
    (hbegins : Begins crypto publicKey headerBytes s₁ s₂)
    (hbefore : ∀ r, journal s₀.dev.mem = .ok r → r.state ≠ .writing)
    (hlast : s₁.session.metadataBefore.sequence = 0xFFFFFFFD) :
    ∃ e s', updateInstallerInstall crypto flash (headerBytes ++ payload) publicKey options withResult
        s₀ = .err e s' ∧ ¬ InstallCleaned (headerBytes ++ payload) s₀.dev.mem s'.dev.mem := by
  have hinstall := quiet_updateInstallerInstall hquiet hhook hinit hbegin hpayload hpackage
  have hspent : ¬ s₂.session.writingMetadata.sequence < 0xFFFFFFFE := by
    rw [hbegins.sequence_iff, hlast]
    decide
  cases hrun : updateInstallerInstall crypto flash (headerBytes ++ payload) publicKey options
      withResult s₀ with
  | ret u s' => exact absurd (hinstall.ret hrun).1 hspent
  | cut s' => exact (hinstall.cut hrun).elim
  | err e s' =>
    exact ⟨e, s', rfl, not_cleaned_of_writing hbefore (hinstall.err hrun).2.2 hbegins.filling.state⟩

/-- An image that verifies is stranded on a device with one sequence number left. -/
theorem update_installer_install_strands : ∃ e s',
    updateInstallerInstall factoryCrypto updateModeFlash (updateHeader ++ updatePayload) factoryKey
      (updateModeOptions false) false (updatable 0xFFFFFFFD) = .err e s' ∧
    ¬ InstallCleaned (updateHeader ++ updatePayload) (updatable 0xFFFFFFFD).dev.mem s'.dev.mem ∧
    InstallStrands factoryCrypto updateModeFlash (updateHeader ++ updatePayload) factoryKey
      (updateModeOptions false) false (updatable 0xFFFFFFFD) := by
  have hj : journal (updatable 0xFFFFFFFD).dev.mem = .ok _ := journal_updatable (by decide)
  have hquiet : (updatable 0xFFFFFFFD).dev.Quiet := (rfl : ([] : List Verdict) = [])
  obtain ⟨s₁, s₂, hinit, hbegin, hcand, hseq, hheader, hbegins⟩ :=
    @update_begins (updatable 0xFFFFFFFD) 0xFFFFFFFD false hquiet hj (by decide)
  have hpayload : updatePayload.length = s₂.session.header.payloadSize := by
    rw [hheader]
    decide
  have hpackage : Host.PackageAccepted factoryCrypto (updateHeader ++ updatePayload) factoryKey
      s₁.session.candidate := by
    rw [hcand]
    exact updatePackage_accepted
  have hbefore : ∀ r, journal (updatable 0xFFFFFFFD).dev.mem = .ok r → r.state ≠ .writing := by
    intro r hr
    cases hj.symm.trans hr
    exact fun hw => nomatch hw
  obtain ⟨e, s', hrun, hnot⟩ := updateInstallerInstall_last hquiet rfl hinit hbegin hpayload hpackage
    hbegins hbefore hseq
  have hcleans := update_installer_install_cleans (.inr hquiet) hrun
  exact ⟨e, s', hrun, hnot, not_not.mp (mt hcleans.mpr hnot)⟩

end Stm32SecurityLab
