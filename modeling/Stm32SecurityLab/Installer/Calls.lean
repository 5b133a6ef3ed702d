import Stm32SecurityLab.Installer.Effect

/-!
# The calls of the installer

One specification for each call. All of them have one shape: started from a session that
satisfies `SessionInv`, the call ends in such a session again, and whatever became of it, the
device went through an `Effect`. A power cut loses the session, so for it the effect is all there
is to say.

A session remembers what it read from the flash, and `SessionInv` says how much of that can be
relied on. An initialised session relies on nothing: `update_installer_begin` reads the metadata
again and compares. A session that is writing relies on the journal saying so, which nothing but
the session itself changes.

## Main definitions

* `Selected`, `Filling`, `SessionInv` — what a session knows about the flash
* `BeginAccepted` — the checks a header has passed before `update_installer_begin` writes

## Main results

* `updateInstallerSessionInit_spec`, `updateInstallerBegin_spec`, `updateInstallerWrite_spec`,
  `updateInstallerFinish_spec`, `updateInstallerAbort_spec`
-/

namespace Stm32SecurityLab

open Crash Installer

variable {crypto : Crypto} {publicKey headerBytes : List UInt8} {s s' : Installer}

/-! ### Rules -/

section Rules

variable {ε α : Type} {E : ε → Installer → Prop} {C : Installer → Prop}

@[simp] theorem wp_getSession {Q : UpdateInstallerSession → Installer → Prop} :
    wp (getSession : Prog Installer ε _) s Q E C ↔ Q s.session s := Iff.rfl

@[simp] theorem wp_modifySession {f : UpdateInstallerSession → UpdateInstallerSession}
    {Q : Unit → Installer → Prop} :
    wp (modifySession f : Prog Installer ε Unit) s Q E C ↔
      Q () { s with session := f s.session } := Iff.rfl

theorem wp_modifyResult {f : UpdateInstallResult → UpdateInstallResult}
    {Q : Unit → Installer → Prop} (h : ∀ result, Q () { s with result }) :
    wp (modifyResult f : Prog Installer ε Unit) s Q E C := by
  rw [modifyResult]
  rw [wp_modify]
  split
  · exact h _
  · exact h s.result

@[simp] theorem wp_failSession {x : Prog Installer UpdateInstallError α} {Q : α → Installer → Prop}
    {E : UpdateInstallError → Installer → Prop} :
    wp (failSession x) s Q E C ↔
      wp x s Q (fun e s' => E e { s' with session := { s'.session with state := .failed } }) C :=
  wp_onErr

end Rules

/-- The device was read. -/
def Reads (s s' : Installer) : Prop :=
  ∃ vs, (s.dev.Quiet → vs = []) ∧ s' = { s with dev := { s.dev with script := vs } }

namespace Reads

theorem session (h : Reads s s') : s'.session = s.session := by
  obtain ⟨vs, -, rfl⟩ := h
  rfl

theorem mem (h : Reads s s') : s'.dev.mem = s.dev.mem := by
  obtain ⟨vs, -, rfl⟩ := h
  rfl

theorem dev (h : Reads s s') : s.dev.Extends (fun _ => False) s'.dev := by
  obtain ⟨vs, hvs, rfl⟩ := h
  exact ⟨⟨[], by simp⟩, hvs⟩

end Reads

/-- Recovery returns what the two copies say, or `FLASH` on a disturbed device. -/
theorem wp_recover {ε : Type}
    {Q : BootMetadataRecovery × Except BootMetadataError BootMetadataRecord → Installer → Prop}
    {E : ε → Installer → Prop} {C : Installer → Prop}
    (hret : ∀ s', Reads s s' → Q (recovered s.dev.mem) s')
    (herr : ∀ s', Reads s s' → ¬ s.dev.Quiet → Q ({}, .error .flash) s')
    (hcut : ∀ s', Reads s s' → ¬ s.dev.Quiet → C s') :
    wp (onDev bootMetadataRecoverFromFlash) s Q E C := by
  rw [onDev]
  rw [wp_zoom]
  exact bootMetadataRecoverFromFlash_spec (fun vs hvs => hret _ ⟨vs, hvs, rfl⟩)
    (fun vs hn => herr _ ⟨vs, fun hq => absurd hq hn, rfl⟩ hn)
    (fun vs hn => hcut _ ⟨vs, fun hq => absurd hq hn, rfl⟩ hn)

/-! ### What a session knows -/

/-- A session that updates a device with a confirmed image in `slot`. -/
structure SelectedUpdate (session : UpdateInstallerSession) (slot : BootSlotId) : Prop where
  state : session.metadataBefore.state = .confirmed ∨
    session.metadataBefore.state = .rejectedInvalid
  canonical : stateRecordIsCanonical session.metadataBefore = true
  before : session.metadataBefore.activeSlot = slot.toUInt32
  active : session.active = some slot
  candidate : session.candidate = slot.other
  activeSlotId : session.activeSlotId = slot.toUInt32
  recovery : session.metadataRecovery.copyAValid = true ∨ session.metadataRecovery.copyBValid = true

/-- A session that starts from nothing. -/
structure SelectedBootstrap (session : UpdateInstallerSession) : Prop where
  before : session.metadataBefore = bootMetadataEmpty
  active : session.active = none
  candidate : session.candidate = .a
  activeSlotId : session.activeSlotId = bootSlotNone
  recovery : session.metadataRecovery = {}
  bootstrap : session.options.recoveryBootstrap = true

/-- An initialised session. -/
structure Selected (publicKey : List UInt8) (session : UpdateInstallerSession) : Prop where
  restricted : session.Restricted
  key : session.publicKey = publicKey
  options : optionsAreValid session.restrictedFlash session.options = true
  blocks : session.programmedBlockCount = 0
  received : session.payloadReceived = 0
  programmed : session.payloadProgrammed = 0
  fill : session.programFill = 0
  uncommitted : session.metadataWritingCommitted = false
  source : (∃ slot, SelectedUpdate session slot) ∨ SelectedBootstrap session

/-- A session that is writing: the journal says so. -/
structure Filling (publicKey : List UInt8) (m : Mem) (session : UpdateInstallerSession) : Prop where
  restricted : session.Restricted
  key : session.publicKey = publicKey
  committed : session.metadataWritingCommitted = true
  recorded : journal m = .ok session.writingMetadata
  state : session.writingMetadata.state = .writing
  active : session.writingMetadata.activeSlot = session.activeSlotId
  candidate : session.writingMetadata.candidateSlot = session.candidate.toUInt32
  version : session.writingMetadata.candidateImageVersion = session.header.manifest.imageVersion

/-- The invariant of the session between calls. -/
def SessionInv (publicKey : List UInt8) (s : Installer) : Prop :=
  match s.session.state with
  | .initialized => Selected publicKey s.session
  | .writing | .payloadComplete => Filling publicKey s.dev.mem s.session
  | .empty | .finished | .aborted | .failed => True

theorem sessionInv_empty (h : s.session = {}) : SessionInv publicKey s := by
  rw [SessionInv]
  rw [h]
  trivial

theorem SessionInv.selected (h : SessionInv publicKey s) (hs : s.session.state = .initialized) :
    Selected publicKey s.session := by
  rw [SessionInv] at h
  rw [hs] at h
  exact h

theorem SessionInv.filling (h : SessionInv publicKey s)
    (hs : s.session.state = .writing ∨ s.session.state = .payloadComplete) :
    Filling publicKey s.dev.mem s.session := by
  rw [SessionInv] at h
  rcases hs with hs | hs <;> rw [hs] at h <;> exact h

/-- The counters are not part of a session's knowledge. -/
theorem filling_core {m : Mem} {session : UpdateInstallerSession} :
    Filling publicKey m session.core ↔ Filling publicKey m session :=
  ⟨fun h => ⟨h.restricted, h.key, h.committed, h.recorded, h.state, h.active, h.candidate, h.version⟩,
    fun h => ⟨h.restricted, h.key, h.committed, h.recorded, h.state, h.active, h.candidate,
      h.version⟩⟩

theorem filling_of_steady {m : Mem} {session session' : UpdateInstallerSession}
    (h : session'.steady = session.steady) (hf : Filling publicKey m session) :
    Filling publicKey m session' := by
  have hcore : session'.steady.core = session.steady.core := by rw [h]
  rw [← filling_core] at hf ⊢
  exact hcore ▸ hf

theorem Filling.of_journal {m m' : Mem} {session : UpdateInstallerSession}
    (h : Filling publicKey m session) (hj : journal m' = journal m) :
    Filling publicKey m' session :=
  { h with recorded := hj.trans h.recorded }

/-- A change of the journal that leaves `WRITING` alone does not disturb a session. -/
theorem sessionInv_of_journal {s : Installer} {d' : Device} (h : SessionInv publicKey s)
    (hj : journal d'.mem = journal s.dev.mem ∨
      ∃ cur, journal s.dev.mem = .ok cur ∧ cur.state ≠ .writing) :
    SessionInv publicKey { s with dev := d' } := by
  have hfill : Filling publicKey s.dev.mem s.session → Filling publicKey d'.mem s.session := by
    intro hf
    rcases hj with hj | ⟨cur, hcur, hne⟩
    · exact hf.of_journal hj
    · obtain rfl : cur = s.session.writingMetadata := Except.ok.inj (hcur.symm.trans hf.recorded)
      exact absurd hf.state hne
  unfold SessionInv at *
  cases hs : s.session.state <;> simp only [hs] at h ⊢ <;> first
    | exact h
    | exact hfill h

theorem Filling.streams (h : Filling publicKey s.dev.mem s.session)
    (hs : Streams (InSlot s.session.candidate) s s') :
    Filling publicKey s'.dev.mem s'.session := by
  rw [← filling_core, hs.core, filling_core]
  exact h.of_journal (journal_of_inSlot hs.dev)

theorem Filling.effect (h : Filling publicKey s.dev.mem s.session)
    (hs : Streams (InSlot s.session.candidate) s s') : Effect crypto publicKey s.dev s'.dev :=
  .of_fill hs.dev h.recorded h.state h.candidate

/-! ### Selecting slots -/

theorem selectInactiveSlot_ok {r : BootMetadataRecord} {active candidate : BootSlotId}
    (h : selectInactiveSlot r = .ok (active, candidate)) :
    (r.state = .confirmed ∨ r.state = .rejectedInvalid) ∧ r.activeSlot = active.toUInt32 ∧
      candidate = active.other := by
  rw [selectInactiveSlot] at h
  simp only [except_bind_eq_ok] at h
  obtain ⟨_, hstate, hslots⟩ := h
  have hs : r.state = .confirmed ∨ r.state = .rejectedInvalid := by
    rw [checkUpdatable] at hstate
    cases hr : r.state <;> rw [hr] at hstate <;> first
      | exact .inl rfl
      | exact .inr rfl
      | cases hstate
  refine ⟨hs, ?_⟩
  split at hslots
  · cases hslots
  rename_i activeSlot hactive
  obtain ⟨slot, hslot, rfl⟩ := eq_of_bootSlotLookup hactive
  have hother : (if r.activeSlot = BootSlotId.a.toUInt32 then BootSlotId.b.toUInt32
      else BootSlotId.a.toUInt32) = slot.other.toUInt32 := by
    rw [hslot]
    cases slot <;> rfl
  simp only [hother, bootSlotLookup_toUInt32, except_bind_eq_ok, require_eq_ok, bootSlots_id] at hslots
  obtain ⟨_, -, hpair⟩ := hslots
  cases hpair
  exact ⟨hslot, rfl⟩

/-- A recovered record came from a copy. -/
theorem recovered_valid {m : Mem} {r : BootMetadataRecord} (h : (recovered m).2 = .ok r) :
    (recovered m).1.copyAValid = true ∨ (recovered m).1.copyBValid = true := by
  unfold recovered bootMetadataRecover at *
  split
  all_goals simp_all
  split <;> split <;> simp

theorem metadataOrBootstrap_ok {bootstrap flag : Bool} {r : BootMetadataRecord}
    {status : Except BootMetadataError BootMetadataRecord}
    (h : metadataOrBootstrap bootstrap status = .ok (r, flag)) :
    (flag = false ∧ status = .ok r) ∨
      (flag = true ∧ r = bootMetadataEmpty ∧ bootstrap = true ∧
        (status = .error .noValidCopy ∨ status = .error .ambiguous)) := by
  unfold metadataOrBootstrap at h
  split at h
  · cases h
    exact .inl ⟨rfl, rfl⟩
  · rename_i e
    split at h
    · cases h
    · rename_i hb
      simp only [not_or, Bool.not_eq_false, not_and, not_not] at hb
      cases h
      refine .inr ⟨rfl, rfl, hb.1, ?_⟩
      by_cases he : e = .noValidCopy
      · exact .inl (by rw [he])
      · exact .inr (by rw [hb.2 he])

/-! ### `update_installer_session_init` -/

/-- What `update_installer_session_init` was given and what it found. -/
structure Initialized (flash : BootFlash) (options : UpdateInstallOptions) (m : Mem)
    (session : UpdateInstallerSession) : Prop where
  state : session.state = .initialized
  alignment : session.restrictedFlash.programAlignment = flash.programAlignment
  options : session.options = options
  faultCalls : session.faultCalls = 0
  fresh : ∃ flag, metadataOrBootstrap session.options.recoveryBootstrap (journal m) =
    .ok (session.metadataBefore, flag)

theorem optionsAreValid_congr {flash flash' : BootFlash} {options : UpdateInstallOptions}
    (h : flash'.programAlignment = flash.programAlignment) :
    optionsAreValid flash' options = optionsAreValid flash options := by
  unfold optionsAreValid
  rw [h]

/-- What `update_installer_session_init` selects satisfies the invariant. -/
theorem updateInstallerSessionInit_spec {flash : BootFlash} {options : UpdateInstallOptions}
    {withResult : Bool} :
    wp (updateInstallerSessionInit flash publicKey options withResult) s
      (fun _ s' => s.dev.Extends (fun _ => False) s'.dev ∧
        Initialized flash options s.dev.mem s'.session ∧ Selected publicKey s'.session)
      (fun _ s' => s.dev.Extends (fun _ => False) s'.dev ∧
        (s'.session.state = .empty ∨ s'.session.state = .failed))
      (fun s' => s.dev.Extends (fun _ => False) s'.dev) := by
  rw [updateInstallerSessionInit]
  simp only [wp_bind, wp_modifySession, wp_check, wp_modify]
  refine ⟨fun hvalid => ?_, fun _ => ⟨Std.Refl.refl s.dev, .inl trivial⟩⟩
  generalize hs₀ : (if withResult = true then _ else _ : Installer) = s₀
  obtain ⟨hdev₀, hsession₀⟩ : s₀.dev = s.dev ∧ s₀.session = {} := by
    rw [← hs₀]
    cases withResult <;> exact ⟨rfl, rfl⟩
  clear hs₀
  rw [← hdev₀]
  refine wp_recover (fun s₁ h₁ => ?_) (fun s₁ h₁ _ => ?_) (fun s₁ h₁ _ => h₁.dev)
  · simp only [wp_failSession, wp_bind, wp_ofExcept, wp_modifySession]
    refine ⟨fun x hx => ?_, fun _ _ => ⟨h₁.dev, .inr trivial⟩⟩
    obtain ⟨current, bootstrap⟩ := x
    refine ⟨fun y hy => ?_, fun _ _ => ⟨h₁.dev, .inr trivial⟩⟩
    obtain ⟨active, candidate⟩ := y
    refine ⟨fun restricted hr => ?_, fun _ _ => ⟨h₁.dev, .inr trivial⟩⟩
    obtain ⟨restricted', hr', hregions, halign⟩ := initRestrictedFlash_ok flash candidate
    obtain rfl : restricted' = restricted := Except.ok.inj (hr'.symm.trans hr)
    have hsession : s₁.session = {} := h₁.session.trans hsession₀
    refine wp_modifyResult fun result =>
      ⟨h₁.dev, ⟨rfl, halign, rfl, congrArg (·.faultCalls) hsession, bootstrap, by
        rw [journal_eq]; exact hx⟩, ?_⟩
    refine ⟨hregions, rfl, (optionsAreValid_congr halign).trans hvalid, ?_, ?_, ?_, ?_, ?_, ?_⟩
    iterate 5 simp only [hsession]
    rcases metadataOrBootstrap_ok hx with ⟨rfl, hok⟩ | ⟨rfl, rfl, hboot, -⟩
    · obtain ⟨act, cand, hsel, hpair⟩ : ∃ act cand, selectInactiveSlot current = .ok (act, cand) ∧
          (some act, cand) = (active, candidate) := by
        rw [selectSlots] at hy
        rw [if_neg Bool.false_ne_true] at hy
        cases hsel : selectInactiveSlot current with
        | error e => rw [hsel] at hy; cases hy
        | ok slots => rw [hsel] at hy; exact ⟨slots.1, slots.2, rfl, Except.ok.inj hy⟩
      cases hpair
      obtain ⟨hstate, hact, rfl⟩ := selectInactiveSlot_ok hsel
      exact .inl ⟨act, hstate, journal_canonical ((journal_eq _).trans hok), hact, rfl, rfl, rfl,
        recovered_valid hok⟩
    · cases hy
      exact .inr ⟨rfl, rfl, rfl, rfl, rfl, hboot⟩
  · simp only [wp_failSession, wp_bind, wp_ofExcept]
    refine ⟨fun x hx => ?_, fun _ _ => ⟨h₁.dev, .inr trivial⟩⟩
    rcases metadataOrBootstrap_ok hx with ⟨-, hok⟩ | ⟨-, -, -, hok | hok⟩ <;> cases hok

/-! ### `update_installer_begin` -/

/-- The checks of `update_installer_begin` on the flash contents `m`: the metadata is what the
session has seen, the header is acceptable for the candidate slot, and the version is above the
confirmed one. -/
structure BeginAccepted (crypto : Crypto) (session : UpdateInstallerSession) (m : Mem)
    (headerBytes : List UInt8) (header : UpdatePackageHeader) : Prop where
  fresh : ∃ flag, metadataOrBootstrap session.options.recoveryBootstrap (journal m) =
    .ok (session.metadataBefore, flag)
  accepted : HeaderAccepted crypto session.publicKey headerBytes (bootSlots session.candidate) header
  newer : ∃ v, confirmedVersionForUpdate crypto session m = .ok v ∧ v < header.manifest.imageVersion

/-- The checks only read, and what passes them has passed them. -/
theorem beginChecks_spec :
    wp (beginChecks crypto headerBytes) s
      (fun _ s' => s.dev.Extends (fun _ => False) s'.dev ∧ ∃ header payloadProgramSize,
        s'.session = { s.session with header, payloadProgramSize } ∧
        BeginAccepted crypto s.session s.dev.mem headerBytes header ∧
        candidatePackageFits s.session.restrictedFlash (bootSlots s.session.candidate) header =
          .ok payloadProgramSize)
      (fun _ s' => s.dev.Extends (fun _ => False) s'.dev)
      (fun s' => s.dev.Extends (fun _ => False) s'.dev) := by
  rw [beginChecks]
  simp only [wp_bind, wp_getSession]
  refine wp_recover (fun s₁ h₁ => ?_) (fun s₁ h₁ _ => ?_) (fun s₁ h₁ _ => h₁.dev)
  · simp only [wp_ofExcept, wp_check]
    refine ⟨fun x hx => ?_, fun _ _ => h₁.dev⟩
    obtain ⟨current, flag⟩ := x
    rw [← journal_eq] at hx
    refine ⟨fun hmatch => ?_, fun _ => h₁.dev⟩
    obtain rfl : current = s.session.metadataBefore := recordsAreEqual_iff.mp hmatch
    refine wp_modifyResult fun result => ?_
    refine ⟨fun header hheader => ?_, fun _ _ => h₁.dev⟩
    have haccepted := updatePackageVerifyHeaderForSlot_ok (mapError_eq_ok.mp hheader)
    simp only [wp_modifySession, wp_get, h₁.session, h₁.mem]
    refine ⟨fun v hv => ⟨fun hlt => ?_, fun _ => h₁.dev⟩, fun _ _ => h₁.dev⟩
    refine ⟨fun size hsize => ?_, fun _ _ => h₁.dev⟩
    exact wp_modifyResult fun result' =>
      ⟨h₁.dev, header, size, rfl, ⟨⟨flag, hx⟩, haccepted, v, hv, hlt⟩, hsize⟩
  · simp only [wp_ofExcept]
    refine ⟨fun x hx => ?_, fun _ _ => h₁.dev⟩
    rcases metadataOrBootstrap_ok hx with ⟨-, hok⟩ | ⟨-, -, -, hok | hok⟩ <;> cases hok

/-- The metadata of an update is in the journal. -/
theorem SelectedUpdate.recorded {session : UpdateInstallerSession} {slot : BootSlotId} {m : Mem}
    (h : SelectedUpdate session slot) {bootstrap flag : Bool}
    (hfresh : metadataOrBootstrap bootstrap (journal m) = .ok (session.metadataBefore, flag)) :
    journal m = .ok session.metadataBefore := by
  rcases metadataOrBootstrap_ok hfresh with ⟨-, hok⟩ | ⟨-, hempty, -⟩
  · exact hok
  · have hcan := h.canonical
    rw [hempty] at hcan
    cases hcan

/-- A session that starts from nothing found nothing. -/
theorem SelectedBootstrap.not_recorded {session : UpdateInstallerSession} {m : Mem}
    (h : SelectedBootstrap session) {bootstrap flag : Bool}
    (hfresh : metadataOrBootstrap bootstrap (journal m) = .ok (session.metadataBefore, flag)) :
    journal m = .error .noValidCopy ∨
      journal m = .error .ambiguous := by
  rcases metadataOrBootstrap_ok hfresh with ⟨-, hok⟩ | ⟨-, -, -, herr⟩
  · rw [h.before] at hok
    cases journal_canonical hok
  · exact herr

/-- Both ways to commit `WRITING`. -/
theorem commitWriting_spec {flag : Bool} (hsel : Selected publicKey s.session)
    (hfresh : metadataOrBootstrap s.session.options.recoveryBootstrap (journal s.dev.mem) =
      .ok (s.session.metadataBefore, flag)) :
    wp commitWriting s
      (fun _ s' => Steady MetaOp s s' ∧ Committed s.session.metadataBefore .writing
        s.session.activeSlotId s.session.candidate.toUInt32 s.session.header.manifest.imageVersion
        s'.dev)
      (fun _ s' => Steady MetaOp s s' ∧ CommittedOrNot s.session.metadataBefore .writing
        s.session.activeSlotId s.session.candidate.toUInt32 s.session.header.manifest.imageVersion
        s.dev s'.dev)
      (fun s' => Steady MetaOp s s' ∧ CommittedOrNot s.session.metadataBefore .writing
        s.session.activeSlotId s.session.candidate.toUInt32 s.session.header.manifest.imageVersion
        s.dev s'.dev) := by
  rw [commitWriting]
  rw [wp_bind, wp_getSession]
  rcases hsel.source with ⟨slot, hup⟩ | hboot
  · rw [if_neg]
    · exact commitMetadataState_spec
    · rintro ⟨-, ha, hb⟩
      rcases hup.recovery with h | h
      · rw [ha] at h
        cases h
      · rw [hb] at h
        cases h
  · rw [if_pos ⟨hboot.bootstrap, by rw [hboot.recovery], by rw [hboot.recovery]⟩]
    simp only [wp_bind, wp_ofExcept]
    refine ⟨fun next hnext => ?_, fun _ _ => ⟨Std.Refl.refl s, .inl ⟨rfl, rfl⟩⟩⟩
    replace hnext := mapError_eq_ok.mp hnext
    refine wp.mono (steps_maybeFault (R := fun _ => False) _ _) (fun _ s₁ h₁ => ?_)
      (fun _ s₁ h₁ => ⟨h₁.mono fun _ => False.elim, .inl h₁.dev.eq_of_false⟩)
      (fun s₁ h₁ => ⟨h₁.mono fun _ => False.elim, .inl h₁.dev.eq_of_false⟩)
    rw [onDev]
    simp only [wp_zoom, wp_mapErr]
    have hmem : s₁.dev.mem = s.dev.mem := h₁.dev.eq_of_false.1
    have hframe : Steps (Device.Extends MetaOp)
        (bootMetadataReinitializeForRecovery s.session.restrictedFlash next) :=
      steps_bootMetadataReinitializeForRecovery fun side op hop _ => ⟨side, hop⟩
    have hsteady : ∀ {d'}, s₁.dev.Extends MetaOp d' → Steady MetaOp s { s₁ with dev := d' } :=
      fun hext => IsTrans.trans _ _ _ (h₁.mono fun _ => False.elim) ⟨rfl, hext⟩
    have htorn : ∀ {d' : Device}, ReinitTorn next s₁.dev.mem d'.mem →
        CommittedOrNot s.session.metadataBefore .writing s.session.activeSlotId
          s.session.candidate.toUInt32 s.session.header.manifest.imageVersion s.dev d' := by
      intro d' ht
      refine .inr ⟨next, hnext, fun hamb => ?_⟩
      have hnone := (hboot.not_recorded hfresh).resolve_right hamb
      rw [hnone]
      exact ht.journal_of_none (by rw [hmem, hnone])
    refine wp.mono (bootMetadataReinitializeForRecovery_spec.and (hframe s₁.dev)) ?_ ?_ ?_
    · rintro _ d' ⟨⟨hj, -⟩, hext⟩
      exact ⟨hsteady hext, next, hnext, hj⟩
    · rintro _ d' ⟨⟨hd, -⟩ | ⟨-, ht⟩, hext⟩
      · exact ⟨hsteady hext, .inr ⟨next, hnext, fun _ => .inl (by rw [hd, hmem])⟩⟩
      · exact ⟨hsteady hext, htorn ht⟩
    · rintro d' ⟨⟨-, ht⟩, hext⟩
      exact ⟨hsteady hext, htorn ht⟩

/-- Committing `WRITING` is a step of the protocol. -/
theorem Selected.commit_effect {session : UpdateInstallerSession} {d d' : Device}
    {header : UpdatePackageHeader} (hsel : Selected publicKey session)
    (hacc : BeginAccepted crypto session d.mem headerBytes header) (hext : d.Extends MetaOp d')
    (hcom : CommittedOrNot session.metadataBefore .writing session.activeSlotId
      session.candidate.toUInt32 header.manifest.imageVersion d d') :
    Effect crypto publicKey d d' := by
  obtain ⟨flag, hfresh⟩ := hacc.fresh
  by_cases hamb : journal d.mem = .error .ambiguous
  · exact .of_ambiguous (hext.mono fun _ => .inl) hamb
  rcases hcom.journal hamb with hj | ⟨next, hnext, hj⟩
  · exact .of_same hext hj
  obtain ⟨-, -, hfields⟩ := bootMetadataPrepareNext_ok.mp hnext
  have hstate : next.state = .writing := by rw [hfields]
  have hactive : next.activeSlot = session.activeSlotId := by rw [hfields]
  have hcand : next.candidateSlot = session.candidate.toUInt32 := by rw [hfields]
  have hver : next.candidateImageVersion = header.manifest.imageVersion := by rw [hfields]
  rcases hsel.source with ⟨slot, hup⟩ | hboot
  · have hcur := hup.recorded hfresh
    have hcan := canonical_of_true hup.canonical
    have hstates : session.metadataBefore.state ≠ .candidateReady ∧
        session.metadataBefore.state ≠ .pendingTrial := by
      rcases hup.state with hs | hs <;> rw [hs] <;> decide
    refine .of_commit hext hcur hj ⟨?_, fun hn => ?_⟩ hstates ?_
    · rw [hactive, hup.activeSlotId, hup.before]
    · rw [hup.before] at hn
      exact absurd hn slot.toUInt32_ne_none
    refine step_begin hstate (hactive.trans hup.activeSlotId) (by rw [hcand, hup.candidate])
      hup.before ?_
    -- the floor is in the record when it is confirmed, and in the slot when it is rejected
    obtain ⟨v, hv, hlt⟩ := hacc.newer
    rw [confirmedVersionForUpdate] at hv
    rcases hup.state with hs | hs
    · rw [if_pos hs] at hv
      cases hv
      exact .inl ⟨hs, hver ▸ hlt⟩
    · obtain ⟨hc, -⟩ := hcan.candidate (by simp [hs]) (by simp [hs])
      rw [if_neg (by simp [hs]), hup.active] at hv
      simp only at hv
      split at hv
      · cases hv
      · rename_i hverify
        cases hv
        refine .inr ⟨hs, hc, ?_, ?_⟩
        · rw [hsel.key] at hverify
          exact hverify
        · rw [hver]
          exact UInt32.lt_iff_toNat_lt.mp hlt
  · have hnone := (hboot.not_recorded hfresh).resolve_right hamb
    have hnact := hactive.trans hboot.activeSlotId
    have hncand : next.candidateSlot = BootSlotId.a.toUInt32 := by rw [hcand, hboot.candidate]
    have hkeeps : KeepsActive d.mem d'.mem := by
      refine ⟨fun r hr => ?_, fun _ => .inr ⟨next, hj, hnact, hncand⟩⟩
      rw [hnone] at hr
      cases hr
    have hoffer : OnOffer d.mem → journal d'.mem = journal d.mem := by
      rintro ⟨r, hr, -⟩
      rw [hnone] at hr
      cases hr
    refine ⟨hext.mono fun _ => .inl, hkeeps, hoffer, fun _ => ?_⟩
    have hblank : (store crypto publicKey d.mem).phase = .blank := by
      change journalPhase d.mem = _
      rw [journalPhase]
      rw [hnone]
    rw [store_of_commit (SlotSame.of_meta hext) hj]
    exact .single (step_bootstrap hblank hstate hnact hncand)

/-- Erasing and programming the candidate once `WRITING` is in the journal. -/
theorem Selected.fill_effect {session : UpdateInstallerSession} {d d' d'' : Device}
    {header : UpdatePackageHeader} {writing : BootMetadataRecord}
    (hsel : Selected publicKey session)
    (hacc : BeginAccepted crypto session d.mem headerBytes header)
    (heff : Effect crypto publicKey d d') (hext : d.Extends MetaOp d')
    (hj : journal d'.mem = .ok writing) (hs : writing.state = .writing)
    (hc : writing.candidateSlot = session.candidate.toUInt32)
    (hfill : d'.Extends (InSlot session.candidate) d'') : Effect crypto publicKey d d'' := by
  by_cases hamb : journal d.mem = .error .ambiguous
  · obtain ⟨flag, hfresh⟩ := hacc.fresh
    rcases hsel.source with ⟨slot, hup⟩ | hboot
    · have := hup.recorded hfresh
      rw [hamb] at this
      cases this
    · rw [hboot.candidate] at hfill
      exact .of_ambiguous (IsTrans.trans _ _ _ (hext.mono fun _ => .inl)
        (hfill.mono fun _ => .inr)) hamb
  · exact heff.trans (.of_fill hfill hj hs hc) hamb

/-- A changed counter or header does not change what was selected. -/
theorem Selected.of_header (h : Selected publicKey s.session) (header : UpdatePackageHeader)
    (payloadProgramSize : ℕ) :
    Selected publicKey { s.session with header, payloadProgramSize } where
  restricted := h.restricted
  key := h.key
  options := h.options
  blocks := h.blocks
  received := h.received
  programmed := h.programmed
  fill := h.fill
  uncommitted := h.uncommitted
  source := h.source.imp
    (fun ⟨slot, h⟩ => ⟨slot, h.state, h.canonical, h.before, h.active, h.candidate, h.activeSlotId,
      h.recovery⟩)
    fun h => ⟨h.before, h.active, h.candidate, h.activeSlotId, h.recovery, h.bootstrap⟩

theorem readBackWriting_spec {writing : BootMetadataRecord} (hj : journal s.dev.mem = .ok writing) :
    wp readBackWriting s
      (fun _ s' => s.dev.Extends (fun _ => False) s'.dev ∧
        s'.session = { s.session with writingMetadata := writing } ∧ writing.state = .writing ∧
        writing.activeSlot = s.session.activeSlotId ∧
        writing.candidateSlot = s.session.candidate.toUInt32)
      (fun _ s' => s.dev.Extends (fun _ => False) s'.dev)
      (fun s' => s.dev.Extends (fun _ => False) s'.dev) := by
  rw [readBackWriting]
  simp only [wp_bind, wp_ofExcept, wp_modifySession, wp_getSession, wp_check]
  refine wp_recover (fun s₁ h₁ => ?_) (fun s₁ h₁ _ => ⟨fun _ h => (by cases h), fun _ _ => h₁.dev⟩)
    (fun s₁ h₁ _ => h₁.dev)
  rw [← journal_eq, hj]
  simp only [h₁.session, recoveredInto, Except.mapError]
  refine ⟨fun r hr => ?_, fun _ _ => h₁.dev⟩
  obtain rfl : writing = r := Except.ok.inj hr
  exact ⟨fun hcheck => ⟨h₁.dev, trivial, hcheck⟩, fun _ => h₁.dev⟩

theorem programHeader_spec (hs : s.session.Restricted) :
    wp (programHeader headerBytes) s
      (fun _ s' => s.dev.Extends (InSlot s.session.candidate) s'.dev ∧
        s'.session.steady = { s.session.steady with candidateErased := true })
      (fun _ s' => s.dev.Extends (InSlot s.session.candidate) s'.dev)
      (fun s' => s.dev.Extends (InSlot s.session.candidate) s'.dev) := by
  rw [programHeader]
  simp only [wp_bind, wp_modifySession, wp_getSession]
  refine wp.mono (steps_eraseCandidateSlot hs) (fun _ s₁ h₁ => ?_) (fun _ s₁ h₁ => h₁.dev)
    (fun s₁ h₁ => h₁.dev)
  have hdev : ∀ {s₂ : Installer}, Steady (InSlot s₁.session.candidate)
      { s₁ with session := { s₁.session with candidateErased := true } } s₂ →
      s.dev.Extends (InSlot s.session.candidate) s₂.dev := fun h₂ =>
    IsTrans.trans _ _ _ h₁.dev (h₁.candidate ▸ h₂.dev)
  refine wp.mono (steps_programSourceRange
      (s := { s₁ with session := { s₁.session with candidateErased := true } }) (h₁.restricted hs))
    (fun _ s₂ h₂ => ⟨hdev h₂, ?_⟩) (fun _ s₂ h₂ => hdev h₂) (fun s₂ h₂ => hdev h₂)
  rw [← h₁.steady]
  exact h₂.steady

/-- The header is accepted, and `WRITING` can be committed for it. -/
def BeginAdmitted (crypto : Crypto) (s : Installer) (headerBytes : List UInt8) : Prop :=
  s.session.state = .initialized ∧ ∃ header writing,
    BeginAccepted crypto s.session s.dev.mem headerBytes header ∧
    bootMetadataPrepareNext s.session.metadataBefore .writing s.session.activeSlotId
      s.session.candidate.toUInt32 header.manifest.imageVersion 0 0 0 = .ok writing

/-- What `update_installer_begin` may have done: nothing at all unless it accepted the header. -/
structure BeginEffect (crypto : Crypto) (publicKey headerBytes : List UInt8) (s : Installer)
    (d' : Device) : Prop where
  effect : Effect crypto publicKey s.dev d'
  authentic : (d'.mem = s.dev.mem ∧ d'.log = s.dev.log) ∨ BeginAdmitted crypto s headerBytes

theorem BeginEffect.of_quiet {d' : Device} (h : s.dev.Extends (fun _ => False) d') :
    BeginEffect crypto publicKey headerBytes s d' :=
  ⟨.of_quiet h, .inl h.eq_of_false⟩

/-- The session once `update_installer_begin` has succeeded. -/
def begunSession (session : UpdateInstallerSession) (header : UpdatePackageHeader)
    (payloadProgramSize : ℕ) (writingMetadata : BootMetadataRecord) : UpdateInstallerSession :=
  { session with
    header, payloadProgramSize, writingMetadata
    metadataWritingCommitted := true
    candidateErased := true
    payloadHashCtx := []
    state := .writing }

/-- A header that was accepted, and the record that says so. -/
structure Begun (crypto : Crypto) (s : Installer) (headerBytes : List UInt8)
    (session : UpdateInstallerSession) : Prop where
  state : s.session.state = .initialized
  begun : ∃ header size writing, BeginAccepted crypto s.session s.dev.mem headerBytes header ∧
    bootMetadataPrepareNext s.session.metadataBefore .writing s.session.activeSlotId
      s.session.candidate.toUInt32 header.manifest.imageVersion 0 0 0 = .ok writing ∧
    candidatePackageFits s.session.restrictedFlash (bootSlots s.session.candidate) header =
      .ok size ∧
    session.steady = (begunSession s.session header size writing).steady

/-- Reading does not count. -/
theorem CommittedOrNot.of_read {cur : BootMetadataRecord} {state : BootMetadataState}
    {active candidate version : UInt32} {d d₁ d' : Device} (hread : d.Extends (fun _ => False) d₁)
    (h : CommittedOrNot cur state active candidate version d₁ d') :
    CommittedOrNot cur state active candidate version d d' := by
  rw [CommittedOrNot, hread.eq_of_false.1, hread.eq_of_false.2] at h
  exact h

/-- A commit of `WRITING` for an accepted header, whatever becomes of it. -/
theorem BeginEffect.of_commit {header : UpdatePackageHeader} {d' : Device}
    (hsel : Selected publicKey s.session) (hstate : s.session.state = .initialized)
    (hacc : BeginAccepted crypto s.session s.dev.mem headerBytes header)
    (hext : s.dev.Extends MetaOp d')
    (h : CommittedOrNot s.session.metadataBefore .writing s.session.activeSlotId
      s.session.candidate.toUInt32 header.manifest.imageVersion s.dev d') :
    BeginEffect crypto publicKey headerBytes s d' :=
  ⟨hsel.commit_effect hacc hext h, h.imp_right fun hnext =>
    ⟨hstate, header, hnext.choose, hacc, hnext.choose_spec.1⟩⟩

/-- The update that has begun has its record in the journal. -/
theorem Selected.filling {session : UpdateInstallerSession} {header : UpdatePackageHeader}
    {size : ℕ} {next : BootMetadataRecord} {m : Mem} (hsel : Selected publicKey session)
    (hnext : bootMetadataPrepareNext session.metadataBefore .writing session.activeSlotId
      session.candidate.toUInt32 header.manifest.imageVersion 0 0 0 = .ok next)
    (hj : journal m = .ok next) :
    Filling publicKey m (begunSession session header size next) := by
  obtain ⟨-, -, hfields⟩ := bootMetadataPrepareNext_ok.mp hnext
  refine ⟨hsel.restricted, hsel.key, rfl, hj, ?_, ?_, ?_, ?_⟩ <;> rw [hfields] <;> rfl

/-- The steps of `update_installer_begin`, seen together. -/
theorem steady_begunSession {s₁ s₂ s₃ s₄ : Installer} {header : UpdatePackageHeader} {size : ℕ}
    {next : BootMetadataRecord}
    (hchecked : s₁.session = { s.session with header, payloadProgramSize := size })
    (hcommitted : Steady MetaOp s₁ s₂)
    (hread : s₃.session = { s₂.session with
      metadataWritingCommitted := true
      writingMetadata := next })
    (hprogrammed : s₄.session.steady = { s₃.session.steady with candidateErased := true }) :
    ({ s₄.session with payloadHashCtx := [], state := .writing } : UpdateInstallerSession).steady =
      (begunSession s.session header size next).steady := by
  have h : ({ s₄.session.steady with payloadHashCtx := [], state := .writing } :
      UpdateInstallerSession) =
      { s₁.session.steady with
        writingMetadata := next
        metadataWritingCommitted := true
        candidateErased := true
        payloadHashCtx := []
        state := .writing } := by
    rw [hprogrammed, hread, ← hcommitted.steady]
    rfl
  rw [hchecked] at h
  exact h

theorem updateInstallerBegin_spec (hinv : SessionInv publicKey s) :
    wp (updateInstallerBegin crypto headerBytes) s
      (fun _ s' => BeginEffect crypto publicKey headerBytes s s'.dev ∧
        Filling publicKey s'.dev.mem s'.session ∧ Begun crypto s headerBytes s'.session)
      (fun _ s' => BeginEffect crypto publicKey headerBytes s s'.dev ∧ SessionInv publicKey s')
      (fun s' => BeginEffect crypto publicKey headerBytes s s'.dev) := by
  rw [updateInstallerBegin]
  simp only [wp_bind, wp_getSession, wp_check, wp_failSession]
  refine ⟨fun hstate => ?_, fun _ => ⟨.of_quiet (Std.Refl.refl s.dev), hinv⟩⟩
  have hsel := hinv.selected hstate
  refine beginChecks_spec.mono ?_ (fun _ s₁ h₁ => ⟨.of_quiet h₁, trivial⟩) (fun s₁ h₁ => .of_quiet h₁)
  rintro _ s₁ ⟨hread, header, size, hsession₁, hacc, hsize⟩
  have hsel₁ : Selected publicKey s₁.session := by
    rw [hsession₁]
    exact hsel.of_header header size
  obtain ⟨flag, hfresh⟩ := hacc.fresh
  -- `WRITING` is committed
  have hcommit := @commitWriting_spec publicKey s₁ flag hsel₁ (by
    rw [hsession₁, hread.eq_of_false.1]
    exact hfresh)
  simp only [hsession₁] at hcommit
  have hext₂ : ∀ {s₂}, Steady MetaOp s₁ s₂ → s.dev.Extends MetaOp s₂.dev := fun h =>
    IsTrans.trans _ _ _ (hread.mono fun _ => False.elim) h.dev
  refine hcommit.mono ?_
    (fun _ s₂ h₂ => ⟨.of_commit hsel hstate hacc (hext₂ h₂.1) (h₂.2.of_read hread), trivial⟩)
    fun s₂ h₂ => .of_commit hsel hstate hacc (hext₂ h₂.1) (h₂.2.of_read hread)
  rintro _ s₂ ⟨hstr₂, hcom₂⟩
  have heff₂ : Effect crypto publicKey s.dev s₂.dev :=
    hsel.commit_effect hacc (hext₂ hstr₂) hcom₂.orNot
  obtain ⟨next, hnext, hj₂⟩ := hcom₂
  have hpost : ∀ {d'}, Effect crypto publicKey s.dev d' →
      BeginEffect crypto publicKey headerBytes s d' := fun h =>
    ⟨h, .inr ⟨hstate, header, next, hacc, hnext⟩⟩
  -- it is read back
  refine (readBackWriting_spec (s := { s₂ with session :=
      { s₂.session with metadataWritingCommitted := true } }) hj₂).mono ?_
    (fun _ s₃ h₃ => ⟨hpost (heff₂.read h₃), trivial⟩) (fun s₃ h₃ => hpost (heff₂.read h₃))
  rintro _ s₃ ⟨hread₃, hsession₃, hwriting, -, hcand⟩
  have hj₃ : journal s₃.dev.mem = .ok next := by rw [hread₃.eq_of_false.1, hj₂]
  have hcand₃ : s₃.session.candidate = s.session.candidate := by
    rw [hsession₃]
    exact hstr₂.candidate.trans (by rw [hsession₁])
  have hrestricted₃ : s₃.session.Restricted := by
    rw [hsession₃]
    exact hstr₂.restricted hsel₁.restricted
  have hfill : ∀ {d'}, s₃.dev.Extends (InSlot s₃.session.candidate) d' →
      Effect crypto publicKey s.dev d' := by
    intro d' hd'
    rw [hcand₃] at hd'
    refine hsel.fill_effect hacc (heff₂.read hread₃) ?_ hj₃ hwriting ?_ hd'
    · exact IsTrans.trans _ _ _ (hext₂ hstr₂) (hread₃.mono fun _ => False.elim)
    · rw [hcand, ← hcand₃, hsession₃]
  -- and the slot is written
  refine (programHeader_spec hrestricted₃).mono ?_
    (fun _ s₄ h₄ => ⟨hpost (hfill h₄), trivial⟩) (fun s₄ h₄ => hpost (hfill h₄))
  rintro _ s₄ ⟨hdev₄, hsteady₄⟩
  have hsteady := steady_begunSession hsession₁ hstr₂ hsession₃ hsteady₄
  have hfilling : Filling publicKey s₄.dev.mem (begunSession s.session header size next) :=
    hsel.filling hnext ((journal_of_inSlot hdev₄).trans hj₃)
  exact ⟨hpost (hfill hdev₄), filling_of_steady hsteady hfilling, hstate, header, size, next, hacc,
    hnext, hsize, hsteady⟩

/-- A header that was accepted, or for which anything at all was written, is admissible. -/
theorem updateInstallerBegin_admitted (hinv : SessionInv publicKey s)
    (h : (∃ s', updateInstallerBegin crypto headerBytes s = .ret () s') ∨
      (updateInstallerBegin crypto headerBytes s).state.dev.log ≠ s.dev.log) :
    BeginAdmitted crypto s headerBytes := by
  have hspec : wp (updateInstallerBegin crypto headerBytes) s _ _ _ :=
    updateInstallerBegin_spec hinv
  cases hrun : updateInstallerBegin crypto headerBytes s with
  | ret u s' =>
    obtain ⟨-, -, hstate, header, -, writing, hacc, hnext, -⟩ := hspec.ret hrun
    exact ⟨hstate, header, writing, hacc, hnext⟩
  | err e s' =>
    rw [hrun] at h
    exact (hspec.err hrun).1.authentic.resolve_left fun hsame =>
      (h.resolve_left fun ⟨_, hc⟩ => nomatch hc) hsame.2
  | cut s' =>
    rw [hrun] at h
    exact (hspec.cut hrun).authentic.resolve_left fun hsame =>
      (h.resolve_left fun ⟨_, hc⟩ => nomatch hc) hsame.2

/-! ### `update_installer_write` -/

theorem updateInstallerWrite_spec {payloadOffset : ℕ} {data : List UInt8}
    (hinv : SessionInv publicKey s) :
    wp (updateInstallerWrite payloadOffset data) s
      (fun _ s' => Effect crypto publicKey s.dev s'.dev ∧ SessionInv publicKey s')
      (fun _ s' => Effect crypto publicKey s.dev s'.dev ∧ SessionInv publicKey s')
      (fun s' => Effect crypto publicKey s.dev s'.dev) := by
  have hrefl : Effect crypto publicKey s.dev s.dev := .of_quiet (Std.Refl.refl s.dev)
  rw [updateInstallerWrite]
  simp only [wp_bind, wp_getSession, wp_check, wp_failSession, wp_modifySession]
  refine ⟨fun _ => ⟨fun hstate => ⟨fun _ => ⟨fun _ => ⟨fun _ => ?_, fun _ => ⟨hrefl, trivial⟩⟩,
    fun _ => ⟨hrefl, trivial⟩⟩, fun _ => ⟨hrefl, hinv⟩⟩, fun _ => ⟨hrefl, hinv⟩⟩,
    fun _ => ⟨hrefl, trivial⟩⟩
  have hfill := hinv.filling (.inl hstate)
  refine wp.mono (steps_writeLoop hfill.restricted) (fun _ s₁ h₁ => ⟨hfill.effect h₁, ?_⟩)
    (fun _ s₁ h₁ => ⟨hfill.effect h₁, trivial⟩) (fun s₁ h₁ => hfill.effect h₁)
  have hfill₁ := hfill.streams h₁
  have hstate₁ : s₁.session.state = .writing := h₁.state.trans hstate
  rw [SessionInv]
  split
  · rename_i hs
    split at hs
    · cases hs
    · rw [hstate₁] at hs
      cases hs
  · split <;> exact ⟨hfill₁.restricted, hfill₁.key, hfill₁.committed, hfill₁.recorded, hfill₁.state,
      hfill₁.active, hfill₁.candidate, hfill₁.version⟩
  · split <;> exact ⟨hfill₁.restricted, hfill₁.key, hfill₁.committed, hfill₁.recorded, hfill₁.state,
      hfill₁.active, hfill₁.candidate, hfill₁.version⟩
  all_goals trivial

/-! ### `update_installer_finish` -/

/-- What `verify_installed_package` has verified. -/
theorem verifyInstalledPackage_spec :
    wp (verifyInstalledPackage crypto) s
      (fun _ s' => Steady (fun _ => False) s s' ∧
        slotVerify crypto s.session.publicKey s'.dev.mem (bootSlots s.session.candidate) = .ok () ∧
        slotVersion s'.dev.mem (bootSlots s.session.candidate) =
          s.session.header.manifest.imageVersion)
      (fun _ s' => Steady (fun _ => False) s s') (fun s' => Steady (fun _ => False) s s') := by
  rw [verifyInstalledPackage]
  simp only [wp_bind, wp_getSession, wp_get]
  refine wp.mono (steps_maybeFault _ _) (fun _ s₁ h₁ => ?_) (fun _ _ h => h) (fun _ h => h)
  refine wp_modifyResult fun result => ?_
  have hsteady : Steady (fun _ => False) s { s₁ with result } := ⟨h₁.steady, h₁.dev⟩
  split
  · rename_i hstatus
    rw [wp_pure]
    refine ⟨hsteady, ?_⟩
    rw [installedVerifyStatus] at hstatus
    split at hstatus
    · cases hstatus
    rename_i hverify
    split at hstatus
    · cases hstatus
    rename_i hmatch
    refine ⟨hverify, ?_⟩
    rw [manifestMatchesHeader] at hmatch
    rw [slotVersion]
    rw [Bool.not_eq_false, beq_iff_eq] at hmatch
    rw [hmatch]
  · exact hsteady

/-- Committing `CANDIDATE_READY` for a slot that verifies is a step of the protocol. -/
theorem Filling.finish_effect {d' : Device} (h : Filling publicKey s.dev.mem s.session)
    (hs : Streams (InSlot s.session.candidate) s s') (hext : s'.dev.Extends MetaOp d')
    (hverify : slotVerify crypto publicKey s'.dev.mem (bootSlots s.session.candidate) = .ok ())
    (hversion : slotVersion s'.dev.mem (bootSlots s.session.candidate) =
      s.session.header.manifest.imageVersion)
    (hcom : CommittedOrNot s.session.writingMetadata .candidateReady s.session.activeSlotId
      s.session.candidate.toUInt32 s.session.header.manifest.imageVersion s'.dev d') :
    Effect crypto publicKey s.dev d' := by
  have hj : journal s'.dev.mem = .ok s.session.writingMetadata :=
    (journal_of_inSlot hs.dev).trans h.recorded
  refine (h.effect hs).trans ?_ (by rw [h.recorded]; simp)
  rcases hcom.journal (by rw [hj]; simp) with hsame | ⟨next, hnext, hj'⟩
  · exact .of_same hext hsame
  obtain ⟨-, -, hfields⟩ := bootMetadataPrepareNext_ok.mp hnext
  refine .of_commit hext hj hj' ⟨?_, fun _ => ?_⟩ (by rw [h.state]; decide) ?_
  · rw [hfields, h.active]
  · rw [hfields, h.candidate]
  · refine step_ready h.state (by rw [hfields]) h.candidate ?_ ?_ ?_ hverify ?_
    · rw [hfields, h.candidate]
    · rw [hfields, h.active]
    · rw [hfields, h.version]
    · rw [h.version, ← hversion]
      rfl

theorem updateInstallerFinish_spec (hinv : SessionInv publicKey s) :
    wp (updateInstallerFinish crypto) s
      (fun _ s' => Effect crypto publicKey s.dev s'.dev ∧ s'.session.state = .finished ∧
        Committed s.session.writingMetadata .candidateReady s.session.activeSlotId
          s.session.candidate.toUInt32 s.session.header.manifest.imageVersion s'.dev)
      (fun _ s' => Effect crypto publicKey s.dev s'.dev ∧ SessionInv publicKey s')
      (fun s' => Effect crypto publicKey s.dev s'.dev) := by
  have hrefl : Effect crypto publicKey s.dev s.dev := .of_quiet (Std.Refl.refl s.dev)
  rw [updateInstallerFinish]
  simp only [wp_bind, wp_getSession, wp_check, wp_failSession, wp_modifySession]
  refine ⟨fun _ => ⟨fun hstate => ?_, fun _ => ⟨hrefl, hinv⟩⟩, fun _ => ⟨hrefl, trivial⟩⟩
  have hfill := hinv.filling (.inr hstate)
  have hfilled : ∀ {s'}, Streams (InSlot s.session.candidate) s s' →
      Effect crypto publicKey s.dev s'.dev := fun h => hfill.effect h
  refine wp.mono (steps_flushPayloadProgramBuffer true hfill.restricted) (fun _ s₁ h₁ => ?_)
    (fun _ _ h => ⟨hfilled h, trivial⟩) (fun _ h => hfilled h)
  refine ⟨fun _ => ?_, fun _ => ⟨hfilled h₁, trivial⟩⟩
  refine wp.mono (steps_verifyStreamingPayloadHash crypto)
    (fun _ s₂ h₂ => ?_) (fun _ _ h => ⟨hfilled (IsTrans.trans _ _ _ h₁ h), trivial⟩)
    (fun _ h => hfilled (IsTrans.trans _ _ _ h₁ h))
  have hs₂ := IsTrans.trans _ _ _ h₁ h₂
  refine wp.mono (steps_streams (steps_hashInstalledPayload crypto))
    (fun _ s₃ h₃ => ?_) (fun _ _ h => ⟨hfilled (IsTrans.trans _ _ _ hs₂ h), trivial⟩)
    (fun _ h => hfilled (IsTrans.trans _ _ _ hs₂ h))
  have hs₃ := IsTrans.trans _ _ _ hs₂ h₃
  refine verifyInstalledPackage_spec.mono ?_
    (fun _ _ h => ⟨hfilled (IsTrans.trans _ _ _ hs₃ (h.streams.mono fun _ => False.elim)), trivial⟩)
    (fun _ h => hfilled (IsTrans.trans _ _ _ hs₃ (h.streams.mono fun _ => False.elim)))
  rintro _ s₄ ⟨h₄, hverify, hversion⟩
  have hs₄ := IsTrans.trans _ _ _ hs₃ (h₄.streams.mono fun _ => False.elim)
  have hready : ∀ {s₅ : Installer}, Steady MetaOp s₄ s₅ →
      CommittedOrNot s.session.writingMetadata .candidateReady s.session.activeSlotId
        s.session.candidate.toUInt32 s.session.header.manifest.imageVersion s₄.dev s₅.dev →
      Effect crypto publicKey s.dev s₅.dev := fun h₅ hcom =>
    hfill.finish_effect hs₄ h₅.dev (congrArg (·.candidate) hs₃.core ▸ hfill.key ▸
      congrArg (·.publicKey) hs₃.core ▸ hverify) (congrArg (·.candidate) hs₃.core ▸
      congrArg (·.header) hs₃.core ▸ hversion) hcom
  refine commitMetadataState_spec.mono (fun _ s₅ h₅ => ⟨hready h₅.1 h₅.2.orNot, trivial, h₅.2⟩)
    (fun _ s₅ h₅ => ⟨hready h₅.1 h₅.2, trivial⟩) (fun s₅ h₅ => hready h₅.1 h₅.2)

/-! ### `update_installer_abort` -/

/-- The journal has an update of the session under way. -/
def Open (session : UpdateInstallerSession) (m : Mem) : Prop :=
  ∃ r, journal m = .ok r ∧ r.state = .writing ∧ r.activeSlot = session.activeSlotId ∧
    r.candidateSlot = session.candidate.toUInt32 ∧
    r.candidateImageVersion = session.header.manifest.imageVersion

/-- Aborting rejects the candidate of an update that is under way. -/
theorem abortWriting_spec :
    wp (abortWriting s.session) s
      (fun _ s' => Effect crypto publicKey s.dev s'.dev ∧ ¬ Open s.session s'.dev.mem)
      (fun _ s' => Effect crypto publicKey s.dev s'.dev)
      (fun s' => Effect crypto publicKey s.dev s'.dev) := by
  rw [abortWriting]
  simp only [wp_bind, wp_ofExcept]
  refine wp_recover (fun s₁ h₁ => ?_) (fun s₁ h₁ _ => ⟨fun _ h => (by cases h), fun _ _ => .of_quiet h₁.dev⟩)
    (fun s₁ h₁ _ => .of_quiet h₁.dev)
  have heff₁ : Effect crypto publicKey s.dev s₁.dev := .of_quiet h₁.dev
  refine ⟨fun current hcur => ?_, fun _ _ => heff₁⟩
  replace hcur := mapError_eq_ok.mp hcur
  rw [← journal_eq] at hcur
  rw [wp_ite]
  constructor
  · rintro ⟨hstate, hactive, hcand, hver⟩
    simp only [wp_bind, wp_ofExcept]
    refine ⟨fun next hnext => ?_, fun _ _ => heff₁⟩
    replace hnext := mapError_eq_ok.mp hnext
    obtain ⟨-, -, hfields⟩ := bootMetadataPrepareNext_ok.mp hnext
    rw [onDev]
    simp only [wp_zoom, wp_mapErr]
    have hcommitted : ∀ {d' : Device}, s₁.dev.Extends MetaOp d' → journal d'.mem = .ok next →
        Effect crypto publicKey s.dev d' := by
      intro d' hext hj
      refine heff₁.trans (.of_commit hext (by rw [h₁.mem, hcur]) hj ⟨?_, fun _ => ?_⟩
        (by rw [hstate]; decide) ?_) (by rw [hcur]; simp)
      · rw [hfields, hactive]
      · rw [hfields, hcand]
      · refine step_reject (.inl hstate) (by rw [hfields]) hcand ?_ ?_ ?_
        · rw [hfields, hcand]
        · rw [hfields, hactive]
        · rw [hfields, hver]
    have htorn : ∀ {d' : Device}, CommitTorn next s₁.dev d' → s₁.dev.Extends MetaOp d' →
        Effect crypto publicKey s.dev d' := by
      intro d' ht hext
      rcases ht.journal with hj | ⟨hj, -⟩
      · exact heff₁.trans (.of_same hext hj) (by rw [hcur]; simp)
      · exact hcommitted hext hj
    have hframe : Steps (Device.Extends MetaOp)
        (bootMetadataCommit s.session.restrictedFlash next) :=
      steps_bootMetadataCommit fun side op hop _ => ⟨side, hop⟩
    refine wp.mono (bootMetadataCommit_spec.and (hframe s₁.dev)) ?_
      (fun _ d' h => htorn h.1 h.2) (fun d' h => htorn h.1 h.2)
    rintro _ d' ⟨⟨hj, -⟩, hext⟩
    refine ⟨hcommitted hext hj, ?_⟩
    rintro ⟨r, hr, hs, -⟩
    obtain rfl : next = r := Except.ok.inj (hj.symm.trans hr)
    rw [hfields] at hs
    cases hs
  · intro hnot
    rw [wp_check]
    refine ⟨fun _ => ⟨heff₁, ?_⟩, fun _ => heff₁⟩
    rintro ⟨r, hr, hopen⟩
    rw [h₁.mem, hcur] at hr
    cases hr
    exact hnot hopen

theorem updateInstallerAbort_spec (hinv : SessionInv publicKey s) :
    wp updateInstallerAbort s
      (fun _ s' => Effect crypto publicKey s.dev s'.dev ∧ s'.session.state = .aborted ∧
        (s.session.state ≠ .aborted → s.session.metadataWritingCommitted = true →
          ¬ Open s.session s'.dev.mem))
      (fun _ s' => Effect crypto publicKey s.dev s'.dev ∧ SessionInv publicKey s')
      (fun s' => Effect crypto publicKey s.dev s'.dev) := by
  have hrefl : Effect crypto publicKey s.dev s.dev := .of_quiet (Std.Refl.refl s.dev)
  rw [updateInstallerAbort]
  simp only [wp_bind, wp_getSession, wp_check]
  refine ⟨fun _ => ?_, fun _ => ⟨hrefl, hinv⟩⟩
  rw [wp_ite]
  refine ⟨fun habort => ⟨hrefl, habort, fun h => absurd habort h⟩, fun _ => ?_⟩
  simp only [wp_bind, wp_failSession, wp_modifySession]
  rw [wp_ite]
  refine ⟨fun _ => ?_, fun hc => ⟨hrefl, trivial, fun _ hc' => absurd hc' hc⟩⟩
  exact abortWriting_spec.mono (fun _ s₁ h => ⟨h.1, trivial, fun _ _ => h.2⟩)
    (fun _ _ h => ⟨h, trivial⟩) (fun _ h => h)

end Stm32SecurityLab
