import Stm32SecurityLab.Protocol.Reader
import Stm32SecurityLab.Installer.Cleanup

/-!
# Nothing is written without a signature

A session hears whatever comes over the line, and nobody has authenticated the other end. The only
frame that makes it write is a `BEGIN_UPDATE` whose header the installer accepts: signed with the
configured key, for the slot that is not in use, and above the confirmed version. Until such a frame
has been executed the installer has no update under way, so there is nothing to write, to finish or
to abort, and the flash stays as it is, also when the power goes.

## Main definitions

* `UpdateFloor`, `Authorises` — which headers authorise an update of a flash
* `Unarmed` — a session that has not written anything

## Main results

* `Unarmed.executed`, `Unarmed.interrupted` — one frame
* `runLine_unarmed` — everything that comes over the line
* `unauthenticated_input_writes_nothing`
-/

namespace Stm32SecurityLab

open Crash Installer

/-! ### What authorises an update -/

/-- The slot that an update of the flash contents `m` is written to, and the version that it has to
exceed: that of the image in the other slot, which is in the record while that is confirmed, and in
the slot itself after an update has been rejected. -/
inductive UpdateFloor (crypto : Crypto) (publicKey : List UInt8) (recoveryBootstrap : Bool)
    (m : Mem) : BootSlotId → UInt32 → Prop
  | confirmed {record : BootMetadataRecord} {slot : BootSlotId}
      (recorded : journal m = .ok record) (state : record.state = .confirmed)
      (active : record.activeSlot = slot.toUInt32) :
      UpdateFloor crypto publicKey recoveryBootstrap m slot.other record.candidateImageVersion
  | rejected {record : BootMetadataRecord} {slot : BootSlotId}
      (recorded : journal m = .ok record) (state : record.state = .rejectedInvalid)
      (active : record.activeSlot = slot.toUInt32)
      (valid : slotVerify crypto publicKey m (bootSlots slot) = .ok ()) :
      UpdateFloor crypto publicKey recoveryBootstrap m slot.other (slotVersion m (bootSlots slot))
  | bootstrap (recovery : recoveryBootstrap = true)
      (lost : journal m = .error .noValidCopy ∨ journal m = .error .ambiguous) :
      UpdateFloor crypto publicKey recoveryBootstrap m .a (minImageVersion - 1)

/-- The header of a package that may be installed over the flash contents `m`. -/
def Authorises (crypto : Crypto) (publicKey : List UInt8) (recoveryBootstrap : Bool) (m : Mem)
    (headerBytes : List UInt8) : Prop :=
  ∃ candidate floor header, UpdateFloor crypto publicKey recoveryBootstrap m candidate floor ∧
    HeaderAccepted crypto publicKey headerBytes (bootSlots candidate) header ∧
    floor < header.manifest.imageVersion

variable {crypto : Crypto} {publicKey headerBytes : List UInt8} {s s' : Installer}

/-- What `update_installer_begin` accepts authorises an update of the flash it looked at. -/
theorem BeginAccepted.authorises {session : UpdateInstallerSession} {m : Mem}
    {header : UpdatePackageHeader} (hsel : Selected publicKey session)
    (hacc : BeginAccepted crypto session m headerBytes header) :
    Authorises crypto publicKey session.options.recoveryBootstrap m headerBytes := by
  obtain ⟨flag, hfresh⟩ := hacc.fresh
  obtain ⟨v, hv, hlt⟩ := hacc.newer
  have haccepted := hacc.accepted
  rw [hsel.key] at haccepted
  refine ⟨session.candidate, v, header, ?_, haccepted, hlt⟩
  rw [confirmedVersionForUpdate] at hv
  rcases hsel.source with ⟨slot, hup⟩ | hboot
  · have hj := hup.recorded hfresh
    rw [hup.candidate]
    rcases hup.state with hs | hs
    · rw [if_pos hs] at hv
      obtain rfl := Except.ok.inj hv
      exact .confirmed hj hs hup.before
    · rw [if_neg (by rw [hs]; decide), hup.active, hsel.key] at hv
      cases hverify : slotVerify crypto publicKey m (bootSlots slot) with
      | error e =>
        simp only [hverify] at hv
        cases hv
      | ok _ =>
        simp only [hverify] at hv
        obtain rfl := Except.ok.inj hv
        exact .rejected hj hs hup.before hverify
  · rw [if_neg (by rw [hboot.before]; decide), hboot.active] at hv
    obtain rfl := Except.ok.inj hv
    rw [hboot.candidate]
    exact .bootstrap hboot.bootstrap (hboot.not_recorded hfresh)

/-! ### The installer before an update -/

/-- Neither erased nor programmed. -/
def Unwritten (d d' : Device) : Prop := d'.mem = d.mem ∧ d'.log = d.log

theorem Unwritten.trans {d d' d'' : Device} (h : Unwritten d d') (h' : Unwritten d' d'') :
    Unwritten d d'' :=
  ⟨h'.1.trans h.1, h'.2.trans h.2⟩

/-! ### One frame -/

/-- A session that has not written anything: no update is under way, and the flash is that of
`d`. -/
structure Unarmed (publicKey : List UInt8) (options : UpdateInstallOptions) (d : Device)
    (p : UpdateProtocolSession) : Prop where
  key : p.publicKey = publicKey
  options : p.installOptions = options
  unwritten : Unwritten d p.inst.dev
  uncommitted : p.inst.session.metadataWritingCommitted = false
  state : p.state ≠ .updating

/-- A `BEGIN_UPDATE` that authorises an update of the flash contents `m`. -/
def IsAuthority (crypto : Crypto) (publicKey : List UInt8) (options : UpdateInstallOptions)
    (m : Mem) (frame : UpdateProtocolFrame) : Prop :=
  UpdateProtocolCommand.ofUInt8 frame.command = some .beginUpdate ∧
    Authorises crypto publicKey options.recoveryBootstrap m frame.data

section Frames

variable {options : UpdateInstallOptions} {d : Device} {frame : UpdateProtocolFrame}
  {p q : UpdateProtocolSession}

/-- What `update_installer_session_init` leaves behind. -/
structure Opened (d : Device) (s : Installer) : Prop where
  unwritten : Unwritten d s.dev
  uncommitted : s.session.metadataWritingCommitted = false

theorem Unarmed.open (h : Unarmed publicKey options d p) :
    wp (openInstaller p) p.inst
      (fun _ s => Opened d s ∧ SessionInv publicKey s ∧
        Selected publicKey s.session ∧ s.session.options = options)
      (fun _ s => Opened d s) (fun s => Opened d s) := by
  rw [openInstaller, h.key, h.options]
  refine wp.mono (updateInstallerSessionInit_spec.and updateInstallerSessionInit_uncommitted)
    ?_ ?_ ?_
  · rintro _ s ⟨⟨hread, hinit, hsel⟩, hflag⟩
    refine ⟨⟨h.unwritten.trans hread.eq_of_false, hflag⟩, ?_, hsel, hinit.options⟩
    rw [SessionInv, hinit.state]
    exact hsel
  · rintro _ s ⟨⟨hread, -⟩, hflag⟩
    exact ⟨h.unwritten.trans hread.eq_of_false, hflag⟩
  · rintro s ⟨hread, hflag⟩
    exact ⟨h.unwritten.trans hread.eq_of_false, hflag⟩

theorem Opened.ended (h : Opened d s) (hrun : Ended updateInstallerAbort s s') :
    Opened d s' := by
  have hspec := updateInstallerAbort_uncommitted h.uncommitted
  rcases hrun with hrun | ⟨e, hrun⟩
  · obtain ⟨hdev, hflag⟩ := hspec.ret hrun
    exact ⟨hdev ▸ h.unwritten, hflag⟩
  · obtain ⟨hdev, hflag⟩ := hspec.err hrun
    exact ⟨hdev ▸ h.unwritten, hflag⟩

/-- A header that the installer takes, or writes anything for, authorises that. -/
theorem Opened.begin (h : Opened d s) (hinv : SessionInv publicKey s)
    (hsel : Selected publicKey s.session) (hoptions : s.session.options = options) :
    wp (updateInstallerBegin crypto headerBytes) s
      (fun _ _ => Authorises crypto publicKey options.recoveryBootstrap d.mem headerBytes)
      (fun _ s' => Opened d s' ∨
        Authorises crypto publicKey options.recoveryBootstrap d.mem headerBytes)
      (fun s' => Unwritten d s'.dev ∨
        Authorises crypto publicKey options.recoveryBootstrap d.mem headerBytes) := by
  have hauthority {header : UpdatePackageHeader}
      (hacc : BeginAccepted crypto s.session s.dev.mem headerBytes header) :
      Authorises crypto publicKey options.recoveryBootstrap d.mem headerBytes := by
    have := hacc.authorises hsel
    rwa [hoptions, h.unwritten.1] at this
  refine ((updateInstallerBegin_spec hinv).and (updateInstallerBegin_uncommitted h.uncommitted)).mono
    ?_ ?_ ?_
  · rintro _ s' ⟨⟨-, -, -, header, -, -, hacc, -⟩, -⟩
    exact hauthority hacc
  · rintro _ s' ⟨⟨heffect, -⟩, hflag | ⟨header, hacc⟩⟩
    · rcases heffect.authentic with hsame | ⟨-, header, -, hacc, -⟩
      · exact .inl ⟨h.unwritten.trans hsame, hflag⟩
      · exact .inr (hauthority hacc)
    · exact .inr (hauthority hacc)
  · rintro s' ⟨heffect, -⟩
    rcases heffect.authentic with hsame | ⟨-, header, -, hacc, -⟩
    · exact .inl (h.unwritten.trans hsame)
    · exact .inr (hauthority hacc)

theorem Unarmed.opened (h : Unarmed publicKey options d p) : Opened d p.inst :=
  ⟨h.unwritten, h.uncommitted⟩

/-- The session after a call of the installer that has written nothing. -/
theorem Unarmed.of_opened (h : Unarmed publicKey options d p) (hs : Opened d s)
    {installerStarted : Bool} {state : UpdateProtocolSessionState} (hstate : state ≠ .updating) :
    Unarmed publicKey options d { p with inst := s, installerStarted, state } :=
  ⟨h.key, h.options, hs.unwritten, hs.uncommitted, hstate⟩

/-- **A frame writes nothing unless it is authority for that.** -/
theorem Unarmed.executed {ack : Bool} (h : Unarmed publicKey options d p)
    (hrun : Executed crypto frame p ack q) :
    Unarmed publicKey options d q ∨ IsAuthority crypto publicKey options d.mem frame := by
  cases hrun with
  | refused => exact .inl h
  | informed => exact .inl h
  | notOpened _ _ _ init => exact .inl (h.of_opened (h.open.err init) (by decide))
  | notReopened _ _ _ init abort =>
    exact .inl (h.of_opened ((h.open.err init).ended abort) (by decide))
  | notBegun command _ _ init run abort =>
    obtain ⟨hopened, hinv, hsel, hoptions⟩ := h.open.ret init
    rcases (hopened.begin hinv hsel hoptions).err run with hfailed | hauthority
    · exact .inl (h.of_opened (hfailed.ended abort) (by decide))
    · exact .inr ⟨command, hauthority⟩
  | begun command _ _ init run =>
    obtain ⟨hopened, hinv, hsel, hoptions⟩ := h.open.ret init
    exact .inr ⟨command, (hopened.begin hinv hsel hoptions).ret run⟩
  | misplaced _ state => exact absurd state h.state
  | notWritten _ state => exact absurd state h.state
  | wrote _ state => exact absurd state h.state
  | notFinished _ state => exact absurd state h.state
  | finished _ state => exact absurd state h.state
  | stopped => exact .inl (h.of_opened h.opened (by decide))
  | notAborted _ _ _ run => exact .inl (h.of_opened (h.opened.ended (.inr ⟨_, run⟩)) (by decide))
  | aborted _ _ _ run => exact .inl (h.of_opened (h.opened.ended (.inl run)) (by decide))
  | reset => exact .inl (h.of_opened h.opened (by decide))

/-- The same when the power goes meanwhile. -/
theorem Unarmed.interrupted (h : Unarmed publicKey options d p)
    (hcut : Interrupted crypto frame p q) :
    Unwritten d q.inst.dev ∨ IsAuthority crypto publicKey options d.mem frame := by
  cases hcut with
  | opening init => exact .inl (h.open.cut init).unwritten
  | reopening _ init abort =>
    exact ((updateInstallerAbort_uncommitted (h.open.err init).uncommitted).cut abort).elim
  | beginning command _ init run =>
    obtain ⟨hopened, hinv, hsel, hoptions⟩ := h.open.ret init
    exact ((hopened.begin hinv hsel hoptions).cut run).imp_right fun h => ⟨command, h⟩
  | retreating command _ init run abort =>
    obtain ⟨hopened, hinv, hsel, hoptions⟩ := h.open.ret init
    rcases (hopened.begin hinv hsel hoptions).err run with hfailed | hauthority
    · exact ((updateInstallerAbort_uncommitted hfailed.uncommitted).cut abort).elim
    · exact .inr ⟨command, hauthority⟩
  | writing state => exact absurd state h.state
  | finishing state => exact absurd state h.state
  | aborting _ run => exact ((updateInstallerAbort_uncommitted h.uncommitted).cut run).elim

end Frames

/-! ### Everything that comes over the line -/

section Runs

variable {options : UpdateInstallOptions} {d : Device} {p : UpdateProtocolSession}

theorem Unarmed.received (h : Unarmed publicKey options d p) (event : LineEvent) :
    Unarmed publicKey options d (received p event) :=
  ⟨h.key, h.options, h.unwritten, h.uncommitted, h.state⟩

/-- **A session writes nothing before it has executed a frame that is authority for that.** -/
theorem runLine_unarmed (h : Unarmed publicKey options d p) (events : List LineEvent) :
    wp (runLine crypto events) p
      (fun _ p' => Unarmed publicKey options d p' ∨
        ∃ frame ∈ acceptedFrames p.parser p.expectedSequence events,
          IsAuthority crypto publicKey options d.mem frame)
      (fun _ _ => False)
      (fun p' => Unwritten d p'.inst.dev ∨
        ∃ frame ∈ acceptedFrames p.parser p.expectedSequence events,
          IsAuthority crypto publicKey options d.mem frame) := by
  induction events generalizing p with
  | nil => exact .inl h
  | cons event events ih =>
    have hreceived := h.received event
    rw [runLine, wp_bind, acceptedFrames_cons]
    refine (handleLineEvent_spec event).mono ?_ (fun _ _ h => h) ?_
    · rintro _ p' hhandled
      have hparser := hhandled.parser
      have hsequence := hhandled.expectedSequence
      cases hhandled with
      | @skipped hnone lastStatus written =>
        rw [hnone]
        have hkept : Unarmed publicKey options d { received p event with lastStatus, written } :=
          ⟨hreceived.key, hreceived.options, hreceived.unwritten, hreceived.uncommitted,
            hreceived.state⟩
        exact ih hkept
      | @executed frame ack q r hsome hrun hanswer =>
        rw [hsome] at hsequence ⊢
        rcases hreceived.executed hrun with hkept | hauthority
        · have hafter : Unarmed publicKey options d
              { r with expectedSequence := r.expectedSequence + 1 } := by
            rw [hanswer.same]
            exact ⟨hkept.key, hkept.options, hkept.unwritten, hkept.uncommitted, hkept.state⟩
          refine (ih hafter).mono ?_ (fun _ _ h => h) ?_
          all_goals
            intros
            rename_i hrest
            rw [hparser, hsequence] at hrest
            refine hrest.imp_right ?_
            rintro ⟨frame', hmem, hauthority⟩
            exact ⟨frame', List.mem_cons_of_mem _ hmem, hauthority⟩
        · have hfirst : ∃ frame' ∈ frame ::
              acceptedFrames (received p event).parser (p.expectedSequence + 1) events,
              IsAuthority crypto publicKey options d.mem frame' :=
            ⟨frame, List.mem_cons_self, hauthority⟩
          exact wp_of_outcome (fun _ _ _ => .inr hfirst) (fun e => e.elim) fun _ _ => .inr hfirst
    · rintro p' ⟨frame, hsome, hcut⟩
      rw [hsome]
      refine (hreceived.interrupted hcut).imp_right fun hauthority => ?_
      exact ⟨frame, List.mem_cons_self, hauthority⟩

/-- Leaving the service does not write either. -/
theorem abortStartedInstaller_unarmed (h : Unarmed publicKey options d p) :
    wp abortStartedInstaller p (fun _ p' => Unwritten d p'.inst.dev) (fun _ _ => False)
      fun _ => False := by
  rw [abortStartedInstaller, wp_bind, wp_get, wp_ite]
  refine ⟨fun _ => ?_, fun _ => h.unwritten⟩
  rw [wp_bind, wp_callInstaller]
  have hunwritten {s : Installer} (hdev : s.dev = p.inst.dev) : Unwritten d s.dev := by
    rw [hdev]
    exact h.unwritten
  exact (updateInstallerAbort_uncommitted h.uncommitted).mono (fun _ _ hs => hunwritten hs.1)
    (fun _ _ hs => hunwritten hs.1) fun _ h => h

end Runs

/-! ### Sessions and services -/

/-- Among the frames that are executed there is one that is authority for an update of the flash
of `d`, and it stands in the stream. -/
def Authorised (crypto : Crypto) (publicKey : List UInt8) (options : UpdateInstallOptions)
    (d : Device) (sequence : UInt16) (bytes : List UInt8) (events : List LineEvent) : Prop :=
  ∃ frame ∈ acceptedFrames {} sequence events, frame.encode <:+: bytes ∧
    IsAuthority crypto publicKey options d.mem frame

/-- Where the reader stands when `wait_for_binary_hello` returns. -/
def UpdateServiceConfig.helloEnd (config : UpdateServiceConfig) (polled : ℕ) : ℕ :=
  (waitLoop config 0 0 {} polled).2.2

section Services

variable {config : UpdateServiceConfig} {service service' : UpdateService}

theorem le_waitLoop (config : UpdateServiceConfig) (idlePolls byteCount : ℕ)
    (parser : UpdateProtocolParser) (polled : ℕ) :
    polled ≤ (waitLoop config idlePolls byteCount parser polled).2.2 := by
  fun_induction waitLoop config idlePolls byteCount parser polled <;> grind

theorem idle_ne_updating : UpdateProtocolSessionState.idle ≠ .updating := by decide

theorem unarmed_greeted {inst : Installer} {p : UpdateProtocolSession}
    (h : Greeted config inst p) :
    Unarmed config.publicKey config.installOptions inst.dev p ∧ p.parser = {} ∧
      p.expectedSequence = 1 := by
  obtain ⟨lastStatus, written, rfl⟩ := h
  exact ⟨⟨rfl, rfl, ⟨rfl, rfl⟩, rfl, idle_ne_updating⟩, rfl, rfl⟩

/-- The service has written nothing, or it has read a frame that is authority for it. -/
def ServedSafely (crypto : Crypto) (config : UpdateServiceConfig) (start : ℕ)
    (service service' : UpdateService) : Prop :=
  Unwritten service.protocol.inst.dev service'.protocol.inst.dev ∨
    ∃ n, Authorised crypto config.publicKey config.installOptions service.protocol.inst.dev 1
      (polledBytes config.getc service.polled service'.polled) (serviceEvents config start n)

/-- What the session has executed was in what the reader has returned. -/
theorem authorised_of_accepted {d : Device} {start n : ℕ} {frame : UpdateProtocolFrame}
    (hstart : service.polled ≤ start) (hpolled : service'.polled = (windowAt config start n).polled)
    (hframe : frame ∈ acceptedFrames {} 1 (serviceEvents config start n))
    (hauthority : IsAuthority crypto config.publicKey config.installOptions d.mem frame) :
    Authorised crypto config.publicKey config.installOptions d 1
      (polledBytes config.getc service.polled service'.polled) (serviceEvents config start n) := by
  refine ⟨frame, hframe, ?_, hauthority⟩
  have hwindow : start ≤ (windowAt config start n).polled := polled_windowAt_mono (Nat.zero_le n)
  rw [hpolled, ← polledBytes_append hstart hwindow]
  exact ((serviceEvents_delivers config start n).stands_in .init hframe).trans
    (List.suffix_append _ _).isInfix

theorem serveAfterHello_safely (fuel : ℕ) (service : UpdateService) {start : ℕ} {s : UpdateService}
    (hdev : s.protocol.inst.dev = service.protocol.inst.dev) (hpolled : s.polled = start)
    (hstart : service.polled ≤ start) :
    wp (serveAfterHello crypto config fuel) s
      (fun _ service' => ServedSafely crypto config start service service') (fun _ _ => False)
      (fun service' => ServedSafely crypto config start service service') := by
  subst hpolled
  -- the session has been run over so many windows, and then it may have been aborted
  have hrun {p : UpdateProtocolSession} (n : ℕ) (hgreeted : Greeted config s.protocol.inst p) :=
    @runLine_unarmed crypto config.publicKey config.installOptions s.protocol.inst.dev p
      (unarmed_greeted hgreeted).1 (serviceEvents config s.polled n)
  have hframes {p : UpdateProtocolSession} (hgreeted : Greeted config s.protocol.inst p)
      {n : ℕ} {service' : UpdateService}
      (hservice : service'.polled = (windowAt config s.polled n).polled)
      (h : ∃ frame ∈ acceptedFrames p.parser p.expectedSequence (serviceEvents config s.polled n),
        IsAuthority crypto config.publicKey config.installOptions s.protocol.inst.dev.mem frame) :
      ServedSafely crypto config s.polled service service' := by
    obtain ⟨frame, hframe, hauthority⟩ := h
    rw [(unarmed_greeted hgreeted).2.1, (unarmed_greeted hgreeted).2.2] at hframe
    rw [hdev] at hauthority
    exact .inr ⟨n, authorised_of_accepted hstart hservice hframe hauthority⟩
  refine (serveAfterHello_refines fuel).mono ?_ (fun _ _ h => h) ?_
  · rintro result service' (⟨-, hsame⟩ | ⟨p, hgreeted, n, p', hline, hservice, hleft⟩)
    · refine .inl ?_
      rw [hsame, hdev]
      exact ⟨rfl, rfl⟩
    rcases (hrun n hgreeted).ret hline with hunarmed | hauthority
    · rw [hdev] at hunarmed
      refine .inl ?_
      cases result with
      | none =>
        rw [show service'.protocol = p' from hleft]
        exact hunarmed.unwritten
      | some result =>
        generalize hq : service'.protocol = q at hleft
        cases hleft with
        | reset => exact hunarmed.unwritten
        | aborted => exact hunarmed.unwritten
        | cleaned run => exact (abortStartedInstaller_unarmed hunarmed).ret run
    · exact hframes hgreeted hservice hauthority
  · rintro service' ⟨p, n, hgreeted, hservice, hline | ⟨p', hline, habort⟩⟩
    · rcases (hrun n hgreeted).cut hline with hunwritten | hauthority
      · exact .inl (hdev ▸ hunwritten)
      · exact hframes hgreeted hservice hauthority
    · rcases (hrun n hgreeted).ret hline with hunarmed | hauthority
      · exact ((abortStartedInstaller_unarmed hunarmed).cut habort).elim
      · exact hframes hgreeted hservice hauthority

/-- **Unauthenticated input changes no flash.** Whatever bytes a session is given, and whatever the
reader of a service returns, the flash is neither erased nor programmed unless a frame has been
executed, complete and in sequence, that begins an update with a header that authorises it: signed
with the configured key, for the slot that is not in use, and above the confirmed version. -/
theorem unauthenticated_input_writes_nothing (crypto : Crypto) :
    (∀ flash publicKey options write programBuffer d bytes,
      Unwritten d (runLine crypto (bytes.map .byte)
          (updateProtocolSessionInit flash publicKey options write programBuffer d)).state.inst.dev ∨
        Authorised crypto publicKey options d 0 bytes (bytes.map .byte)) ∧
    (∀ config fuel service, ServedSafely crypto config (config.helloEnd service.polled) service
      (updateServiceRun crypto config fuel service).state) ∧
    ∀ config fuel service, ServedSafely crypto config service.polled service
      (updateServiceRunAfterHello crypto config fuel service).state := by
  refine ⟨?_, ?_, ?_⟩
  · intro flash publicKey options write programBuffer d bytes
    have hunarmed : Unarmed publicKey options d
        (updateProtocolSessionInit flash publicKey options write programBuffer d) :=
      ⟨rfl, rfl, ⟨rfl, rfl⟩, rfl, idle_ne_updating⟩
    have hframes (h : ∃ frame ∈ acceptedFrames {} 0 (bytes.map .byte),
        IsAuthority crypto publicKey options d.mem frame) :
        Authorised crypto publicKey options d 0 bytes (bytes.map .byte) := by
      obtain ⟨frame, hframe, hauthority⟩ := h
      exact ⟨frame, hframe, (delivers_bytes bytes).stands_in .init hframe, hauthority⟩
    have hwp : wp (runLine crypto (bytes.map .byte))
        (updateProtocolSessionInit flash publicKey options write programBuffer d)
        (fun _ p => Unwritten d p.inst.dev ∨
          Authorised crypto publicKey options d 0 bytes (bytes.map .byte))
        (fun _ p => Unwritten d p.inst.dev ∨
          Authorised crypto publicKey options d 0 bytes (bytes.map .byte))
        (fun p => Unwritten d p.inst.dev ∨
          Authorised crypto publicKey options d 0 bytes (bytes.map .byte)) :=
      (runLine_unarmed hunarmed (bytes.map .byte)).mono
        (fun _ _ h => h.imp Unarmed.unwritten hframes) (fun _ _ h => h.elim)
        fun _ h => h.imp_right hframes
    exact wp_state_iff.mp hwp
  · intro config fuel service
    have hwp : wp (updateServiceRun crypto config fuel) service
        (fun _ => ServedSafely crypto config (config.helloEnd service.polled) service)
        (fun _ => ServedSafely crypto config (config.helloEnd service.polled) service)
        (ServedSafely crypto config (config.helloEnd service.polled) service) := by
      rw [updateServiceRun, wp_bind, updateServiceInit, wp_modify, wp_bind, waitForBinaryHello,
        wp_bind, wp_get, wp_bind, wp_modify, wp_pure, wp_ite]
      refine ⟨fun _ => .inl ⟨rfl, rfl⟩, fun _ => ?_⟩
      exact wp.mono (serveAfterHello_safely fuel service (by exact rfl) (by exact rfl)
        (le_waitLoop config 0 0 {} service.polled)) (fun _ _ h => h) (fun _ _ h => h.elim)
        fun _ h => h
    exact wp_state_iff.mp hwp
  · intro config fuel service
    have hwp : wp (updateServiceRunAfterHello crypto config fuel) service
        (fun _ => ServedSafely crypto config service.polled service)
        (fun _ => ServedSafely crypto config service.polled service)
        (ServedSafely crypto config service.polled service) := by
      rw [updateServiceRunAfterHello, wp_bind, updateServiceInit, wp_modify]
      exact wp.mono (serveAfterHello_safely fuel service (by exact rfl) (by exact rfl) le_rfl)
        (fun _ _ h => h) (fun _ _ h => h.elim) fun _ h => h
    exact wp_state_iff.mp hwp

end Services

end Stm32SecurityLab
