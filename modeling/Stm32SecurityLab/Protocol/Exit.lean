import Stm32SecurityLab.Protocol.Authority
import Stm32SecurityLab.Installer.Install

/-!
# Leaving the service

On a device whose flash operations succeed the service does not leave an update behind that has
only begun, whatever comes over the line and whatever becomes of the answers. Between two rounds the
session is either cleaned up or has an update under way, and then every way out of the service aborts
it.

Two frames spoil this. A `RESET` is executed at any time, and the service then returns without an
abort. And a `BEGIN_UPDATE` that commits `WRITING` with the last sequence number leaves no number for
the record that rejects it.

## Main definitions

* `Resolved` — how an update may be left
* `Strands` — the frames that spoil it
* `Tended` — what holds of the session between two rounds
* `StandsBefore`, `Unstranded` — the rounds of a run, and a run without such frames

## Main results

* `Tended.executed` — one frame
* `updateServiceRound_tended`, `runUpdateProtocol_resolved` — one round, and a run
* `update_service_resolved`
-/

namespace Stm32SecurityLab

open Crash

variable {crypto : Crypto} {m₀ : Mem} {frame : UpdateProtocolFrame} {p q : UpdateProtocolSession}

/-- The metadata is as it was, or an update has been finished, or it has been rejected. -/
def Resolved (m₀ m : Mem) : Prop :=
  journal m = journal m₀ ∨
    ∃ r, journal m = .ok r ∧ (r.state = .candidateReady ∨ r.state = .rejectedInvalid)

theorem RejectedIn.resolved {m : Mem} (h : RejectedIn m) : Resolved m₀ m := by
  obtain ⟨r, hr, hstate⟩ := h
  exact .inr ⟨r, hr, .inr hstate⟩

theorem Resolved.of_mem {m m' : Mem} (h : Resolved m₀ m) (hm : m' = m) : Resolved m₀ m' := hm ▸ h

/-- An empty `RESET` while an update is under way, or a `BEGIN_UPDATE` that commits `WRITING` with
the last sequence number. -/
def Strands (crypto : Crypto) (p : UpdateProtocolSession) (frame : UpdateProtocolFrame) : Prop :=
  (UpdateProtocolCommand.ofUInt8 frame.command = some .reset ∧ frame.payloadLength = 0 ∧
    p.installerStarted = true ∧ p.inst.session.metadataWritingCommitted = true ∧
    p.inst.session.state ≠ .finished ∧ p.inst.session.state ≠ .aborted) ∨
  ((p.state = .idle ∨ p.state = .aborted) ∧ optionsAreValid p.flash p.installOptions = true ∧
    IsAuthority crypto p.publicKey p.installOptions p.inst.dev.mem frame ∧
    p.installOptions.LetsCommit (decodeManifestBytes (byteAt frame.data)).imageVersion ∧
    ∃ r, journal p.inst.dev.mem = .ok r ∧ r.sequence = 0xFFFFFFFD)

/-! ### One frame -/

/-- The session has nothing to clean up, or it has an update under way and will be asked to abort
it. -/
structure Tended (m₀ : Mem) (p : UpdateProtocolSession) : Prop where
  quiet : p.inst.dev.Quiet
  aligned : p.flash.programAlignment ∣ 8
  inv : SessionInv p.publicKey p.inst
  install : (CleanedUp p.inst ∧ Resolved m₀ p.inst.dev.mem ∧ p.state ≠ .updating) ∨
    (UnderWay p.inst ∧ p.installerStarted = true ∧ (p.state = .updating ∨ p.state = .failed))

namespace Tended

/-- The line is not part of it. -/
theorem line (h : Tended m₀ p) (parser : UpdateProtocolParser) (lastStatus : UpdateProtocolStatus)
    (written : List (List UInt8)) (expectedSequence : UInt16) :
    Tended m₀ { p with parser, lastStatus, written, expectedSequence } :=
  ⟨h.quiet, h.aligned, h.inv, h.install⟩

theorem cleanedUp (h : Tended m₀ p) (hstate : p.state ≠ .updating ∧ p.state ≠ .failed) :
    CleanedUp p.inst ∧ Resolved m₀ p.inst.dev.mem := by
  rcases h.install with ⟨hclean, hresolved, -⟩ | ⟨-, -, hs | hs⟩
  · exact ⟨hclean, hresolved⟩
  · exact absurd hs hstate.1
  · exact absurd hs hstate.2

theorem underWay (h : Tended m₀ p) (hstate : p.state = .updating) : UnderWay p.inst := by
  rcases h.install with ⟨-, -, hs⟩ | ⟨hunder, -⟩
  · exact absurd hstate hs
  · exact hunder

end Tended

/-- A session that is opened over a cleaned up one. -/
theorem openInstaller_tended (hquiet : p.inst.dev.Quiet) (haligned : p.flash.programAlignment ∣ 8) :
    wp (openInstaller p) p.inst
      (fun _ s => s.dev.mem = p.inst.dev.mem ∧ Calm s ∧ SessionInv p.publicKey s ∧
        Selected p.publicKey s.session ∧ s.session.options = p.installOptions ∧
        s.session.faultCalls = 0)
      (fun _ s => s.dev.mem = p.inst.dev.mem ∧ s.dev.Quiet ∧ SessionInv p.publicKey s ∧
        CleanedUp s)
      (fun _ => True) := by
  rw [openInstaller]
  refine (updateInstallerSessionInit_spec.and updateInstallerSessionInit_uncommitted).mono ?_ ?_
    fun _ _ => trivial
  · rintro _ s ⟨⟨hread, hinit, hsel⟩, -⟩
    refine ⟨hread.eq_of_false.1, ⟨hread.quiet hquiet, ?_, hsel.restricted⟩, ?_, hsel,
      hinit.options, hinit.faultCalls⟩
    · rw [hinit.alignment]
      exact haligned
    · rw [SessionInv, hinit.state]
      exact hsel
  · rintro _ s ⟨⟨hread, hstate⟩, hflag⟩
    refine ⟨hread.eq_of_false.1, hread.quiet hquiet, ?_, .inl hflag⟩
    rcases hstate with hstate | hstate
    all_goals
      rw [SessionInv, hstate]
      trivial

/-- A session that is cleaned up, and has left the metadata in order. -/
structure LeftAlone (publicKey : List UInt8) (m₀ : Mem) (s : Installer) : Prop where
  quiet : s.dev.Quiet
  inv : SessionInv publicKey s
  clean : CleanedUp s
  resolved : Resolved m₀ s.dev.mem

section Installer

variable {publicKey : List UInt8} {s s' : Installer}

/-- Aborting such a session leaves such a session. -/
theorem LeftAlone.ended (h : LeftAlone publicKey m₀ s) (hrun : Ended updateInstallerAbort s s') :
    LeftAlone publicKey m₀ s' := by
  rcases hrun with hrun | ⟨e, hrun⟩
  · obtain ⟨hdev, hstate⟩ := (updateInstallerAbort_cleanedUp h.clean).ret hrun
    exact ⟨hdev ▸ h.quiet, sessionInv_aborted hstate, .inr (.inr hstate), hdev ▸ h.resolved⟩
  · obtain rfl := (updateInstallerAbort_cleanedUp h.clean).err hrun
    exact h

/-- Aborting an update that is under way leaves such a session too. -/
theorem leftAlone_of_underWay (h : UnderWay s) (hrun : Ended updateInstallerAbort s s') :
    LeftAlone publicKey m₀ s' := by
  rcases hrun with hrun | ⟨e, hrun⟩
  · obtain ⟨hquiet, hstate, hrejected⟩ := (updateInstallerAbort_underWay h).ret hrun
    exact ⟨hquiet, sessionInv_aborted hstate, .inr (.inr hstate), hrejected.resolved⟩
  · exact ((updateInstallerAbort_underWay h).err hrun).elim

end Installer

namespace Tended

/-- The session after a call that has cleaned up. -/
theorem of_leftAlone (h : Tended m₀ p) {s : Installer} (hs : LeftAlone p.publicKey m₀ s)
    {installerStarted : Bool} {state : UpdateProtocolSessionState} (hstate : state ≠ .updating) :
    Tended m₀ { p with inst := s, installerStarted, state } :=
  ⟨hs.quiet, h.aligned, hs.inv, .inl ⟨hs.clean, hs.resolved, hstate⟩⟩

/-- The session after a call that has an update under way. -/
theorem of_underWay (h : Tended m₀ p) {s : Installer} (hs : UnderWay s)
    (hinv : SessionInv p.publicKey s) {state : UpdateProtocolSessionState} {updatePayloadOffset : ℕ}
    (hstate : state = .updating ∨ state = .failed) :
    Tended m₀ { p with inst := s, installerStarted := true, state, updatePayloadOffset } :=
  ⟨hs.calm.quiet, h.aligned, hinv, .inr ⟨hs, rfl, hstate⟩⟩

theorem ended (h : Tended m₀ p) {s : Installer} (hrun : Ended updateInstallerAbort p.inst s) :
    LeftAlone p.publicKey m₀ s := by
  rcases h.install with ⟨hclean, hresolved, -⟩ | ⟨hunder, -⟩
  · exact LeftAlone.ended ⟨h.quiet, h.inv, hclean, hresolved⟩ hrun
  · exact leftAlone_of_underWay hunder hrun

/-- `update_installer_begin` in a session that has just been opened. -/
theorem begin (h : Tended m₀ p) (hstate : p.state = .idle ∨ p.state = .aborted)
    (hcommand : UpdateProtocolCommand.ofUInt8 frame.command = some .beginUpdate)
    (hok : ¬ Strands crypto p frame) {s : Installer} (hinit : openInstaller p p.inst = .ret () s) :
    wp (updateInstallerBegin crypto frame.data) s
      (fun _ s' => UnderWay s' ∧ SessionInv p.publicKey s')
      (fun _ s' => LeftAlone p.publicKey m₀ s' ∨ UnderWay s') (fun _ => True) := by
  have hstate' : p.state ≠ .updating ∧ p.state ≠ .failed := by
    rcases hstate with h | h <;> rw [h] <;> decide
  obtain ⟨-, hresolved⟩ := h.cleanedUp hstate'
  obtain ⟨hmem, hcalm, hinv, hsel, hoptions, hcalls⟩ :=
    (openInstaller_tended h.quiet h.aligned).ret hinit
  have hvalid := ((returns_updateInstallerSessionInit_iff h.quiet).mp
    (returns_iff.mpr ⟨_, s, hinit⟩)).1
  refine ((updateInstallerBegin_calm hcalm hinv hsel.uncommitted hcalls ?_).and
    (updateInstallerBegin_spec hinv)).mono ?_ ?_ fun _ _ => trivial
  · intro header r hacc hpass hr hseq
    refine hok (.inr ⟨hstate, hvalid, ⟨hcommand, ?_⟩, ?_, r, hmem ▸ hr, hseq⟩)
    · have hauthority := hacc.authorises hsel
      rwa [hoptions, hmem] at hauthority
    · rwa [hoptions, hacc.accepted.manifest] at hpass
  · rintro _ s' ⟨hunder, -, hfilling, -, header, size, writing, -, -, -, hsteady⟩
    have hstate : s'.session.state = .writing := congrArg (·.state) hsteady
    refine ⟨hunder, ?_⟩
    rw [SessionInv, hstate]
    exact hfilling
  · rintro _ s' ⟨⟨hquiet, hflag, hmem'⟩ | hunder, -, hinv'⟩
    · exact .inl ⟨hquiet, hinv', .inl hflag, hresolved.of_mem (hmem'.trans hmem)⟩
    · exact .inr hunder

/-- **A frame leaves the session cleaned up or under way**, unless it strands the update. -/
theorem executed {ack : Bool} (h : Tended m₀ p) (hok : ¬ Strands crypto p frame)
    (hrun : Executed crypto frame p ack q) : Tended m₀ q := by
  have hidle (hstate : p.state = .idle ∨ p.state = .aborted) :
      p.state ≠ .updating ∧ p.state ≠ .failed := by
    rcases hstate with h | h <;> rw [h] <;> decide
  -- what an opening that fails leaves
  have hopened (hstate : p.state = .idle ∨ p.state = .aborted) {e : UpdateInstallError}
      {s : Installer} (hinit : openInstaller p p.inst = .err e s) : LeftAlone p.publicKey m₀ s := by
    obtain ⟨hmem, hquiet, hinv, hclean⟩ := (openInstaller_tended h.quiet h.aligned).err hinit
    exact ⟨hquiet, hinv, hclean, (h.cleanedUp (hidle hstate)).2.of_mem hmem⟩
  cases hrun with
  | refused => exact h
  | informed => exact h
  | notOpened _ state _ init => exact h.of_leftAlone (hopened state init) (by decide)
  | notReopened _ state _ init abort =>
    exact h.of_leftAlone ((hopened state init).ended abort) (by decide)
  | notBegun command _ state init run abort =>
    rcases (h.begin state command hok init).err run with hleft | hunder
    · exact h.of_leftAlone (hleft.ended abort) (by decide)
    · exact h.of_leftAlone (leftAlone_of_underWay hunder abort) (by decide)
  | begun command _ state init run =>
    obtain ⟨hunder, hinv⟩ := (h.begin state command hok init).ret run
    exact h.of_underWay hunder hinv (.inl rfl)
  | misplaced _ state started =>
    exact ⟨h.quiet, h.aligned, h.inv, .inr ⟨h.underWay state, started, .inr rfl⟩⟩
  | notWritten _ state started run =>
    have hunder := (updateInstallerWrite_underWay (h.underWay state)).err run
    obtain ⟨-, hinv⟩ := (@updateInstallerWrite_spec crypto p.publicKey _ _ _ h.inv).err run
    exact ⟨hunder.calm.quiet, h.aligned, hinv, .inr ⟨hunder, started, .inr rfl⟩⟩
  | wrote _ state started run =>
    have hunder := (updateInstallerWrite_underWay (h.underWay state)).ret run
    obtain ⟨-, hinv⟩ := (@updateInstallerWrite_spec crypto p.publicKey _ _ _ h.inv).ret run
    exact ⟨hunder.calm.quiet, h.aligned, hinv, .inr ⟨hunder, started, .inl state⟩⟩
  | notFinished _ state started run =>
    have hunder := (updateInstallerFinish_underWay (h.underWay state) h.inv).err run
    obtain ⟨-, hinv⟩ := (updateInstallerFinish_spec h.inv).err run
    exact ⟨hunder.calm.quiet, h.aligned, hinv, .inr ⟨hunder, started, .inr rfl⟩⟩
  | finished _ state _ run =>
    obtain ⟨hquiet, hstate, r, hr, hready⟩ :=
      (updateInstallerFinish_underWay (h.underWay state) h.inv).ret run
    refine h.of_leftAlone ⟨hquiet, ?_, .inr (.inl hstate), .inr ⟨r, hr, .inl hready⟩⟩ (by decide)
    rw [SessionInv, hstate]
    trivial
  | stopped _ _ fresh =>
    rcases h.install with ⟨hclean, hresolved, -⟩ | ⟨-, started, -⟩
    · exact h.of_leftAlone ⟨h.quiet, h.inv, hclean, hresolved⟩ (by decide)
    · rw [fresh] at started
      cases started
  | notAborted _ _ _ run => exact h.of_leftAlone (h.ended (.inr ⟨_, run⟩)) (by decide)
  | aborted _ _ _ run => exact h.of_leftAlone (h.ended (.inl run)) (by decide)
  | reset command empty =>
    rcases h.install with ⟨hclean, hresolved, -⟩ | ⟨hunder, started, -⟩
    · exact h.of_leftAlone ⟨h.quiet, h.inv, hclean, hresolved⟩ (by decide)
    · exact absurd (.inl ⟨command, empty, started, hunder.committed, hunder.state⟩) hok

end Tended

/-! ### One round -/

/-- The frame that is executed when a call of `update_protocol_session_process_reader` ends. -/
def ReaderEnd.accepts (p : UpdateProtocolSession) : ReaderEnd → Option UpdateProtocolFrame
  | .parsed status => accepted p status
  | .timeout | .failed | .overrun => none

/-- The frame that is executed in the next round of the service. -/
def roundFrame (config : UpdateServiceConfig) (s : UpdateService) : Option UpdateProtocolFrame :=
  let read := readFrameLoop config.getc config.byteTimeout updateProtocolReaderMaxBytes
    s.protocol.parser s.polled
  read.1.accepts { s.protocol with parser := read.2.1 }

theorem handleReaderEnd_tended {readerEnd : ReaderEnd} (h : Tended m₀ p)
    (hok : ∀ frame, readerEnd.accepts p = some frame → ¬ Strands crypto p frame) :
    wp (handleReaderEnd crypto readerEnd) p (fun _ p' => Tended m₀ p') (fun _ _ => False)
      (fun _ => True) := by
  cases readerEnd with
  | timeout =>
    refine wp.mono (C := fun _ => True) handleTimeout_spec ?_ (fun _ _ h => h) fun _ _ => trivial
    rintro _ _ ⟨lastStatus, written, rfl⟩
    exact h.line _ _ _ _
  | failed =>
    rw [handleReaderEnd, wp_bind, setLastStatus, wp_modify]
    exact h.line _ _ _ _
  | overrun =>
    rw [handleReaderEnd, wp_bind, wp_modify]
    exact h.line _ _ _ _
  | parsed status =>
    refine (handleParsed_spec status).mono ?_ (fun _ _ h => h) fun _ _ => trivial
    rintro _ p' hhandled
    cases hhandled with
    | skipped => exact h.line _ _ _ _
    | @executed frame ack q r hsome hrun hanswer =>
      rw [hanswer.same]
      exact (h.executed (hok frame hsome) hrun).line _ _ _ _

section Rounds

variable {config : UpdateServiceConfig} {service : UpdateService} {s : UpdateService}

/-- Leaving the service cleans up. -/
theorem abortStartedInstaller_resolved (h : Tended m₀ p) :
    wp abortStartedInstaller p (fun _ p' => Resolved m₀ p'.inst.dev.mem) (fun _ _ => False)
      (fun _ => True) := by
  rw [abortStartedInstaller, wp_bind, wp_get, wp_ite]
  refine ⟨fun _ => ?_, fun hn => ?_⟩
  · rw [wp_bind, wp_callInstaller]
    exact wp_of_outcome (fun _ _ hrun => (h.ended (.inl hrun)).resolved)
      (fun _ _ hrun => (h.ended (.inr ⟨_, hrun⟩)).resolved) fun _ _ => trivial
  · rcases h.install with ⟨-, hresolved, -⟩ | ⟨-, started, hstate⟩
    · exact hresolved
    · refine absurd ⟨started, ?_⟩ hn
      rcases hstate with hstate | hstate <;> rw [hstate] <;> decide

theorem Left.resolved {result : UpdateServiceResult} (h : Tended m₀ p) (hleft : Left p result q) :
    Resolved m₀ q.inst.dev.mem := by
  cases hleft with
  | reset state =>
    refine (h.cleanedUp ?_).2
    rcases state with state | state <;> rw [state] <;> decide
  | aborted state =>
    refine (h.cleanedUp ?_).2
    rw [state]
    decide
  | cleaned run => exact (abortStartedInstaller_resolved h).ret run

/-- **A round keeps the session in hand, or the service leaves with the metadata in order.** -/
theorem updateServiceRound_tended (h : Tended m₀ s.protocol) (frameTimeouts : ℕ)
    (hok : ∀ frame, roundFrame config s = some frame → ¬ Strands crypto s.protocol frame) :
    wp (updateServiceRound crypto config frameTimeouts) s
      (fun next s' => (∃ frameTimeouts', next = .inr frameTimeouts' ∧ Tended m₀ s'.protocol) ∨
        ∃ result, next = .inl result ∧ Resolved m₀ s'.protocol.inst.dev.mem)
      (fun _ _ => False) (fun _ => True) := by
  rw [updateServiceRound, wp_bind, updateProtocolSessionProcessReader, wp_bind, wp_get, wp_bind,
    wp_modify, wp_onProtocol]
  rw [roundFrame] at hok
  revert hok
  generalize readFrameLoop config.getc config.byteTimeout updateProtocolReaderMaxBytes
    s.protocol.parser s.polled = read
  intro hok
  have hheard := h.line read.2.1 s.protocol.lastStatus s.protocol.written
    s.protocol.expectedSequence
  refine (handleReaderEnd_tended hheard hok).mono ?_ (fun _ _ h => h) fun _ _ => trivial
  intro status p' htended
  refine (decideRound_left frameTimeouts status fun _ _ => trivial).mono ?_ (fun _ _ h => h)
    fun _ h => h
  rintro next s' ⟨-, ⟨frameTimeouts', rfl, rfl⟩ | ⟨result, rfl, hleft⟩⟩
  · exact .inl ⟨frameTimeouts', rfl, htended⟩
  · exact .inr ⟨result, rfl, hleft.resolved htended⟩

/-! ### A run -/

/-- The service stands before a round, with so many timeouts behind it. -/
inductive StandsBefore (crypto : Crypto) (config : UpdateServiceConfig) (service : UpdateService) :
    ℕ → UpdateService → Prop
  | greeted {s : UpdateService} (hello : acceptInitialHello config service = .ret .ok s) :
      StandsBefore crypto config service 0 s
  | round {k k' : ℕ} {s s' : UpdateService} (before : StandsBefore crypto config service k s)
      (run : updateServiceRound crypto config k s = .ret (.inr k') s') :
      StandsBefore crypto config service k' s'

/-- No round of the service executes a frame that strands an update. -/
def Unstranded (crypto : Crypto) (config : UpdateServiceConfig) (service : UpdateService) : Prop :=
  ∀ k s, StandsBefore crypto config service k s →
    ∀ frame, roundFrame config s = some frame → ¬ Strands crypto s.protocol frame

theorem runUpdateProtocol_resolved (hok : Unstranded crypto config service) {fuel k : ℕ}
    (h : Tended m₀ s.protocol) (hs : StandsBefore crypto config service k s) :
    wp (runUpdateProtocol crypto config fuel k) s
      (fun result s' => result ≠ none → Resolved m₀ s'.protocol.inst.dev.mem) (fun _ _ => False)
      (fun _ => True) := by
  induction fuel generalizing k s with
  | zero => exact fun hn => absurd rfl hn
  | succ fuel ih =>
    rw [runUpdateProtocol, wp_bind]
    have hround := updateServiceRound_tended h k (hok k s hs)
    refine wp_of_outcome ?_ (fun e => e.elim) fun _ _ => trivial
    intro next s₁ hrun
    rcases hround.ret hrun with ⟨k', rfl, htended⟩ | ⟨result, rfl, hresolved⟩
    · exact ih htended (hs.round hrun)
    · exact fun _ => hresolved

theorem serveAfterHello_resolved (hok : Unstranded crypto config service) (fuel : ℕ)
    (hquiet : service.protocol.inst.dev.Quiet) (haligned : config.flash.programAlignment ∣ 8) :
    wp (serveAfterHello crypto config fuel) service
      (fun result s' => result ≠ none →
        Resolved service.protocol.inst.dev.mem s'.protocol.inst.dev.mem) (fun _ _ => False)
      (fun _ => True) := by
  rw [serveAfterHello, wp_bind]
  refine wp_of_outcome ?_ (fun e => e.elim) fun _ _ => trivial
  intro status s hrun
  obtain ⟨-, hdev, hgreeted⟩ := acceptInitialHello_greeted.ret hrun
  rw [wp_ite]
  refine ⟨fun _ _ => .inl (by rw [hdev]), fun hstatus => ?_⟩
  obtain rfl := Decidable.not_not.mp hstatus
  obtain ⟨lastStatus, written, hprotocol⟩ := hgreeted rfl
  refine runUpdateProtocol_resolved hok ?_ (.greeted hrun)
  rw [hprotocol]
  exact ⟨hquiet, haligned, sessionInv_empty rfl, .inl ⟨.inl rfl, .inl rfl, idle_ne_updating⟩⟩

/-- The service when `wait_for_binary_hello` has returned. -/
def UpdateService.helloed (config : UpdateServiceConfig) (service : UpdateService) :
    UpdateService :=
  { service with
    entryParser := (waitLoop config 0 0 {} service.polled).2.1
    polled := config.helloEnd service.polled }

/-- The two entries of the service, and the service as it stands when the `HELLO` is answered. -/
inductive Entry (crypto : Crypto) (config : UpdateServiceConfig) (fuel : ℕ)
    (service : UpdateService) :
    Prog UpdateService Empty (Option UpdateServiceResult) → UpdateService → Prop
  | run : Entry crypto config fuel service (updateServiceRun crypto config fuel)
      (service.helloed config)
  | runAfterHello : Entry crypto config fuel service (updateServiceRunAfterHello crypto config fuel)
      { service with entryParser := {} }

theorem Entry.resolved {run : Prog UpdateService Empty (Option UpdateServiceResult)} {fuel : ℕ}
    {start : UpdateService} (hentry : Entry crypto config fuel service run start)
    (hquiet : service.protocol.inst.dev.Quiet) (haligned : config.flash.programAlignment ∣ 8)
    (hok : Unstranded crypto config start) :
    wp run service
      (fun result s' => result ≠ none →
        Resolved service.protocol.inst.dev.mem s'.protocol.inst.dev.mem) (fun _ _ => False)
      (fun _ => True) := by
  cases hentry with
  | run =>
    rw [updateServiceRun, wp_bind, updateServiceInit, wp_modify, wp_bind, waitForBinaryHello,
      wp_bind, wp_get, wp_bind, wp_modify, wp_pure, wp_ite]
    exact ⟨fun _ _ => .inl rfl, fun _ => serveAfterHello_resolved hok fuel hquiet haligned⟩
  | runAfterHello =>
    rw [updateServiceRunAfterHello, wp_bind, updateServiceInit, wp_modify]
    exact serveAfterHello_resolved hok fuel hquiet haligned

/-- **The service never leaves an update that has only begun**, where the flash operations succeed
and no frame strands it: the metadata is as it was, or the candidate is ready, or it has been
rejected. -/
theorem update_service_resolved (crypto : Crypto) (config : UpdateServiceConfig) (fuel : ℕ)
    (service start service' : UpdateService) (result : UpdateServiceResult)
    (run : Prog UpdateService Empty (Option UpdateServiceResult))
    (hentry : Entry crypto config fuel service run start)
    (hquiet : service.protocol.inst.dev.Quiet) (haligned : config.flash.programAlignment ∣ 8)
    (hok : Unstranded crypto config start) (hrun : run service = .ret (some result) service') :
    Resolved service.protocol.inst.dev.mem service'.protocol.inst.dev.mem :=
  (hentry.resolved hquiet haligned hok).ret hrun (by simp)

end Rounds

/-! ### A frame that arrives in time -/

section Frames

variable {config : UpdateServiceConfig} {s : UpdateService} {command : UInt8}
  {payload : List UInt8}

/-- The reader returns the bytes, one with each poll, from where the service stands. -/
def ArrivesAt (config : UpdateServiceConfig) (s : UpdateService) (bytes : List UInt8) : Prop :=
  ∀ i < bytes.length, config.getc (s.polled + i) = .ok (byteAt bytes i)

theorem readFrameLoop_frame (wf : s.protocol.parser.WellFormed) (hheld : s.protocol.parser.held = [])
    (hlength : payload.length ≤ updateProtocolMaxPayloadSize)
    (harrives : ArrivesAt config s
      (outgoing command s.protocol.expectedSequence payload).encode) :
    ∃ parser', readFrameLoop config.getc config.byteTimeout updateProtocolReaderMaxBytes
        s.protocol.parser s.polled = (.parsed .frameReady, parser',
          s.polled + (outgoing command s.protocol.expectedSequence payload).encode.length) ∧
      parser'.WellFormed ∧ parser'.held = [] ∧
      parser'.frame.contents =
        ⟨updateProtocolVersion, command, s.protocol.expectedSequence, payload⟩ := by
  have hnoise : ¬ protocolMagic <:+: [] := by decide
  have hnext := @nextResult_noise_encode command s.protocol.expectedSequence payload [] hnoise
    hlength []
  rw [List.nil_append, List.append_nil] at hnext
  have hfirst : firstResult s.protocol.parser
      (outgoing command s.protocol.expectedSequence payload).encode =
        some (.frameReady ⟨updateProtocolVersion, command, s.protocol.expectedSequence, payload⟩,
          []) := by
    rw [firstResult_eq_nextResult wf, hheld, List.nil_append, hnext]
  have hsize : (outgoing command s.protocol.expectedSequence payload).encode.length ≤
      updateProtocolReaderMaxBytes := by
    simp only [UpdateProtocolFrame.encode, List.length_append, header_length, storeLe32_length,
      outgoing_data hlength, updateProtocolReaderMaxBytes, updateProtocolMaxFrameSize,
      updateProtocolHeaderSize, updateProtocolCrcSize]
    omega
  obtain ⟨status, parser', hloop, hresult, hwf, hheld'⟩ :=
    readFrameLoop_firstResult wf config.byteTimeout_pos harrives hsize hfirst
  cases status with
  | frameReady =>
    exact ⟨parser', hloop, hwf, hheld', ParseResult.frameReady.inj (Option.some.inj hresult)⟩
  | _ => cases hresult

/-- **A frame in sequence that arrives in time is executed in the next round.** -/
theorem wp_updateServiceRound_frame {k : ℕ} {Q : UpdateServiceResult ⊕ ℕ → UpdateService → Prop}
    {E : Empty → UpdateService → Prop} {C : UpdateService → Prop}
    (wf : s.protocol.parser.WellFormed) (hheld : s.protocol.parser.held = [])
    (hlength : payload.length ≤ updateProtocolMaxPayloadSize)
    (harrives : ArrivesAt config s
      (outgoing command s.protocol.expectedSequence payload).encode)
    (hQ : ∀ parser', parser'.WellFormed → parser'.held = [] →
      parser'.frame.contents = ⟨updateProtocolVersion, command, s.protocol.expectedSequence,
        payload⟩ →
      wp (executeFrame crypto parser'.frame) { s.protocol with parser := parser' }
        (fun status p' => wp (decideRound config k status)
          { s with
            protocol := { p' with expectedSequence := p'.expectedSequence + 1 }
            polled := s.polled +
              (outgoing command s.protocol.expectedSequence payload).encode.length } Q E C)
        (fun _ _ => False) (fun _ => False)) :
    wp (updateServiceRound crypto config k) s Q E C := by
  obtain ⟨parser', hloop, hwf, hheld', hcontents⟩ := readFrameLoop_frame wf hheld hlength harrives
  have hversion : parser'.frame.version = updateProtocolVersion := congrArg Frame.version hcontents
  have hsequence : parser'.frame.sequence = s.protocol.expectedSequence :=
    congrArg Frame.sequence hcontents
  rw [updateServiceRound, wp_bind, updateProtocolSessionProcessReader, wp_bind, wp_get, wp_bind,
    wp_modify, wp_onProtocol, hloop, handleReaderEnd, handleParsed, wp_bind, wp_get]
  show wp (handleFrame crypto parser'.frame) { s.protocol with parser := parser' } _ _ _
  rw [handleFrame, wp_bind, wp_get, if_neg (not_not.mpr hversion), if_neg (not_not.mpr hsequence),
    wp_bind]
  refine (hQ parser' hwf hheld' hcontents).mono ?_ (fun _ _ h => h.elim) fun _ h => h.elim
  intro status p' hdecide
  rw [wp_bind, advanceSequence, wp_modify]
  exact hdecide

/-- The frame that such a round executes. -/
theorem roundFrame_arrives (wf : s.protocol.parser.WellFormed)
    (hheld : s.protocol.parser.held = [])
    (hlength : payload.length ≤ updateProtocolMaxPayloadSize)
    (harrives : ArrivesAt config s
      (outgoing command s.protocol.expectedSequence payload).encode) :
    ∃ frame, roundFrame config s = some frame ∧ frame.command = command := by
  obtain ⟨parser', hloop, -, -, hcontents⟩ := readFrameLoop_frame wf hheld hlength harrives
  refine ⟨parser'.frame, ?_, congrArg Frame.command hcontents⟩
  rw [roundFrame, hloop]
  exact if_pos ⟨rfl, congrArg Frame.version hcontents, congrArg Frame.sequence hcontents⟩

end Frames

/-! ### An update that is begun, and what comes after it -/

/-- A line that delivers so many bytes and is silent then. -/
def lineOf (bytes : List UInt8) (n : ℕ) : ByteRead :=
  if n < bytes.length then .ok (byteAt bytes n) else .noData

theorem lineOf_left {bytes rest : List UInt8} {i : ℕ} (h : i < bytes.length) :
    lineOf (bytes ++ rest) i = .ok (byteAt bytes i) := by
  rw [lineOf, if_pos (by rw [List.length_append]; omega), byteAt_append_left h]

theorem lineOf_right {bytes rest : List UInt8} {i : ℕ} (h : i < rest.length) :
    lineOf (bytes ++ rest) (bytes.length + i) = .ok (byteAt rest i) := by
  rw [lineOf, if_pos (by rw [List.length_append]; omega), byteAt_append_right rfl]

theorem lineOf_end {bytes : List UInt8} {i : ℕ} (h : bytes.length ≤ i) :
    lineOf bytes i = .noData :=
  if_neg (Nat.not_lt.mpr h)

/-- The frame that begins the update for slot B, as the first one behind the `HELLO`. -/
def beginBytes : List UInt8 :=
  (outgoing UpdateProtocolCommand.beginUpdate.toUInt8 1 updateHeader).encode

/-- The frame behind it that asks for a reset. -/
def resetBytes : List UInt8 := (outgoing UpdateProtocolCommand.reset.toUInt8 2 []).encode

/-- A service on such a line that gives up with the first timeout. -/
def hastyConfig (bytes : List UInt8) : UpdateServiceConfig :=
  { defaultConfig (lineOf bytes) with maxFrameTimeouts := 1 }

theorem hastyConfig_getc (bytes : List UInt8) : (hastyConfig bytes).getc = lineOf bytes := rfl

/-- A service that has begun the update. -/
structure HasBegun (s : UpdateService) : Prop where
  wellFormed : s.protocol.parser.WellFormed
  held : s.protocol.parser.held = []
  polled : s.polled = beginBytes.length
  sequence : s.protocol.expectedSequence = 2
  state : s.protocol.state = .updating
  started : s.protocol.installerStarted = true
  works : s.protocol.WriterWorks
  underWay : UnderWay s.protocol.inst

section Runs

variable {rest : List UInt8} {s : UpdateService}

theorem updateHeader_begins {p : UpdateProtocolSession}
    (h : Greeted (hastyConfig (beginBytes ++ rest)) freshService.protocol.inst p) :
    ∃ s₁ s₂, openInstaller p p.inst = .ret () s₁ ∧
      updateInstallerBegin factoryCrypto updateHeader s₁ = .ret () s₂ ∧ UnderWay s₂ := by
  obtain ⟨lastStatus, written, hp⟩ := h
  have hquiet : p.inst.dev.Quiet := by
    rw [hp]
    rfl
  have hj : journal p.inst.dev.mem = .ok { factoryRecord with sequence := 1 } := by
    rw [hp]
    exact journal_flashWith (by decide)
  have halign : p.flash.programAlignment ∣ 8 := by
    rw [hp]
    show updateModeFlash.programAlignment ∣ 8
    decide
  obtain ⟨s₁, s₂, hinit, hbegin, -⟩ := @update_begins p.inst 1 true hquiet hj (by decide)
  have hopen : openInstaller p p.inst = .ret () s₁ := by
    rw [openInstaller]
    rw [hp] at hinit ⊢
    exact hinit
  obtain ⟨hmem, hcalm, hinv, hsel, -, hcalls⟩ := (openInstaller_tended hquiet halign).ret hopen
  refine ⟨s₁, s₂, hopen, hbegin,
    (updateInstallerBegin_calm hcalm hinv hsel.uncommitted hcalls ?_).ret hbegin⟩
  intro _ r _ _ hr
  rw [hmem, hj] at hr
  obtain rfl := Except.ok.inj hr
  decide

theorem freshService_greets : ∃ s, acceptInitialHello (hastyConfig (beginBytes ++ rest))
      freshService = .ret .ok s ∧ s.polled = 0 ∧
    Greeted (hastyConfig (beginBytes ++ rest)) freshService.protocol.inst s.protocol := by
  have hlistening := @acceptInitialHello_listening (hastyConfig (beginBytes ++ rest)) freshService
    fun _ _ => rfl
  obtain ⟨status, s, hrun⟩ := returns_iff.mp
    (hlistening.mono (fun _ _ _ => trivial) (fun _ _ h => h) fun _ h => h)
  obtain ⟨rfl, -⟩ := hlistening.ret hrun
  obtain ⟨hpolled, -, hgreeted⟩ := acceptInitialHello_greeted.ret hrun
  exact ⟨s, hrun, hpolled, hgreeted rfl⟩

theorem arrives_begin (hpolled : s.polled = 0) (hsequence : s.protocol.expectedSequence = 1) :
    ArrivesAt (hastyConfig (beginBytes ++ rest)) s (outgoing
      UpdateProtocolCommand.beginUpdate.toUInt8 s.protocol.expectedSequence updateHeader).encode := by
  rw [hsequence, ArrivesAt, hpolled]
  intro i hi
  rw [Nat.zero_add, hastyConfig_getc]
  exact lineOf_left hi

/-- The first round begins the update. -/
theorem freshService_begins (hpolled : s.polled = 0)
    (hgreeted : Greeted (hastyConfig (beginBytes ++ rest)) freshService.protocol.inst s.protocol) :
    wp (updateServiceRound factoryCrypto (hastyConfig (beginBytes ++ rest)) 0) s
      (fun next s' => next = .inr 0 ∧ HasBegun s') (fun _ _ => False) (fun _ => False) := by
  have hheader := updateHeader_accepted.length
  obtain ⟨s₁, s₂, hopen, hbegin, hunder⟩ := updateHeader_begins hgreeted
  obtain ⟨lastStatus, written, hp⟩ := hgreeted
  have hsequence : s.protocol.expectedSequence = 1 := by rw [hp]
  have hworks : s.protocol.WriterWorks := by
    rw [hp]
    exact fun _ _ => rfl
  refine wp_updateServiceRound_frame ?_ ?_ ?_ (arrives_begin hpolled hsequence) ?_
  · rw [hp]
    exact UpdateProtocolParser.wellFormed_init
  · rw [hp]
    rfl
  · rw [hheader]
    decide
  intro parser' hwf hheld hcontents
  have hdata : parser'.frame.data = updateHeader := congrArg Frame.payload hcontents
  have hcommand : UpdateProtocolCommand.ofUInt8 parser'.frame.command = some .beginUpdate := by
    rw [show parser'.frame.command = _ from congrArg Frame.command hcontents,
      UpdateProtocolCommand.ofUInt8_toUInt8]
  have hlength : parser'.frame.payloadLength = UInt16.ofNat Layout.signedImageHeaderSize := by
    refine UInt16.toNat_inj.mp ?_
    rw [← UpdateProtocolFrame.data_length, hdata, hheader]
    rfl
  have hopen' : openInstaller { s.protocol with parser := parser' } s.protocol.inst = .ret () s₁ :=
    hopen
  rw [← hdata] at hbegin
  refine (executeFrame_begin hcommand hlength (.inl ?_) hopen' hbegin).mono ?_ (fun _ _ h => h)
    fun _ h => h
  · rw [hp]
    rfl
  rintro status p' ⟨hstatus, hanswer⟩
  obtain rfl := hstatus hworks
  rw [hanswer.same, decideRound, if_neg (by decide), wp_bind, wp_get, if_neg (by simp)]
  refine ⟨rfl, hwf, hheld, ?_, ?_, rfl, rfl, hworks, hunder⟩
  · show s.polled + _ = _
    rw [hpolled, hsequence, Nat.zero_add]
    rfl
  · show s.protocol.expectedSequence + 1 = 2
    rw [hsequence]
    rfl

/-- A reset in the next round ends the service and leaves the update as it is. -/
theorem HasBegun.reset (h : HasBegun s) :
    wp (updateServiceRound factoryCrypto (hastyConfig (beginBytes ++ resetBytes)) 0) s
      (fun next s' => next = .inl .resetRequested ∧ s'.protocol.inst = s.protocol.inst)
      (fun _ _ => False) (fun _ => False) := by
  have harrives : ArrivesAt (hastyConfig (beginBytes ++ resetBytes)) s (outgoing
      UpdateProtocolCommand.reset.toUInt8 s.protocol.expectedSequence []).encode := by
    rw [h.sequence, ArrivesAt, h.polled]
    intro i hi
    rw [hastyConfig_getc]
    exact lineOf_right hi
  refine wp_updateServiceRound_frame h.wellFormed h.held (Nat.zero_le _) harrives ?_
  intro parser' _ _ hcontents
  have hdata : parser'.frame.data = [] := congrArg Frame.payload hcontents
  have hcommand : UpdateProtocolCommand.ofUInt8 parser'.frame.command = some .reset := by
    rw [show parser'.frame.command = _ from congrArg Frame.command hcontents,
      UpdateProtocolCommand.ofUInt8_toUInt8]
  have hempty : parser'.frame.payloadLength = 0 := by
    refine UInt16.toNat_inj.mp ?_
    rw [← UpdateProtocolFrame.data_length, hdata]
    rfl
  refine (executeFrame_reset hcommand hempty).mono ?_ (fun _ _ h => h) fun _ h => h
  rintro status p' ⟨hstatus, hanswer⟩
  obtain rfl := hstatus h.works
  rw [hanswer.same, decideRound, if_neg (by decide), wp_bind, wp_get, if_neg (by simp)]
  exact ⟨rfl, rfl⟩

/-- A silence in the next round makes the service abort the update. -/
theorem HasBegun.silence (h : HasBegun s) :
    wp (updateServiceRound factoryCrypto (hastyConfig (beginBytes ++ [])) 0) s
      (fun next _ => next = .inl .bootContinue) (fun _ _ => False) (fun _ => False) := by
  have hsilent : ∀ i, s.polled ≤ i → (hastyConfig (beginBytes ++ [])).getc i = .noData := by
    intro i hi
    rw [h.polled, ← List.append_nil beginBytes] at hi
    rw [hastyConfig_getc]
    exact lineOf_end hi
  rw [updateServiceRound, wp_bind, updateProtocolSessionProcessReader, wp_bind, wp_get, wp_bind,
    wp_modify, wp_onProtocol, readFrameLoop_silent hsilent, handleReaderEnd]
  refine (handleTimeout_heard h.works).mono ?_ (fun _ _ h => h) fun _ h => h
  rintro status p' ⟨rfl, lastStatus, written, rfl⟩
  rw [decideRound, if_pos rfl, if_pos (by decide), leaveService, wp_bind, wp_onProtocol,
    abortStartedInstaller, wp_bind, wp_get, if_pos ?_, wp_bind, wp_callInstaller]
  · exact (updateInstallerAbort_underWay h.underWay).mono (fun _ _ _ => rfl) (fun _ _ h => h.elim)
      fun _ h => h
  · refine ⟨h.started, ?_⟩
    show s.protocol.state ≠ _ ∧ s.protocol.state ≠ _
    rw [h.state]
    decide

/-- A run whose second round leaves the service. -/
theorem freshService_runs {Q : UpdateServiceResult → UpdateService → Prop}
    (hround : ∀ s, HasBegun s →
      wp (updateServiceRound factoryCrypto (hastyConfig (beginBytes ++ rest)) 0) s
        (fun next s' => ∃ result, next = .inl result ∧ Q result s') (fun _ _ => False)
        (fun _ => False)) :
    ∃ result service', updateServiceRunAfterHello factoryCrypto (hastyConfig (beginBytes ++ rest)) 2
      freshService = .ret (some result) service' ∧ Q result service' := by
  obtain ⟨s, hhello, hpolled, hgreeted⟩ := @freshService_greets rest
  have hwp : wp (updateServiceRunAfterHello factoryCrypto (hastyConfig (beginBytes ++ rest)) 2)
      freshService (fun result s' => ∃ r, result = some r ∧ Q r s') (fun _ _ => False)
      (fun _ => False) := by
    rw [updateServiceRunAfterHello, wp_bind, updateServiceInit, wp_modify, serveAfterHello, wp_bind]
    refine wp_of_ret hhello ?_
    rw [if_neg (not_not.mpr rfl), runUpdateProtocol, wp_bind]
    refine (freshService_begins hpolled hgreeted).mono ?_ (fun _ _ h => h) fun _ h => h
    rintro _ s₁ ⟨rfl, hbegun⟩
    show wp (runUpdateProtocol _ _ 1 0) s₁ _ _ _
    rw [runUpdateProtocol, wp_bind]
    refine (hround s₁ hbegun).mono ?_ (fun _ _ h => h) fun _ h => h
    rintro _ s₂ ⟨result, rfl, hQ⟩
    exact ⟨result, rfl, hQ⟩
  obtain ⟨_, service', hrun⟩ := returns_iff.mp
    (hwp.mono (fun _ _ _ => trivial) (fun _ _ h => h) fun _ h => h)
  obtain ⟨result, rfl, hQ⟩ := hwp.ret hrun
  exact ⟨result, service', hrun, hQ⟩

theorem journal_freshService :
    journal freshService.protocol.inst.dev.mem = .ok factoryRecord :=
  journal_flashWith (by decide)

/-- The reader only goes forward. -/
theorem updateServiceRound_polled {crypto : Crypto} {config : UpdateServiceConfig} {k : ℕ} :
    wp (updateServiceRound crypto config k) s (fun _ s' => s.polled ≤ s'.polled)
      (fun _ _ => False) (fun _ => True) := by
  have hpolled := (@readFrameLoop_polled config.getc config.byteTimeout
    updateProtocolReaderMaxBytes s.protocol.parser s.polled).1
  rw [updateServiceRound, wp_bind, updateProtocolSessionProcessReader, wp_bind, wp_get, wp_bind,
    wp_modify, wp_onProtocol]
  refine wp_of_outcome (fun status p' _ => ?_) (fun e => e.elim) fun _ _ => trivial
  refine (decideRound_left k status fun _ _ => trivial).mono ?_ (fun _ _ h => h) fun _ h => h
  rintro next s' ⟨hsame, -⟩
  rw [hsame]
  exact hpolled

/-- Nothing strands an update that is begun and then left alone. -/
theorem unstranded_silence :
    Unstranded factoryCrypto (hastyConfig (beginBytes ++ [])) freshService := by
  have hstands : ∀ k s, StandsBefore factoryCrypto (hastyConfig (beginBytes ++ [])) freshService
      k s → (k = 0 ∧ s.polled = 0 ∧
        Greeted (hastyConfig (beginBytes ++ [])) freshService.protocol.inst s.protocol) ∨
        beginBytes.length ≤ s.polled := by
    intro k s hs
    induction hs with
    | greeted hello =>
      obtain ⟨hpolled, -, hgreeted⟩ := acceptInitialHello_greeted.ret hello
      exact .inl ⟨rfl, hpolled, hgreeted rfl⟩
    | round _ run ih =>
      rcases ih with ⟨rfl, hpolled, hgreeted⟩ | hpolled
      · exact .inr ((freshService_begins hpolled hgreeted).ret run).2.polled.ge
      · exact .inr (hpolled.trans (updateServiceRound_polled.ret run))
  intro k s hs frame hframe hstrands
  rcases hstands k s hs with ⟨-, hpolled, lastStatus, written, hp⟩ | hpolled
  · have hsequence : s.protocol.expectedSequence = 1 := by rw [hp]
    obtain ⟨frame', hframe', hcommand⟩ := roundFrame_arrives (by
      rw [hp]
      exact UpdateProtocolParser.wellFormed_init) (by rw [hp]; rfl) (by
      rw [updateHeader_accepted.length]
      decide) (arrives_begin hpolled hsequence)
    obtain rfl : frame' = frame := Option.some.inj (hframe'.symm.trans hframe)
    rcases hstrands with ⟨hreset, -⟩ | ⟨-, -, -, -, r, hr, hseq⟩
    · rw [hcommand, UpdateProtocolCommand.ofUInt8_toUInt8] at hreset
      cases hreset
    · rw [hp] at hr
      obtain rfl := Except.ok.inj (journal_freshService.symm.trans hr)
      exact absurd hseq (by decide)
  · have hsilent : ∀ i, s.polled ≤ i → (hastyConfig (beginBytes ++ [])).getc i = .noData := by
      intro i hi
      have hi := hpolled.trans hi
      rw [← List.append_nil beginBytes] at hi
      rw [hastyConfig_getc]
      exact lineOf_end hi
    rw [roundFrame, readFrameLoop_silent hsilent] at hframe
    cases hframe

/-- A service that begins an update and hears nothing more rejects the candidate. -/
theorem update_service_resolved_silence : ∃ result service',
    updateServiceRunAfterHello factoryCrypto (hastyConfig (beginBytes ++ [])) 2 freshService =
      .ret (some result) service' ∧
    Resolved freshService.protocol.inst.dev.mem service'.protocol.inst.dev.mem := by
  obtain ⟨result, service', hrun, -⟩ := @freshService_runs [] (fun _ _ => True) fun s hs =>
    hs.silence.mono (fun _ _ h => ⟨_, h, trivial⟩) (fun _ _ h => h) fun _ h => h
  refine ⟨result, service', hrun, ?_⟩
  exact update_service_resolved factoryCrypto (hastyConfig (beginBytes ++ [])) 2 freshService _
    service' result _ .runAfterHello rfl (by decide) unstranded_silence hrun

/-- **A reset leaves the update under way.** Behind the frame that has begun it the service returns,
and the metadata says `WRITING`. -/
theorem update_service_stranded :
    freshService.protocol.inst.dev.Quiet ∧
    (hastyConfig (beginBytes ++ resetBytes)).flash.programAlignment ∣ 8 ∧
    ∃ service', updateServiceRunAfterHello factoryCrypto (hastyConfig (beginBytes ++ resetBytes)) 2
        freshService = .ret (some .resetRequested) service' ∧
      (∃ r, journal service'.protocol.inst.dev.mem = .ok r ∧ r.state = .writing) ∧
      ¬ Resolved freshService.protocol.inst.dev.mem service'.protocol.inst.dev.mem := by
  refine ⟨rfl, by decide, ?_⟩
  obtain ⟨_, service', hrun, rfl, r, hr, hstate⟩ := @freshService_runs resetBytes
    (fun result s' => result = .resetRequested ∧
      ∃ r, journal s'.protocol.inst.dev.mem = .ok r ∧ r.state = .writing) fun s hs => by
    refine hs.reset.mono ?_ (fun _ _ h => h) fun _ h => h
    rintro _ s' ⟨rfl, hinst⟩
    obtain ⟨r, hr, hstate, -⟩ := hs.underWay.recorded
    exact ⟨_, rfl, rfl, r, by rw [hinst]; exact hr, hstate⟩
  refine ⟨service', hrun, ⟨r, hr, hstate⟩, ?_⟩
  rintro (hsame | ⟨r', hr', hstate'⟩)
  · rw [hr, journal_freshService] at hsame
    obtain rfl := Except.ok.inj hsame
    cases hstate
  · obtain rfl := Except.ok.inj (hr.symm.trans hr')
    rw [hstate] at hstate'
    rcases hstate' with h | h <;> cases h

end Runs

end Stm32SecurityLab
