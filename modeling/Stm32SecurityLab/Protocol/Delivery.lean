import Stm32SecurityLab.Installer.Intake
import Stm32SecurityLab.Protocol.Stream

/-!
# Every block once, and in order

Three modules count what arrives: the session counts frames, and checks their numbers; it counts
the bytes of the payload, and checks the offset of every block; and the installer counts the bytes
it has taken. The blocks that a session has acknowledged are the ghost that ties the counters
together: the installer has hashed exactly them, one after the other, and when it has finished they
are in the slot.

Nothing here depends on the flash working, on the writer, or on how many frames there have been.

## Main definitions

* `acknowledgedBlocks` — the blocks acknowledged since the update began
* `ExactlyOnce` — what can be said of a session after any input

## Main results

* `Receiving.executed` — one frame
* `update_session_exactly_once` — every input
-/

namespace Stm32SecurityLab

open Crash

/-! ### What has been acknowledged -/

/-- What a frame adds to the acknowledged blocks: an update that begins has none yet. -/
def withFrame (frame : UpdateProtocolFrame) (blocks : List (List UInt8)) : List (List UInt8) :=
  match UpdateProtocolCommand.ofUInt8 frame.command with
  | some .beginUpdate => []
  | some .writeBlock => blocks ++ [frame.data.drop updateProtocolWriteBlockPrefixSize]
  | _ => blocks

/-- The acknowledged blocks after an event. Only a frame that has been executed counts, and only if
the answer was an acknowledgement. -/
def afterEvent (event : LineEvent) (p p' : UpdateProtocolSession) (blocks : List (List UInt8)) :
    List (List UInt8) :=
  match accepted (received p event) (event.parse p.parser).1 with
  | none => blocks
  | some frame => if p'.lastStatus = .ok then withFrame frame blocks else blocks

/-- The blocks that a session has acknowledged since the update began. -/
def acknowledgedBlocks (crypto : Crypto) :
    List LineEvent → UpdateProtocolSession → List (List UInt8) → List (List UInt8)
  | [], _, blocks => blocks
  | event :: events, p, blocks =>
    match handleLineEvent crypto event p with
    | .ret _ p' => acknowledgedBlocks crypto events p' (afterEvent event p p' blocks)
    | .err _ _ | .cut _ => blocks

/-! ### The ghost and the counters -/

/-- While an update is under way, the offset of the session is the count of the installer, and the
installer has hashed the acknowledged blocks. -/
def Receiving (blocks : List (List UInt8)) (p : UpdateProtocolSession) : Prop :=
  p.state = .updating → Stowed p.inst ∧
    p.updatePayloadOffset = p.inst.session.payloadReceived ∧
    p.inst.session.payloadHashCtx = blocks.flatten

section Frames

variable {crypto : Crypto} {blocks : List (List UInt8)} {frame : UpdateProtocolFrame}
  {p q : UpdateProtocolSession}

theorem Receiving.of_state (h : q.state ≠ .updating) : Receiving blocks q :=
  fun hupdating => absurd hupdating h

/-- A session that has been opened can begin an update. -/
theorem openInstaller_inv {s : Installer} (h : openInstaller p p.inst = .ret () s) :
    SessionInv p.publicKey s := by
  rw [openInstaller] at h
  obtain ⟨-, hinit, hsel⟩ := updateInstallerSessionInit_spec.ret h
  rw [SessionInv, hinit.state]
  exact hsel

/-- **A frame keeps the counters in step**, whatever becomes of it. -/
theorem Receiving.executed {ack : Bool} (h : Receiving blocks p)
    (hrun : Executed crypto frame p ack q) :
    Receiving (if ack then withFrame frame blocks else blocks) q := by
  cases hrun with
  | refused => exact h
  | informed known question =>
    rw [if_pos rfl, withFrame, known]
    obtain rfl | rfl | rfl := question <;> exact h
  | begun command _ _ init run =>
    rw [if_pos rfl, withFrame, command]
    obtain ⟨hstowed, hhashed⟩ :=
      (updateInstallerBegin_stows (openInstaller_inv init)).ret run
    intro _
    refine ⟨hstowed, ?_, hhashed⟩
    show 0 = _
    rw [← hstowed.hashed, hhashed]
    rfl
  | wrote command state _ run =>
    rw [if_pos rfl, withFrame, command]
    obtain ⟨hstowed, hoffset, hhashed⟩ := h state
    obtain ⟨hstowed', hreceived', hhashed'⟩ := (updateInstallerWrite_stows hstowed).ret run
    intro _
    refine ⟨hstowed', ?_, ?_⟩
    · show p.updatePayloadOffset + _ = _
      rw [hreceived', hoffset]
    · show _ = (blocks ++ [_]).flatten
      rw [hhashed', hhashed, List.flatten_append, List.flatten_singleton]
  | notOpened => exact .of_state fun h => nomatch h
  | notReopened => exact .of_state fun h => nomatch h
  | notBegun => exact .of_state fun h => nomatch h
  | misplaced => exact .of_state fun h => nomatch h
  | notWritten => exact .of_state fun h => nomatch h
  | notFinished => exact .of_state fun h => nomatch h
  | finished => exact .of_state fun h => nomatch h
  | stopped => exact .of_state fun h => nomatch h
  | notAborted => exact .of_state fun h => nomatch h
  | aborted => exact .of_state fun h => nomatch h
  | reset => exact .of_state fun h => nomatch h

/-- The slot holds the blocks, and they are the payload that was announced. -/
def Delivered (blocks : List (List UInt8)) (s : Installer) : Prop :=
  slice s.dev.mem (bootSlots s.session.candidate).payloadBase blocks.flatten.length =
      blocks.flatten ∧
    blocks.flatten.length = s.session.header.payloadSize

/-- **An update is acknowledged when the blocks are in the slot.** -/
theorem Receiving.finished (h : Receiving blocks p) (hrun : Executed crypto frame p true q)
    (hcommand : UpdateProtocolCommand.ofUInt8 frame.command = some .finishUpdate) :
    Delivered blocks q.inst := by
  cases hrun with
  | informed known question =>
    rw [hcommand] at known
    cases known
    rcases question with h | h | h <;> cases h
  | finished _ state _ run =>
    obtain ⟨hstowed, -, hhashed⟩ := h state
    obtain ⟨hcandidate, hslot, hsize⟩ := (updateInstallerFinish_stows hstowed).ret run
    rw [hhashed] at hslot hsize
    refine ⟨?_, hsize⟩
    show slice _ (bootSlots _).payloadBase _ = _
    rw [hcandidate]
    exact hslot
  | begun command => rw [hcommand] at command; cases command
  | wrote command => rw [hcommand] at command; cases command
  | stopped command => rw [hcommand] at command; cases command
  | aborted command => rw [hcommand] at command; cases command
  | reset command => rw [hcommand] at command; cases command

end Frames

/-! ### Events -/

section Events

variable {crypto : Crypto} {blocks : List (List UInt8)} {event : LineEvent}
  {p p' : UpdateProtocolSession}

theorem Receiving.received (h : Receiving blocks p) (event : LineEvent) :
    Receiving blocks (received p event) := h

theorem Receiving.answered {ack : Bool} {sequence expectedSequence : UInt16} {command : UInt8}
    {q : UpdateProtocolSession} (h : Receiving blocks q) (ha : Answered ack sequence command q p) :
    Receiving blocks { p with expectedSequence } := by
  rw [ha.same]
  exact h

theorem Receiving.handled (h : Receiving blocks p)
    (hhandled : Handled crypto (event.parse p.parser).1 (Stm32SecurityLab.received p event) p') :
    Receiving (afterEvent event p p' blocks) p' := by
  cases hhandled with
  | skipped hnone =>
    rw [afterEvent, hnone]
    exact h
  | @executed frame ack q r hsome hrun hanswer =>
    have hkept := (h.received event).executed hrun
    have hack : (if r.lastStatus = .ok then withFrame frame blocks else blocks) =
        if ack then withFrame frame blocks else blocks := by
      simp only [hanswer.status]
    rw [afterEvent, hsome]
    show Receiving (if r.lastStatus = .ok then _ else _) _
    rw [hack]
    exact hkept.answered hanswer

/-- What can be said of a session after any input. -/
structure ExactlyOnce (crypto : Crypto) (start : UpdateProtocolSession) (events : List LineEvent)
    (p : UpdateProtocolSession) : Prop where
  /-- The session counts the frames that came complete, with the right version and the number that
  was expected then. -/
  counted : p.expectedSequence =
    UInt16.ofNat (acceptedFrames start.parser start.expectedSequence events).length
  /-- Nothing else that can come changes more than the parser and the status. -/
  others : ∀ event, accepted (received p event) (event.parse p.parser).1 = none →
    wp (handleLineEvent crypto event) p
      (fun _ p' => ∃ parser lastStatus written, p' = { p with parser, lastStatus, written })
      (fun _ _ => False) fun _ => False
  /-- While an update is under way, the offset is the count of the installer and the length of
  what has been acknowledged. -/
  offset : p.state = .updating →
    p.updatePayloadOffset = p.inst.session.payloadReceived ∧
      p.updatePayloadOffset = (acknowledgedBlocks crypto events start []).flatten.length
  /-- A `FINISH_UPDATE` is acknowledged when the slot holds what has been acknowledged. -/
  finished : ∀ event frame, accepted (received p event) (event.parse p.parser).1 = some frame →
    UpdateProtocolCommand.ofUInt8 frame.command = some .finishUpdate →
    wp (handleLineEvent crypto event) p
      (fun _ p' => p'.lastStatus = .ok →
        Delivered (acknowledgedBlocks crypto events start []) p'.inst)
      (fun _ _ => False) fun _ => True

theorem handleLineEvent_others (hnone : accepted (received p event) (event.parse p.parser).1 = none) :
    wp (handleLineEvent crypto event) p
      (fun _ p' => ∃ parser lastStatus written, p' = { p with parser, lastStatus, written })
      (fun _ _ => False) fun _ => False := by
  refine (handleLineEvent_spec event).mono ?_ (fun _ _ h => h) ?_
  · intro _ p' hhandled
    cases hhandled with
    | skipped => exact ⟨_, _, _, rfl⟩
    | executed hsome =>
      rw [hnone] at hsome
      cases hsome
  · rintro p' ⟨frame, hsome, -⟩
    rw [hnone] at hsome
    cases hsome

theorem Receiving.finishes {frame : UpdateProtocolFrame} (h : Receiving blocks p)
    (hsome : accepted (Stm32SecurityLab.received p event) (event.parse p.parser).1 = some frame)
    (hcommand : UpdateProtocolCommand.ofUInt8 frame.command = some .finishUpdate) :
    wp (handleLineEvent crypto event) p
      (fun _ p' => p'.lastStatus = .ok → Delivered blocks p'.inst) (fun _ _ => False)
      fun _ => True := by
  refine (handleLineEvent_spec event).mono ?_ (fun _ _ h => h) fun _ _ => trivial
  intro _ p' hhandled hok
  cases hhandled with
  | skipped hnone =>
    rw [hnone] at hsome
    cases hsome
  | @executed frame' ack q r hsome' hrun hanswer =>
    obtain rfl : frame = frame' := Option.some.inj (hsome.symm.trans hsome')
    obtain rfl : ack = true := hanswer.status.mp hok
    have hdelivered := (h.received event).finished hrun hcommand
    show Delivered blocks r.inst
    rw [hanswer.same]
    exact hdelivered

/-- The invariant of a run, with the blocks that were there before. -/
theorem runLine_receiving (events : List LineEvent) (h : Receiving blocks p) :
    wp (runLine crypto events) p
      (fun _ p' => Receiving (acknowledgedBlocks crypto events p blocks) p') (fun _ _ => False)
      fun _ => True := by
  induction events generalizing p blocks with
  | nil => exact h
  | cons event events ih =>
    rw [runLine, wp_bind, acknowledgedBlocks]
    refine wp_of_outcome ?_ (fun e => e.elim) fun _ _ => trivial
    intro status p' hrun
    rw [hrun]
    exact ih (h.handled ((handleLineEvent_spec event).ret hrun))

/-- **Exactly once and in order.** Whatever comes over the line after a session has been opened,
and whatever the flash and the writer do: the session counts the frames in sequence, and wraps; no
other frame changes anything but the parser and the status; and the blocks that were acknowledged
are what the counters of the session and of the installer count, and what the slot holds when the
update has finished. -/
theorem update_session_exactly_once (crypto : Crypto) (flash : BootFlash) (publicKey : List UInt8)
    (options : UpdateInstallOptions) (write : ℕ → List UInt8 → UpdateProtocolStatus)
    (programBuffer : Mem) (d : Device) (events : List LineEvent) :
    wp (runLine crypto events)
      (updateProtocolSessionInit flash publicKey options write programBuffer d)
      (fun _ p => ExactlyOnce crypto
        (updateProtocolSessionInit flash publicKey options write programBuffer d) events p)
      (fun _ _ => False) fun _ => True := by
  have hstart : Receiving []
      (updateProtocolSessionInit flash publicKey options write programBuffer d) :=
    .of_state fun h => nomatch h
  refine ((runLine_spec events).and (runLine_receiving events hstart)).mono ?_ (fun _ _ h => h.1)
    fun _ _ => trivial
  rintro _ p ⟨hcounted, hreceiving⟩
  refine ⟨?_, fun event hnone => handleLineEvent_others hnone, fun hstate => ?_,
    fun event frame hsome hcommand => hreceiving.finishes hsome hcommand⟩
  · rw [hcounted]
    exact UInt16.zero_add _
  · obtain ⟨hstowed, hoffset, hhashed⟩ := hreceiving hstate
    refine ⟨hoffset, ?_⟩
    rw [hoffset, ← hstowed.hashed, hhashed]

end Events

end Stm32SecurityLab
