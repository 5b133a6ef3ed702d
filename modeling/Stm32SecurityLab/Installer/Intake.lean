import Stm32SecurityLab.Installer.Content

/-!
# The stream on any device

What is true of the stream whatever the flash does. A block that is programmed is read back, so a
call that returned has put into the slot what it was given, however many calls have failed on other
occasions. The stream is then in the slot up to `payload_programmed`, the rest of it is in the
program buffer, and `update_installer_finish` does not return before all of it is in the slot.

## Main definitions

* `Stowed` — the stream, on a device that may fail at any time

## Main results

* `updateInstallerBegin_stows`, `updateInstallerWrite_stows` — a stream begins and goes on
* `updateInstallerFinish_stows` — when an update has finished the slot holds the stream
-/

namespace Stm32SecurityLab

open Crash Installer

variable {crypto : Crypto} {publicKey headerBytes : List UInt8} {s s' : Installer}

/-- A block that has been programmed is in the flash. -/
theorem programAlignedBlock_programs {address : ℕ} {data : List UInt8} :
    wp (programAlignedBlock address data) s
      (fun _ s' => s'.dev.mem = programMem s.dev.mem address data ∧
        slice s'.dev.mem address data.length = data ∧ s'.session.steady = s.session.steady)
      (fun _ _ => True) fun _ => True := by
  rw [programAlignedBlock, wp_bind, wp_getSession, wp_bind]
  refine wp.mono (steps_maybeFault (R := fun _ => False) _ _) (fun _ s₁ h₁ => ?_)
    (fun _ _ _ => trivial) fun _ _ => trivial
  rw [wp_bind, onDev, wp_zoom, wp_mapErr]
  refine bootFlashProgramAligned_spec.mono ?_ (fun _ _ _ => trivial) fun _ _ => trivial
  rintro _ d₂ ⟨hmem, hread⟩
  -- from here on the flash is only read
  refine wp.mono (StepsFrom.bind (ρ := Steady fun _ => False) (steps_maybeFault _ _)
    fun _ s₃ _ => StepsFrom.bind (steps_onDev (StepsFrom.mapErr (steps_bootFlashRead _ _ s₃.dev) _))
    fun _ _ _ => StepsFrom.bind (StepsFrom.check _ _) fun _ _ _ =>
    StepsFrom.bind (StepsFrom.check _ _) fun _ _ _ =>
    StepsFrom.bind (steps_modifySession rfl) fun _ _ _ => steps_modifyResult _)
    (fun _ s₄ h₄ => ?_) (fun _ _ _ => trivial) fun _ _ => trivial
  have hsame : s₄.dev.mem = d₂.mem := h₄.dev.eq_of_false.1
  refine ⟨?_, ?_, h₄.steady.trans h₁.steady⟩
  · rw [hsame, hmem, h₁.dev.eq_of_false.1]
  · rw [hsame, hread]

/-- **A buffer that has been programmed is in the slot**, behind what was there. -/
theorem InPlace.programmed {m' : Mem} {data : List UInt8} (h : InPlace s)
    (hfill : s.session.programFill ≤ data.length)
    (hdata : data.take s.session.programFill = slice s.programBuffer 0 s.session.programFill)
    (hmem : m' = programMem s.dev.mem
      ((bootSlots s.session.candidate).payloadBase + s.session.payloadProgrammed) data)
    (hread : slice m' ((bootSlots s.session.candidate).payloadBase + s.session.payloadProgrammed)
      data.length = data) :
    slice m' (bootSlots s.session.candidate).payloadBase
      (s.session.payloadProgrammed + s.session.programFill) = s.session.payloadHashCtx := by
  have hbelow : slice m' (bootSlots s.session.candidate).payloadBase s.session.payloadProgrammed =
      slice s.dev.mem (bootSlots s.session.candidate).payloadBase s.session.payloadProgrammed := by
    rw [hmem]
    exact slice_congr fun x _ hx => programMem_of_not_mem (by omega)
  have hnew := congrArg (List.take s.session.programFill) hread
  rw [slice_take hfill, hdata] at hnew
  rw [slice_add, hbelow, hnew]
  exact h

/-- What `flush_payload_program_buffer` has achieved when it returns. -/
structure Emptied (s s' : Installer) : Prop where
  intake : s'.session.intake = s.session.intake
  slot : slice s'.dev.mem (bootSlots s.session.candidate).payloadBase
    (s.session.payloadProgrammed + s.session.programFill) = s.session.payloadHashCtx

/-- **A flush puts the stream into the slot.** -/
theorem flushPayloadProgramBuffer_empties (finalFlush : Bool) (h : InPlace s) :
    wp (flushPayloadProgramBuffer finalFlush) s
      (fun _ s' => Emptied s s' ∧ s'.session.programFill = 0 ∧ (finalFlush = false →
        s'.session.payloadProgrammed = s.session.payloadProgrammed + s.session.programFill))
      (fun _ _ => True) fun _ => True := by
  rw [flushPayloadProgramBuffer, wp_bind, wp_getSession, wp_ite]
  refine ⟨fun hempty => ?_, fun _ => ?_⟩
  · have hslot := h
    rw [InPlace, hempty, slice_zero, List.append_nil] at hslot
    refine ⟨⟨rfl, ?_⟩, hempty, fun _ => ?_⟩
    · rw [hempty]
      exact hslot
    · rw [hempty, Nat.add_zero]
  -- programming the buffer, whatever has been appended to it
  have hprogram {buffer : Mem} {programLength address : ℕ}
      (hfill : s.session.programFill ≤ programLength)
      (hbuffer : slice buffer 0 s.session.programFill =
        slice s.programBuffer 0 s.session.programFill)
      (haddress : checkedU32Add (bootSlots s.session.candidate).payloadBase
        s.session.payloadProgrammed = some address) :
      wp (do
          let s ← .get
          programAlignedBlock address (slice s.programBuffer 0 programLength)
          modifySession fun session =>
            { session with
              payloadProgrammed := session.payloadProgrammed + programLength
              programFill := 0 }) { s with programBuffer := buffer }
        (fun _ s' => Emptied s s' ∧ s'.session.programFill = 0 ∧
          s'.session.payloadProgrammed = s.session.payloadProgrammed + programLength)
        (fun _ _ => True) fun _ => True := by
    obtain rfl := eq_of_checkedU32Add haddress
    rw [wp_bind, wp_get, wp_bind]
    refine programAlignedBlock_programs.mono ?_ (fun _ _ _ => trivial) fun _ _ => trivial
    rintro _ s₁ ⟨hmem, hread, hsteady⟩
    have hprogrammed : s₁.session.payloadProgrammed = s.session.payloadProgrammed :=
      congrArg (·.payloadProgrammed) hsteady
    rw [wp_modifySession]
    refine ⟨⟨congrArg (fun session : UpdateInstallerSession =>
      { session with payloadProgrammed := 0, programFill := 0 }) hsteady, ?_⟩, rfl, ?_⟩
    · refine h.programmed ?_ ?_ hmem hread
      · rw [slice_length]
        exact hfill
      · rw [slice_take hfill]
        exact hbuffer
    · rw [hprogrammed]
  rw [wp_bind, flushLength, wp_bind, wp_getSession]
  cases finalFlush with
  | false =>
    rw [if_neg Bool.false_ne_true, wp_bind, wp_check]
    refine ⟨fun _ => ?_, fun _ => trivial⟩
    rw [wp_pure, wp_bind, wp_check]
    refine ⟨fun _ => ?_, fun _ => trivial⟩
    split
    · trivial
    · rename_i address haddress
      exact (hprogram le_rfl rfl haddress).mono (fun _ _ h => ⟨h.1, h.2.1, fun _ => h.2.2⟩)
        (fun _ _ h => h) fun _ h => h
  | true =>
    rw [if_pos rfl]
    split
    · trivial
    · rename_i programLength hround
      obtain ⟨-, hge, -⟩ := checkedRoundUp_spec hround
      rw [wp_bind, wp_modify, wp_pure, wp_bind, wp_check]
      refine ⟨fun _ => ?_, fun _ => trivial⟩
      split
      · trivial
      · rename_i address haddress
        refine (hprogram hge ?_ haddress).mono
          (fun _ _ h => ⟨h.1, h.2.1, fun h => Bool.noConfusion h⟩) (fun _ _ h => h) fun _ h => h
        exact slice_congr fun x _ hx => if_neg (by omega)

/-! ### The calls -/

/-- **The stream, on a device that may fail at any time.** -/
structure Stowed (s : Installer) : Prop where
  place : InPlace s
  received : s.session.payloadReceived = s.session.payloadProgrammed + s.session.programFill
  room : 0 < room s.session
  complete : s.session.state = .payloadComplete →
    s.session.payloadReceived = s.session.header.payloadSize

/-- What has been received is what has been hashed. -/
theorem Stowed.hashed (h : Stowed s) :
    s.session.payloadHashCtx.length = s.session.payloadReceived := by
  rw [← h.place, h.received, List.length_append, slice_length, slice_length]

/-- A stream begins empty. -/
theorem updateInstallerBegin_stows (hinv : SessionInv publicKey s) :
    wp (updateInstallerBegin crypto headerBytes) s
      (fun _ s' => Stowed s' ∧ s'.session.payloadHashCtx = []) (fun _ _ => True)
      fun _ => True := by
  refine wp.mono (updateInstallerBegin_spec hinv) ?_ (fun _ _ _ => trivial) fun _ _ => trivial
  rintro _ s' ⟨-, -, hstate, header, size, writing, -, -, -, hsteady⟩
  have hsel := hinv.selected hstate
  have hreceived : s'.session.payloadReceived = s.session.payloadReceived :=
    congrArg (·.payloadReceived) hsteady
  have hprogrammed : s'.session.payloadProgrammed = s.session.payloadProgrammed :=
    congrArg (·.payloadProgrammed) hsteady
  have hfill : s'.session.programFill = s.session.programFill := congrArg (·.programFill) hsteady
  have hoptions : s'.session.options = s.session.options := congrArg (·.options) hsteady
  have hhashed : s'.session.payloadHashCtx = [] := congrArg (·.payloadHashCtx) hsteady
  have hwriting : s'.session.state = .writing := congrArg (·.state) hsteady
  refine ⟨⟨?_, ?_, ?_, fun h => ?_⟩, hhashed⟩
  · rw [InPlace, hprogrammed, hsel.programmed, hfill, hsel.fill, hhashed]
    rfl
  · rw [hreceived, hsel.received, hprogrammed, hsel.programmed, hfill, hsel.fill]
  · rw [room, hoptions, hfill, hsel.fill]
    exact (programBufferSize_of_valid hsel.options).1
  · rw [hwriting] at h
    cases h

/-- One round of `update_installer_write`. -/
theorem flushIfFull_stows (h : InPlace s)
    (hreceived : s.session.payloadReceived = s.session.payloadProgrammed + s.session.programFill) :
    wp flushIfFull s
      (fun _ s' => InPlace s' ∧
        s'.session.payloadReceived = s'.session.payloadProgrammed + s'.session.programFill)
      (fun _ _ => True) fun _ => True := by
  rw [flushIfFull, wp_bind, wp_getSession, wp_ite]
  refine ⟨fun _ => ?_, fun _ => ⟨h, hreceived⟩⟩
  refine (flushPayloadProgramBuffer_empties false h).mono ?_ (fun _ _ h => h) fun _ h => h
  rintro _ s' ⟨hemptied, hfill, hprogrammed⟩
  have hcandidate : s'.session.candidate = s.session.candidate :=
    congrArg (·.candidate) hemptied.intake
  have hhashed : s'.session.payloadHashCtx = s.session.payloadHashCtx :=
    congrArg (·.payloadHashCtx) hemptied.intake
  have hsame : s'.session.payloadReceived = s.session.payloadReceived :=
    congrArg (·.payloadReceived) hemptied.intake
  refine ⟨?_, ?_⟩
  · rw [InPlace, hfill, slice_zero, List.append_nil, hcandidate, hprogrammed rfl, hhashed]
    exact hemptied.slot
  · rw [hsame, hreceived, hprogrammed rfl, hfill, Nat.add_zero]

theorem writeLoop_stows {fuel : ℕ} {input : List UInt8} (h : InPlace s)
    (hreceived : s.session.payloadReceived = s.session.payloadProgrammed + s.session.programFill)
    (hroom : 0 < room s.session) :
    wp (writeLoop fuel input) s
      (fun _ s' => InPlace s' ∧
        s'.session.payloadReceived = s'.session.payloadProgrammed + s'.session.programFill)
      (fun _ _ => True) fun _ => True := by
  induction fuel generalizing input s with
  | zero => exact ⟨h, hreceived⟩
  | succ fuel ih =>
    by_cases hnil : input = []
    · rw [hnil]
      exact ⟨h, hreceived⟩
    rw [wp, writeLoop_succ (List.length_pos_iff.mpr hnil)]
    change wp (flushIfFull >>= _) _ _ _ _
    rw [wp_bind]
    refine ((flushIfFull_stows (h.absorb _) ?_).and (round_spec hroom)).mono ?_
      (fun _ _ _ => trivial) fun _ _ => trivial
    · show s.session.payloadReceived + _ = s.session.payloadProgrammed + (s.session.programFill + _)
      rw [hreceived, Nat.add_assoc]
    · rintro _ s₁ ⟨⟨hplace₁, hreceived₁⟩, hroom₁, -⟩
      exact ih hplace₁ hreceived₁ hroom₁

/-- **A block that is taken joins the stream**, at the offset at which it was offered. -/
theorem updateInstallerWrite_stows {payloadOffset : ℕ} {data : List UInt8} (h : Stowed s) :
    wp (updateInstallerWrite payloadOffset data) s
      (fun _ s' => Stowed s' ∧ s'.session.payloadReceived = s.session.payloadReceived + data.length ∧
        s'.session.payloadHashCtx = s.session.payloadHashCtx ++ data)
      (fun _ _ => True) fun _ => True := by
  rw [updateInstallerWrite, wp_bind, wp_getSession, wp_bind, wp_failSession, wp_check]
  refine ⟨fun _ => ?_, fun _ => trivial⟩
  rw [wp_bind, wp_check]
  refine ⟨fun hstate => ?_, fun _ => trivial⟩
  rw [wp_bind, wp_check]
  refine ⟨fun _ => ?_, fun _ => trivial⟩
  rw [wp_failSession, wp_bind, wp_check]
  refine ⟨fun _ => ?_, fun _ => trivial⟩
  rw [wp_bind, wp_check]
  refine ⟨fun _ => ?_, fun _ => trivial⟩
  rw [wp_bind]
  refine ((writeLoop_stows h.place h.received h.room).and
    (writeLoop_takenIn le_rfl h.room)).mono ?_ (fun _ _ _ => trivial) fun _ _ => trivial
  rintro _ s₁ ⟨⟨hplace₁, hreceived₁⟩, hroom₁, htaken⟩
  have hstate₁ : s₁.session.state = .writing := (congrArg (·.state) htaken.core).trans hstate
  rw [wp_modifySession]
  by_cases hall : s₁.session.payloadReceived = s₁.session.header.payloadSize
  · rw [if_pos hall]
    exact ⟨⟨hplace₁, hreceived₁, hroom₁, fun _ => hall⟩, htaken.received, htaken.hashed⟩
  · rw [if_neg hall]
    refine ⟨⟨hplace₁, hreceived₁, hroom₁, fun h => ?_⟩, htaken.received, htaken.hashed⟩
    rw [show s₁.session.state = .payloadComplete from h] at hstate₁
    cases hstate₁

/-- Metadata operations leave everything above the metadata alone. -/
theorem slice_of_meta {d d' : Device} (h : d.Extends MetaOp d') (c : BootSlotId) (n : ℕ) :
    slice d'.mem (bootSlots c).payloadBase n = slice d.mem (bootSlots c).payloadBase n := by
  refine slice_congr fun x hx _ => h.mem_eq fun op hop hcov => ?_
  have hend := hop.endAddr_le
  have hslot : Layout.bootMetadataBEnd < (bootSlots c).payloadBase := by cases c <;> decide
  omega

/-- **When an update has finished, the slot holds the stream**, and all of it has been received. -/
theorem updateInstallerFinish_stows (h : Stowed s) :
    wp (updateInstallerFinish crypto) s
      (fun _ s' => s'.session.candidate = s.session.candidate ∧
        slice s'.dev.mem (bootSlots s.session.candidate).payloadBase
          s.session.payloadHashCtx.length = s.session.payloadHashCtx ∧
        s.session.payloadHashCtx.length = s'.session.header.payloadSize)
      (fun _ _ => True) fun _ => True := by
  rw [updateInstallerFinish, wp_bind, wp_getSession, wp_bind, wp_failSession, wp_check]
  refine ⟨fun _ => ?_, fun _ => trivial⟩
  rw [wp_bind, wp_check]
  refine ⟨fun hstate => ?_, fun _ => trivial⟩
  rw [wp_failSession, wp_bind]
  refine (flushPayloadProgramBuffer_empties true h.place).mono ?_ (fun _ _ _ => trivial)
    fun _ _ => trivial
  rintro _ s₁ ⟨hemptied, -, -⟩
  rw [wp_bind, wp_getSession, wp_bind, wp_check]
  refine ⟨fun _ => ?_, fun _ => trivial⟩
  -- the rest of the call reads the slot and writes metadata
  have hslot := hemptied.slot
  rw [← h.received, ← h.hashed] at hslot
  have hcore : s₁.session.intake.core = s.session.intake.core := by rw [hemptied.intake]
  replace hcore : s₁.session.core = s.session.core := hcore
  have hquiet {s₂ s₃ : Installer} (h₃ : Streams (fun _ => False) s₂ s₃) : Streams MetaOp s₂ s₃ :=
    h₃.mono fun _ => False.elim
  have hdone {s₅ : Installer} (h₅ : Streams MetaOp s₁ s₅) :
      s₅.session.candidate = s.session.candidate ∧
        slice s₅.dev.mem (bootSlots s.session.candidate).payloadBase
          s.session.payloadHashCtx.length = s.session.payloadHashCtx ∧
        s.session.payloadHashCtx.length = s₅.session.header.payloadSize := by
    have hcore₅ : s₅.session.core = s.session.core := h₅.core.trans hcore
    have hheader : s₅.session.header = s.session.header := congrArg (·.header) hcore₅
    refine ⟨congrArg (·.candidate) hcore₅, ?_, ?_⟩
    · rw [slice_of_meta h₅.dev]
      exact hslot
    · rw [h.hashed, h.complete hstate, hheader]
  rw [wp_bind]
  refine wp.mono (steps_verifyStreamingPayloadHash (R := fun _ => False) crypto) (fun _ s₂ h₂ => ?_)
    (fun _ _ _ => trivial) fun _ _ => trivial
  rw [wp_bind]
  refine wp.mono (steps_streams (steps_hashInstalledPayload (R := fun _ => False) crypto))
    (fun _ s₃ h₃ => ?_) (fun _ _ _ => trivial) fun _ _ => trivial
  rw [wp_bind]
  refine verifyInstalledPackage_spec.mono ?_ (fun _ _ _ => trivial) fun _ _ => trivial
  rintro _ s₄ ⟨h₄, -⟩
  rw [wp_bind]
  refine commitMetadataState_spec.mono ?_ (fun _ _ _ => trivial) fun _ _ => trivial
  rintro _ s₅ ⟨h₅, -⟩
  have hrest : Streams MetaOp s₁ s₅ := IsTrans.trans _ _ _ (IsTrans.trans _ _ _
    (IsTrans.trans _ _ _ (hquiet h₂) (hquiet h₃)) (hquiet h₄.streams)) h₅.streams
  have hfinished := hdone hrest
  exact hfinished

end Stm32SecurityLab
