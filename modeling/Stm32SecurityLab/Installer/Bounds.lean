import Stm32SecurityLab.Installer.Install

/-!
# Counters and buffer bounds

The counters of a stream and the program buffer, over every sequence of calls of the installer on
any device.

The code answers `ERR_STATE` or `ERR_CAPACITY` in places that it never gets to, and it never asks
whether a `memcpy` stays inside the program buffer. To say that such a place is not reached, the
calls are written once more with a *trap* in each of them. With the answers of the code in the
traps they are the code, and for a session that is reached they are the code whatever the traps do.

## Main definitions

* `Counted` — the counters of a stream
* `Traps`, `updateInstallerWriteWith`, `updateInstallerFinishWith` — the calls with traps
* `SessionReached` — what calls of the installer lead to

## Main results

* `Counted.flush`, `Counted.write` — a flush and a block keep the counters
* `flushWith_eq`, `updateInstallerWriteWith_eq`, `updateInstallerFinishWith_eq` — no trap is reached
* `streaming_counters`
-/

namespace Stm32SecurityLab

open Crash Installer

variable {crypto : Crypto} {publicKey headerBytes : List UInt8} {s s' : Installer}

/-! ### Traps -/

/-- What happens in the places that are not reached. -/
structure Traps where
  /-- `ERR_STATE` of `flush_payload_program_buffer`. -/
  state : Prog Installer UpdateInstallError Unit
  /-- `ERR_CAPACITY` of `flush_payload_program_buffer` and of the last check of its result. -/
  capacity : Prog Installer UpdateInstallError Unit
  /-- Before the program buffer is written outside its bounds. -/
  outside : Prog Installer UpdateInstallError Unit
  /-- Before `header.payload_size - payload_received` underflows. -/
  underflow : Prog Installer UpdateInstallError Unit

/-- What the code does in these places. -/
def Traps.code : Traps := ⟨.fail .state, .fail .capacity, pure (), pure ()⟩

/-- A trap that is sprung unless `c` holds. -/
def unlessTrapped (c : Prop) [Decidable c] (trap : Prog Installer UpdateInstallError Unit) :
    Prog Installer UpdateInstallError Unit :=
  if c then pure () else trap

/-- `flushLength` with traps. -/
def flushLengthWith (traps : Traps) (finalFlush : Bool) : Prog Installer UpdateInstallError ℕ := do
  let session ← getSession
  if finalFlush then
    match checkedRoundUp session.programFill session.restrictedFlash.programAlignment with
    | none => do
      traps.capacity
      pure 0
    | some programLength => do
      unlessTrapped (session.programFill ≤ programLength ∧
        programLength ≤ session.options.programBufferSize) traps.outside
      .modify fun s =>
        { s with
          programBuffer :=
            memset s.programBuffer session.programFill 0xFF (programLength - session.programFill) }
      pure programLength
  else do
    unlessTrapped (session.programFill = session.options.programBufferSize) traps.state
    pure session.programFill

/-- `flush_payload_program_buffer` with traps. -/
def flushWith (traps : Traps) (finalFlush : Bool) : Prog Installer UpdateInstallError Unit := do
  let session ← getSession
  if session.programFill = 0 then
    pure ()
  else do
    let programLength ← flushLengthWith traps finalFlush
    unlessTrapped (session.payloadProgrammed ≤ session.payloadProgramSize ∧
      programLength ≤ session.payloadProgramSize - session.payloadProgrammed) traps.capacity
    match checkedU32Add (bootSlots session.candidate).payloadBase session.payloadProgrammed with
    | none => traps.capacity
    | some address => do
      let s ← .get
      programAlignedBlock address (slice s.programBuffer 0 programLength)
      modifySession fun session =>
        { session with
          payloadProgrammed := session.payloadProgrammed + programLength
          programFill := 0 }

/-- `flushIfFull` with traps. -/
def flushIfFullWith (traps : Traps) : Prog Installer UpdateInstallError Unit := do
  let session ← getSession
  if session.programFill = session.options.programBufferSize then
    flushWith traps false
  else
    pure ()

/-- `writeLoop` with traps. -/
def writeLoopWith (traps : Traps) : ℕ → List UInt8 → Prog Installer UpdateInstallError Unit
  | 0, _ => pure ()
  | fuel + 1, input =>
    if 0 < input.length then do
      let session ← getSession
      let consumed := min input.length (session.options.programBufferSize - session.programFill)
      unlessTrapped (session.programFill + consumed ≤ session.options.programBufferSize)
        traps.outside
      .modify fun s =>
        { s with
          programBuffer := memcpy s.programBuffer session.programFill (input.take consumed)
          session :=
            { s.session with
              payloadHashCtx := s.session.payloadHashCtx ++ input.take consumed
              programFill := s.session.programFill + consumed
              payloadReceived := s.session.payloadReceived + consumed } }
      flushIfFullWith traps
      writeLoopWith traps fuel (input.drop consumed)
    else
      pure ()

/-- `update_installer_write` with traps. -/
def updateInstallerWriteWith (traps : Traps) (payloadOffset : ℕ) (data : List UInt8) :
    Prog Installer UpdateInstallError Unit := do
  let session ← getSession
  failSession (.check (session.state ≠ .payloadComplete) .sequence)
  .check (session.state = .writing) .state
  .check (data.length ≠ 0) .invalidArgument
  failSession do
    .check (payloadOffset = session.payloadReceived) .sequence
    unlessTrapped (session.payloadReceived ≤ session.header.payloadSize) traps.underflow
    .check (data.length ≤ session.header.payloadSize - session.payloadReceived) .sequence
    writeLoopWith traps data.length data
    modifySession fun session =>
      if session.payloadReceived = session.header.payloadSize then
        { session with state := .payloadComplete }
      else
        session

/-- `update_installer_finish` with traps. -/
def updateInstallerFinishWith (traps : Traps) (crypto : Crypto) :
    Prog Installer UpdateInstallError Unit := do
  let session ← getSession
  failSession (.check (session.state ≠ .writing) .sequence)
  .check (session.state = .payloadComplete) .state
  failSession do
    flushWith traps true
    let flushed ← getSession
    unlessTrapped (flushed.payloadProgrammed = flushed.payloadProgramSize) traps.capacity
    verifyStreamingPayloadHash crypto
    hashInstalledPayload crypto
    verifyInstalledPackage crypto
    commitMetadataState session.writingMetadata .candidateReady session.activeSlotId
      session.candidate.toUInt32 session.header.manifest.imageVersion .metadataCandidateReady
    modifySession fun session => { session with state := .finished }

/-! ### The calls with the answers of the code -/

theorem unlessTrapped_of {c : Prop} [Decidable c] {trap : Prog Installer UpdateInstallError Unit}
    (h : c) : unlessTrapped c trap = pure () := if_pos h

theorem unlessTrapped_pure (c : Prop) [Decidable c] : unlessTrapped c (pure ()) = pure () :=
  ite_self _

theorem check_of {c : Prop} [Decidable c] {e : UpdateInstallError} (h : c) :
    (Prog.check c e : Prog Installer UpdateInstallError Unit) = pure () := if_pos h

theorem flushLengthWith_code (finalFlush : Bool) :
    flushLengthWith Traps.code finalFlush = flushLength finalFlush := by
  simp only [flushLengthWith, flushLength, Traps.code, unlessTrapped_pure]
  rfl

theorem flushWith_code (finalFlush : Bool) :
    flushWith Traps.code finalFlush = flushPayloadProgramBuffer finalFlush := by
  rw [flushWith, flushPayloadProgramBuffer, flushLengthWith_code]
  rfl

theorem writeLoopWith_code (fuel : ℕ) (input : List UInt8) :
    writeLoopWith Traps.code fuel input = writeLoop fuel input := by
  induction fuel generalizing input with
  | zero => rfl
  | succ fuel ih =>
    have hflush : flushIfFullWith Traps.code = flushIfFull := by
      rw [flushIfFullWith, flushIfFull, flushWith_code]
    simp only [writeLoopWith, writeLoop, hflush, ih, show Traps.code.outside = pure () from rfl,
      unlessTrapped_pure]
    rfl

/-- With the answers of the code in the traps, the calls are the code. -/
theorem updateInstallerWriteWith_code (payloadOffset : ℕ) (data : List UInt8) :
    updateInstallerWriteWith Traps.code payloadOffset data =
      updateInstallerWrite payloadOffset data := by
  simp only [updateInstallerWriteWith, updateInstallerWrite, writeLoopWith_code,
    show Traps.code.underflow = pure () from rfl, unlessTrapped_pure]
  rfl

theorem updateInstallerFinishWith_code (crypto : Crypto) :
    updateInstallerFinishWith Traps.code crypto = updateInstallerFinish crypto := by
  rw [updateInstallerFinishWith, updateInstallerFinish, flushWith_code]
  rfl

/-! ### Counters -/

/-- The counters of a stream. -/
structure Counted (session : UpdateInstallerSession) : Prop where
  prepared : Prepared session
  received : session.payloadReceived = session.payloadProgrammed + session.programFill
  aligned : session.restrictedFlash.programAlignment ∣ session.payloadProgrammed
  bound : session.payloadReceived ≤ session.header.payloadSize

/-- When a flush is called: the buffer is full, or the payload is complete. -/
structure Flushable (finalFlush : Bool) (session : UpdateInstallerSession) : Prop where
  full : finalFlush = false → session.programFill = session.options.programBufferSize
  complete : finalFlush = true → session.programFill < session.options.programBufferSize ∧
    session.payloadReceived = session.header.payloadSize

/-- The length that a flush programs. -/
def FlushedLength (finalFlush : Bool) (session : UpdateInstallerSession) (length : ℕ) : Prop :=
  if finalFlush = true then
    checkedRoundUp session.programFill session.restrictedFlash.programAlignment = some length
  else length = session.programFill

/-- Only the running counters are read. -/
theorem Counted.of_intake {session session' : UpdateInstallerSession} (h : Counted session)
    (hintake : session'.intake = session.intake)
    (hreceived : session'.payloadReceived = session'.payloadProgrammed + session'.programFill)
    (haligned : session.restrictedFlash.programAlignment ∣ session'.payloadProgrammed) :
    Counted session' := by
  have hcore : session'.intake.core = session.intake.core := by rw [hintake]
  have hflash : session'.restrictedFlash = session.restrictedFlash :=
    congrArg (·.restrictedFlash) hintake
  have hheader : session'.header = session.header := congrArg (·.header) hintake
  have hsame : session'.payloadReceived = session.payloadReceived :=
    congrArg (·.payloadReceived) hintake
  refine ⟨h.prepared.of_core hcore, hreceived, ?_, ?_⟩
  · rw [hflash]
    exact haligned
  · rw [hsame, hheader]
    exact h.bound

/-- There is a length for every flush that is called, and it fits. -/
theorem Counted.flushedLength {finalFlush : Bool} {session : UpdateInstallerSession}
    (h : Counted session) (hflush : Flushable finalFlush session) :
    ∃ length, FlushedLength finalFlush session length ∧ session.programFill ≤ length ∧
      length ≤ session.options.programBufferSize ∧
      session.payloadProgrammed + length ≤ session.payloadProgramSize ∧
      session.restrictedFlash.programAlignment ∣ length ∧
      (finalFlush = true → session.payloadProgrammed + length = session.payloadProgramSize) := by
  obtain ⟨hbuffer, hdvd⟩ := programBufferSize_of_valid h.prepared.options
  obtain ⟨-, hsize, -⟩ := checkedRoundUp_spec h.prepared.size
  have hreceived := h.received
  have hbound := h.bound
  cases finalFlush with
  | false =>
    have hfull := hflush.full rfl
    refine ⟨session.programFill, rfl, Nat.le_refl _, hfull.le, by omega, ?_, nofun⟩
    rw [hfull]
    exact hdvd
  | true =>
    obtain ⟨hroom, hcomplete⟩ := hflush.complete rfl
    have hmax : session.options.programBufferSize ≤ sizeMax := by
      have hvalid := h.prepared.options
      rw [optionsAreValid] at hvalid
      simp only [decide_eq_true_eq, not_or, not_lt] at hvalid
      exact hvalid.2.2.1.trans (by decide)
    obtain ⟨length, hlength, hfill, hle⟩ := checkedRoundUp_of_le session.restrictedFlash hroom.le
      hdvd hmax
    have htotal := h.prepared.size
    rw [← hcomplete, hreceived] at htotal
    have hsum := checkedRoundUp_add h.aligned hlength htotal
    exact ⟨length, hlength, hfill, hle, hsum.le, (checkedRoundUp_spec hlength).1, fun _ => hsum⟩

/-! ### Flushing -/

/-- Two programs that start alike, and go on alike, are alike. -/
theorem bind_eq {α β : Type} {x y : Prog Installer UpdateInstallError α}
    {f g : α → Prog Installer UpdateInstallError β} (hx : x s = y s)
    (hfg : wp y s (fun a s' => f a s' = g a s') (fun _ _ => True) fun _ => True) :
    (x >>= f) s = (y >>= g) s := by
  have hleft : (x >>= f) s = (y >>= f) s := by
    change Prog.bind x f s = Prog.bind y f s
    rw [Prog.bind, Prog.bind, hx]
  rw [hleft]
  exact bind_congr hfg

/-- The length is computed from the session, and only the buffer is padded. -/
theorem flushLength_spec (finalFlush : Bool) :
    wp (flushLength finalFlush) s
      (fun length s' => FlushedLength finalFlush s.session length ∧ s'.session = s.session)
      (fun _ _ => True) fun _ => True := by
  rw [flushLength, wp_bind, wp_getSession]
  cases finalFlush with
  | false =>
    rw [if_neg Bool.false_ne_true, wp_bind, wp_check]
    exact ⟨fun _ => ⟨rfl, rfl⟩, fun _ => trivial⟩
  | true =>
    rw [if_pos rfl]
    split
    · trivial
    · rename_i length hlength
      rw [wp_bind, wp_modify, wp_pure]
      exact ⟨hlength, rfl⟩

theorem FlushedLength.unique {finalFlush : Bool} {session : UpdateInstallerSession}
    {length length' : ℕ} (h : FlushedLength finalFlush session length)
    (h' : FlushedLength finalFlush session length') : length = length' := by
  cases finalFlush with
  | false => exact Eq.trans (b := session.programFill) h h'.symm
  | true => exact Option.some.inj (Eq.trans (Eq.symm h) h')

/-- A flush moves what is in the buffer behind what has been programmed. -/
theorem flushPayloadProgramBuffer_moves (finalFlush : Bool) :
    wp (flushPayloadProgramBuffer finalFlush) s
      (fun _ s' => s'.session.intake = s.session.intake ∧ s'.session.programFill = 0 ∧
        ∃ length, FlushedLength finalFlush s.session length ∧
          s'.session.payloadProgrammed = s.session.payloadProgrammed + length)
      (fun _ _ => True) fun _ => True := by
  rw [flushPayloadProgramBuffer, wp_bind, wp_getSession, wp_ite]
  refine ⟨fun hempty => ⟨rfl, hempty, 0, ?_, rfl⟩, fun _ => ?_⟩
  · rw [FlushedLength, hempty, checkedRoundUp_zero]
    split <;> rfl
  rw [wp_bind]
  refine (flushLength_spec finalFlush).mono ?_ (fun _ _ h => h) fun _ h => h
  rintro length s₁ ⟨hlength, hsession⟩
  rw [wp_bind, wp_check]
  refine ⟨fun _ => ?_, fun _ => trivial⟩
  split
  · trivial
  · rw [wp_bind, wp_get, wp_bind]
    refine wp.mono (steps_programAlignedBlock (R := fun _ => True) fun _ => trivial)
      (fun _ s₂ h₂ => ?_) (fun _ _ _ => trivial) fun _ _ => trivial
    have hsteady : s₂.session.steady = s.session.steady := by rw [h₂.steady, hsession]
    rw [wp_modifySession]
    refine ⟨congrArg (fun session : UpdateInstallerSession =>
      { session with payloadProgrammed := 0, programFill := 0 }) hsteady, rfl, length, hlength, ?_⟩
    show s₂.session.payloadProgrammed + length = _
    rw [show s₂.session.payloadProgrammed = s.session.payloadProgrammed from
      congrArg (·.payloadProgrammed) hsteady]

/-- **No trap is reached by a flush.** -/
theorem flushWith_eq (traps : Traps) {finalFlush : Bool} (h : Counted s.session)
    (hflush : Flushable finalFlush s.session) :
    flushWith traps finalFlush s = flushPayloadProgramBuffer finalFlush s := by
  obtain ⟨length, hlength, hfill, hbuffer, hfits, -, -⟩ := h.flushedLength hflush
  have hslot : (bootSlots s.session.candidate).payloadBase + s.session.payloadProgrammed ≤
      Layout.flashEnd := by
    have hend : (bootSlots s.session.candidate).payloadBase +
        (bootSlots s.session.candidate).maximumPayloadSize ≤ Layout.flashEnd := by
      cases s.session.candidate <;> decide
    have hmax := h.prepared.fits
    omega
  rw [flushWith, flushPayloadProgramBuffer]
  refine bind_eq rfl ?_
  rw [wp_getSession]
  by_cases hempty : s.session.programFill = 0
  · rw [if_pos hempty, if_pos hempty]
  rw [if_neg hempty, if_neg hempty]
  refine bind_eq ?_ ((flushLength_spec finalFlush).mono ?_ (fun _ _ h => h) fun _ h => h)
  · rw [flushLengthWith, flushLength]
    refine bind_eq rfl ?_
    rw [wp_getSession]
    cases finalFlush with
    | false => rw [if_neg Bool.false_ne_true, if_neg Bool.false_ne_true,
        unlessTrapped_of (hflush.full rfl), check_of (hflush.full rfl)]
    | true =>
      rw [FlushedLength, if_pos rfl] at hlength
      rw [if_pos rfl, if_pos rfl, hlength]
      simp only [unlessTrapped_of (And.intro hfill hbuffer)]
      rfl
  · rintro length' s₁ ⟨hlength', -⟩
    obtain rfl := hlength.unique hlength'
    have hcapacity : s.session.payloadProgrammed ≤ s.session.payloadProgramSize ∧
        length ≤ s.session.payloadProgramSize - s.session.payloadProgrammed := by omega
    rw [unlessTrapped_of hcapacity, check_of hcapacity, checkedU32Add_of_le hslot]

/-- **A flush keeps the counters.** -/
theorem Counted.flush {finalFlush : Bool} (h : Counted s.session)
    (hflush : Flushable finalFlush s.session) :
    wp (flushPayloadProgramBuffer finalFlush) s
      (fun _ s' => s'.session.intake = s.session.intake ∧ s'.session.programFill = 0 ∧
        (finalFlush = false → Counted s'.session) ∧
        (finalFlush = true → s'.session.payloadProgrammed = s'.session.payloadProgramSize))
      (fun _ _ => True) fun _ => True := by
  obtain ⟨length, hlength, -, -, -, hdvd, hend⟩ := h.flushedLength hflush
  refine (flushPayloadProgramBuffer_moves finalFlush).mono ?_ (fun _ _ h => h) fun _ h => h
  rintro _ s' ⟨hintake, hfill, length', hlength', hprogrammed⟩
  obtain rfl := hlength.unique hlength'
  refine ⟨hintake, hfill, ?_, ?_⟩
  · intro hfinal
    have hsame : s'.session.payloadReceived = s.session.payloadReceived :=
      congrArg (·.payloadReceived) hintake
    rw [FlushedLength, hfinal, if_neg Bool.false_ne_true] at hlength
    refine h.of_intake hintake ?_ ?_
    · rw [hsame, h.received, hprogrammed, hfill, hlength, Nat.add_zero]
    · rw [hprogrammed]
      exact Nat.dvd_add h.aligned hdvd
  · intro hfinal
    rw [hprogrammed, hend hfinal]
    exact (congrArg (·.payloadProgramSize) hintake).symm

/-! ### Writing -/

theorem Counted.absorb (h : Counted s.session) {bytes : List UInt8}
    (hbound : s.session.payloadReceived + bytes.length ≤ s.session.header.payloadSize) :
    Counted (absorb bytes s).session where
  prepared := h.prepared.of_core rfl
  received := by
    show s.session.payloadReceived + bytes.length =
      s.session.payloadProgrammed + (s.session.programFill + bytes.length)
    rw [h.received, Nat.add_assoc]
  aligned := h.aligned
  bound := hbound

theorem flushIfFullWith_eq (traps : Traps) (h : Counted s.session) :
    flushIfFullWith traps s = flushIfFull s := by
  rw [flushIfFullWith, flushIfFull]
  refine bind_eq rfl ?_
  rw [wp_getSession]
  by_cases hfull : s.session.programFill = s.session.options.programBufferSize
  · rw [if_pos hfull, if_pos hfull]
    exact flushWith_eq traps h ⟨fun _ => hfull, fun h => by cases h⟩
  · rw [if_neg hfull, if_neg hfull]

theorem Counted.flushIfFull (h : Counted s.session) :
    wp flushIfFull s
      (fun _ s' => Counted s'.session ∧ s'.session.payloadReceived = s.session.payloadReceived ∧
        s'.session.header = s.session.header)
      (fun _ _ => True) fun _ => True := by
  rw [Stm32SecurityLab.flushIfFull, wp_bind, wp_getSession, wp_ite]
  refine ⟨fun hfull => ?_, fun _ => ⟨h, rfl, rfl⟩⟩
  have hflush : Flushable false s.session := ⟨fun _ => hfull, fun h => by cases h⟩
  refine (h.flush hflush).mono ?_ (fun _ _ h => h) fun _ h => h
  rintro _ s' ⟨hintake, -, hcounted, -⟩
  exact ⟨hcounted rfl, congrArg (·.payloadReceived) hintake, congrArg (·.header) hintake⟩

theorem writeLoopWith_succ (traps : Traps) {fuel : ℕ} {input : List UInt8} (h : 0 < input.length)
    (hroom : 0 < room s.session) :
    writeLoopWith traps (fuel + 1) input s =
      (flushIfFullWith traps >>= fun _ =>
        writeLoopWith traps fuel (input.drop (min input.length (room s.session))))
        (absorb (input.take (min input.length (room s.session))) s) := by
  have hlength : (input.take (min input.length (room s.session))).length =
      min input.length (room s.session) := by
    rw [List.length_take]
    omega
  have hinside : s.session.programFill +
      min input.length (s.session.options.programBufferSize - s.session.programFill) ≤
        s.session.options.programBufferSize := by
    rw [room] at hroom
    omega
  rw [writeLoopWith, if_pos h]
  show (unlessTrapped (s.session.programFill +
    min input.length (s.session.options.programBufferSize - s.session.programFill) ≤
      s.session.options.programBufferSize) traps.outside >>= fun _ => _) s = _
  rw [unlessTrapped_of hinside, Stm32SecurityLab.absorb, hlength]
  rfl

/-- The two counters that bound the rest of the payload, after a round. -/
theorem Counted.round (h : Counted s.session) {input : List UInt8} (hroom : 0 < room s.session)
    (hbound : s.session.payloadReceived + input.length ≤ s.session.header.payloadSize) :
    Counted (Stm32SecurityLab.absorb (input.take (min input.length (room s.session))) s).session ∧
    wp Stm32SecurityLab.flushIfFull
      (Stm32SecurityLab.absorb (input.take (min input.length (room s.session))) s)
      (fun _ s' => Counted s'.session ∧ 0 < room s'.session ∧ s'.session.payloadReceived +
        (input.drop (min input.length (room s.session))).length ≤ s'.session.header.payloadSize)
      (fun _ _ => True) fun _ => True := by
  have htaken : (input.take (min input.length (room s.session))).length =
      min input.length (room s.session) := by
    rw [List.length_take]
    omega
  have habsorbed : Counted
      (Stm32SecurityLab.absorb (input.take (min input.length (room s.session))) s).session :=
    h.absorb (by rw [htaken]; omega)
  refine ⟨habsorbed, (habsorbed.flushIfFull.and (round_spec hroom)).mono ?_ (fun _ _ _ => trivial)
    fun _ _ => trivial⟩
  rintro _ s' ⟨⟨hcounted, hreceived, hheader⟩, hroom', -⟩
  refine ⟨hcounted, hroom', ?_⟩
  rw [hreceived, hheader, List.length_drop]
  show s.session.payloadReceived + (input.take (min input.length (room s.session))).length + _ ≤
    s.session.header.payloadSize
  rw [htaken]
  omega

theorem writeLoopWith_eq (traps : Traps) {fuel : ℕ} {input : List UInt8} (h : Counted s.session)
    (hroom : 0 < room s.session)
    (hbound : s.session.payloadReceived + input.length ≤ s.session.header.payloadSize) :
    writeLoopWith traps fuel input s = writeLoop fuel input s := by
  induction fuel generalizing s input with
  | zero => rfl
  | succ fuel ih =>
    by_cases hnil : input = []
    · subst hnil
      rfl
    have hpos := List.length_pos_iff.mpr hnil
    obtain ⟨habsorbed, hround⟩ := h.round hroom hbound
    rw [writeLoopWith_succ traps hpos hroom, writeLoop_succ hpos]
    refine bind_eq (flushIfFullWith_eq traps habsorbed) (hround.mono ?_ (fun _ _ h => h) fun _ h => h)
    rintro _ s₁ ⟨hcounted, hroom₁, hbound₁⟩
    exact ih hcounted hroom₁ hbound₁

/-- The loop of `update_installer_write` keeps the counters. -/
theorem Counted.writeLoop {fuel : ℕ} {input : List UInt8} (h : Counted s.session)
    (hroom : 0 < room s.session)
    (hbound : s.session.payloadReceived + input.length ≤ s.session.header.payloadSize) :
    wp (writeLoop fuel input) s (fun _ s' => Counted s'.session) (fun _ _ => True) fun _ => True := by
  induction fuel generalizing s input with
  | zero => exact h
  | succ fuel ih =>
    by_cases hnil : input = []
    · subst hnil
      rw [wp, writeLoop_nil]
      exact h
    obtain ⟨-, hround⟩ := h.round hroom hbound
    rw [wp, writeLoop_succ (List.length_pos_iff.mpr hnil)]
    change wp (Stm32SecurityLab.flushIfFull >>= _) _ _ _ _
    rw [wp_bind]
    refine hround.mono ?_ (fun _ _ h => h) fun _ h => h
    rintro _ s₁ ⟨hcounted, hroom₁, hbound₁⟩
    exact ih hcounted hroom₁ hbound₁

/-! ### The calls -/

/-- What is known of a session between two calls. -/
structure Running (session : UpdateInstallerSession) : Prop where
  selected : session.state = .initialized → ∃ publicKey, Selected publicKey session
  counted : session.state = .writing ∨ session.state = .payloadComplete → Counted session
  room : session.state = .writing ∨ session.state = .payloadComplete → 0 < room session
  complete : session.state = .payloadComplete →
    session.payloadReceived = session.header.payloadSize

/-- Of a session that does not stream nothing is known. -/
theorem Running.of_state {session : UpdateInstallerSession} {state : UpdateInstallerSessionState}
    (hs : session.state = state) (h : state ∉ [.initialized, .writing, .payloadComplete]) :
    Running session := by
  subst hs
  simp only [List.mem_cons, List.not_mem_nil, or_false, not_or] at h
  exact ⟨fun hs => absurd hs h.1, fun hs => absurd hs (not_or.mpr h.2),
    fun hs => absurd hs (not_or.mpr h.2), fun hs => absurd hs h.2.2⟩

theorem failSession_eq {α : Type} {x y : Prog Installer UpdateInstallError α} (h : x s = y s) :
    failSession x s = failSession y s := by
  rw [failSession, failSession, Prog.onErr, Prog.onErr, h]

/-- **No trap is reached by a block.** -/
theorem updateInstallerWriteWith_eq (traps : Traps) (h : Running s.session) (payloadOffset : ℕ)
    (data : List UInt8) :
    updateInstallerWriteWith traps payloadOffset data s =
      updateInstallerWrite payloadOffset data s := by
  rw [updateInstallerWriteWith, updateInstallerWrite]
  refine bind_eq rfl ?_
  rw [wp_getSession]
  refine bind_eq rfl ?_
  rw [wp_failSession, wp_check]
  refine ⟨fun _ => ?_, fun _ => trivial⟩
  refine bind_eq rfl ?_
  rw [wp_check]
  refine ⟨fun hstate => ?_, fun _ => trivial⟩
  have hcounted := h.counted (Or.inl hstate)
  refine bind_eq rfl ?_
  rw [wp_check]
  refine ⟨fun _ => failSession_eq ?_, fun _ => trivial⟩
  refine bind_eq rfl ?_
  rw [wp_check]
  refine ⟨fun _ => ?_, fun _ => trivial⟩
  rw [unlessTrapped_of hcounted.bound]
  change (Prog.check (data.length ≤ _) _ >>= _) s = _
  refine bind_eq rfl ?_
  rw [wp_check]
  refine ⟨fun hfits => ?_, fun _ => trivial⟩
  have hbound := hcounted.bound
  have hloop : writeLoopWith traps data.length data s = writeLoop data.length data s :=
    writeLoopWith_eq traps hcounted (h.room (Or.inl hstate)) (by omega)
  exact bind_eq hloop (wp_of_forall fun _ _ => rfl)

/-- **No trap is reached by the end of a stream.** -/
theorem updateInstallerFinishWith_eq (traps : Traps) (h : Running s.session) :
    updateInstallerFinishWith traps crypto s = updateInstallerFinish crypto s := by
  rw [updateInstallerFinishWith, updateInstallerFinish]
  refine bind_eq rfl ?_
  rw [wp_getSession]
  refine bind_eq rfl ?_
  rw [wp_failSession, wp_check]
  refine ⟨fun _ => ?_, fun _ => trivial⟩
  refine bind_eq rfl ?_
  rw [wp_check]
  refine ⟨fun hstate => failSession_eq ?_, fun _ => trivial⟩
  have hcounted := h.counted (Or.inr hstate)
  have hroom := h.room (Or.inr hstate)
  have hflush : Flushable true s.session := by
    refine ⟨fun h => (by cases h), fun _ => ⟨?_, h.complete hstate⟩⟩
    rw [room] at hroom
    omega
  refine bind_eq (flushWith_eq traps hcounted hflush)
    ((hcounted.flush hflush).mono ?_ (fun _ _ h => h) fun _ h => h)
  rintro _ s₁ ⟨-, -, -, hend⟩
  refine bind_eq rfl ?_
  rw [wp_getSession, unlessTrapped_of (hend rfl), check_of (hend rfl)]

/-- A block keeps what is known of the session. -/
theorem Running.write (h : Running s.session) (payloadOffset : ℕ) (data : List UInt8) :
    wp (updateInstallerWrite payloadOffset data) s (fun _ s' => Running s'.session)
      (fun _ s' => Running s'.session) fun _ => True := by
  have hfailed {session : UpdateInstallerSession} (hs : session.state = .failed) :
      Running session := .of_state hs (by decide)
  rw [updateInstallerWrite, wp_bind, wp_getSession, wp_bind, wp_failSession, wp_check]
  refine ⟨fun _ => ?_, fun _ => hfailed rfl⟩
  rw [wp_bind, wp_check]
  refine ⟨fun hstate => ?_, fun _ => h⟩
  have hcounted := h.counted (Or.inl hstate)
  rw [wp_bind, wp_check]
  refine ⟨fun _ => ?_, fun _ => h⟩
  rw [wp_failSession, wp_bind, wp_check]
  refine ⟨fun _ => ?_, fun _ => hfailed rfl⟩
  rw [wp_bind, wp_check]
  refine ⟨fun hfits => ?_, fun _ => hfailed rfl⟩
  have hroom := h.room (Or.inl hstate)
  have hbound := hcounted.bound
  rw [wp_bind]
  refine ((hcounted.writeLoop hroom (by omega)).and (writeLoop_takenIn le_rfl hroom)).mono ?_
    (fun _ _ _ => hfailed rfl) fun _ _ => trivial
  rintro _ s₁ ⟨hcounted₁, hroom₁, htaken⟩
  have hstate₁ : s₁.session.state = .writing := (congrArg (·.state) htaken.core).trans hstate
  rw [wp_modifySession]
  by_cases hall : s₁.session.payloadReceived = s₁.session.header.payloadSize
  · rw [if_pos hall]
    obtain ⟨⟨hoptions, hsize, hmax⟩, hreceived, haligned, hbound⟩ := hcounted₁
    exact ⟨fun h => (by cases h), fun _ => ⟨⟨hoptions, hsize, hmax⟩, hreceived, haligned, hbound⟩, fun _ => hroom₁,
      fun _ => hall⟩
  · rw [if_neg hall]
    refine ⟨fun hs => ?_, fun _ => hcounted₁, fun _ => hroom₁, fun hs => ?_⟩
    · cases hstate₁.symm.trans hs
    · cases hstate₁.symm.trans hs

/-- A stream begins with empty counters. -/
theorem counted_of_begin (hsel : Selected publicKey s.session) (hs : s.session.state = .initialized)
    (hrun : updateInstallerBegin crypto headerBytes s = .ret () s') :
    Counted s'.session ∧ 0 < room s'.session ∧ s'.session.state = .writing := by
  have hinv : SessionInv publicKey s := by
    rw [SessionInv, hs]
    exact hsel
  have hspec : wp (updateInstallerBegin crypto headerBytes) s _ _ _ := updateInstallerBegin_spec hinv
  obtain ⟨-, -, -, header, size, writing, hacc, -, hfits, hsteady⟩ := hspec.ret hrun
  have haligned := (updateInstallerBegin_aligned :
    wp (updateInstallerBegin crypto headerBytes) s _ _ _).ret hrun
  have hcand : s'.session.candidate = s.session.candidate := congrArg (·.candidate) hsteady
  have hoptions : s'.session.options = s.session.options := congrArg (·.options) hsteady
  have hflash : s'.session.restrictedFlash = s.session.restrictedFlash :=
    congrArg (·.restrictedFlash) hsteady
  have hheader : s'.session.header = header := congrArg (·.header) hsteady
  have hsize : s'.session.payloadProgramSize = size := congrArg (·.payloadProgramSize) hsteady
  have hreceived : s'.session.payloadReceived = 0 :=
    (congrArg (·.payloadReceived) hsteady).trans hsel.received
  have hprogrammed : s'.session.payloadProgrammed = 0 :=
    (congrArg (·.payloadProgrammed) hsteady).trans hsel.programmed
  have hfill : s'.session.programFill = 0 := (congrArg (·.programFill) hsteady).trans hsel.fill
  obtain ⟨hround, hle⟩ := candidatePackageFits_size haligned hacc.accepted hfits
  refine ⟨⟨⟨?_, ?_, ?_⟩, ?_, ?_, ?_⟩, ?_, congrArg (·.state) hsteady⟩
  · rw [hflash, hoptions]
    exact hsel.options
  · rw [hflash, hheader, hsize]
    exact hround
  · rw [hsize, hcand]
    exact hle
  · rw [hreceived, hprogrammed, hfill]
  · rw [hprogrammed]
    exact Nat.dvd_zero _
  · rw [hreceived]
    exact Nat.zero_le _
  · rw [room, hoptions, hfill]
    exact (programBufferSize_of_valid hsel.options).1

/-- A call of the installer. -/
inductive InstallerCall where
  | sessionInit (flash : BootFlash) (publicKey : List UInt8) (options : UpdateInstallOptions)
      (withResult : Bool)
  | begin (headerBytes : List UInt8)
  | write (payloadOffset : ℕ) (data : List UInt8)
  | finish
  | abort

/-- What a call does. -/
def InstallerCall.run (crypto : Crypto) : InstallerCall → Prog Installer UpdateInstallError Unit
  | .sessionInit flash publicKey options withResult =>
    updateInstallerSessionInit flash publicKey options withResult
  | .begin headerBytes => updateInstallerBegin crypto headerBytes
  | .write payloadOffset data => updateInstallerWrite payloadOffset data
  | .finish => updateInstallerFinish crypto
  | .abort => updateInstallerAbort

/-- An installer that calls lead to, whatever they return and whatever becomes of the device in
between. -/
inductive SessionReached (crypto : Crypto) : Installer → Prop
  | idle {s : Installer} (h : s.session.state = .empty) : SessionReached crypto s
  | opened {s s' : Installer} (flash : BootFlash) (publicKey : List UInt8)
      (options : UpdateInstallOptions) (withResult : Bool)
      (hrun : updateInstallerSessionInit flash publicKey options withResult s = .ret () s') :
      SessionReached crypto s'
  | ret {s s' : Installer} (call : InstallerCall) (h : SessionReached crypto s)
      (hrun : call.run crypto s = .ret () s') : SessionReached crypto s'
  | err {s s' : Installer} (call : InstallerCall) (e : UpdateInstallError)
      (h : SessionReached crypto s) (hrun : call.run crypto s = .err e s') : SessionReached crypto s'
  | elsewhere {s : Installer} (d : Device) (h : SessionReached crypto s) :
      SessionReached crypto { s with dev := d }

theorem running_of_init {flash : BootFlash} {options : UpdateInstallOptions} {withResult : Bool} :
    wp (updateInstallerSessionInit flash publicKey options withResult) s
      (fun _ s' => Running s'.session) (fun _ s' => Running s'.session) fun _ => True := by
  refine updateInstallerSessionInit_spec.mono ?_ ?_ fun _ _ => trivial
  · rintro _ s' ⟨-, hinitialized, hsel⟩
    have hstate := hinitialized.state
    refine ⟨fun _ => ⟨publicKey, hsel⟩, fun hs => ?_, fun hs => ?_, fun hs => ?_⟩
    · rw [hstate] at hs
      exact absurd hs (by decide)
    · rw [hstate] at hs
      exact absurd hs (by decide)
    · rw [hstate] at hs
      exact absurd hs (by decide)
  · rintro _ s' ⟨-, hs | hs⟩
    · exact .of_state hs (by decide)
    · exact .of_state hs (by decide)

/-- Nothing need be known of a program whose end is all that matters. -/
theorem wp_anyhow {α : Type} (x : Prog Installer UpdateInstallError α) :
    wp x s (fun _ _ => True) (fun _ _ => True) fun _ => True :=
  wp_of_forall fun _ _ => trivial

/-- **Every call keeps what is known of the session.** -/
theorem Running.call (h : Running s.session) (call : InstallerCall) :
    wp (call.run crypto) s (fun _ s' => Running s'.session) (fun _ s' => Running s'.session)
      fun _ => True := by
  have hfailed {session : UpdateInstallerSession} (hs : session.state = .failed) :
      Running session := .of_state hs (by decide)
  cases call with
  | sessionInit flash publicKey options withResult => exact running_of_init
  | write payloadOffset data => exact h.write payloadOffset data
  | begin headerBytes =>
    show wp (updateInstallerBegin crypto headerBytes) _ _ _ _
    refine wp_of_outcome (fun _ s' hrun => ?_) (fun e s' hrun => ?_) fun _ _ => trivial
    · by_cases hs : s.session.state = .initialized
      · obtain ⟨publicKey, hsel⟩ := h.selected hs
        obtain ⟨hcounted, hroom, hstate⟩ := counted_of_begin hsel hs hrun
        refine ⟨fun hs' => ?_, fun _ => hcounted, fun _ => hroom, fun hs' => ?_⟩
        · exact nomatch hstate.symm.trans hs'
        · exact nomatch hstate.symm.trans hs'
      · have hstart : wp (updateInstallerBegin crypto headerBytes) s (fun _ _ => False)
            (fun _ _ => True) fun _ => True := by
          rw [updateInstallerBegin, wp_bind, wp_getSession, wp_bind, wp_check]
          exact ⟨fun hs' => absurd hs' hs, fun _ => trivial⟩
        exact (hstart.ret hrun).elim
    · have herr : wp (updateInstallerBegin crypto headerBytes) s (fun _ _ => True)
          (fun _ s' => Running s'.session) fun _ => True := by
        rw [updateInstallerBegin, wp_bind, wp_getSession, wp_bind, wp_check]
        refine ⟨fun _ => ?_, fun _ => h⟩
        rw [wp_failSession]
        exact (wp_anyhow _).mono (fun _ _ h => h) (fun _ _ _ => hfailed rfl) fun _ h => h
      exact herr.err hrun
  | finish =>
    show wp (updateInstallerFinish crypto) _ _ _ _
    have hfinished {session : UpdateInstallerSession} (hs : session.state = .finished) :
        Running session := .of_state hs (by decide)
    rw [updateInstallerFinish, wp_bind, wp_getSession, wp_bind, wp_failSession, wp_check]
    refine ⟨fun _ => ?_, fun _ => hfailed rfl⟩
    rw [wp_bind, wp_check]
    refine ⟨fun _ => ?_, fun _ => h⟩
    rw [wp_failSession]
    simp only [← bind_assoc]
    rw [wp_bind]
    refine (wp_anyhow _).mono (fun _ s₁ _ => ?_) (fun _ _ _ => hfailed rfl) fun _ h => h
    rw [wp_modifySession]
    exact hfinished rfl
  | abort =>
    show wp updateInstallerAbort _ _ _ _
    have haborted {session : UpdateInstallerSession} (hs : session.state = .aborted) :
        Running session := .of_state hs (by decide)
    rw [updateInstallerAbort, wp_bind, wp_getSession, wp_bind, wp_check]
    refine ⟨fun _ => ?_, fun _ => h⟩
    rw [wp_ite]
    refine ⟨fun _ => h, fun _ => ?_⟩
    rw [wp_bind, wp_failSession]
    refine (wp_anyhow _).mono (fun _ s₁ _ => ?_) (fun _ _ _ => hfailed rfl) fun _ h => h
    rw [wp_modifySession]
    exact haborted rfl

/-- What is known of every session that is reached. -/
theorem SessionReached.running (h : SessionReached crypto s) : Running s.session := by
  induction h with
  | idle h => exact .of_state h (by decide)
  | opened flash publicKey options withResult hrun => exact running_of_init.ret hrun
  | ret call _ hrun ih => exact (ih.call call).ret hrun
  | err call e _ hrun ih => exact (ih.call call).err hrun
  | elsewhere d _ ih => exact ih

/-- In every session that is reached the counters of a stream agree, stay inside the program buffer
and inside the payload, and `update_installer_write` and `update_installer_finish` never get to the
places where the traps are. -/
theorem streaming_counters (crypto : Crypto) (s : Installer) (hreached : SessionReached crypto s) :
    (s.session.state = .writing ∨ s.session.state = .payloadComplete →
      s.session.payloadReceived = s.session.payloadProgrammed + s.session.programFill ∧
      s.session.programFill < s.session.options.programBufferSize ∧
      s.session.restrictedFlash.programAlignment ∣ s.session.payloadProgrammed ∧
      s.session.payloadReceived ≤ s.session.header.payloadSize) ∧
    ∀ traps : Traps,
      (∀ payloadOffset data, updateInstallerWriteWith traps payloadOffset data s =
        updateInstallerWrite payloadOffset data s) ∧
      updateInstallerFinishWith traps crypto s = updateInstallerFinish crypto s := by
  have hrunning := hreached.running
  refine ⟨fun hstate => ?_, fun traps => ⟨updateInstallerWriteWith_eq traps hrunning,
    updateInstallerFinishWith_eq traps hrunning⟩⟩
  have hcounted := hrunning.counted hstate
  have hroom := hrunning.room hstate
  rw [room] at hroom
  exact ⟨hcounted.received, by omega, hcounted.aligned, hcounted.bound⟩

/-- A session that has taken five bytes of its payload, and the seven others. -/
theorem streaming_counters_update : ∃ s, SessionReached factoryCrypto s ∧
    s.session.state = .writing ∧
    5 = s.session.payloadProgrammed + s.session.programFill ∧
    s.session.programFill < s.session.options.programBufferSize ∧
    ∀ traps, updateInstallerWriteWith traps 5 (updatePayload.drop 5) s =
      updateInstallerWrite 5 (updatePayload.drop 5) s := by
  obtain ⟨s₁, s₂, hinit, hbegin, -, -, hheader, hbegins⟩ :=
    @update_begins (updatable 1) 1 false rfl (journal_updatable (by decide)) (by decide)
  have hsize : s₂.session.header.payloadSize = 12 := by
    rw [hheader]
    decide
  have hwrite := @quiet_updateInstallerWrite _ _ (updatePayload.take 5) hbegins.content hbegins.state
    hbegins.room (by decide) (by rw [hsize, hbegins.received]; decide)
  obtain ⟨_, s₃, hrun⟩ :=
    returns_iff.mp (hwrite.mono (fun _ _ _ => trivial) (fun _ _ h => h) fun _ h => h)
  have hstreamed := hwrite.ret hrun
  have hreached : SessionReached factoryCrypto s₃ :=
    .ret (.write _ _) (.ret (.begin updateHeader) (.opened _ _ _ _ hinit) hbegin) hrun
  have hfive : s₃.session.payloadReceived = 5 := by
    rw [hstreamed.received hbegins.content, hbegins.received]
    decide
  have hstate : s₃.session.state = .writing := by
    rw [hstreamed.state, hstreamed.header, hsize, hfive]
    decide
  obtain ⟨hcounters, htraps⟩ := streaming_counters factoryCrypto s₃ hreached
  obtain ⟨hreceived, hfill, -, -⟩ := hcounters (Or.inl hstate)
  rw [hfive] at hreceived
  exact ⟨s₃, hreached, hstate, hreceived, hfill, fun traps => (htraps traps).1 _ _⟩

end Stm32SecurityLab
