import Stm32SecurityLab.Installer.Quiet

/-!
# Streaming a payload

`update_installer_write` takes the payload in blocks of any size, fills the program buffer with
them and programs the buffer whenever it is full. How the payload was cut into blocks makes no
difference: two blocks in a row are the same as one, on any device, up to and including the state
that a fault leaves behind.

## Main definitions

* `absorb`, `room` — a round of the loop of `update_installer_write`, without the flush
* `TakenIn` — a session that has received and hashed its input
* `writeBlocks` — consecutive calls of `update_installer_write`

## Main results

* `writeLoop_append`, `updateInstallerWrite_append` — two inputs in a row are one
* `writeBlocks_flatten` — the cut into blocks makes no difference
-/

namespace Stm32SecurityLab

open Crash Installer

variable {crypto : Crypto} {publicKey headerBytes : List UInt8} {s s' : Installer}

/-! ### Rounds -/

/-- Copy bytes into the program buffer and hash them. -/
def absorb (bytes : List UInt8) (s : Installer) : Installer :=
  { s with
    programBuffer := memcpy s.programBuffer s.session.programFill bytes
    session :=
      { s.session with
        payloadHashCtx := s.session.payloadHashCtx ++ bytes
        programFill := s.session.programFill + bytes.length
        payloadReceived := s.session.payloadReceived + bytes.length } }

/-- The room left in the program buffer. -/
def room (session : UpdateInstallerSession) : ℕ :=
  session.options.programBufferSize - session.programFill

theorem memcpy_append (dst : Mem) (offset : ℕ) (left right : List UInt8) :
    memcpy dst offset (left ++ right) =
      memcpy (memcpy dst offset left) (offset + left.length) right := by
  funext i
  simp only [memcpy, List.length_append]
  by_cases hright : offset + left.length ≤ i
  · by_cases hend : i < offset + left.length + right.length
    · rw [if_pos ⟨by omega, by omega⟩, if_pos ⟨hright, hend⟩,
        show i - offset = left.length + (i - (offset + left.length)) by omega,
        byteAt_append_right rfl]
    · rw [if_neg (by omega), if_neg (by omega), if_neg (by omega)]
  · by_cases hleft : offset ≤ i
    · rw [if_pos ⟨hleft, by omega⟩, if_neg (by omega), if_pos ⟨hleft, by omega⟩,
        byteAt_append_left (by omega)]
    · rw [if_neg (by omega), if_neg (by omega), if_neg (by omega)]

theorem absorb_append (left right : List UInt8) (s : Installer) :
    absorb (left ++ right) s = absorb right (absorb left s) := by
  simp only [absorb, memcpy_append, List.append_assoc, List.length_append, Nat.add_assoc]

/-- One round of the loop of `update_installer_write`. -/
theorem writeLoop_succ {fuel : ℕ} {input : List UInt8} (h : 0 < input.length) :
    writeLoop (fuel + 1) input s =
      (flushIfFull >>= fun _ => writeLoop fuel (input.drop (min input.length (room s.session))))
        (absorb (input.take (min input.length (room s.session))) s) := by
  have hlength : (input.take (min input.length (room s.session))).length =
      min input.length (room s.session) := by
    rw [List.length_take]
    omega
  rw [writeLoop, if_pos h]
  rw [absorb, hlength]
  rfl

theorem writeLoop_nil {fuel : ℕ} : writeLoop fuel [] s = .ret () s := by
  cases fuel <;> rfl

theorem absorb_nil (s : Installer) : absorb [] s = s := by
  have hbuffer : memcpy s.programBuffer s.session.programFill [] = s.programBuffer := by
    funext i
    exact memcpy_of_not_mem (by simp)
  rw [absorb, hbuffer, List.append_nil]
  rfl

@[simp] theorem room_absorb (bytes : List UInt8) (s : Installer) :
    room (absorb bytes s).session = room s.session - bytes.length := by
  simp only [room, absorb]
  omega

/-- A buffer that is not full needs no flush. -/
theorem flushIfFull_of_room (h : 0 < room s.session) : flushIfFull s = .ret () s := by
  have hne : ¬ s.session.programFill = s.session.options.programBufferSize := by
    rw [room] at h
    omega
  change (if s.session.programFill = s.session.options.programBufferSize then
    flushPayloadProgramBuffer false else pure ()) s = _
  rw [if_neg hne]
  rfl

/-- The session without what a flush changes. -/
def UpdateInstallerSession.intake (session : UpdateInstallerSession) : UpdateInstallerSession :=
  { session.steady with payloadProgrammed := 0, programFill := 0 }

/-- A flush makes room, and takes nothing in. -/
theorem flushIfFull_spec (hsize : 0 < s.session.options.programBufferSize)
    (hfill : s.session.programFill ≤ s.session.options.programBufferSize) :
    wp flushIfFull s (fun _ s' => 0 < room s'.session ∧ s'.session.intake = s.session.intake)
      (fun _ _ => True) fun _ => True := by
  rw [flushIfFull]
  simp only [wp_bind, wp_getSession]
  split
  swap
  · rename_i hne
    rw [wp_pure, room]
    exact ⟨by omega, rfl⟩
  rename_i hfull
  rw [flushPayloadProgramBuffer]
  simp only [wp_bind, wp_getSession]
  rw [if_neg (by omega), flushLength]
  simp only [wp_bind, wp_getSession, Bool.false_eq_true, if_false, wp_check, wp_pure]
  refine ⟨fun _ => ⟨fun _ => ?_, fun _ => trivial⟩, fun _ => trivial⟩
  split
  · exact trivial
  simp only [wp_bind, wp_get]
  refine wp.mono (steps_programAlignedBlock (R := fun _ => True) fun _ => trivial) ?_
    (fun _ _ _ => trivial) (fun _ _ => trivial)
  intro _ s₁ h₁
  rw [wp_modifySession, room]
  refine ⟨?_, congrArg (fun session : UpdateInstallerSession =>
    { session with payloadProgrammed := 0, programFill := 0 }) h₁.steady⟩
  have hoptions : s₁.session.options = s.session.options := congrArg (·.options) h₁.streams.core
  change 0 < s₁.session.options.programBufferSize - 0
  rw [hoptions]
  exact hsize

/-- What does not fill the buffer is only absorbed. -/
theorem writeLoop_of_lt {fuel : ℕ} {input : List UInt8} (hfuel : input.length ≤ fuel)
    (h : input.length < room s.session) : writeLoop fuel input s = .ret () (absorb input s) := by
  by_cases hnil : input = []
  · rw [hnil, writeLoop_nil, absorb_nil]
  have hpos : 0 < input.length := List.length_pos_iff.mpr hnil
  obtain ⟨fuel, rfl⟩ : ∃ k, fuel = k + 1 := ⟨fuel - 1, by omega⟩
  have hroom : 0 < room (absorb input s).session := by
    rw [room_absorb]
    omega
  rw [writeLoop_succ hpos, min_eq_left h.le, List.take_length, List.drop_length]
  change Prog.bind flushIfFull _ _ = _
  rw [Prog.bind, flushIfFull_of_room hroom]
  exact writeLoop_nil

/-- After a round there is room again, and what was consumed has been taken in. -/
theorem round_spec {input : List UInt8} (hroom : 0 < room s.session) :
    wp flushIfFull (absorb (input.take (min input.length (room s.session))) s)
      (fun _ s' => 0 < room s'.session ∧ s'.session.intake =
        (absorb (input.take (min input.length (room s.session))) s).session.intake)
      (fun _ _ => True) fun _ => True := by
  rw [room] at hroom
  refine flushIfFull_spec ?_ ?_
  · exact Nat.lt_of_lt_of_le hroom (Nat.sub_le _ _)
  · simp only [absorb, List.length_take, room]
    omega

/-- More fuel than bytes makes no difference. -/
theorem writeLoop_fuel {fuel fuel' : ℕ} {input : List UInt8} (hfuel : input.length ≤ fuel)
    (hfuel' : input.length ≤ fuel') (hroom : 0 < room s.session) :
    writeLoop fuel input s = writeLoop fuel' input s := by
  induction fuel generalizing fuel' input s with
  | zero =>
    obtain rfl : input = [] := List.eq_nil_of_length_eq_zero (by omega)
    rw [writeLoop_nil, writeLoop_nil]
  | succ fuel ih =>
    by_cases hnil : input = []
    · rw [hnil, writeLoop_nil, writeLoop_nil]
    have hpos : 0 < input.length := List.length_pos_iff.mpr hnil
    obtain ⟨fuel', rfl⟩ : ∃ k, fuel' = k + 1 := ⟨fuel' - 1, by omega⟩
    rw [writeLoop_succ hpos, writeLoop_succ hpos]
    refine bind_congr ((round_spec hroom).mono (fun _ s₁ h₁ => ?_) (fun _ _ h => h) fun _ h => h)
    refine ih ?_ ?_ h₁.1 <;> rw [List.length_drop] <;> omega

/-- **Two inputs in a row are one input.** -/
theorem writeLoop_append {left right : List UInt8} {fuel fuelLeft fuelRight : ℕ}
    (hfuel : (left ++ right).length ≤ fuel) (hleft : left.length ≤ fuelLeft)
    (hright : right.length ≤ fuelRight) (hroom : 0 < room s.session) :
    writeLoop fuel (left ++ right) s =
      (writeLoop fuelLeft left >>= fun _ => writeLoop fuelRight right) s := by
  induction fuelLeft generalizing s left fuel with
  | zero =>
    obtain rfl : left = [] := List.eq_nil_of_length_eq_zero (by omega)
    exact writeLoop_fuel hfuel hright hroom
  | succ fuelLeft ih =>
    rw [List.length_append] at hfuel
    by_cases hlt : left.length < room s.session
    · -- the second input goes on in the round of the first
      have hfirst : (writeLoop (fuelLeft + 1) left >>= fun _ => writeLoop fuelRight right) s =
          writeLoop fuelRight right (absorb left s) := by
        change Prog.bind (writeLoop (fuelLeft + 1) left) _ s = _
        rw [Prog.bind, writeLoop_of_lt hleft hlt]
      rw [hfirst]
      by_cases hnil : right = []
      · rw [hnil, List.append_nil, writeLoop_nil, writeLoop_of_lt (by omega) hlt]
      have hpos : 0 < right.length := List.length_pos_iff.mpr hnil
      obtain ⟨fuel, rfl⟩ : ∃ k, fuel = k + 1 := ⟨fuel - 1, by omega⟩
      obtain ⟨fuelRight, rfl⟩ : ∃ k, fuelRight = k + 1 := ⟨fuelRight - 1, by omega⟩
      have hconsumed : min (left ++ right).length (room s.session) =
          left.length + min right.length (room (absorb left s).session) := by
        rw [room_absorb, List.length_append]
        omega
      have hroom' : 0 < room (absorb left s).session := by
        rw [room_absorb]
        omega
      rw [writeLoop_succ (by rw [List.length_append]; omega), writeLoop_succ hpos, hconsumed,
        List.take_length_add_append, List.drop_length_add_append, absorb_append]
      refine bind_congr ((round_spec hroom').mono (fun _ s₁ h₁ => ?_) (fun _ _ h => h) fun _ h => h)
      refine writeLoop_fuel ?_ ?_ h₁.1 <;> rw [List.length_drop] <;> omega
    · -- the first round belongs to the first input
      have hmin : min left.length (room s.session) = room s.session := by omega
      have hmin' : min (left ++ right).length (room s.session) = room s.session := by
        rw [List.length_append]
        omega
      obtain ⟨fuel, rfl⟩ : ∃ k, fuel = k + 1 := ⟨fuel - 1, by omega⟩
      have hround : (writeLoop (fuelLeft + 1) left >>= fun _ => writeLoop fuelRight right) s =
          (flushIfFull >>= fun _ => writeLoop fuelLeft (left.drop (room s.session)) >>=
            fun _ => writeLoop fuelRight right) (absorb (left.take (room s.session)) s) := by
        rw [← bind_assoc]
        change Prog.bind (writeLoop (fuelLeft + 1) left) _ s = Prog.bind _ _ _
        rw [Prog.bind, writeLoop_succ (by omega), hmin]
        rfl
      have hflush := @round_spec s left hroom
      rw [hmin] at hflush
      rw [hround, writeLoop_succ (by rw [List.length_append]; omega), hmin',
        List.take_append_of_le_length (by omega), List.drop_append_of_le_length (by omega)]
      refine bind_congr (hflush.mono (fun _ s₁ h₁ => ?_) (fun _ _ h => h) fun _ h => h)
      refine ih ?_ ?_ h₁.1
      · rw [List.length_append, List.length_drop]
        omega
      · rw [List.length_drop]
        omega

/-- The input has been taken in, and nothing else about the stream has changed. -/
structure TakenIn (input : List UInt8) (session session' : UpdateInstallerSession) : Prop where
  core : session'.core = session.core
  received : session'.payloadReceived = session.payloadReceived + input.length
  hashed : session'.payloadHashCtx = session.payloadHashCtx ++ input

theorem TakenIn.append {left right : List UInt8}
    {session session' session'' : UpdateInstallerSession} (h : TakenIn left session session')
    (h' : TakenIn right session' session'') : TakenIn (left ++ right) session session'' where
  core := h'.core.trans h.core
  received := by rw [h'.received, h.received, List.length_append, Nat.add_assoc]
  hashed := by rw [h'.hashed, h.hashed, List.append_assoc]

/-- What was absorbed has been taken in, flushed or not. -/
theorem TakenIn.of_absorb {bytes : List UInt8} {session' : UpdateInstallerSession}
    (h : session'.intake = (absorb bytes s).session.intake) :
    TakenIn bytes s.session session' := by
  have hcore : session'.intake.core = (absorb bytes s).session.intake.core := by rw [h]
  exact ⟨hcore, congrArg (·.payloadReceived) h, congrArg (·.payloadHashCtx) h⟩

/-- **The loop takes its whole input in**, and leaves room. -/
theorem writeLoop_takenIn {fuel : ℕ} {input : List UInt8} (hfuel : input.length ≤ fuel)
    (hroom : 0 < room s.session) :
    wp (writeLoop fuel input) s
      (fun _ s' => 0 < room s'.session ∧ TakenIn input s.session s'.session) (fun _ _ => True)
      fun _ => True := by
  induction fuel generalizing input s with
  | zero =>
    obtain rfl : input = [] := List.eq_nil_of_length_eq_zero (by omega)
    exact ⟨hroom, rfl, rfl, (List.append_nil _).symm⟩
  | succ fuel ih =>
    by_cases hnil : input = []
    · rw [hnil]
      exact ⟨hroom, rfl, rfl, (List.append_nil _).symm⟩
    have hpos : 0 < input.length := List.length_pos_iff.mpr hnil
    rw [wp, writeLoop_succ hpos]
    change wp (flushIfFull >>= _) _ _ _ _
    rw [wp_bind]
    refine (round_spec hroom).mono (fun _ s₁ h₁ => ?_) (fun _ _ h => h) fun _ h => h
    refine (ih ?_ h₁.1).mono (fun _ s₂ h₂ => ⟨h₂.1, ?_⟩) (fun _ _ h => h) fun _ h => h
    · rw [List.length_drop]
      omega
    · have htaken := (TakenIn.of_absorb h₁.2).append h₂.2
      rw [List.take_append_drop] at htaken
      exact htaken

/-! ### Blocks -/

/-- The end of `update_installer_write`. -/
def completeIfReceived (session : UpdateInstallerSession) : UpdateInstallerSession :=
  if session.payloadReceived = session.header.payloadSize then
    { session with state := .payloadComplete }
  else
    session

/-- A block at the expected offset that fits is streamed. -/
theorem updateInstallerWrite_eq {payloadOffset : ℕ} {data : List UInt8}
    (hstate : s.session.state = .writing) (hdata : data ≠ [])
    (hoffset : payloadOffset = s.session.payloadReceived)
    (hfits : data.length ≤ s.session.header.payloadSize - s.session.payloadReceived) :
    updateInstallerWrite payloadOffset data s =
      failSession (writeLoop data.length data >>= fun _ => modifySession completeIfReceived) s := by
  have hlength : data.length ≠ 0 := fun h => hdata (List.eq_nil_of_length_eq_zero h)
  have hcheck : ∀ {c : Prop} [Decidable c] {e : UpdateInstallError}, c →
      (Prog.check c e : Prog Installer UpdateInstallError Unit) = pure () :=
    fun hc => if_pos hc
  rw [updateInstallerWrite]
  change (failSession (Prog.check (s.session.state ≠ .payloadComplete) .sequence) >>= fun _ => _) s =
    _
  rw [hcheck (by rw [hstate]; decide), hcheck hstate, hcheck hlength, hcheck hoffset, hcheck hfits]
  rfl

/-- A block that is not the last one leaves the session open for the next. -/
theorem updateInstallerWrite_takenIn {data : List UInt8} (hstate : s.session.state = .writing)
    (hroom : 0 < room s.session) (hdata : data ≠ [])
    (hfits : data.length < s.session.header.payloadSize - s.session.payloadReceived) :
    wp (updateInstallerWrite s.session.payloadReceived data) s
      (fun _ s' => 0 < room s'.session ∧ TakenIn data s.session s'.session) (fun _ _ => True)
      fun _ => True := by
  rw [wp, updateInstallerWrite_eq hstate hdata rfl hfits.le]
  change wp (failSession (_ >>= _)) _ _ _ _
  rw [wp_failSession, wp_bind]
  refine (writeLoop_takenIn (Nat.le_refl _) hroom).mono (fun _ s₁ h₁ => ?_) (fun _ _ h => h)
    fun _ h => h
  have hheader₁ : s₁.session.header = s.session.header := congrArg (·.header) h₁.2.core
  have hopen : completeIfReceived s₁.session = s₁.session := by
    rw [completeIfReceived, if_neg]
    rw [h₁.2.received, hheader₁]
    omega
  rw [wp_modifySession, hopen]
  exact h₁

/-- **Two blocks in a row are one block**, up to and including what a fault leaves behind. -/
theorem updateInstallerWrite_append {left right : List UInt8}
    (hstate : s.session.state = .writing) (hroom : 0 < room s.session) (hleft : left ≠ [])
    (hright : right ≠ [])
    (hfits : left.length + right.length ≤
      s.session.header.payloadSize - s.session.payloadReceived) :
    (updateInstallerWrite s.session.payloadReceived left >>= fun _ =>
      updateInstallerWrite (s.session.payloadReceived + left.length) right) s =
      updateInstallerWrite s.session.payloadReceived (left ++ right) s := by
  have hpos : 0 < right.length := List.length_pos_iff.mpr hright
  have hloop : writeLoop (left ++ right).length (left ++ right) s =
      Prog.bind (writeLoop left.length left) (fun _ => writeLoop right.length right) s :=
    writeLoop_append (Nat.le_refl _) (Nat.le_refl _) (Nat.le_refl _) hroom
  have htaken : wp (writeLoop left.length left) s _ _ _ := writeLoop_takenIn (Nat.le_refl _) hroom
  rw [updateInstallerWrite_eq hstate (by simp [hleft]) rfl (by rw [List.length_append]; exact hfits)]
  have hfirst : updateInstallerWrite s.session.payloadReceived left s =
      Prog.onErr _ (Prog.bind (writeLoop left.length left) fun _ =>
        modifySession completeIfReceived) s :=
    updateInstallerWrite_eq hstate hleft rfl (by omega)
  change Prog.bind (updateInstallerWrite _ left) _ s = Prog.onErr _ (Prog.bind _ _) s
  simp only [Prog.bind, hfirst, Prog.onErr, hloop]
  cases hrun : writeLoop left.length left s with
  | err e s₁ => rfl
  | cut s₁ => rfl
  | ret u s₁ =>
    obtain ⟨hroom₁, htaken₁⟩ := htaken.ret hrun
    have hstate₁ : s₁.session.state = .writing :=
      (congrArg (·.state) htaken₁.core).trans hstate
    have hheader₁ : s₁.session.header = s.session.header := congrArg (·.header) htaken₁.core
    have hopen : completeIfReceived s₁.session = s₁.session := by
      rw [completeIfReceived, if_neg]
      rw [htaken₁.received, hheader₁]
      omega
    have hsame : ({ s₁ with session := completeIfReceived s₁.session } : Installer) = s₁ := by
      rw [hopen]
    change updateInstallerWrite (s.session.payloadReceived + left.length) right
      { s₁ with session := completeIfReceived s₁.session } = _
    rw [hsame, updateInstallerWrite_eq hstate₁ hright htaken₁.received.symm (by
      rw [htaken₁.received, hheader₁]
      omega)]
    rfl

/-- Consecutive blocks, each at the offset that the blocks before it have reached. -/
def writeBlocks : ℕ → List (List UInt8) → Prog Installer UpdateInstallError Unit
  | _, [] => pure ()
  | payloadOffset, block :: blocks => do
    updateInstallerWrite payloadOffset block
    writeBlocks (payloadOffset + block.length) blocks

/-- **The cut into blocks makes no difference.** -/
theorem writeBlocks_flatten {blocks : List (List UInt8)} (hstate : s.session.state = .writing)
    (hroom : 0 < room s.session) (hblocks : blocks ≠ []) (hne : ∀ block ∈ blocks, block ≠ [])
    (hfits : blocks.flatten.length ≤ s.session.header.payloadSize - s.session.payloadReceived) :
    writeBlocks s.session.payloadReceived blocks s =
      updateInstallerWrite s.session.payloadReceived blocks.flatten s := by
  induction blocks generalizing s with
  | nil => exact absurd rfl hblocks
  | cons block blocks ih =>
    have hblock : block ≠ [] := hne block (List.mem_cons_self ..)
    rw [List.flatten_cons] at hfits ⊢
    rw [List.length_append] at hfits
    by_cases hnil : blocks = []
    · subst hnil
      rw [List.flatten_nil, List.append_nil]
      change Prog.bind (updateInstallerWrite _ block) (fun _ => pure ()) s = _
      rw [Prog.bind]
      cases updateInstallerWrite s.session.payloadReceived block s <;> rfl
    have hrest : blocks.flatten ≠ [] := by
      obtain ⟨next, hnext⟩ := List.exists_mem_of_ne_nil blocks hnil
      exact List.flatten_ne_nil_iff.mpr ⟨next, hnext, hne next (List.mem_cons_of_mem _ hnext)⟩
    have hpos : 0 < blocks.flatten.length := List.length_pos_iff.mpr hrest
    rw [← updateInstallerWrite_append hstate hroom hblock hrest hfits]
    refine bind_congr ((updateInstallerWrite_takenIn hstate hroom hblock (by omega)).mono
      (fun _ s₁ h₁ => ?_) (fun _ _ h => h) fun _ h => h)
    rw [← h₁.2.received]
    refine ih ((congrArg (·.state) h₁.2.core).trans hstate) h₁.1 hnil
      (fun b hb => hne b (List.mem_cons_of_mem _ hb)) ?_
    have hheader₁ : s₁.session.header = s.session.header := congrArg (·.header) h₁.2.core
    rw [h₁.2.received, hheader₁]
    omega

end Stm32SecurityLab
