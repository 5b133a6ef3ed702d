import Stm32SecurityLab.Installer.Streaming

/-!
# What the stream leaves in the slot

On an undisturbed device a stream is always somewhere between the flash and the program buffer:
what has been programmed is in the slot, what has not is in the buffer, the two together are what
has been hashed, and the rest of the slot is blank. The last flush pads the buffer, and then the
slot holds the header, the payload and `0xFF` to its end.

## Main definitions

* `Content` — the stream, partly in the flash and partly in the buffer
* `SlotFilled` — header, payload and padding

* `Finishable` — what `update_installer_finish` asks for

## Main results

* `quiet_writeLoop`, `quiet_updateInstallerWrite` — the stream goes through
* `quiet_finalFlush` — and ends up in the slot
* `quiet_updateInstallerFinish` — when the update can be finished
-/

namespace Stm32SecurityLab

open Crash Installer

variable {crypto : Crypto} {publicKey headerBytes : List UInt8} {s s' : Installer}

/-! ### Rounding -/

/-- The least multiple of the alignment that is not below the value. -/
theorem checkedRoundUp_spec {flash : BootFlash} {value rounded : ℕ}
    (h : checkedRoundUp value flash.programAlignment = some rounded) :
    flash.programAlignment ∣ rounded ∧ value ≤ rounded ∧ rounded < value + flash.programAlignment := by
  have hpow := flash.alignment_pow
  simp only [isPowerOfTwo, Bool.and_eq_true, bne_iff_ne, beq_iff_eq] at hpow
  have hpos : 0 < flash.programAlignment := Nat.pos_of_ne_zero hpow.1
  obtain ⟨k, hk⟩ := Nat.ne_zero_and_sub_one_eq_zero_iff_isPowerOfTwo.mp hpow
  have hmask : value &&& (flash.programAlignment - 1) = value % flash.programAlignment := by
    rw [hk, Nat.and_two_pow_sub_one_eq_mod]
  rw [checkedRoundUp, if_neg hpow.1, hmask] at h
  have hmod := Nat.mod_lt value hpos
  have hdiv := Nat.div_add_mod value flash.programAlignment
  simp only at h
  split at h
  · rename_i hzero
    cases h
    exact ⟨Nat.dvd_of_mod_eq_zero hzero, Nat.le_refl _, by omega⟩
  · rw [checkedSizeAdd] at h
    split at h
    · cases h
    · cases h
      refine ⟨⟨value / flash.programAlignment + 1, ?_⟩, by omega, by omega⟩
      rw [Nat.mul_add, Nat.mul_one]
      omega

theorem checkedRoundUp_zero (flash : BootFlash) :
    checkedRoundUp 0 flash.programAlignment = some 0 := by
  have hpow := flash.alignment_pow
  simp only [isPowerOfTwo, Bool.and_eq_true, bne_iff_ne] at hpow
  rw [checkedRoundUp, if_neg hpow.1]
  simp

/-- Rounding a remainder up is rounding the whole up. -/
theorem checkedRoundUp_add {flash : BootFlash} {programmed fill rounded total : ℕ}
    (hdvd : flash.programAlignment ∣ programmed)
    (hrounded : checkedRoundUp fill flash.programAlignment = some rounded)
    (htotal : checkedRoundUp (programmed + fill) flash.programAlignment = some total) :
    programmed + rounded = total := by
  obtain ⟨⟨p, hp⟩, h₁, h₂⟩ := checkedRoundUp_spec hrounded
  obtain ⟨⟨q, hq⟩, h₃, h₄⟩ := checkedRoundUp_spec htotal
  obtain ⟨r, hr⟩ := hdvd
  -- two multiples of the alignment that are less than it apart
  have hlt : flash.programAlignment * (r + p) < flash.programAlignment * (q + 1) := by
    rw [Nat.mul_add, Nat.mul_add, Nat.mul_one]
    omega
  have hgt : flash.programAlignment * q < flash.programAlignment * (r + p + 1) := by
    rw [Nat.mul_add, Nat.mul_add, Nat.mul_one]
    omega
  have hlt' := Nat.lt_of_mul_lt_mul_left hlt
  have hgt' := Nat.lt_of_mul_lt_mul_left hgt
  obtain rfl : q = r + p := by omega
  rw [hq, Nat.mul_add]
  omega

/-! ### The stream -/

/-- The part of a session that a stream does not change. -/
structure Prepared (session : UpdateInstallerSession) : Prop where
  options : optionsAreValid session.restrictedFlash session.options = true
  size : checkedRoundUp session.header.payloadSize session.restrictedFlash.programAlignment =
    some session.payloadProgramSize
  fits : session.payloadProgramSize ≤ (bootSlots session.candidate).maximumPayloadSize

theorem Prepared.of_core {session session' : UpdateInstallerSession} (h : Prepared session)
    (hcore : session'.core = session.core) : Prepared session' := by
  have hflash : session'.restrictedFlash = session.restrictedFlash :=
    congrArg (·.restrictedFlash) hcore
  have hoptions : session'.options = session.options := congrArg (·.options) hcore
  have hheader : session'.header = session.header := congrArg (·.header) hcore
  have hsize : session'.payloadProgramSize = session.payloadProgramSize :=
    congrArg (·.payloadProgramSize) hcore
  have hcand : session'.candidate = session.candidate := congrArg (·.candidate) hcore
  refine ⟨?_, ?_, ?_⟩
  · rw [hflash, hoptions]
    exact h.options
  · rw [hflash, hheader, hsize]
    exact h.size
  · rw [hsize, hcand]
    exact h.fits

/-- What has been hashed is in the slot, and behind that in the buffer. -/
def InPlace (s : Installer) : Prop :=
  slice s.dev.mem (bootSlots s.session.candidate).payloadBase s.session.payloadProgrammed ++
    slice s.programBuffer 0 s.session.programFill = s.session.payloadHashCtx

/-- Bytes that are hashed and put into the buffer stay in place. -/
theorem InPlace.absorb {s : Installer} (h : InPlace s) (bytes : List UInt8) : InPlace (absorb bytes s) := by
  have hbuffer : slice (memcpy s.programBuffer s.session.programFill bytes) 0
      (s.session.programFill + bytes.length) =
      slice s.programBuffer 0 s.session.programFill ++ bytes := by
    rw [slice_add, Nat.zero_add, slice_memcpy]
    congr 1
    exact slice_congr fun x _ hx => memcpy_of_not_mem (by omega)
  change slice s.dev.mem (bootSlots s.session.candidate).payloadBase s.session.payloadProgrammed ++
    slice (memcpy s.programBuffer s.session.programFill bytes) 0
      (s.session.programFill + bytes.length) = s.session.payloadHashCtx ++ bytes
  rw [hbuffer, ← List.append_assoc, h]

/-- **The stream, partly in the flash and partly in the buffer.** -/
structure Content (headerBytes : List UInt8) (s : Installer) : Prop where
  undisturbed : Undisturbed s
  prepared : Prepared s.session
  header : slice s.dev.mem (bootSlots s.session.candidate).signedImageBase
    Layout.signedImageHeaderSize = headerBytes
  stream : slice s.dev.mem (bootSlots s.session.candidate).payloadBase s.session.payloadProgrammed ++
    slice s.programBuffer 0 s.session.programFill = s.session.payloadHashCtx
  blank : ∀ x, (bootSlots s.session.candidate).payloadBase + s.session.payloadProgrammed ≤ x →
    x < (bootSlots s.session.candidate).slotEnd → s.dev.mem x = 0xFF
  received : s.session.payloadReceived = s.session.payloadProgrammed + s.session.programFill
  bound : s.session.payloadReceived ≤ s.session.header.payloadSize
  fill : s.session.programFill ≤ s.session.options.programBufferSize
  aligned : s.session.restrictedFlash.programAlignment ∣ s.session.payloadProgrammed
  blocks : s.session.programmedBlockCount.toNat ≤
    Layout.signedImageHeaderSize + s.session.payloadProgrammed

namespace Content

/-- What has been received is what has been hashed. -/
theorem hashed (h : Content headerBytes s) :
    s.session.payloadHashCtx.length = s.session.payloadReceived := by
  rw [← h.stream, h.received, List.length_append, slice_length, slice_length]

/-- Bytes that fit into the buffer join the stream. -/
theorem absorb (h : Content headerBytes s) {bytes : List UInt8} (hroom : bytes.length ≤ room s.session)
    (hbound : s.session.payloadReceived + bytes.length ≤ s.session.header.payloadSize) :
    Content headerBytes (absorb bytes s) where
  undisturbed := ⟨h.undisturbed.quiet, h.undisturbed.hook, h.undisturbed.aligned,
    h.undisturbed.restricted⟩
  prepared := h.prepared.of_core rfl
  header := h.header
  stream := InPlace.absorb h.stream bytes
  blank := h.blank
  received := by
    change s.session.payloadReceived + bytes.length =
      s.session.payloadProgrammed + (s.session.programFill + bytes.length)
    rw [h.received, Nat.add_assoc]
  bound := hbound
  fill := by
    have hfill := h.fill
    rw [room] at hroom
    change s.session.programFill + bytes.length ≤ s.session.options.programBufferSize
    omega
  aligned := h.aligned
  blocks := h.blocks

/-- What has been received will fit into the slot. -/
theorem received_le (h : Content headerBytes s) :
    s.session.payloadReceived ≤ s.session.payloadProgramSize :=
  h.bound.trans (checkedRoundUp_spec h.prepared.size).2.1

end Content

/-! ### Flushing -/

/-- The buffer has been programmed at the end of what is in the slot. -/
structure Programmed (programLength : ℕ) (s s' : Installer) : Prop where
  mem : s'.dev.mem = programMem s.dev.mem
    ((bootSlots s.session.candidate).payloadBase + s.session.payloadProgrammed)
    (slice s.programBuffer 0 programLength)
  intake : s'.session.intake = s.session.intake
  programmed : s'.session.payloadProgrammed = s.session.payloadProgrammed + programLength
  fill : s'.session.programFill = 0
  blocks : s'.session.programmedBlockCount.toNat = s.session.programmedBlockCount.toNat + 1
  undisturbed : Undisturbed s'

/-- The end of `flush_payload_program_buffer` on an undisturbed device. -/
theorem quiet_programBuffer {programLength : ℕ} (hu : Undisturbed s)
    (haligned : s.session.restrictedFlash.programAlignment ∣ s.session.payloadProgrammed)
    (hdvd : s.session.restrictedFlash.programAlignment ∣ programLength) (hpos : 0 < programLength)
    (hfits : s.session.payloadProgrammed + programLength ≤
      (bootSlots s.session.candidate).maximumPayloadSize)
    (hblank : ∀ x, (bootSlots s.session.candidate).payloadBase + s.session.payloadProgrammed ≤ x →
      x < (bootSlots s.session.candidate).slotEnd → s.dev.mem x = 0xFF)
    (hblocks : s.session.programmedBlockCount.toNat ≤
      Layout.signedImageHeaderSize + s.session.payloadProgrammed) :
    wp (do
        programAlignedBlock
          ((bootSlots s.session.candidate).payloadBase + s.session.payloadProgrammed)
          (slice s.programBuffer 0 programLength)
        modifySession fun session =>
          { session with
            payloadProgrammed := session.payloadProgrammed + programLength
            programFill := 0 }) s
      (fun _ s' => Programmed programLength s s') (fun _ _ => False) (fun _ => False) := by
  have hbase : 8 ∣ (bootSlots s.session.candidate).payloadBase := by
    cases s.session.candidate <;> decide
  have hend : (bootSlots s.session.candidate).payloadBase +
      (bootSlots s.session.candidate).maximumPayloadSize =
      (bootSlots s.session.candidate).slotEnd := by
    cases s.session.candidate <;> rfl
  have hlow : (bootSlots s.session.candidate).signedImageBase ≤
      (bootSlots s.session.candidate).payloadBase := by
    cases s.session.candidate <;> decide
  have hmaximum : (bootSlots s.session.candidate).maximumPayloadSize < 0x100000 := by
    cases s.session.candidate <;> decide
  have hmax : s.session.programmedBlockCount ≠ 0xFFFFFFFF := by
    intro heq
    rw [heq] at hblocks
    change 0xFFFFFFFF ≤ 512 + _ at hblocks
    omega
  rw [wp_bind]
  refine ((quiet_programAlignedBlock hu (Nat.dvd_add (Nat.dvd_trans hu.aligned hbase) haligned)
    (by rw [slice_length]; exact hdvd) (by rw [slice_length]; exact hpos)
    ⟨by simp only [FlashOp.base]; omega, by simp only [FlashOp.endAddr, slice_length]; omega⟩
    (fun x h₁ h₂ => hblank x h₁ (by rw [slice_length] at h₂; omega)) hmax).and
    (steps_programAlignedBlock (R := fun _ => True) fun _ => trivial)).mono ?_
    (fun _ _ h => h.1) (fun _ h => h.1)
  rintro _ s₁ ⟨⟨hmem₁, hcount₁⟩, hs₁⟩
  obtain ⟨hq₁, hh₁, ha₁, hr₁⟩ := hu.steady hs₁
  have hprogrammed₁ : s₁.session.payloadProgrammed = s.session.payloadProgrammed :=
    congrArg (·.payloadProgrammed) hs₁.steady
  rw [wp_modifySession]
  refine ⟨hmem₁, ?_, ?_, rfl, ?_, hq₁, hh₁, ha₁, hr₁⟩
  · exact congrArg (fun session : UpdateInstallerSession =>
      { session with payloadProgrammed := 0, programFill := 0 }) hs₁.steady
  · rw [hprogrammed₁]
  · change s₁.session.programmedBlockCount.toNat = _
    rw [hcount₁, toNat_succ hmax]

/-- What is programmed after it leaves the header and the payload alone. -/
theorem Programmed.mem_below {programLength x : ℕ} (h : Programmed programLength s s')
    (hx : x < (bootSlots s.session.candidate).payloadBase + s.session.payloadProgrammed) :
    s'.dev.mem x = s.dev.mem x := by
  rw [h.mem, programMem_of_not_mem (by omega)]

theorem Programmed.mem_above {programLength x : ℕ} (h : Programmed programLength s s')
    (hx : (bootSlots s.session.candidate).payloadBase + s.session.payloadProgrammed +
      programLength ≤ x) : s'.dev.mem x = s.dev.mem x := by
  rw [h.mem, programMem_of_not_mem (by rw [slice_length]; omega)]

/-- The slot now holds the buffer after what it held before. -/
theorem Programmed.slice_payload {programLength : ℕ} (h : Programmed programLength s s')
    (hblank : ∀ x, (bootSlots s.session.candidate).payloadBase + s.session.payloadProgrammed ≤ x →
      x < (bootSlots s.session.candidate).payloadBase + s.session.payloadProgrammed + programLength →
      s.dev.mem x = 0xFF) :
    slice s'.dev.mem (bootSlots s.session.candidate).payloadBase
      (s.session.payloadProgrammed + programLength) =
      slice s.dev.mem (bootSlots s.session.candidate).payloadBase s.session.payloadProgrammed ++
        slice s.programBuffer 0 programLength := by
  have hnew : slice (programMem s.dev.mem _ (slice s.programBuffer 0 programLength)) _ _ = _ :=
    slice_programMem_erased fun x h₁ h₂ => hblank x h₁ (by rw [slice_length] at h₂; exact h₂)
  rw [slice_length, ← h.mem] at hnew
  rw [slice_add, hnew]
  congr 1
  exact slice_congr fun x _ hx => h.mem_below hx

/-- The header is below everything a flush programs. -/
theorem Programmed.slice_header {programLength : ℕ} (h : Programmed programLength s s') :
    slice s'.dev.mem (bootSlots s.session.candidate).signedImageBase Layout.signedImageHeaderSize =
      slice s.dev.mem (bootSlots s.session.candidate).signedImageBase
        Layout.signedImageHeaderSize :=
  slice_congr fun x _ hx => h.mem_below (by rw [payloadBase_eq]; omega)

theorem maximumPayloadSize_eq (c : BootSlotId) : (bootSlots c).payloadBase +
    (bootSlots c).maximumPayloadSize = (bootSlots c).slotEnd := by
  cases c <;> rfl

/-- A full buffer is programmed, and the stream is what it was. -/
theorem quiet_flushIfFull (h : Content headerBytes s) :
    wp flushIfFull s (fun _ s' => Content headerBytes s') (fun _ _ => False) (fun _ => False) := by
  rw [flushIfFull, wp_bind, wp_getSession]
  split
  swap
  · exact h
  rename_i hfull
  obtain ⟨hbuffer, hdvd⟩ := programBufferSize_of_valid h.prepared.options
  have hreceived := h.received
  have hbound := h.received_le
  have hfits := h.prepared.fits
  have hend := maximumPayloadSize_eq s.session.candidate
  have hflash : (bootSlots s.session.candidate).slotEnd ≤ Layout.flashEnd := by
    cases s.session.candidate <;> decide
  rw [flushPayloadProgramBuffer, wp_bind, wp_getSession, if_neg (by omega), flushLength]
  simp only [wp_bind, wp_getSession, Bool.false_eq_true, if_false, wp_check, wp_pure]
  refine ⟨fun _ => ⟨fun _ => ?_, fun hn => hn ⟨by omega, by omega⟩⟩, fun hn => hn hfull⟩
  rw [checkedU32Add_of_le (by omega)]
  simp only
  rw [wp_bind, wp_get]
  rw [← hfull] at hdvd
  refine (quiet_programBuffer h.undisturbed h.aligned hdvd (by omega) (by omega) h.blank
    h.blocks).mono (fun _ s₁ h₁ => ?_) (fun _ _ h => h) (fun _ h => h)
  have hcore : s₁.session.intake.core = s.session.intake.core := by rw [h₁.intake]
  replace hcore : s₁.session.core = s.session.core := hcore
  have hcand : s₁.session.candidate = s.session.candidate := congrArg (·.candidate) hcore
  have hheader : s₁.session.header = s.session.header := congrArg (·.header) hcore
  have hrestricted : s₁.session.restrictedFlash = s.session.restrictedFlash :=
    congrArg (·.restrictedFlash) hcore
  have hhashed : s₁.session.payloadHashCtx = s.session.payloadHashCtx :=
    congrArg (·.payloadHashCtx) h₁.intake
  have hreceived₁ : s₁.session.payloadReceived = s.session.payloadReceived :=
    congrArg (·.payloadReceived) h₁.intake
  refine ⟨h₁.undisturbed, h.prepared.of_core hcore, ?_, ?_, ?_, ?_, ?_, ?_, ?_, ?_⟩
  · rw [hcand, h₁.slice_header]
    exact h.header
  · rw [hcand, h₁.programmed, h₁.fill, hhashed, slice_zero, List.append_nil,
      h₁.slice_payload fun x h₁ h₂ => h.blank x h₁ (by omega)]
    exact h.stream
  · intro x hx hx'
    rw [hcand, h₁.programmed] at hx
    rw [hcand] at hx'
    rw [h₁.mem_above (by omega)]
    exact h.blank x (by omega) hx'
  · rw [hreceived₁, h₁.programmed, h₁.fill, Nat.add_zero, hreceived]
  · rw [hreceived₁, hheader]
    exact h.bound
  · rw [h₁.fill]
    exact Nat.zero_le _
  · rw [h₁.programmed, hrestricted]
    exact Nat.dvd_add h.aligned hdvd
  · rw [h₁.blocks, h₁.programmed]
    have := h.blocks
    omega

/-- **The stream goes through.** -/
theorem quiet_writeLoop {fuel : ℕ} {input : List UInt8} (h : Content headerBytes s)
    (hroom : 0 < room s.session) (hfuel : input.length ≤ fuel)
    (hbound : s.session.payloadReceived + input.length ≤ s.session.header.payloadSize) :
    wp (writeLoop fuel input) s (fun _ s' => Content headerBytes s') (fun _ _ => False)
      (fun _ => False) := by
  induction fuel generalizing input s with
  | zero =>
    obtain rfl : input = [] := List.eq_nil_of_length_eq_zero (by omega)
    exact h
  | succ fuel ih =>
    by_cases hnil : input = []
    · rw [hnil]
      exact h
    have hpos : 0 < input.length := List.length_pos_iff.mpr hnil
    have hconsumed : (input.take (min input.length (room s.session))).length =
        min input.length (room s.session) := by
      rw [List.length_take]
      omega
    rw [wp, writeLoop_succ hpos]
    change wp (flushIfFull >>= _) _ _ _ _
    rw [wp_bind]
    refine ((quiet_flushIfFull (h.absorb (by omega) (by omega))).and (round_spec hroom)).mono
      (fun _ s₁ h₁ => ?_) (fun _ _ h => h.1) (fun _ h => h.1)
    obtain ⟨hcontent, hroom₁, hintake⟩ := h₁
    have htaken := TakenIn.of_absorb hintake
    have hheader : s₁.session.header = s.session.header := congrArg (·.header) htaken.core
    refine ih hcontent hroom₁ ?_ ?_
    · rw [List.length_drop]
      omega
    · rw [htaken.received, hheader, List.length_drop, hconsumed]
      omega

/-! ### A block -/

/-- The session without what the calls of `update_installer_write` change. -/
def UpdateInstallerSession.opened (session : UpdateInstallerSession) : UpdateInstallerSession :=
  { session.core with state := .writing }

/-- The data have joined the stream, and the session is complete when everything has been
received. -/
structure Streamed (headerBytes data : List UInt8) (s s' : Installer) : Prop where
  content : Content headerBytes s'
  room : 0 < room s'.session
  opened : s'.session.opened = s.session.opened
  state : s'.session.state =
    if s'.session.payloadReceived = s'.session.header.payloadSize then .payloadComplete else .writing
  hashed : s'.session.payloadHashCtx = s.session.payloadHashCtx ++ data
  dev : s.dev.Extends (InSlot s.session.candidate) s'.dev

namespace Streamed

variable {data : List UInt8}

theorem received (h : Streamed headerBytes data s s') (hs : Content headerBytes s) :
    s'.session.payloadReceived = s.session.payloadReceived + data.length := by
  rw [← h.content.hashed, h.hashed, List.length_append, hs.hashed]

theorem header (h : Streamed headerBytes data s s') : s'.session.header = s.session.header :=
  congrArg (·.header) h.opened

theorem candidate (h : Streamed headerBytes data s s') : s'.session.candidate = s.session.candidate :=
  congrArg (·.candidate) h.opened

theorem trans {s'' : Installer} {data' : List UInt8} (h : Streamed headerBytes data s s')
    (h' : Streamed headerBytes data' s' s'') : Streamed headerBytes (data ++ data') s s'' where
  content := h'.content
  room := h'.room
  opened := h'.opened.trans h.opened
  state := h'.state
  hashed := by rw [h'.hashed, h.hashed, List.append_assoc]
  dev := by
    have hdev := h'.dev
    rw [h.candidate] at hdev
    exact IsTrans.trans _ _ _ h.dev hdev

/-- The journal still has the update of the session under way. -/
theorem filling (h : Streamed headerBytes data s s') (hs : Filling publicKey s.dev.mem s.session) :
    Filling publicKey s'.dev.mem s'.session := by
  have hopened : ∀ {m : Mem} {session : UpdateInstallerSession},
      Filling publicKey m session.opened ↔ Filling publicKey m session := fun {m session} =>
    ⟨fun h => ⟨h.restricted, h.key, h.committed, h.recorded, h.state, h.active, h.candidate,
      h.version⟩, fun h => ⟨h.restricted, h.key, h.committed, h.recorded, h.state, h.active,
      h.candidate, h.version⟩⟩
  rw [← hopened, h.opened, hopened]
  exact hs.of_journal (journal_of_inSlot h.dev)

end Streamed

theorem Content.completeIfReceived (h : Content headerBytes s) :
    Content headerBytes { s with session := completeIfReceived s.session } := by
  rw [Stm32SecurityLab.completeIfReceived]
  split
  · exact ⟨⟨h.undisturbed.quiet, h.undisturbed.hook, h.undisturbed.aligned,
      h.undisturbed.restricted⟩, ⟨h.prepared.options, h.prepared.size, h.prepared.fits⟩, h.header,
      h.stream, h.blank, h.received, h.bound, h.fill, h.aligned, h.blocks⟩
  · exact h

/-- **A block at the accepted offset is accepted.** -/
theorem quiet_updateInstallerWrite {data : List UInt8} (h : Content headerBytes s)
    (hstate : s.session.state = .writing) (hroom : 0 < room s.session) (hdata : data ≠ [])
    (hfits : data.length ≤ s.session.header.payloadSize - s.session.payloadReceived) :
    wp (updateInstallerWrite s.session.payloadReceived data) s
      (fun _ s' => Streamed headerBytes data s s') (fun _ _ => False) (fun _ => False) := by
  have hbound := h.bound
  rw [wp, updateInstallerWrite_eq hstate hdata rfl hfits]
  change wp (failSession (_ >>= _)) _ _ _ _
  rw [wp_failSession, wp_bind]
  refine (((quiet_writeLoop h hroom (Nat.le_refl _) (by omega)).and
    (writeLoop_takenIn (Nat.le_refl _) hroom)).and
    (steps_writeLoop h.undisturbed.restricted)).mono ?_ (fun _ _ h => h.1.1) (fun _ h => h.1.1)
  rintro _ s₁ ⟨⟨hcontent, hroom₁, htaken⟩, hstreams⟩
  have hstate₁ : s₁.session.state = .writing := (congrArg (·.state) htaken.core).trans hstate
  have hopened : s₁.session.opened = s.session.opened :=
    congrArg (fun session : UpdateInstallerSession => { session with state := .writing }) htaken.core
  rw [wp_modifySession]
  refine ⟨hcontent.completeIfReceived, ?_, ?_, ?_, ?_, hstreams.dev⟩
  all_goals rw [completeIfReceived]; split
  · exact hroom₁
  · exact hroom₁
  · exact hopened
  · exact hopened
  · rfl
  · exact hstate₁
  · exact htaken.hashed
  · exact htaken.hashed

/-! ### The last flush -/

/-- The slot holds the header, the payload and `0xFF` to its end. -/
def SlotFilled (headerBytes payload : List UInt8) (c : BootSlotId) (m : Mem) : Prop :=
  slice m (bootSlots c).signedImageBase ((bootSlots c).slotEnd - (bootSlots c).signedImageBase) =
    headerBytes ++ payload ++
      List.replicate ((bootSlots c).maximumPayloadSize - payload.length) 0xFF

theorem slice_blank {m : Mem} {base n : ℕ} (h : ∀ x, base ≤ x → x < base + n → m x = 0xFF) :
    slice m base n = List.replicate n 0xFF := by
  refine List.ext_getElem (by simp) fun i hi _ => ?_
  rw [slice_length] at hi
  rw [slice_getElem, List.getElem_replicate]
  exact h _ (by omega) (by omega)

/-- The padding of the last block. -/
theorem slice_memset (buffer : Mem) {fill programLength : ℕ} (h : fill ≤ programLength) :
    slice (memset buffer fill 0xFF (programLength - fill)) 0 programLength =
      slice buffer 0 fill ++ List.replicate (programLength - fill) 0xFF := by
  obtain ⟨pad, rfl⟩ := Nat.exists_eq_add_of_le h
  rw [Nat.add_sub_cancel_left, slice_add, Nat.zero_add]
  congr 1
  · exact slice_congr fun x _ hx => if_neg (by omega)
  · exact slice_blank fun x h₁ h₂ => if_pos ⟨h₁, h₂⟩

/-- The slot, part by part. -/
theorem SlotFilled.of_parts {payload : List UInt8} {c : BootSlotId} {m : Mem}
    (hheader : slice m (bootSlots c).signedImageBase Layout.signedImageHeaderSize = headerBytes)
    (hpayload : slice m (bootSlots c).payloadBase payload.length = payload)
    (hblank : ∀ x, (bootSlots c).payloadBase + payload.length ≤ x → x < (bootSlots c).slotEnd →
      m x = 0xFF) (hfits : payload.length ≤ (bootSlots c).maximumPayloadSize) :
    SlotFilled headerBytes payload c m := by
  have hsize : (bootSlots c).slotEnd - (bootSlots c).signedImageBase =
      Layout.signedImageHeaderSize + payload.length +
        ((bootSlots c).maximumPayloadSize - payload.length) := by
    have hend := maximumPayloadSize_eq c
    rw [payloadBase_eq] at hend
    omega
  have hend := maximumPayloadSize_eq c
  have hrest : slice m ((bootSlots c).payloadBase + payload.length)
      ((bootSlots c).maximumPayloadSize - payload.length) =
      List.replicate ((bootSlots c).maximumPayloadSize - payload.length) 0xFF :=
    slice_blank fun x h₁ h₂ => hblank x h₁ (by omega)
  rw [SlotFilled, hsize, slice_add, slice_add, hheader, ← payloadBase_eq, hpayload,
    ← Nat.add_assoc, ← payloadBase_eq, hrest]

/-- The whole stream is in the slot. -/
structure Flushed (headerBytes : List UInt8) (s s' : Installer) : Prop where
  undisturbed : Undisturbed s'
  intake : s'.session.intake = s.session.intake
  complete : s'.session.payloadProgrammed = s'.session.payloadProgramSize
  filled : SlotFilled headerBytes s.session.payloadHashCtx s.session.candidate s'.dev.mem

/-- **The last flush puts the rest of the stream into the slot.** -/
theorem quiet_finalFlush (h : Content headerBytes s)
    (hreceived : s.session.payloadReceived = s.session.header.payloadSize) :
    wp (flushPayloadProgramBuffer true) s (fun _ s' => Flushed headerBytes s s') (fun _ _ => False)
      (fun _ => False) := by
  have hsize := h.prepared.size
  rw [← hreceived, h.received] at hsize
  have hfits := h.prepared.fits
  have hle := h.received_le
  have hlength := h.hashed
  have hparts := h.received
  have hend := maximumPayloadSize_eq s.session.candidate
  have hflash : (bootSlots s.session.candidate).slotEnd ≤ Layout.flashEnd := by
    cases s.session.candidate <;> decide
  rw [flushPayloadProgramBuffer, wp_bind, wp_getSession]
  split
  · -- nothing is left in the buffer, and what is in the slot is aligned
    rename_i hempty
    have hstream := h.stream
    rw [hempty, slice_zero, List.append_nil] at hstream
    rw [hempty] at hparts
    refine ⟨h.undisturbed, rfl, ?_, SlotFilled.of_parts h.header ?_ (fun x h₁ h₂ => ?_) (by omega)⟩
    · rw [hempty] at hsize
      exact checkedRoundUp_add h.aligned (checkedRoundUp_zero _) hsize
    · rw [hlength, hparts]
      exact hstream
    · exact h.blank x (by omega) h₂
  -- the rest is padded to the alignment
  rename_i hfill
  obtain ⟨programLength, hround, hge, -⟩ := checkedRoundUp_of_le s.session.restrictedFlash
    (show s.session.programFill ≤ 0x60000 by
      have : (bootSlots s.session.candidate).maximumPayloadSize < 0x60000 := by
        cases s.session.candidate <;> decide
      omega)
    (Nat.dvd_trans h.undisturbed.aligned (by decide)) (by decide)
  have hdvd := (checkedRoundUp_spec hround).1
  have htotal := checkedRoundUp_add h.aligned hround hsize
  rw [flushLength]
  simp only [wp_bind, wp_getSession, if_true, hround, wp_check, wp_modify, wp_pure]
  refine ⟨fun _ => ?_, fun hn => hn ⟨by omega, by omega⟩⟩
  rw [checkedU32Add_of_le (by omega)]
  simp only
  rw [wp_bind, wp_get]
  have hpadded := slice_memset s.programBuffer hge
  generalize memset s.programBuffer s.session.programFill 0xFF
    (programLength - s.session.programFill) = buffer at hpadded ⊢
  have hu₁ : Undisturbed { s with programBuffer := buffer } :=
    ⟨h.undisturbed.quiet, h.undisturbed.hook, h.undisturbed.aligned, h.undisturbed.restricted⟩
  refine (quiet_programBuffer hu₁ h.aligned hdvd (by omega)
    (by exact (Nat.le_of_eq htotal).trans hfits) h.blank h.blocks).mono (fun _ s' h' => ?_)
    (fun _ _ h => h) (fun _ h => h)
  have hslice : slice s'.dev.mem (bootSlots s.session.candidate).payloadBase
      (s.session.payloadProgrammed + programLength) =
      slice s.dev.mem (bootSlots s.session.candidate).payloadBase s.session.payloadProgrammed ++
        slice buffer 0 programLength :=
    h'.slice_payload fun x h₁ h₂ => h.blank x h₁ (by
      change x < (bootSlots s.session.candidate).payloadBase + s.session.payloadProgrammed +
        programLength at h₂
      omega)
  rw [hpadded, ← List.append_assoc, h.stream] at hslice
  refine ⟨h'.undisturbed, h'.intake, ?_, SlotFilled.of_parts ?_ ?_ (fun x h₁ h₂ => ?_) (by omega)⟩
  · have hsame : s'.session.payloadProgramSize = s.session.payloadProgramSize :=
      congrArg (·.payloadProgramSize) h'.intake
    rw [h'.programmed, hsame]
    exact htotal
  · exact h'.slice_header.trans h.header
  · have htake := congrArg (List.take s.session.payloadHashCtx.length) hslice
    rw [List.take_left, slice_take (by omega)] at htake
    exact htake
  · by_cases hin : x < (bootSlots s.session.candidate).payloadBase +
        (s.session.payloadProgrammed + programLength)
    · have hdrop := congrArg (List.drop s.session.payloadHashCtx.length) hslice
      rw [List.drop_left, slice_drop (by omega)] at hdrop
      have hget := congrArg
        (·[x - ((bootSlots s.session.candidate).payloadBase + s.session.payloadHashCtx.length)]?) hdrop
      rw [slice_getElem? (by omega), List.getElem?_replicate_of_lt (by omega)] at hget
      rw [← Option.some.inj hget]
      congr 1
      omega
    · have habove : s'.dev.mem x = s.dev.mem x := h'.mem_above (by
        change (bootSlots s.session.candidate).payloadBase + s.session.payloadProgrammed +
          programLength ≤ x
        omega)
      rw [habove]
      exact h.blank x (by omega) h₂


/-! ### `update_installer_finish` -/

namespace SlotFilled

variable {payload : List UInt8} {c : BootSlotId} {m m' : Mem}

theorem congr (h : SlotFilled headerBytes payload c m) (hsame : SlotSame c m m') :
    SlotFilled headerBytes payload c m' := by
  rw [SlotFilled, ← h]
  exact slice_congr fun x h₁ h₂ => hsame x h₁ (by omega)

theorem slice_header (h : SlotFilled headerBytes payload c m)
    (hlength : headerBytes.length = Layout.signedImageHeaderSize) :
    slice m (bootSlots c).signedImageBase Layout.signedImageHeaderSize = headerBytes := by
  have hle : Layout.signedImageHeaderSize ≤
      (bootSlots c).slotEnd - (bootSlots c).signedImageBase := by cases c <;> decide
  have htake := congrArg (List.take Layout.signedImageHeaderSize) h
  rw [slice_take hle, List.append_assoc, ← hlength, List.take_left] at htake
  rw [← hlength]
  exact htake

theorem slice_payload (h : SlotFilled headerBytes payload c m)
    (hlength : headerBytes.length = Layout.signedImageHeaderSize)
    (hfits : payload.length ≤ (bootSlots c).maximumPayloadSize) :
    slice m (bootSlots c).payloadBase payload.length = payload := by
  have hend := maximumPayloadSize_eq c
  have hbase := payloadBase_eq c
  have hdrop := congrArg (fun bytes => (bytes.drop Layout.signedImageHeaderSize).take
    payload.length) h
  rw [slice_drop (by omega), slice_take (by omega), ← hbase, List.append_assoc, ← hlength,
    List.drop_left, List.take_left] at hdrop
  exact hdrop

end SlotFilled

/-- The payload is read back from the slot. -/
theorem quiet_hashInstalledLoop {d : Device} {payloadBase payloadSize readbackSize fuel offset : ℕ}
    {ctx : List UInt8} (hq : d.Quiet) (hbase : Layout.flashBase ≤ payloadBase)
    (hend : payloadBase + payloadSize ≤ Layout.flashEnd) (hreadback : 0 < readbackSize)
    (hfuel : payloadSize - offset ≤ fuel) :
    wp (hashInstalledLoop payloadBase payloadSize readbackSize fuel offset ctx) d
      (fun bytes d' => bytes = ctx ++ slice d.mem (payloadBase + offset) (payloadSize - offset) ∧
        d.Extends (fun _ => False) d') (fun _ _ => False) (fun _ => False) := by
  have hdone : payloadSize ≤ offset →
      ctx = ctx ++ slice d.mem (payloadBase + offset) (payloadSize - offset) := by
    intro hle
    rw [Nat.sub_eq_zero_of_le hle, slice_zero, List.append_nil]
  induction fuel generalizing d offset ctx with
  | zero => exact ⟨hdone (by omega), Std.Refl.refl d⟩
  | succ fuel ih =>
    rw [hashInstalledLoop]
    split
    swap
    · rename_i hge
      exact ⟨hdone (by omega), Std.Refl.refl d⟩
    rename_i hlt
    simp only
    rw [checkedU32Add_of_le (by omega)]
    simp only
    rw [wp_bind, wp_mapErr]
    refine bootFlashRead_spec (by omega) (by omega) (by omega) (fun vs hvs => ?_)
      (fun _ _ hn => absurd hq hn) (fun _ hn => absurd hq hn)
    have hq' : ({ d with script := vs } : Device).Quiet := hvs hq
    refine (ih hq' (by omega) fun hle => ?_).mono
      (fun bytes d' h' => ⟨?_, ?_⟩) (fun _ _ h => h) (fun _ h => h)
    · rw [Nat.sub_eq_zero_of_le hle, slice_zero, List.append_nil]
    · rw [h'.1, List.append_assoc]
      congr 1
      rw [← Nat.add_assoc, ← slice_add]
      congr 1
      omega
    · have hread : d.Extends (fun _ => False) { d with script := vs } := ⟨⟨[], by simp⟩, hvs⟩
      exact IsTrans.trans _ _ _ hread h'.2

/-- Whether the payload in the slot has the hash of the manifest. -/
theorem quiet_hashInstalledPayload {payload : List UInt8} (hu : Undisturbed s)
    (hreadback : 0 < s.session.options.readbackBufferSize)
    (hsize : payload.length = s.session.header.payloadSize)
    (hpayload : slice s.dev.mem (bootSlots s.session.candidate).payloadBase payload.length = payload)
    (hfits : payload.length ≤ (bootSlots s.session.candidate).maximumPayloadSize) :
    wp (hashInstalledPayload crypto) s
      (fun _ s' => Steady (fun _ => False) s s' ∧
        crypto.sha512 payload = s.session.header.manifest.payloadSha512)
      (fun _ s' => Steady (fun _ => False) s s' ∧
        crypto.sha512 payload ≠ s.session.header.manifest.payloadSha512)
      (fun _ => False) := by
  have hend := maximumPayloadSize_eq s.session.candidate
  have hslot : Layout.flashBase ≤ (bootSlots s.session.candidate).payloadBase ∧
      (bootSlots s.session.candidate).slotEnd ≤ Layout.flashEnd := by
    cases s.session.candidate <;> decide
  rw [hashInstalledPayload]
  simp only [wp_bind, wp_getSession, wp_maybeFault hu.hook]
  rw [onDev, wp_zoom]
  refine (quiet_hashInstalledLoop hu.quiet hslot.1 (by omega) hreadback (by omega)).mono
    (fun bytes d' h' => ?_) (fun _ _ h => h.elim) (fun _ h => h)
  obtain ⟨hbytes, hdev⟩ := h'
  rw [List.nil_append, Nat.add_zero, Nat.sub_zero, ← hsize, hpayload] at hbytes
  refine (wp_maybeFault (s := { s with dev := d' }) hu.hook).mpr ?_
  rw [wp_check, hbytes]
  exact ⟨fun hhash => ⟨⟨rfl, hdev⟩, hhash⟩, fun hhash => ⟨⟨rfl, hdev⟩, hhash⟩⟩

/-- In a slot that was filled with an accepted header, only the image itself can be wrong. -/
theorem SlotFilled.installedVerifyStatus_iff {payload : List UInt8} {c : BootSlotId} {m : Mem}
    {header : UpdatePackageHeader} (h : SlotFilled headerBytes payload c m)
    (haccepted : HeaderAccepted crypto publicKey headerBytes (bootSlots c) header) :
    installedVerifyStatus crypto publicKey m (bootSlots c) header = .ok () ↔
      slotVerify crypto publicKey m (bootSlots c) = .ok () := by
  have hheader := h.slice_header haccepted.length
  have hmanifest : slotManifestBytes m (bootSlots c) = header.manifestBytes := by
    rw [haccepted.manifestBytes, ← hheader, slice_take (by decide)]
    cases c <;> rfl
  have hsignature : slice m (bootSlots c).signatureAddress Layout.signedSignatureSize =
      header.signatureBytes := by
    rw [haccepted.signatureBytes, ← hheader, slice_drop (by decide), slice_take (by decide)]
    cases c <;> rfl
  have hdecoded : manifestMatchesHeader (decodeManifestBytes (byteAt (slotManifestBytes m
      (bootSlots c)))) header = true := by
    rw [manifestMatchesHeader, hmanifest, haccepted.manifestBytes, decodeManifestBytes_take,
      haccepted.manifest]
    exact beq_self_eq_true _
  have hpadding : (slice m ((bootSlots c).signatureAddress + Layout.signedSignatureSize)
      (Layout.signedImageHeaderSize - (Layout.signedManifestSize + Layout.signedSignatureSize))).all
      (· == 0xFF) = true := by
    have hcanonical := haccepted.padding
    have haddress : (bootSlots c).signatureAddress + Layout.signedSignatureSize =
        (bootSlots c).signedImageBase + (Layout.signedManifestSize + Layout.signedSignatureSize) := by
      cases c <;> rfl
    simp only [paddingIsCanonical, List.all_eq_true, List.mem_range'_1, beq_iff_eq] at hcanonical
    rw [List.all_eq_true]
    intro b hb
    obtain ⟨i, hi, rfl⟩ := List.mem_iff_getElem.mp hb
    rw [slice_length] at hi
    rw [slice_getElem, beq_iff_eq, haddress, Nat.add_assoc]
    have hbyte := hcanonical (Layout.signedManifestSize + Layout.signedSignatureSize + i)
      ⟨by omega, by omega⟩
    rw [← hheader, byteAt_slice (by omega)] at hbyte
    exact hbyte
  have hexpected : installedHeaderMatchesExpected m (bootSlots c) header = true := by
    rw [slotManifestBytes] at hmanifest
    rw [installedHeaderMatchesExpected, hmanifest, hsignature, hpadding, beq_self_eq_true,
      beq_self_eq_true]
    rfl
  rw [installedVerifyStatus]
  split
  · rename_i e he
    rw [he]
  · rename_i hok
    rw [hdecoded, hexpected, hok]
    simp

/-- A record can follow `WRITING` until the sequence numbers run out. -/
theorem prepare_of_writing {writing : BootMetadataRecord} {state : BootMetadataState}
    (hcan : stateRecordIsCanonical writing = true) (hwriting : writing.state = .writing)
    (hstate : state = .candidateReady ∨ state = .rejectedInvalid) :
    (∃ next, bootMetadataPrepareNext writing state writing.activeSlot writing.candidateSlot
      writing.candidateImageVersion 0 0 0 = .ok next) ↔ writing.sequence < 0xFFFFFFFE := by
  constructor
  · rintro ⟨next, hnext⟩
    exact (bootMetadataPrepareNext_ok.mp hnext).1
  intro hseq
  refine ⟨_, bootMetadataPrepareNext_ok.mpr ⟨hseq, ?_, rfl⟩⟩
  have hlt : writing.sequence.toNat < 0xFFFFFFFE := UInt32.lt_iff_toNat_lt.mp hseq
  have hmax : writing.sequence ≠ 0xFFFFFFFF := by
    intro heq
    rw [heq] at hlt
    exact absurd hlt (by decide)
  have hne : ∀ v : UInt32, (v.toNat = 0 ∨ v.toNat = 0xFFFFFFFF) → writing.sequence + 1 ≠ v := by
    intro v hv heq
    rw [← heq, toNat_succ hmax] at hv
    omega
  rw [stateRecordIsCanonical, hwriting] at hcan
  simp only [Bool.if_false_left, Bool.and_eq_true, Bool.not_eq_true', decide_eq_false_iff_not, not_or,
    not_not] at hcan
  obtain ⟨⟨-, -, hactive, hcand, -⟩, ⟨hnone, hversion, hneq⟩, -⟩ := hcan
  rw [bootMetadataValidateTransition, stateRecordIsCanonical]
  simp only
  rw [if_neg (by simp [hne 0 (.inl rfl), hne 0xFFFFFFFF (.inr rfl), hmax]), if_neg (by
    rw [if_neg (by simp [hne 0 (.inl rfl), hne 0xFFFFFFFF (.inr rfl), hactive, hcand])]
    rcases hstate with rfl | rfl <;> simp [hnone, hversion, hneq])]
  rcases hstate with rfl | rfl <;> simp [hwriting, transitionStateAllowed, transitionFieldsAllowed]

/-- The update can be finished: the payload has the hash of the manifest, the image in the slot
verifies, and there is a sequence number left. -/
structure Finishable (crypto : Crypto) (payload : List UInt8) (session : UpdateInstallerSession)
    (m : Mem) : Prop where
  hash : crypto.sha512 payload = session.header.manifest.payloadSha512
  verify : slotVerify crypto session.publicKey m (bootSlots session.candidate) = .ok ()
  sequence : session.writingMetadata.sequence < 0xFFFFFFFE

theorem quiet_verifyInstalledPackage (hu : Undisturbed s) :
    wp (verifyInstalledPackage crypto) s
      (fun _ s' => Steady (fun _ => False) s s' ∧ installedVerifyStatus crypto s.session.publicKey
        s.dev.mem (bootSlots s.session.candidate) s.session.header = .ok ())
      (fun _ s' => Steady (fun _ => False) s s' ∧ installedVerifyStatus crypto s.session.publicKey
        s.dev.mem (bootSlots s.session.candidate) s.session.header ≠ .ok ())
      (fun _ => False) := by
  rw [verifyInstalledPackage]
  simp only [wp_bind, wp_getSession, wp_maybeFault hu.hook, wp_get]
  refine wp_modifyResult fun result => ?_
  have hsteady : Steady (fun _ => False) s { s with result } := ⟨rfl, Std.Refl.refl s.dev⟩
  split
  · rename_i hok
    exact ⟨hsteady, hok⟩
  · rename_i e he
    refine ⟨hsteady, fun hok => ?_⟩
    rw [he] at hok
    cases hok

/-- `CANDIDATE_READY` can be committed while there are sequence numbers left. -/
theorem quiet_commitReady (hu : Undisturbed s) (hfill : Filling publicKey s.dev.mem s.session) :
    wp (commitMetadataState s.session.writingMetadata .candidateReady s.session.activeSlotId
        s.session.candidate.toUInt32 s.session.header.manifest.imageVersion
        .metadataCandidateReady) s
      (fun _ _ => s.session.writingMetadata.sequence < 0xFFFFFFFE)
      (fun _ s' => ¬ s.session.writingMetadata.sequence < 0xFFFFFFFE ∧ s' = s) (fun _ => False) := by
  have hprepare : (∃ next, bootMetadataPrepareNext s.session.writingMetadata .candidateReady
      s.session.activeSlotId s.session.candidate.toUInt32 s.session.header.manifest.imageVersion
      0 0 0 = .ok next) ↔ s.session.writingMetadata.sequence < 0xFFFFFFFE := by
    rw [← hfill.active, ← hfill.candidate, ← hfill.version]
    exact prepare_of_writing (journal_canonical hfill.recorded) hfill.state (.inl rfl)
  by_cases hseq : s.session.writingMetadata.sequence < 0xFFFFFFFE
  · obtain ⟨next, hnext⟩ := hprepare.mpr hseq
    exact (quiet_commitMetadataState hu hfill.recorded hnext).mono (fun _ _ _ => hseq)
      (fun _ _ h => h.elim) (fun _ h => h)
  · rw [commitMetadataState, wp_bind, wp_ofExcept]
    refine ⟨fun next hnext => absurd (hprepare.mp ⟨next, mapError_eq_ok.mp hnext⟩) hseq,
      fun _ _ => ⟨hseq, rfl⟩⟩

/-- The readback buffer of valid options is not empty. -/
theorem readbackBufferSize_of_valid {flash : BootFlash} {options : UpdateInstallOptions}
    (h : optionsAreValid flash options = true) : 0 < options.readbackBufferSize := by
  have hbuffer := (programBufferSize_of_valid h).1
  rw [optionsAreValid] at h
  simp only [decide_eq_true_eq, not_or] at h
  omega

/-- The checks of `update_installer_finish` on a slot that has been filled. -/
theorem quiet_finishChecks {payload : List UInt8} (hu : Undisturbed s) (hprepared : Prepared s.session)
    (hfilled : SlotFilled headerBytes payload s.session.candidate s.dev.mem)
    (hhashed : s.session.payloadHashCtx = payload)
    (hsize : payload.length = s.session.header.payloadSize)
    (hfits : payload.length ≤ (bootSlots s.session.candidate).maximumPayloadSize)
    (hfill : Filling publicKey s.dev.mem s.session)
    (haccepted : HeaderAccepted crypto publicKey headerBytes (bootSlots s.session.candidate)
      s.session.header) :
    wp (do
        verifyStreamingPayloadHash crypto
        hashInstalledPayload crypto
        verifyInstalledPackage crypto
        commitMetadataState s.session.writingMetadata .candidateReady s.session.activeSlotId
          s.session.candidate.toUInt32 s.session.header.manifest.imageVersion
          .metadataCandidateReady) s
      (fun _ s' => Finishable crypto payload s.session s.dev.mem ∧
        SlotSame s.session.candidate s.dev.mem s'.dev.mem)
      (fun _ s' => ¬ Finishable crypto payload s.session s.dev.mem ∧ s'.dev.mem = s.dev.mem)
      (fun _ => False) := by
  subst hhashed
  rw [verifyStreamingPayloadHash]
  simp only [wp_bind, wp_getSession, wp_modifySession, wp_check]
  refine ⟨fun hhash => ?_, fun hhash => ⟨fun hf => hhash hf.hash, trivial⟩⟩
  have hu₁ : Undisturbed { s with session := { s.session with payloadHashFinalized := true } } :=
    ⟨hu.quiet, hu.hook, hu.aligned, hu.restricted⟩
  have hreadback := readbackBufferSize_of_valid hprepared.options
  have hslice := hfilled.slice_payload haccepted.length hfits
  refine wp.mono (quiet_hashInstalledPayload hu₁ hreadback hsize hslice hfits)
    (fun _ s₂ h₂ => ?_) (fun _ s₂ h₂ => absurd hhash h₂.2) (fun _ h => h)
  obtain ⟨hs₂, -⟩ := h₂
  have hmem₂ : s₂.dev.mem = s.dev.mem := hs₂.dev.eq_of_false.1
  have hcore₂ : s₂.session.core = s.session.core := hs₂.streams.core
  have hkey₂ : s₂.session.publicKey = s.session.publicKey := congrArg (·.publicKey) hcore₂
  have hcand₂ : s₂.session.candidate = s.session.candidate := congrArg (·.candidate) hcore₂
  have hheader₂ : s₂.session.header = s.session.header := congrArg (·.header) hcore₂
  have hkey := hfill.key
  have hverify : installedVerifyStatus crypto s₂.session.publicKey s₂.dev.mem
      (bootSlots s₂.session.candidate) s₂.session.header = .ok () ↔
      slotVerify crypto s.session.publicKey s.dev.mem (bootSlots s.session.candidate) = .ok () := by
    rw [hkey₂, hcand₂, hheader₂, hmem₂, hkey]
    exact hfilled.installedVerifyStatus_iff haccepted
  refine (quiet_verifyInstalledPackage (hu₁.steady hs₂)).mono (fun _ s₃ h₃ => ?_)
    (fun _ s₃ h₃ => ⟨fun hf => h₃.2 (hverify.mpr hf.verify), ?_⟩) (fun _ h => h)
  swap
  · rw [h₃.1.dev.eq_of_false.1, hmem₂]
  obtain ⟨hs₃, hok⟩ := h₃
  have hmem₃ : s₃.dev.mem = s.dev.mem := hs₃.dev.eq_of_false.1.trans hmem₂
  have hcore₃ : s₃.session.core = s.session.core := hs₃.streams.core.trans hcore₂
  have hfill₃ : Filling publicKey s₃.dev.mem s₃.session := by
    rw [← filling_core, hcore₃, filling_core, hmem₃]
    exact hfill
  have hcommit := (quiet_commitReady ((hu₁.steady hs₂).steady hs₃) hfill₃).and
    commitMetadataState_spec
  have hwriting₃ : s₃.session.writingMetadata = s.session.writingMetadata :=
    congrArg (·.writingMetadata) hcore₃
  have hactive₃ : s₃.session.activeSlotId = s.session.activeSlotId :=
    congrArg (·.activeSlotId) hcore₃
  have hcand₃ : s₃.session.candidate = s.session.candidate := congrArg (·.candidate) hcore₃
  have hheader₃ : s₃.session.header = s.session.header := congrArg (·.header) hcore₃
  rw [hwriting₃, hactive₃, hcand₃, hheader₃] at hcommit
  refine hcommit.mono (fun _ s₄ h₄ => ⟨⟨hhash, hverify.mp hok, h₄.1⟩, ?_⟩)
    (fun _ s₄ h₄ => ⟨fun hf => h₄.1.1 hf.sequence, ?_⟩) (fun _ h => h.1)
  · have hsame := SlotSame.of_meta h₄.2.1.dev s.session.candidate
    rw [hmem₃] at hsame
    exact hsame
  · rw [h₄.1.2, hmem₃]

/-- **When the update can be finished**, and what is in the slot before it is checked. -/
theorem quiet_updateInstallerFinish (h : Content headerBytes s)
    (hfill : Filling publicKey s.dev.mem s.session) (hstate : s.session.state = .payloadComplete)
    (hreceived : s.session.payloadReceived = s.session.header.payloadSize)
    (haccepted : HeaderAccepted crypto publicKey headerBytes (bootSlots s.session.candidate)
      s.session.header) :
    ∃ s₁, flushPayloadProgramBuffer true s = .ret () s₁ ∧ Flushed headerBytes s s₁ ∧
      wp (updateInstallerFinish crypto) s
        (fun _ s' => Finishable crypto s.session.payloadHashCtx s.session s₁.dev.mem ∧
          SlotSame s.session.candidate s₁.dev.mem s'.dev.mem)
        (fun _ s' => ¬ Finishable crypto s.session.payloadHashCtx s.session s₁.dev.mem ∧
          s'.dev.mem = s₁.dev.mem)
        (fun _ => False) := by
  obtain ⟨payload, hpayload⟩ : ∃ payload, payload = s.session.payloadHashCtx := ⟨_, rfl⟩
  have hlength := h.hashed
  have hfits := h.received_le.trans h.prepared.fits
  have hflush := (quiet_finalFlush h hreceived).and
    (steps_flushPayloadProgramBuffer true h.undisturbed.restricted)
  cases hrun : flushPayloadProgramBuffer true s with
  | err e s₁ => exact (hflush.err hrun).1.elim
  | cut s₁ => exact (hflush.cut hrun).1.elim
  | ret u s₁ =>
    obtain ⟨hflushed, hstreams⟩ := hflush.ret hrun
    refine ⟨s₁, rfl, hflushed, ?_⟩
    rw [← hpayload] at hlength ⊢
    have hfilled := hflushed.filled
    rw [← hpayload] at hfilled
    have hcore := hstreams.core
    have hhashed₁ : s₁.session.payloadHashCtx = payload :=
      (congrArg (·.payloadHashCtx) hflushed.intake).trans hpayload.symm
    rw [updateInstallerFinish]
    simp only [wp_bind, wp_getSession, wp_check, wp_failSession]
    refine ⟨fun _ => ⟨fun _ => ?_, fun hn => absurd hstate hn⟩,
      fun hn => absurd hstate (by rw [not_not.mp hn]; decide)⟩
    refine wp_of_ret hrun ?_
    refine ⟨fun _ => ?_, fun hn => absurd hflushed.complete hn⟩
    have hcand₁ : s₁.session.candidate = s.session.candidate := congrArg (·.candidate) hcore
    have hheader₁ : s₁.session.header = s.session.header := congrArg (·.header) hcore
    have hwriting₁ : s₁.session.writingMetadata = s.session.writingMetadata :=
      congrArg (·.writingMetadata) hcore
    have hactive₁ : s₁.session.activeSlotId = s.session.activeSlotId :=
      congrArg (·.activeSlotId) hcore
    have hkey₁ : s₁.session.publicKey = s.session.publicKey := congrArg (·.publicKey) hcore
    have hchecks := quiet_finishChecks hflushed.undisturbed (h.prepared.of_core hcore)
      (by rw [hcand₁]; exact hfilled) hhashed₁ (by rw [hheader₁, hlength, hreceived])
      (by rw [hcand₁, hlength]; exact hfits) (hfill.streams hstreams)
      (by rw [hcand₁, hheader₁]; exact haccepted)
    have hfinishable : Finishable crypto payload s₁.session s₁.dev.mem ↔
        Finishable crypto payload s.session s₁.dev.mem := by
      constructor <;> rintro ⟨hhash, hverify, hseq⟩ <;> refine ⟨?_, ?_, ?_⟩
      · rw [← hheader₁]; exact hhash
      · rw [← hkey₁, ← hcand₁]; exact hverify
      · rw [← hwriting₁]; exact hseq
      · rw [hheader₁]; exact hhash
      · rw [hkey₁, hcand₁]; exact hverify
      · rw [hwriting₁]; exact hseq
    rw [hfinishable, hcand₁, hwriting₁, hactive₁, hheader₁] at hchecks
    simp only [wp_bind] at hchecks
    exact hchecks

end Stm32SecurityLab
