import Stm32SecurityLab.Metadata.Checksum
import Stm32SecurityLab.Protocol.Scanner

/-!
# The frame codec of the host tool

`tools/stm32ctl/protocol.py` writes and reads the same frames as the firmware, with code of its
own: the CRC comes from `binascii`, the fields from `struct`, and the reader looks for the magic
in a window of four bytes and then asks the port for as many bytes as are missing.

A transport is what arrives before the deadline of the call, cut into the pieces in which it
arrives. A read takes what is there, up to the size it asks for. When nothing more arrives the
call waits for its deadline and raises `ProtocolTimeout`.

## Main definitions

* `Host.crc32` — `binascii.crc32`, from a table
* `Host.encodeFrame`, `Host.decodeFrame`, `Host.readFrame`

## Main results

* `Host.crc32_eq` — the table gives the CRC of the firmware
* `Host.decodeFrame_eq_ok_iff` — what `decode_frame` accepts
* `Host.readFrame_spec` — `read_frame` reads what the scanner finds, and no further
-/

namespace Stm32SecurityLab.Host

/-! ### The CRC -/

/-- The table of `binascii.crc32`: the reflected polynomial divided into each byte. -/
def crcTable (byte : UInt8) : UInt32 :=
  ⟨(Crc.step 0xEDB88320#32)^[8] (byte.toBitVec.setWidth 32)⟩

/-- One byte of `binascii.crc32`. -/
def crcTableStep (crc : UInt32) (byte : UInt8) : UInt32 :=
  crcTable (crc ^^^ byte.toUInt32).toUInt8 ^^^ (crc >>> 8)

/-- `crc32`. -/
def crc32 (data : List UInt8) : UInt32 := ~~~ data.foldl crcTableStep 0xFFFFFFFF

/-- The eight steps of the firmware are the lookup in the table. -/
theorem crc32Byte_eq (crc : UInt32) (byte : UInt8) : crc32Byte crc byte = crcTableStep crc byte := by
  have hlow : (crc ^^^ byte.toUInt32).toBitVec &&& 255#32 =
      (crc ^^^ byte.toUInt32).toUInt8.toBitVec.setWidth 32 := by
    ext i hi
    interval_cases i <;> simp
  have hhigh : (crc ^^^ byte.toUInt32).toBitVec >>> 8 = (crc >>> 8).toBitVec := by
    ext i hi
    interval_cases i <;> simp
  apply UInt32.eq_of_toBitVec_eq
  rw [crc32Byte, repeat_crc32Bit_toBitVec, Crc.iterate_step_table, hlow, hhigh]
  rfl

/-- **The table gives the CRC of the firmware.** -/
theorem crc32_eq (data : List UInt8) : crc32 data = updateProtocolCrc32 data := by
  have hstep : crcTableStep = crc32Byte := by
    funext crc byte
    exact (crc32Byte_eq crc byte).symm
  rw [crc32, hstep]
  rfl

/-! ### Encoding and decoding -/

/-- What the calls of the host tool raise. -/
inductive HostError where
  /-- `struct.error`: a field does not fit its format. -/
  | structError
  | sequenceOutOfRange (sequence : ℤ)
  | payloadTooLarge (length : ℕ)
  | frameTruncated
  | frameMagicInvalid
  | framePayloadTooLarge (length : ℕ)
  | frameLengthMismatch
  /-- `CrcError`. -/
  | badCrc (expected actual : UInt32)
  /-- `ProtocolTimeout`. -/
  | timeoutNotPositive
  /-- `ProtocolTimeout`, while there is no byte or no complete frame. -/
  | timedOut
  | responsePayloadTooLarge (length : ℕ)
  | unsupportedResponseVersion (version : UInt8)
  | unexpectedResponseSequence (sequence : UInt16) (expected : ℕ)
  | unexpectedResponseCommand (command : UInt8)
  | responseTruncated
  | responseForOther (command : UInt8)
  /-- `NackError`. -/
  | nack (command : UInt8) (status : UInt16)
  | nonOkStatus (status : UInt16)
  | noResponse
  | infoSize (length : ℕ)
  | statusSize (length : ℕ)
  | unsupportedTargetVersion (version : UInt8)
  | unexpectedHeaderSize (size : UInt16)
  | maxWriteTooLarge (size : UInt16)
  | maxWriteZero
  | packageHeaderSize (size : ℕ)
  | packageSizeMismatch
  | headerDoesNotFit
  | blockSizeNotPositive
  | blockSizeTooLarge (size : ℤ) (maximum : UInt16)
  | packageChanged
  deriving DecidableEq, Repr

/-- `encode_frame`. -/
def encodeFrame (command sequence : ℤ) (payload : List UInt8) : Except HostError (List UInt8) :=
  if ¬ (0 ≤ sequence ∧ sequence ≤ 0xFFFF) then .error (.sequenceOutOfRange sequence)
  else if payload.length > updateProtocolMaxPayloadSize then
    .error (.payloadTooLarge payload.length)
  else if ¬ (0 ≤ command ∧ command ≤ 0xFF) then .error .structError
  else
    let header := protocolMagic ++ [updateProtocolVersion, UInt8.ofNat command.toNat] ++
      storeLe16 (UInt16.ofNat sequence.toNat) ++ storeLe16 (UInt16.ofNat payload.length)
    .ok (header ++ payload ++ storeLe32 (crc32 (header ++ payload)))

/-- `decode_frame`. -/
def decodeFrame (data : List UInt8) : Except HostError Frame :=
  if data.length < updateProtocolHeaderSize + updateProtocolCrcSize then .error .frameTruncated
  else if data.take protocolMagic.length ≠ protocolMagic then .error .frameMagicInvalid
  else
    let payloadLength := (loadLe16 (byteAt data) 8).toNat
    if payloadLength > updateProtocolMaxPayloadSize then
      .error (.framePayloadTooLarge payloadLength)
    else if data.length ≠ updateProtocolHeaderSize + payloadLength + updateProtocolCrcSize then
      .error .frameLengthMismatch
    else
      let expected := loadLe32 (byteAt data) (updateProtocolHeaderSize + payloadLength)
      let actual := crc32 (data.take (updateProtocolHeaderSize + payloadLength))
      if actual ≠ expected then .error (.badCrc expected actual)
      else
        .ok
          { version := byteAt data 4
            command := byteAt data 5
            sequence := loadLe16 (byteAt data) 6
            payload := (data.drop updateProtocolHeaderSize).take payloadLength }

theorem encodeFrame_eq {command : UInt8} {sequence : UInt16} {payload : List UInt8}
    (h : payload.length ≤ updateProtocolMaxPayloadSize) :
    encodeFrame command.toNat sequence.toNat payload =
      .ok (outgoing command sequence payload).encode := by
  have hsequence := sequence.toNat_lt
  have hcommand := command.toNat_lt
  rw [encodeFrame, if_neg (by omega), if_neg (Nat.not_lt.mpr h), if_neg (by omega),
    UpdateProtocolFrame.encode, outgoing_data h, frameCrc_eq, ← crc32_eq]
  simp only [Int.toNat_natCast, UInt8.ofNat_toNat, UInt16.ofNat_toNat]
  rfl

/-- What `decode_frame` makes of a header. -/
theorem decodeFrame_header (frame : UpdateProtocolFrame) (body : List UInt8) :
    decodeFrame (frame.header ++ body) =
      if body.length < updateProtocolCrcSize then .error .frameTruncated
      else if frame.payloadLength.toNat > updateProtocolMaxPayloadSize then
        .error (.framePayloadTooLarge frame.payloadLength.toNat)
      else if body.length ≠ frame.payloadLength.toNat + updateProtocolCrcSize then
        .error .frameLengthMismatch
      else if updateProtocolCrc32 (frame.header ++ body.take frame.payloadLength.toNat) ≠
          loadLe32 (byteAt (body.drop frame.payloadLength.toNat)) 0 then
        .error (.badCrc (loadLe32 (byteAt (body.drop frame.payloadLength.toNat)) 0)
          (updateProtocolCrc32 (frame.header ++ body.take frame.payloadLength.toNat)))
      else
        .ok ⟨frame.version, frame.command, frame.sequence,
          body.take frame.payloadLength.toNat⟩ := by
  have hsequence : loadLe16 (byteAt (frame.header ++ body)) 6 = frame.sequence := by
    have : loadLe16 (byteAt (storeLe16 frame.sequence)) 0 = frame.sequence :=
      loadLe16_of_slice (slice_byteAt _)
    exact this
  have hlength := loadLe16_header frame body
  have hmagic : (frame.header ++ body).take protocolMagic.length = protocolMagic := rfl
  have htake : (frame.header ++ body).take
      (updateProtocolHeaderSize + frame.payloadLength.toNat) =
        frame.header ++ body.take frame.payloadLength.toNat := by
    rw [← header_length frame, List.take_length_add_append]
  have hdrop : (frame.header ++ body).drop updateProtocolHeaderSize = body :=
    List.drop_left' (header_length frame)
  have hcrc : loadLe32 (byteAt (frame.header ++ body))
      (updateProtocolHeaderSize + frame.payloadLength.toNat) =
        loadLe32 (byteAt (body.drop frame.payloadLength.toNat)) 0 := by
    refine loadLe32_congr fun k _ => ?_
    rw [Nat.add_assoc, byteAt_append_right (header_length frame), Nat.zero_add]
    simp [byteAt, List.getD]
  rw [decodeFrame]
  simp only [hlength, hsequence, hmagic, htake, hdrop, hcrc, crc32_eq, List.length_append,
    header_length, ne_eq, not_true_eq_false, if_false, Nat.add_lt_add_iff_left, Nat.add_assoc,
    Nat.add_left_cancel_iff]
  rfl

/-- A frame that is all there is decoded, or has a wrong CRC. -/
theorem decodeFrame_complete {frame : UpdateProtocolFrame} {body : List UInt8}
    (hshort : frame.payloadLength.toNat ≤ updateProtocolMaxPayloadSize)
    (hlength : body.length = frame.payloadLength.toNat + updateProtocolCrcSize)
    (rest : List UInt8) :
    (∃ contents, decodeFrame (frame.header ++ body) = .ok contents ∧
        nextResult (frame.header ++ (body ++ rest)) = some (.frameReady contents, rest)) ∨
      ∃ expected actual, decodeFrame (frame.header ++ body) = .error (.badCrc expected actual) ∧
        nextResult (frame.header ++ (body ++ rest)) = some (.errCrc, rest) := by
  have hcrcSize : ¬ body.length < updateProtocolCrcSize := by omega
  have hmissing : ¬ (body ++ rest).length < frame.payloadLength.toNat + updateProtocolCrcSize := by
    rw [List.length_append]
    omega
  have hrest : (body ++ rest).drop (frame.payloadLength.toNat + updateProtocolCrcSize) = rest :=
    List.drop_left' hlength
  have htake : (body ++ rest).take frame.payloadLength.toNat =
      body.take frame.payloadLength.toNat := List.take_append_of_le_length (by omega)
  have hword : loadLe32 (byteAt ((body ++ rest).drop frame.payloadLength.toNat)) 0 =
      loadLe32 (byteAt (body.drop frame.payloadLength.toNat)) 0 := by
    rw [List.drop_append_of_le_length (by omega)]
    refine loadLe32_congr fun k hk => byteAt_append_left ?_
    rw [List.length_drop, hlength, updateProtocolCrcSize]
    omega
  have hdecode := decodeFrame_header frame body
  have hnext := nextResult_header frame (body ++ rest)
  rw [if_neg hcrcSize, if_neg (Nat.not_lt.mpr hshort), if_neg (not_not_intro hlength)] at hdecode
  rw [if_neg (Nat.not_lt.mpr hshort), if_neg hmissing, hrest, htake, hword] at hnext
  by_cases hcrc : updateProtocolCrc32 (frame.header ++ body.take frame.payloadLength.toNat) =
      loadLe32 (byteAt (body.drop frame.payloadLength.toNat)) 0
  · rw [if_neg (not_not_intro hcrc)] at hdecode
    rw [if_pos hcrc] at hnext
    exact .inl ⟨_, hdecode, hnext⟩
  · rw [if_pos hcrc] at hdecode
    rw [if_neg hcrc] at hnext
    exact .inr ⟨_, _, hdecode, hnext⟩

/-- **What `decode_frame` accepts**: a frame from the first byte to the last. -/
theorem decodeFrame_eq_ok_iff (data : List UInt8) (contents : Frame) :
    decodeFrame data = .ok contents ↔
      protocolMagic <+: data ∧ nextResult data = some (.frameReady contents, []) := by
  by_cases hmagic : protocolMagic <+: data
  · by_cases hlength : updateProtocolHeaderSize ≤ data.length
    · obtain ⟨frame, body, rfl⟩ := exists_header hlength hmagic
      by_cases hshort : frame.payloadLength.toNat ≤ updateProtocolMaxPayloadSize
      · by_cases hbody : body.length = frame.payloadLength.toNat + updateProtocolCrcSize
        · have hcomplete := decodeFrame_complete hshort hbody []
          rw [List.append_nil] at hcomplete
          rcases hcomplete with ⟨c, hok, hnext⟩ | ⟨e, a, herr, hnext⟩
          · rw [hok, hnext]
            simp [hmagic]
          · rw [herr, hnext]
            simp
        · -- too short for the scanner, or with bytes left over
          have hno : decodeFrame (frame.header ++ body) ≠ .ok contents := by
            rw [decodeFrame_header, if_neg (Nat.not_lt.mpr hshort), if_pos hbody]
            split <;> simp
          refine ⟨fun h => absurd h hno, ?_⟩
          rintro ⟨-, hnext⟩
          rw [nextResult_header, if_neg (Nat.not_lt.mpr hshort)] at hnext
          split_ifs at hnext with hmissing hcrc
          · simp only [Option.some.injEq, Prod.mk.injEq, List.drop_eq_nil_iff] at hnext
            omega
          · simp at hnext
      · rw [decodeFrame_header, nextResult_header, if_pos (Nat.not_le.mp hshort),
          if_pos (Nat.not_le.mp hshort)]
        split <;> simp
    · have hno : decodeFrame data = .error .frameTruncated := by
        rw [decodeFrame, if_pos (by omega)]
      rw [hno]
      refine ⟨fun h => (by cases h), ?_⟩
      rintro ⟨-, hnext⟩
      obtain ⟨rest, rfl⟩ := hmagic
      rw [nextResult, skipToMagic_magic, Option.bind_some] at hnext
      have hrest : rest.length < 6 := by
        simp only [List.length_append, protocolMagic, updateProtocolHeaderSize, List.length_cons,
          List.length_nil] at hlength
        omega
      rw [scanFrame.eq_def] at hnext
      split at hnext
      · simp only [List.length_cons] at hrest
        omega
      · cases hnext
  · have hno : data.take protocolMagic.length ≠ protocolMagic := fun h =>
      hmagic (List.prefix_iff_eq_take.mpr h.symm)
    rw [decodeFrame, if_pos hno]
    simp only [hmagic, false_and, iff_false]
    split <;> simp

/-! ### Reading -/

/-- What arrives before the deadline of a call: the bytes that are there, and the pieces that come
in before each of the next reads. -/
structure Transport where
  buffer : List UInt8 := []
  arrivals : List (List UInt8) := []

namespace Transport

/-- All bytes that arrive. -/
def stream (transport : Transport) : List UInt8 := transport.buffer ++ transport.arrivals.flatten

/-- `transport.read(size)`. -/
def read (transport : Transport) (size : ℕ) : List UInt8 × Transport :=
  match transport.arrivals with
  | [] => (transport.buffer.take size, ⟨transport.buffer.drop size, []⟩)
  | arrived :: arrivals =>
    ((transport.buffer ++ arrived).take size, ⟨(transport.buffer ++ arrived).drop size, arrivals⟩)

variable {transport : Transport} {size : ℕ}

/-- A read takes bytes off the front. -/
theorem read_stream (transport : Transport) (size : ℕ) :
    (transport.read size).1 ++ (transport.read size).2.stream = transport.stream := by
  rw [read, stream]
  split
  · rename_i h
    simp [stream, h]
  · rename_i h
    simp [stream, h, ← List.append_assoc]

theorem read_length_le (transport : Transport) (size : ℕ) :
    (transport.read size).1.length ≤ size := by
  rw [read]
  split <;> exact List.length_take_le ..

/-- A read that waits in vain leaves fewer pieces to come. -/
theorem read_arrivals (transport : Transport) (size : ℕ) :
    (transport.read size).2.arrivals.length = transport.arrivals.length - 1 := by
  rw [read]
  split <;> rename_i h <;> simp [h]

/-- A read with nothing to come is empty only when there is nothing at all. -/
theorem stream_of_read_nil (hread : (transport.read size).1 = []) (hsize : 0 < size)
    (harrivals : transport.arrivals = []) : transport.stream = [] := by
  rw [read, harrivals] at hread
  have hbuffer : transport.buffer = [] := by
    rcases hb : transport.buffer with _ | ⟨byte, rest⟩
    · rfl
    · rw [hb] at hread
      obtain ⟨n, rfl⟩ := Nat.exists_eq_succ_of_ne_zero hsize.ne'
      simp at hread
  rw [stream, hbuffer, harrivals]
  rfl

end Transport

open Transport

/-- `_read_one`. -/
def readOne (transport : Transport) : Except HostError UInt8 × Transport :=
  match (transport.read 1).1 with
  | byte :: _ => (.ok byte, (transport.read 1).2)
  | [] =>
    if _h : transport.arrivals = [] then (.error .timedOut, (transport.read 1).2)
    else readOne (transport.read 1).2
termination_by transport.arrivals.length
decreasing_by
  rw [read_arrivals]
  have := List.length_pos_iff.mpr _h
  omega

/-- `_read_exact`, with the chunks it already has. -/
def readExact (transport : Transport) (length : ℕ) (chunks : List UInt8) :
    Except HostError (List UInt8) × Transport :=
  if _hmore : chunks.length < length then
    if _h : transport.arrivals = [] ∧ (transport.read (length - chunks.length)).1 = [] then
      (.error .timedOut, (transport.read (length - chunks.length)).2)
    else
      readExact (transport.read (length - chunks.length)).2 length
        (chunks ++ (transport.read (length - chunks.length)).1)
  else
    (.ok chunks, transport)
termination_by (transport.arrivals.length, length - chunks.length)
decreasing_by
  rw [read_arrivals]
  by_cases harrivals : transport.arrivals = []
  · have hread : (transport.read (length - chunks.length)).1 ≠ [] := fun h => _h ⟨harrivals, h⟩
    have := List.length_pos_iff.mpr hread
    rw [harrivals, List.length_append]
    exact Prod.Lex.right _ (by omega)
  · have := List.length_pos_iff.mpr harrivals
    exact Prod.Lex.left _ _ (by omega)

/-- One byte is read if one arrives. -/
theorem readOne_spec (transport : Transport) :
    (transport.stream = [] → ∃ transport', readOne transport = (.error .timedOut, transport') ∧
        transport'.stream = []) ∧
      ∀ byte rest, transport.stream = byte :: rest →
        ∃ transport', readOne transport = (.ok byte, transport') ∧ transport'.stream = rest := by
  induction transport using readOne.induct with
  | case1 transport byte rest hread =>
    have hstream := read_stream transport 1
    have hlength := read_length_le transport 1
    rw [hread] at hstream hlength
    obtain rfl : rest = [] := by simpa using hlength
    rw [readOne, hread, ← hstream]
    refine ⟨fun h => by simp at h, ?_⟩
    intro byte' rest' h
    obtain ⟨rfl, rfl⟩ : byte = byte' ∧ (transport.read 1).2.stream = rest' := by simpa using h
    exact ⟨_, rfl, rfl⟩
  | case2 transport hread harrivals =>
    have hempty := stream_of_read_nil hread Nat.one_pos harrivals
    have hstream := read_stream transport 1
    rw [hread, hempty, List.nil_append] at hstream
    rw [readOne, hread, hempty]
    simp only [harrivals, dite_true]
    exact ⟨fun _ => ⟨_, rfl, hstream⟩, fun _ _ h => by cases h⟩
  | case3 transport hread harrivals ih =>
    have hstream := read_stream transport 1
    rw [hread, List.nil_append] at hstream
    rw [readOne, hread, ← hstream]
    simp only [harrivals, dite_false]
    exact ih

/-- As many bytes are read as are asked for, if they arrive. -/
theorem readExact_spec (transport : Transport) (length : ℕ) (chunks : List UInt8) :
    (chunks.length + transport.stream.length < length →
        ∃ transport', readExact transport length chunks = (.error .timedOut, transport')) ∧
      ∀ piece rest, chunks.length + piece.length = length → transport.stream = piece ++ rest →
        ∃ transport', readExact transport length chunks = (.ok (chunks ++ piece), transport') ∧
          transport'.stream = rest := by
  induction transport, chunks using readExact.induct length with
  | case1 transport chunks hmore hnothing =>
    have hempty := stream_of_read_nil hnothing.2 (by omega) hnothing.1
    rw [readExact, dif_pos hmore, dif_pos hnothing]
    refine ⟨fun _ => ⟨_, rfl⟩, ?_⟩
    intro piece rest hlength hstream
    rw [hempty] at hstream
    have hpiece : piece = [] := (List.append_eq_nil_iff.mp hstream.symm).1
    rw [hpiece, List.length_nil] at hlength
    omega
  | case2 transport chunks hmore hsome ih =>
    have hstream := read_stream transport (length - chunks.length)
    have hshort := read_length_le transport (length - chunks.length)
    rw [readExact, dif_pos hmore, dif_neg hsome]
    revert ih hstream hshort
    generalize transport.read (length - chunks.length) = out
    intro ih hstream hshort
    rw [← hstream]
    refine ⟨fun hless => ih.1 ?_, ?_⟩
    · rw [List.length_append] at hless ⊢
      omega
    · intro piece rest hlength hsplit
      -- the chunk that was read is the start of the piece
      have hprefix : out.1 <+: piece := by
        refine List.prefix_of_prefix_length_le ⟨_, rfl⟩ ⟨rest, hsplit.symm⟩ ?_
        omega
      obtain ⟨more, rfl⟩ := hprefix
      rw [List.append_assoc, List.append_cancel_left_eq] at hsplit
      rw [← List.append_assoc]
      refine ih.2 more rest ?_ hsplit
      rw [List.length_append] at hlength ⊢
      omega
  | case3 transport chunks hdone =>
    rw [readExact, dif_neg hdone]
    refine ⟨fun h => by omega, ?_⟩
    intro piece rest hlength hstream
    obtain rfl : piece = [] := List.length_eq_zero_iff.mp (by omega)
    exact ⟨transport, by rw [List.append_nil], by simpa using hstream⟩

theorem readOne_length_lt {transport transport' : Transport} {byte : UInt8}
    (h : readOne transport = (.ok byte, transport')) :
    transport'.stream.length < transport.stream.length := by
  rcases hstream : transport.stream with _ | ⟨first, rest⟩
  · obtain ⟨_, hread, -⟩ := (readOne_spec transport).1 hstream
    rw [hread] at h
    cases h
  · obtain ⟨_, hread, hrest⟩ := (readOne_spec transport).2 first rest hstream
    rw [hread] at h
    obtain ⟨-, rfl⟩ := Prod.mk.inj h
    rw [hrest]
    exact Nat.lt_succ_self _

/-- The window of `read_frame`: the last bytes it has seen, as many as the magic has. -/
def slide (sync : List UInt8) (byte : UInt8) : List UInt8 :=
  if (sync ++ [byte]).length > protocolMagic.length then
    (sync ++ [byte]).drop ((sync ++ [byte]).length - protocolMagic.length)
  else
    sync ++ [byte]

/-- The loop of `read_frame` that waits for the magic. -/
def syncMagic (transport : Transport) (sync : List UInt8) : Except HostError Unit × Transport :=
  match _h : readOne transport with
  | (.error error, transport) => (.error error, transport)
  | (.ok byte, transport) =>
    if slide sync byte = protocolMagic then (.ok (), transport)
    else syncMagic transport (slide sync byte)
termination_by transport.stream.length
decreasing_by exact readOne_length_lt _h

/-- The end of `read_frame`, behind the header. -/
def readBody (transport : Transport) (header : List UInt8) : Except HostError Frame × Transport :=
  let payloadLength := (loadLe16 (byteAt header) 8).toNat
  if payloadLength > updateProtocolMaxPayloadSize then
    (.error (.responsePayloadTooLarge payloadLength), transport)
  else
    match readExact transport (payloadLength + updateProtocolCrcSize) [] with
    | (.error error, transport) => (.error error, transport)
    | (.ok payloadAndCrc, transport) => (decodeFrame (header ++ payloadAndCrc), transport)

/-- `read_frame`. -/
def readFrame (transport : Transport) (timeout : ℚ) : Except HostError Frame × Transport :=
  if timeout ≤ 0 then (.error .timeoutNotPositive, transport)
  else
    match syncMagic transport [] with
    | (.error error, transport) => (.error error, transport)
    | (.ok (), transport) =>
      match readExact transport (updateProtocolHeaderSize - protocolMagic.length) [] with
      | (.error error, transport) => (.error error, transport)
      | (.ok rest, transport) => readBody transport (protocolMagic ++ rest)

theorem slide_length {sync : List UInt8} (byte : UInt8)
    (h : sync.length ≤ protocolMagic.length) : (slide sync byte).length ≤ protocolMagic.length := by
  rw [slide]
  split
  · rw [List.length_drop]
    omega
  · omega

/-- A byte that falls out of the window is not needed any more. -/
theorem skipToMagic_slide {sync : List UInt8} (hlength : sync.length ≤ protocolMagic.length)
    (hsync : sync ≠ protocolMagic) (byte : UInt8) (rest : List UInt8) :
    skipToMagic (sync ++ byte :: rest) = skipToMagic (slide sync byte ++ rest) := by
  by_cases hfull : sync.length = protocolMagic.length
  · rcases sync with _ | ⟨first, sync⟩
    · cases hfull
    · have hslide : slide (first :: sync) byte = sync ++ [byte] := by
        have hlong : (first :: sync ++ [byte]).length = protocolMagic.length + 1 := by
          rw [List.length_append, hfull]
          rfl
        rw [slide, hlong, if_pos (Nat.lt_succ_self _), Nat.add_sub_cancel_left]
        rfl
      rw [hslide, List.append_assoc, List.cons_append, skipToMagic_cons]
      · rfl
      · intro hpre
        have heq : protocolMagic <+: first :: sync :=
          List.prefix_of_prefix_length_le hpre ⟨byte :: rest, rfl⟩ hfull.ge
        exact hsync (heq.eq_of_length hfull.symm).symm
  · have hslide : slide sync byte = sync ++ [byte] := by
      rw [slide, if_neg]
      rw [List.length_append, List.length_singleton]
      omega
    rw [hslide, List.append_assoc]
    rfl

/-- A window that is not the magic has none in it. -/
theorem skipToMagic_window {sync : List UInt8} (hlength : sync.length ≤ protocolMagic.length)
    (hsync : sync ≠ protocolMagic) : skipToMagic sync = none := by
  have hno : ∀ bytes : List UInt8, bytes.length < protocolMagic.length →
      skipToMagic bytes = none := by
    intro bytes hshort
    induction bytes with
    | nil => rfl
    | cons byte bytes ih =>
      rw [skipToMagic_cons fun hpre => by have := hpre.length_le; omega]
      exact ih (Nat.lt_of_succ_lt hshort)
  rcases sync with _ | ⟨byte, sync⟩
  · rfl
  · rw [skipToMagic_cons]
    · exact hno sync (Nat.lt_of_succ_le hlength)
    · intro hpre
      exact hsync (hpre.eq_of_length_le hlength).symm

/-- **The window finds the leftmost magic.** -/
theorem syncMagic_spec (transport : Transport) (sync : List UInt8)
    (hlength : sync.length ≤ protocolMagic.length) (hsync : sync ≠ protocolMagic) :
    (skipToMagic (sync ++ transport.stream) = none →
        ∃ transport', syncMagic transport sync = (.error .timedOut, transport')) ∧
      ∀ rest, skipToMagic (sync ++ transport.stream) = some rest →
        ∃ transport', syncMagic transport sync = (.ok (), transport') ∧
          transport'.stream = rest := by
  induction hstream : transport.stream generalizing transport sync with
  | nil =>
    obtain ⟨transport', hread, -⟩ := (readOne_spec transport).1 hstream
    have hloop : syncMagic transport sync = (.error .timedOut, transport') := by
      rw [syncMagic]
      split
      · rename_i h
        rw [hread] at h
        obtain ⟨h₁, rfl⟩ := Prod.mk.inj h
        rw [Except.error.inj h₁]
      · rename_i h
        rw [hread] at h
        cases h
    rw [List.append_nil, skipToMagic_window hlength hsync]
    exact ⟨fun _ => ⟨transport', hloop⟩, fun _ h => by cases h⟩
  | cons byte bytes ih =>
    obtain ⟨transport', hread, hrest⟩ := (readOne_spec transport).2 byte bytes hstream
    have hloop : syncMagic transport sync =
        if slide sync byte = protocolMagic then (.ok (), transport')
        else syncMagic transport' (slide sync byte) := by
      rw [syncMagic]
      split
      · rename_i h
        rw [hread] at h
        cases h
      · rename_i h
        rw [hread] at h
        obtain ⟨h₁, rfl⟩ := Prod.mk.inj h
        rw [Except.ok.inj h₁]
    rw [skipToMagic_slide hlength hsync, hloop]
    by_cases hmagic : slide sync byte = protocolMagic
    · rw [if_pos hmagic, hmagic, skipToMagic_magic]
      refine ⟨fun h => (by cases h), ?_⟩
      intro rest h
      obtain rfl := Option.some.inj h
      exact ⟨transport', rfl, hrest⟩
    · rw [if_neg hmagic]
      exact ih transport' (slide sync byte) (slide_length byte hlength) hmagic hrest

/-- What a call returns or raises for each result of a parser. -/
def Answers : ParseResult → Except HostError Frame → Prop
  | .frameReady contents, out => out = .ok contents
  | .errOversize, out => ∃ length, out = .error (.responsePayloadTooLarge length)
  | .errCrc, out => ∃ expected actual, out = .error (.badCrc expected actual)

/-- The scanner finds nothing in the stream and the call times out, or it finds a result and the
call answers it and has read no further. -/
def Reads (stream : List UInt8) (call : Except HostError Frame × Transport) : Prop :=
  match nextResult stream with
  | none => call.1 = .error .timedOut
  | some (result, rest) => Answers result call.1 ∧ call.2.stream = rest

/-- Reading on behind a header. -/
theorem reads_readBody {transport : Transport} {body : List UInt8} (frame : UpdateProtocolFrame)
    (hbody : transport.stream = body) :
    Reads (frame.header ++ body) (readBody transport frame.header) := by
  have hlength : loadLe16 (byteAt frame.header) 8 = frame.payloadLength := by
    rw [← List.append_nil frame.header]
    exact loadLe16_header frame []
  have hread := readExact_spec transport (frame.payloadLength.toNat + updateProtocolCrcSize) []
  rw [hbody, List.length_nil, Nat.zero_add] at hread
  rw [Reads, readBody]
  simp only [hlength]
  by_cases hlong : frame.payloadLength.toNat > updateProtocolMaxPayloadSize
  · rw [if_pos hlong, nextResult_header, if_pos hlong]
    exact ⟨⟨_, rfl⟩, hbody⟩
  · have hshort := Nat.not_lt.mp hlong
    rw [if_neg hlong]
    by_cases hmissing : body.length < frame.payloadLength.toNat + updateProtocolCrcSize
    · obtain ⟨transport', hread'⟩ := hread.1 hmissing
      rw [hread', nextResult_header, if_neg hlong, if_pos hmissing]
    · obtain ⟨block, rest, hblock, rfl⟩ : ∃ block rest,
          block.length = frame.payloadLength.toNat + updateProtocolCrcSize ∧
            body = block ++ rest :=
        ⟨_, _, List.length_take_of_le (Nat.not_lt.mp hmissing), (List.take_append_drop ..).symm⟩
      obtain ⟨transport', hread', hrest⟩ := hread.2 block rest (by rw [Nat.zero_add, hblock]) rfl
      rw [hread', List.nil_append]
      rcases decodeFrame_complete hshort hblock rest with
        ⟨contents, hdecode, hnext⟩ | ⟨expected, actual, hdecode, hnext⟩
      · rw [hnext]
        exact ⟨hdecode, hrest⟩
      · rw [hnext]
        exact ⟨⟨_, _, hdecode⟩, hrest⟩

/-- A header that has not arrived is nothing to the scanner. -/
theorem nextResult_magic_short {after : List UInt8}
    (h : after.length < updateProtocolHeaderSize - protocolMagic.length) :
    nextResult (protocolMagic ++ after) = none := by
  rw [nextResult, skipToMagic_magic, Option.bind_some, scanFrame.eq_def]
  split
  · simp only [List.length_cons, updateProtocolHeaderSize, protocolMagic, List.length_nil] at h
    omega
  · rfl

/-- **`read_frame` reads what the scanner finds, and no further.** -/
theorem readFrame_spec (transport : Transport) {timeout : ℚ} (htimeout : 0 < timeout) :
    Reads transport.stream (readFrame transport timeout) := by
  have hsync := syncMagic_spec transport [] (Nat.zero_le _) (by decide)
  rw [List.nil_append] at hsync
  rw [readFrame, if_neg (not_le.mpr htimeout)]
  rcases hskip : skipToMagic transport.stream with _ | after
  · obtain ⟨transport', hloop⟩ := hsync.1 hskip
    rw [hloop, Reads, nextResult, hskip]
    rfl
  · obtain ⟨transport₁, hloop, rfl⟩ := hsync.2 after hskip
    have hnext : nextResult transport.stream =
        nextResult (protocolMagic ++ transport₁.stream) := by
      rw [nextResult, hskip, nextResult, skipToMagic_magic]
    have hread := readExact_spec transport₁ (updateProtocolHeaderSize - protocolMagic.length) []
    rw [List.length_nil, Nat.zero_add] at hread
    rw [hloop, Reads, hnext, ← Reads]
    dsimp only
    by_cases hlength :
        transport₁.stream.length < updateProtocolHeaderSize - protocolMagic.length
    · obtain ⟨transport₂, hread'⟩ := hread.1 hlength
      rw [hread', Reads, nextResult_magic_short hlength]
    · obtain ⟨rest, body, hrest, hsplit⟩ : ∃ rest body,
          rest.length = updateProtocolHeaderSize - protocolMagic.length ∧
            transport₁.stream = rest ++ body :=
        ⟨_, _, List.length_take_of_le (Nat.not_lt.mp hlength), (List.take_append_drop ..).symm⟩
      obtain ⟨transport₂, hread', hbody⟩ := hread.2 rest body (by rw [Nat.zero_add, hrest]) hsplit
      obtain ⟨frame, more, hheader⟩ := @exists_header (protocolMagic ++ rest)
        (by rw [List.length_append, hrest]; decide) ⟨_, rfl⟩
      -- the ten bytes are the header, so nothing is left over
      obtain rfl : more = [] := by
        have hsize := congrArg List.length hheader
        rw [List.length_append, hrest, List.length_append, header_length] at hsize
        exact List.length_eq_zero_iff.mp (Nat.add_left_cancel (hsize.symm.trans rfl))
      rw [List.append_nil] at hheader
      rw [hread', hsplit, List.nil_append, ← List.append_assoc, hheader]
      dsimp only
      rw [hheader]
      exact reads_readBody frame hbody

/-! ### The two codecs -/

/-- **The codecs of host and firmware agree.** The host encodes a frame as the firmware does; it
decodes a byte string exactly when that begins with the magic and the parser of the firmware
delivers the same frame at its last byte and nothing before; and it reads from a stream what that
parser reports first, and consumes the same bytes. -/
theorem codecs_agree :
    (∀ (command : UInt8) (sequence : UInt16) (payload : List UInt8) (outputCapacity : ℕ),
      payload.length ≤ updateProtocolMaxPayloadSize →
      updateProtocolHeaderSize + payload.length + updateProtocolCrcSize ≤ outputCapacity →
      ∃ bytes, encodeFrame command.toNat sequence.toNat payload = .ok bytes ∧
        updateProtocolEncodeFrame command sequence (byteAt payload)
          (UInt16.ofNat payload.length) outputCapacity = .ok bytes) ∧
    (∀ (data : List UInt8) (contents : Frame),
      decodeFrame data = .ok contents ↔
        protocolMagic <+: data ∧ firstResult {} data = some (.frameReady contents, [])) ∧
    ∀ (transport : Transport) (timeout : ℚ), 0 < timeout →
      (∀ contents, (readFrame transport timeout).1 = .ok contents ↔
        ∃ rest, firstResult {} transport.stream = some (.frameReady contents, rest)) ∧
      ((∃ expected actual, (readFrame transport timeout).1 = .error (.badCrc expected actual)) ↔
        ∃ rest, firstResult {} transport.stream = some (.errCrc, rest)) ∧
      ((∃ length, (readFrame transport timeout).1 = .error (.responsePayloadTooLarge length)) ↔
        ∃ rest, firstResult {} transport.stream = some (.errOversize, rest)) ∧
      ∀ result rest, firstResult {} transport.stream = some (result, rest) →
        (readFrame transport timeout).2.stream = rest := by
  have hfirst : ∀ bytes, firstResult {} bytes = nextResult bytes := fun bytes =>
    firstResult_eq_nextResult UpdateProtocolParser.wellFormed_init bytes
  refine ⟨?_, ?_, ?_⟩
  · intro command sequence payload outputCapacity hpayload hcapacity
    have hlength : (outgoing command sequence payload).payloadLength.toNat = payload.length :=
      outgoing_length hpayload
    refine ⟨_, encodeFrame_eq hpayload, updateProtocolEncodeFrame_eq ?_ ?_⟩
    · exact hlength.trans_le hpayload
    · rw [show (UInt16.ofNat payload.length).toNat = payload.length from hlength]
      exact hcapacity
  · intro data contents
    rw [decodeFrame_eq_ok_iff, hfirst]
  · intro transport timeout htimeout
    have hreads := readFrame_spec transport htimeout
    rw [hfirst]
    generalize readFrame transport timeout = call at hreads ⊢
    obtain ⟨out, transport'⟩ := call
    rw [Reads] at hreads
    rcases hnext : nextResult transport.stream with _ | ⟨result, rest⟩ <;> rw [hnext] at hreads
    · obtain rfl : out = .error .timedOut := hreads
      simp
    · obtain ⟨hanswers, hrest⟩ := hreads
      cases result with
      | frameReady contents =>
        obtain rfl : out = .ok contents := hanswers
        simp [hrest, eq_comm]
      | errOversize =>
        obtain ⟨length, rfl⟩ : ∃ length, out = .error (.responsePayloadTooLarge length) := hanswers
        simp [hrest]
      | errCrc =>
        obtain ⟨expected, actual, rfl⟩ : ∃ expected actual,
          out = .error (.badCrc expected actual) := hanswers
        simp [hrest]

/-- A frame with a byte of noise before it: the parser of the firmware delivers the frame at the
last byte, and `decode_frame` refuses the string. -/
theorem decodeFrame_noise :
    firstResult {} (0 :: (outgoing 1 0 []).encode) =
        some (.frameReady ⟨updateProtocolVersion, 1, 0, []⟩, []) ∧
      decodeFrame (0 :: (outgoing 1 0 []).encode) = .error .frameMagicInvalid := by
  refine ⟨?_, ?_⟩
  · have hfound : nextResult ([0] ++ (outgoing 1 0 []).encode ++ []) =
        some (.frameReady ⟨updateProtocolVersion, 1, 0, []⟩, []) :=
      nextResult_noise_encode (by decide) (by decide) []
    rw [List.append_nil] at hfound
    rw [firstResult_eq_nextResult UpdateProtocolParser.wellFormed_init]
    exact hfound
  · rfl

end Stm32SecurityLab.Host
