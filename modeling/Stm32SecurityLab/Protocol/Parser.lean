import Stm32SecurityLab.Metadata.Record

/-!
# Frames on the wire

The frames of `update_protocol.c` and the parser that finds them in a byte stream. A frame is

```
magic "SUPD" | version | command | sequence | payload length | payload | CRC-32
```

with little-endian fields, and the parser is a state machine that takes one byte at a time and
resynchronises on the magic.

The parser keeps the bytes of the frame it is in the middle of, and nothing else about the stream.
So whatever noise went before, a frame that it delivers was in the stream byte by byte, with a CRC
that is right.

`header_decoded` is written by the code and read by nothing, and is left out. The two ways to get
`PARSE_ERR_INVALID_ARGUMENT` are a null pointer and a state number that does not exist.

## Main definitions

* `UpdateProtocolFrame`, `UpdateProtocolFrame.encode`
* `UpdateProtocolParser`, `updateProtocolParserPush`
* `UpdateProtocolParser.held` — the bytes of the frame the parser is in the middle of
* `Pushed` — everything that one byte can do to a parser
* `Carries` — a stream that contains a sequence of frames, one after the other

## Main results

* `updateProtocolParserPush_pushed` — one byte does one of the things `Pushed` lists
* `Tracks.push` — every frame the parser delivers was in the stream
-/

namespace Stm32SecurityLab

/-! ### Frames -/

/-- `UPDATE_PROTOCOL_HEADER_SIZE`. -/
def updateProtocolHeaderSize : ℕ := 10

/-- `UPDATE_PROTOCOL_CRC_SIZE`. -/
def updateProtocolCrcSize : ℕ := 4

/-- `UPDATE_PROTOCOL_MAX_PAYLOAD_SIZE`. -/
def updateProtocolMaxPayloadSize : ℕ := 1024

/-- `UPDATE_PROTOCOL_MAX_FRAME_SIZE`. -/
def updateProtocolMaxFrameSize : ℕ :=
  updateProtocolHeaderSize + updateProtocolMaxPayloadSize + updateProtocolCrcSize

/-- `UPDATE_PROTOCOL_VERSION`. -/
def updateProtocolVersion : UInt8 := 1

/-- `protocol_magic`. -/
def protocolMagic : List UInt8 := [0x53, 0x55, 0x50, 0x44]

/-- `update_protocol_status_t`. -/
inductive UpdateProtocolStatus where
  | ok
  | parserError
  | stateError
  | flashError
  | verifyError
  | rollbackError
  | crcError
  | versionError
  | lengthError
  | oversizeError
  | sequenceError
  | unknownCommand
  | timeout
  | ioError
  | invalidArgument
  | installerError
  deriving DecidableEq, Repr

/-- The number of a status on the wire. -/
def UpdateProtocolStatus.toUInt16 : UpdateProtocolStatus → UInt16
  | .ok => 0
  | .parserError => 1
  | .stateError => 2
  | .flashError => 3
  | .verifyError => 4
  | .rollbackError => 5
  | .crcError => 6
  | .versionError => 7
  | .lengthError => 8
  | .oversizeError => 9
  | .sequenceError => 10
  | .unknownCommand => 11
  | .timeout => 12
  | .ioError => 13
  | .invalidArgument => 14
  | .installerError => 15

/-- `update_protocol_frame_t`. -/
structure UpdateProtocolFrame where
  version : UInt8 := 0
  command : UInt8 := 0
  sequence : UInt16 := 0
  payloadLength : UInt16 := 0
  payload : Mem := fun _ => 0

/-- `update_protocol_crc32_update`; the body is that of `crc32_update`. -/
def updateProtocolCrc32Update (crc : UInt32) (data : List UInt8) : UInt32 := crc32Update crc data

/-- The ten bytes of a frame header. -/
def frameHeader (version command : UInt8) (sequence payloadLength : UInt16) : List UInt8 :=
  protocolMagic ++ [version, command] ++ storeLe16 sequence ++ storeLe16 payloadLength

/-- The CRC of a frame. -/
def frameCrc (header payload : List UInt8) : UInt32 :=
  updateProtocolCrc32Update (updateProtocolCrc32Update 0 header) payload

namespace UpdateProtocolFrame

/-- The payload of a frame. -/
def data (frame : UpdateProtocolFrame) : List UInt8 :=
  slice frame.payload 0 frame.payloadLength.toNat

/-- The header of a frame. -/
def header (frame : UpdateProtocolFrame) : List UInt8 :=
  frameHeader frame.version frame.command frame.sequence frame.payloadLength

/-- The bytes of a frame on the wire. -/
def encode (frame : UpdateProtocolFrame) : List UInt8 :=
  frame.header ++ frame.data ++ storeLe32 (frameCrc frame.header frame.data)

@[simp] theorem data_length (frame : UpdateProtocolFrame) :
    frame.data.length = frame.payloadLength.toNat := slice_length ..

end UpdateProtocolFrame

/-- `build_header`: the header and the CRC. -/
def buildHeader (command : UInt8) (sequence : UInt16) (payload : Mem) (payloadLength : UInt16) :
    Except UpdateProtocolStatus (List UInt8 × UInt32) :=
  if payloadLength.toNat > updateProtocolMaxPayloadSize then .error .invalidArgument
  else
    let header := frameHeader updateProtocolVersion command sequence payloadLength
    .ok (header, frameCrc header (slice payload 0 payloadLength.toNat))

/-- `update_protocol_encode_frame`. -/
def updateProtocolEncodeFrame (command : UInt8) (sequence : UInt16) (payload : Mem)
    (payloadLength : UInt16) (outputCapacity : ℕ) : Except UpdateProtocolStatus (List UInt8) :=
  if outputCapacity < updateProtocolHeaderSize + payloadLength.toNat + updateProtocolCrcSize then
    .error .invalidArgument
  else do
    let (header, crc) ← buildHeader command sequence payload payloadLength
    .ok (header ++ slice payload 0 payloadLength.toNat ++ storeLe32 crc)

/-- A frame that fits its buffer is encoded as it stands on the wire. -/
theorem updateProtocolEncodeFrame_eq {command : UInt8} {sequence : UInt16} {payload : Mem}
    {payloadLength : UInt16} {outputCapacity : ℕ}
    (hlength : payloadLength.toNat ≤ updateProtocolMaxPayloadSize)
    (hcapacity : updateProtocolHeaderSize + payloadLength.toNat + updateProtocolCrcSize ≤
      outputCapacity) :
    updateProtocolEncodeFrame command sequence payload payloadLength outputCapacity =
      .ok (UpdateProtocolFrame.encode
        { version := updateProtocolVersion, command := command, sequence := sequence,
          payloadLength := payloadLength, payload := payload }) := by
  rw [updateProtocolEncodeFrame, if_neg (Nat.not_lt.mpr hcapacity), buildHeader,
    if_neg (Nat.not_lt.mpr hlength)]
  rfl

/-! ### The parser -/

/-- The states of the parser. -/
inductive UpdateProtocolParserState where
  | sync
  | header
  | payload
  | crc
  deriving DecidableEq, Repr

/-- `update_protocol_parse_status_t`. -/
inductive UpdateProtocolParseStatus where
  | needMore
  | frameReady
  | errOversize
  | errCrc
  deriving DecidableEq, Repr

/-- `update_protocol_parser_t`; the defaults are those of `update_protocol_parser_init`. -/
structure UpdateProtocolParser where
  state : UpdateProtocolParserState := .sync
  magicMatched : ℕ := 0
  headerReceived : ℕ := 0
  payloadReceived : ℕ := 0
  crcReceived : ℕ := 0
  header : Mem := fun _ => 0
  crcBytes : Mem := fun _ => 0
  frame : UpdateProtocolFrame := {}
  errorInfoValid : Bool := false
  errorCommand : UInt8 := 0
  errorSequence : UInt16 := 0

/-- `parser_reset_state`. -/
def parserResetState (parser : UpdateProtocolParser) : UpdateProtocolParser :=
  { parser with
    state := .sync
    magicMatched := 0
    headerReceived := 0
    payloadReceived := 0
    crcReceived := 0 }

/-- The fields `parser_decode_header` reads out of the header. -/
def decodeFields (parser : UpdateProtocolParser) : UpdateProtocolParser :=
  { parser with
    frame :=
      { parser.frame with
        version := parser.header 4
        command := parser.header 5
        sequence := loadLe16 parser.header 6
        payloadLength := loadLe16 parser.header 8 }
    errorCommand := parser.header 5
    errorSequence := loadLe16 parser.header 6
    errorInfoValid := true }

/-- `parser_decode_header`. -/
def parserDecodeHeader (parser : UpdateProtocolParser) :
    UpdateProtocolParseStatus × UpdateProtocolParser :=
  let parser := decodeFields parser
  if parser.frame.payloadLength.toNat > updateProtocolMaxPayloadSize then
    (.errOversize, parserResetState parser)
  else if parser.frame.payloadLength = 0 then
    (.needMore, { parser with state := .crc })
  else
    (.needMore, { parser with state := .payload })

/-- `parser_accept_magic_byte`. -/
def parserAcceptMagicByte (parser : UpdateProtocolParser) (byte : UInt8) :
    UpdateProtocolParseStatus × UpdateProtocolParser :=
  if byte = byteAt protocolMagic parser.magicMatched then
    (.needMore,
      { parser with
        errorInfoValid := if parser.magicMatched = 0 then false else parser.errorInfoValid
        header := Function.update parser.header parser.magicMatched byte
        magicMatched := parser.magicMatched + 1
        headerReceived := parser.magicMatched + 1
        state := if parser.magicMatched + 1 = protocolMagic.length then .header else parser.state })
  else if byte = byteAt protocolMagic 0 then
    (.needMore,
      { parser with
        errorInfoValid := false
        header := Function.update parser.header 0 byte
        magicMatched := 1
        headerReceived := 1 })
  else
    (.needMore, { parser with magicMatched := 0, headerReceived := 0 })

/-- `parser_finish_frame`. -/
def parserFinishFrame (parser : UpdateProtocolParser) :
    UpdateProtocolParseStatus × UpdateProtocolParser :=
  if frameCrc (slice parser.header 0 updateProtocolHeaderSize) parser.frame.data =
      loadLe32 parser.crcBytes 0 then
    (.frameReady, parserResetState parser)
  else
    (.errCrc, parserResetState parser)

/-- The next byte of the header. -/
def storeHeader (parser : UpdateProtocolParser) (byte : UInt8) : UpdateProtocolParser :=
  { parser with
    header := Function.update parser.header parser.headerReceived byte
    headerReceived := parser.headerReceived + 1 }

/-- The next byte of the payload. -/
def storePayload (parser : UpdateProtocolParser) (byte : UInt8) : UpdateProtocolParser :=
  { parser with
    frame :=
      { parser.frame with
        payload := Function.update parser.frame.payload parser.payloadReceived byte }
    payloadReceived := parser.payloadReceived + 1 }

/-- The next byte of the CRC. -/
def storeCrc (parser : UpdateProtocolParser) (byte : UInt8) : UpdateProtocolParser :=
  { parser with
    crcBytes := Function.update parser.crcBytes parser.crcReceived byte
    crcReceived := parser.crcReceived + 1 }

/-- `update_protocol_parser_push`. -/
def updateProtocolParserPush (parser : UpdateProtocolParser) (byte : UInt8) :
    UpdateProtocolParseStatus × UpdateProtocolParser :=
  match parser.state with
  | .sync => parserAcceptMagicByte parser byte
  | .header =>
    let parser := storeHeader parser byte
    if parser.headerReceived = updateProtocolHeaderSize then parserDecodeHeader parser
    else (.needMore, parser)
  | .payload =>
    let parser := storePayload parser byte
    if parser.payloadReceived = parser.frame.payloadLength.toNat then
      (.needMore, { parser with state := .crc })
    else
      (.needMore, parser)
  | .crc =>
    let parser := storeCrc parser byte
    if parser.crcReceived = updateProtocolCrcSize then parserFinishFrame parser
    else (.needMore, parser)

/-- `update_protocol_parser_has_partial`. -/
def updateProtocolParserHasPartial (parser : UpdateProtocolParser) : Bool := parser.state != .sync

/-- `update_protocol_parser_error_info`: the command and the sequence number, if there are any. -/
def updateProtocolParserErrorInfo (parser : UpdateProtocolParser) : Option (UInt8 × UInt16) :=
  if parser.errorInfoValid then some (parser.errorCommand, parser.errorSequence) else none

/-! ### What the parser holds -/

namespace UpdateProtocolParser

/-- The bytes of the frame the parser is in the middle of. -/
def held (parser : UpdateProtocolParser) : List UInt8 :=
  slice parser.header 0 parser.headerReceived ++
    slice parser.frame.payload 0 parser.payloadReceived ++
    slice parser.crcBytes 0 parser.crcReceived

/-- The header has been read, and the frame has its fields. -/
structure Decoded (parser : UpdateProtocolParser) : Prop where
  header : slice parser.header 0 updateProtocolHeaderSize = parser.frame.header
  info : updateProtocolParserErrorInfo parser = some (parser.frame.command, parser.frame.sequence)

/-- The counters fit the state, and what has been received so far is the start of a frame. -/
def WellFormed (parser : UpdateProtocolParser) : Prop :=
  match parser.state with
  | .sync =>
    parser.magicMatched < protocolMagic.length ∧ parser.headerReceived = parser.magicMatched ∧
      slice parser.header 0 parser.magicMatched = protocolMagic.take parser.magicMatched ∧
      parser.payloadReceived = 0 ∧ parser.crcReceived = 0
  | .header =>
    protocolMagic.length ≤ parser.headerReceived ∧
      parser.headerReceived < updateProtocolHeaderSize ∧
      slice parser.header 0 protocolMagic.length = protocolMagic ∧
      parser.payloadReceived = 0 ∧ parser.crcReceived = 0
  | .payload =>
    parser.headerReceived = updateProtocolHeaderSize ∧ parser.Decoded ∧
      parser.frame.payloadLength.toNat ≤ updateProtocolMaxPayloadSize ∧
      parser.payloadReceived < parser.frame.payloadLength.toNat ∧ parser.crcReceived = 0
  | .crc =>
    parser.headerReceived = updateProtocolHeaderSize ∧ parser.Decoded ∧
      parser.frame.payloadLength.toNat ≤ updateProtocolMaxPayloadSize ∧
      parser.payloadReceived = parser.frame.payloadLength.toNat ∧
      parser.crcReceived < updateProtocolCrcSize

@[simp] theorem held_init : ({} : UpdateProtocolParser).held = [] := rfl

theorem wellFormed_init : ({} : UpdateProtocolParser).WellFormed := by
  refine ⟨by decide, rfl, rfl, rfl, rfl⟩

@[simp] theorem held_parserResetState (parser : UpdateProtocolParser) :
    (parserResetState parser).held = [] := rfl

theorem wellFormed_parserResetState (parser : UpdateProtocolParser) :
    (parserResetState parser).WellFormed := by
  refine ⟨by simp [parserResetState, protocolMagic], rfl, rfl, rfl, rfl⟩

end UpdateProtocolParser

/-- Everything that one byte can do to a parser. -/
inductive Pushed (parser : UpdateProtocolParser) (byte : UInt8) :
    UpdateProtocolParseStatus × UpdateProtocolParser → Prop
  /-- The byte continues the frame. -/
  | more {parser' : UpdateProtocolParser} (wf : parser'.WellFormed)
      (held : parser'.held = parser.held ++ [byte]) :
      Pushed parser byte (.needMore, parser')
  /-- The magic is broken off; the byte may begin another one. -/
  | resync {parser' : UpdateProtocolParser} {k : ℕ} (lt : k < protocolMagic.length)
      (before : parser.held = protocolMagic.take k) (other : byte ≠ byteAt protocolMagic k)
      (wf : parser'.WellFormed)
      (held : parser'.held = if byte = byteAt protocolMagic 0 then [byte] else []) :
      Pushed parser byte (.needMore, parser')
  /-- The header is complete and announces too long a payload. -/
  | oversize {parser' : UpdateProtocolParser} (wf : parser'.WellFormed) (held : parser'.held = [])
      (header : parser.held ++ [byte] = parser'.frame.header)
      (long : updateProtocolMaxPayloadSize < parser'.frame.payloadLength.toNat)
      (info : updateProtocolParserErrorInfo parser' =
        some (parser'.frame.command, parser'.frame.sequence)) :
      Pushed parser byte (.errOversize, parser')
  /-- The frame is complete and its CRC is right. -/
  | ready {parser' : UpdateProtocolParser} (wf : parser'.WellFormed) (held : parser'.held = [])
      (encoded : parser.held ++ [byte] = parser'.frame.encode)
      (short : parser'.frame.payloadLength.toNat ≤ updateProtocolMaxPayloadSize) :
      Pushed parser byte (.frameReady, parser')
  /-- The frame is complete and its CRC is wrong. -/
  | badCrc {parser' : UpdateProtocolParser} {crc : UInt32} (wf : parser'.WellFormed)
      (held : parser'.held = [])
      (encoded : parser.held ++ [byte] =
        parser'.frame.header ++ parser'.frame.data ++ storeLe32 crc)
      (short : parser'.frame.payloadLength.toNat ≤ updateProtocolMaxPayloadSize)
      (wrong : frameCrc parser'.frame.header parser'.frame.data ≠ crc)
      (info : updateProtocolParserErrorInfo parser' =
        some (parser'.frame.command, parser'.frame.sequence)) :
      Pushed parser byte (.errCrc, parser')

section Push

variable {parser : UpdateProtocolParser}

open UpdateProtocolParser

/-- The fields `parser_decode_header` reads are those the header was built from. -/
theorem decoded_decodeFields
    (h : slice parser.header 0 protocolMagic.length = protocolMagic) :
    (decodeFields parser).Decoded where
  header := by
    show slice parser.header 0 10 = frameHeader _ _ _ _
    have hsplit : slice parser.header 0 10 = slice parser.header 0 4 ++
        [parser.header 4, parser.header 5] ++ slice parser.header 6 2 ++
        slice parser.header 8 2 := rfl
    rw [hsplit, ← storeLe16_loadLe16, ← storeLe16_loadLe16,
      show slice parser.header 0 4 = protocolMagic from h]
    rfl
  info := rfl

theorem pushed_sync (byte : UInt8) (hstate : parser.state = .sync) (wf : parser.WellFormed) :
    Pushed parser byte (parserAcceptMagicByte parser byte) := by
  simp only [WellFormed, hstate] at wf
  obtain ⟨hlt, hreceived, hheader, hpayload, hcrc⟩ := wf
  have hheld : parser.held = protocolMagic.take parser.magicMatched := by
    rw [held, hreceived, hpayload, hcrc, hheader]
    simp
  rw [parserAcceptMagicByte]
  by_cases hmatch : byte = byteAt protocolMagic parser.magicMatched
  · have htake : protocolMagic.take (parser.magicMatched + 1) =
        protocolMagic.take parser.magicMatched ++ [byte] := by
      rw [List.take_succ_eq_append_getElem hlt, hmatch, byteAt_of_lt hlt]
    have hslice : slice (Function.update parser.header parser.magicMatched byte) 0
        (parser.magicMatched + 1) = protocolMagic.take (parser.magicMatched + 1) := by
      have := slice_update parser.header 0 parser.magicMatched byte
      rw [Nat.zero_add] at this
      rw [this, hheader, htake]
    rw [if_pos hmatch]
    refine .more ?_ ?_
    · by_cases hlast : parser.magicMatched + 1 = protocolMagic.length
      · rw [hlast] at hslice
        simp only [WellFormed, hlast, if_true]
        exact ⟨le_rfl, by decide, by rw [hslice]; rfl, hpayload, hcrc⟩
      · simp only [WellFormed, hlast, if_false, hstate]
        exact ⟨by omega, trivial, hslice, hpayload, hcrc⟩
    · rw [held, hheld, ← htake]
      simp only [hslice, hpayload, hcrc, slice_zero, List.append_nil]
  · rw [if_neg hmatch]
    by_cases hfirst : byte = byteAt protocolMagic 0
    · rw [if_pos hfirst]
      refine .resync hlt hheld hmatch ?_ ?_
      · simp only [WellFormed, hstate]
        refine ⟨by decide, trivial, ?_, hpayload, hcrc⟩
        rw [slice_succ, slice_zero, Function.update_self, hfirst]
        rfl
      · rw [held, if_pos hfirst]
        simp [hpayload, hcrc, slice_succ]
    · rw [if_neg hfirst]
      refine .resync hlt hheld hmatch ?_ ?_
      · simp only [WellFormed, hstate]
        exact ⟨by decide, trivial, rfl, hpayload, hcrc⟩
      · rw [held, if_neg hfirst]
        simp [hpayload, hcrc]

theorem held_storeHeader (byte : UInt8) (hpayload : parser.payloadReceived = 0)
    (hcrc : parser.crcReceived = 0) : (storeHeader parser byte).held = parser.held ++ [byte] := by
  have := slice_update parser.header 0 parser.headerReceived byte
  rw [Nat.zero_add] at this
  rw [held, held, storeHeader]
  simp only [this, hpayload, hcrc, slice_zero, List.append_nil]

theorem held_storePayload (byte : UInt8) (hcrc : parser.crcReceived = 0) :
    (storePayload parser byte).held = parser.held ++ [byte] := by
  have := slice_update parser.frame.payload 0 parser.payloadReceived byte
  rw [Nat.zero_add] at this
  rw [held, held, storePayload]
  simp only [this, hcrc, slice_zero, List.append_nil, List.append_assoc]

theorem held_storeCrc (byte : UInt8) : (storeCrc parser byte).held = parser.held ++ [byte] := by
  have := slice_update parser.crcBytes 0 parser.crcReceived byte
  rw [Nat.zero_add] at this
  rw [held, held, storeCrc]
  simp only [this, List.append_assoc]

/-- A complete header is decoded and decides what comes next. -/
theorem pushed_decodeHeader {next : UpdateProtocolParser} {byte : UInt8}
    (hheld : next.held = parser.held ++ [byte])
    (hmagic : slice next.header 0 protocolMagic.length = protocolMagic)
    (hheader : next.headerReceived = updateProtocolHeaderSize)
    (hpayload : next.payloadReceived = 0) (hcrc : next.crcReceived = 0) :
    Pushed parser byte (parserDecodeHeader next) := by
  have hdecoded := decoded_decodeFields hmagic
  rw [parserDecodeHeader]
  by_cases hlong : (decodeFields next).frame.payloadLength.toNat > updateProtocolMaxPayloadSize
  · have hall : parser.held ++ [byte] = (decodeFields next).frame.header := by
      rw [← hheld, held, hheader, hpayload, hcrc, ← hdecoded.header]
      simp only [slice_zero, List.append_nil]
      rfl
    rw [if_pos hlong]
    exact .oversize (wellFormed_parserResetState _) rfl hall hlong hdecoded.info
  · rw [if_neg hlong]
    have hshort := Nat.not_lt.mp hlong
    by_cases hzero : (decodeFields next).frame.payloadLength = 0
    · rw [if_pos hzero]
      refine .more ⟨hheader, ⟨hdecoded.header, hdecoded.info⟩, hshort, ?_, ?_⟩ hheld
      · show next.payloadReceived = (decodeFields next).frame.payloadLength.toNat
        rw [hpayload, hzero]
        rfl
      · show next.crcReceived < updateProtocolCrcSize
        rw [hcrc]
        decide
    · rw [if_neg hzero]
      refine .more ⟨hheader, ⟨hdecoded.header, hdecoded.info⟩, hshort, ?_, hcrc⟩ hheld
      show next.payloadReceived < (decodeFields next).frame.payloadLength.toNat
      rw [hpayload]
      exact Nat.pos_of_ne_zero fun h => hzero (UInt16.toNat_inj.mp h)

theorem pushed_header (byte : UInt8) (hstate : parser.state = .header) (wf : parser.WellFormed) :
    Pushed parser byte (updateProtocolParserPush parser byte) := by
  simp only [WellFormed, hstate] at wf
  obtain ⟨hge, hlt, hmagic, hpayload, hcrc⟩ := wf
  have hheld := held_storeHeader byte hpayload hcrc
  have hmagic' : slice (storeHeader parser byte).header 0 protocolMagic.length =
      protocolMagic := by
    refine Eq.trans (slice_congr fun x _ hx => Function.update_of_ne ?_ _ _) hmagic
    omega
  simp only [updateProtocolParserPush, hstate]
  by_cases hlast : (storeHeader parser byte).headerReceived = updateProtocolHeaderSize
  · rw [if_pos hlast]
    exact pushed_decodeHeader hheld hmagic' hlast hpayload hcrc
  · rw [if_neg hlast]
    refine .more ?_ hheld
    have hreceived : (storeHeader parser byte).headerReceived = parser.headerReceived + 1 := rfl
    simp only [WellFormed, show (storeHeader parser byte).state = .header from hstate]
    exact ⟨by omega, by omega, hmagic', hpayload, hcrc⟩

theorem pushed_payload (byte : UInt8) (hstate : parser.state = .payload)
    (wf : parser.WellFormed) : Pushed parser byte (updateProtocolParserPush parser byte) := by
  simp only [WellFormed, hstate] at wf
  obtain ⟨hheader, hdecoded, hshort, hlt, hcrc⟩ := wf
  have hheld := held_storePayload byte hcrc
  have hdecoded' : (storePayload parser byte).Decoded := ⟨hdecoded.header, hdecoded.info⟩
  simp only [updateProtocolParserPush, hstate]
  by_cases hlast : (storePayload parser byte).payloadReceived =
      (storePayload parser byte).frame.payloadLength.toNat
  · rw [if_pos hlast]
    refine .more ⟨hheader, ⟨hdecoded'.header, hdecoded'.info⟩, hshort, hlast, ?_⟩ hheld
    show parser.crcReceived < updateProtocolCrcSize
    rw [hcrc]
    decide
  · rw [if_neg hlast]
    refine .more ?_ hheld
    simp only [WellFormed, show (storePayload parser byte).state = .payload from hstate]
    exact ⟨hheader, hdecoded', hshort, lt_of_le_of_ne hlt hlast, hcrc⟩

theorem pushed_crc (byte : UInt8) (hstate : parser.state = .crc)
    (wf : parser.WellFormed) : Pushed parser byte (updateProtocolParserPush parser byte) := by
  simp only [WellFormed, hstate] at wf
  obtain ⟨hheader, hdecoded, hshort, hpayload, hlt⟩ := wf
  have hheld : (storeCrc parser byte).held = parser.held ++ [byte] := held_storeCrc byte
  obtain ⟨next, hnext⟩ : ∃ next, next = storeCrc parser byte := ⟨_, rfl⟩
  have hdecoded' : next.Decoded := by
    rw [hnext]
    exact ⟨hdecoded.header, hdecoded.info⟩
  simp only [updateProtocolParserPush, hstate]
  rw [← hnext] at hheld ⊢
  by_cases hlast : next.crcReceived = updateProtocolCrcSize
  · have hall : parser.held ++ [byte] = next.frame.header ++ next.frame.data ++
        storeLe32 (loadLe32 next.crcBytes 0) := by
      have hheader' : next.headerReceived = updateProtocolHeaderSize := by rw [hnext]; exact hheader
      have hpayload' : next.payloadReceived = next.frame.payloadLength.toNat := by
        rw [hnext]; exact hpayload
      rw [← hheld, held, hheader', hpayload', hlast, hdecoded'.header, storeLe32_loadLe32]
      rfl
    have hshort' : next.frame.payloadLength.toNat ≤ updateProtocolMaxPayloadSize := by
      rw [hnext]; exact hshort
    rw [if_pos hlast, parserFinishFrame, hdecoded'.header]
    by_cases hright : frameCrc next.frame.header next.frame.data = loadLe32 next.crcBytes 0
    · rw [if_pos hright]
      rw [← hright] at hall
      exact .ready (wellFormed_parserResetState _) rfl hall hshort'
    · rw [if_neg hright]
      exact .badCrc (wellFormed_parserResetState _) rfl hall hshort' hright hdecoded'.info
  · rw [if_neg hlast]
    rw [hnext] at hlast hheld ⊢
    refine .more ?_ hheld
    simp only [WellFormed, show (storeCrc parser byte).state = .crc from hstate]
    exact ⟨hheader, ⟨hdecoded.header, hdecoded.info⟩, hshort, hpayload,
      lt_of_le_of_ne hlt hlast⟩

/-- **One byte does one of the things `Pushed` lists.** -/
theorem updateProtocolParserPush_pushed (byte : UInt8) (wf : parser.WellFormed) :
    Pushed parser byte (updateProtocolParserPush parser byte) := by
  rcases hstate : parser.state with _ | _ | _ | _
  · have : updateProtocolParserPush parser byte = parserAcceptMagicByte parser byte := by
      simp only [updateProtocolParserPush, hstate]
    rw [this]
    exact pushed_sync byte hstate wf
  · exact pushed_header byte hstate wf
  · exact pushed_payload byte hstate wf
  · exact pushed_crc byte hstate wf

theorem UpdateProtocolParser.WellFormed.push (wf : parser.WellFormed) (byte : UInt8) :
    (updateProtocolParserPush parser byte).2.WellFormed := by
  have hpushed := updateProtocolParserPush_pushed byte wf
  revert hpushed
  generalize updateProtocolParserPush parser byte = out
  intro hpushed
  cases hpushed <;> assumption

end Push

/-! ### Frames in a stream -/

/-- The encodings of the frames stand in the stream, disjoint and in this order. -/
inductive Carries : List UInt8 → List UpdateProtocolFrame → Prop
  | nil : Carries [] []
  | gap {bytes : List UInt8} {frames : List UpdateProtocolFrame} (more : List UInt8) :
      Carries bytes frames → Carries (bytes ++ more) frames
  | frame {bytes : List UInt8} {frames : List UpdateProtocolFrame} (frame : UpdateProtocolFrame) :
      Carries bytes frames → Carries (bytes ++ frame.encode) (frames ++ [frame])

/-- The parser has read the stream and delivered the frames: what it holds is the end of the
stream, and the frames stand before that. -/
structure Tracks (bytes : List UInt8) (frames : List UpdateProtocolFrame)
    (parser : UpdateProtocolParser) : Prop where
  wf : parser.WellFormed
  carries : ∃ before, bytes = before ++ parser.held ∧ Carries before frames

theorem Tracks.init : Tracks [] [] {} :=
  ⟨UpdateProtocolParser.wellFormed_init, [], rfl, .nil⟩

variable {bytes : List UInt8} {frames : List UpdateProtocolFrame}
  {parser parser' : UpdateProtocolParser}

/-- Everything a parser has delivered was in the stream it has read. -/
theorem Tracks.all (h : Tracks bytes frames parser) : Carries bytes frames := by
  obtain ⟨before, rfl, hbefore⟩ := h.carries
  exact hbefore.gap _

/-- A parser that lets go of what it holds still tracks the stream. -/
theorem Tracks.drop (h : Tracks bytes frames parser) (wf : parser'.WellFormed)
    (hheld : parser'.held = []) : Tracks bytes frames parser' :=
  ⟨wf, bytes, by rw [hheld, List.append_nil], h.all⟩

/-- The frames a push delivers. -/
def delivered : UpdateProtocolParseStatus × UpdateProtocolParser → List UpdateProtocolFrame
  | (.frameReady, parser) => [parser.frame]
  | _ => []

/-- **Every frame the parser delivers was in the stream.** -/
theorem Tracks.push (h : Tracks bytes frames parser) (byte : UInt8) :
    Tracks (bytes ++ [byte]) (frames ++ delivered (updateProtocolParserPush parser byte))
      (updateProtocolParserPush parser byte).2 := by
  have hall : Carries (bytes ++ [byte]) frames := h.all.gap [byte]
  obtain ⟨before, rfl, hbefore⟩ := h.carries
  have hpushed := updateProtocolParserPush_pushed byte h.wf
  revert hpushed
  generalize updateProtocolParserPush parser byte = out
  intro hpushed
  cases hpushed with
  | more wf held =>
    refine ⟨wf, before, ?_, by simpa [delivered] using hbefore⟩
    rw [held, List.append_assoc]
  | @resync parser' k lt start other wf held =>
    by_cases hfirst : byte = byteAt protocolMagic 0
    · rw [if_pos hfirst] at held
      refine ⟨wf, before ++ parser.held, by rw [held], ?_⟩
      simpa [delivered] using hbefore.gap parser.held
    · rw [if_neg hfirst] at held
      exact ⟨wf, _, by rw [held, List.append_nil], by simpa [delivered] using hall⟩
  | oversize wf held =>
    exact ⟨wf, _, by rw [held, List.append_nil], by simpa [delivered] using hall⟩
  | ready wf held encoded =>
    refine ⟨wf, _, by rw [held, List.append_nil], ?_⟩
    rw [List.append_assoc, encoded]
    exact hbefore.frame _
  | badCrc wf held =>
    exact ⟨wf, _, by rw [held, List.append_nil], by simpa [delivered] using hall⟩

end Stm32SecurityLab
