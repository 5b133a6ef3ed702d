import Stm32SecurityLab.Protocol.Parser

/-!
# What the frame parser computes

The parser of `update_protocol.c` sees one byte at a time. The scanner here sees the whole stream,
and says in so many words what the bytes mean: skip to the leftmost magic, read the rest of the
header, refuse a payload that is too long, else read payload and CRC and compare.

A parser that is in the middle of a frame stands for the scanner run on the bytes it holds and the
bytes still to come. One push moves a byte from the second part to the first, so nothing has to be
said about the stream as a whole; the one case with an argument in it is a magic that breaks off,
and there it is enough that the magic begins with a letter that does not come again in it.

## Main definitions

* `scan` — the reference scanner
* `pushResults`, `firstResult` — what a parser reports on a stream
* `NoisyFrame` — a frame to be sent, and the noise that the line puts before it

## Main results

* `pushResults_eq_scan`, `firstResult_eq_nextResult` — a parser reports what the scanner finds
* `nextResult_noise_encode` — noise without a magic in it is skipped
-/

namespace Stm32SecurityLab

/-! ### Results -/

/-- The contents of a frame. -/
structure Frame where
  version : UInt8
  command : UInt8
  sequence : UInt16
  payload : List UInt8
  deriving DecidableEq, Repr

/-- What a parser reports when it does not ask for more. -/
inductive ParseResult where
  | frameReady (frame : Frame)
  | errOversize
  | errCrc
  deriving DecidableEq, Repr

/-- `update_protocol_parser_frame`, without the part of the buffer that is not used. -/
def UpdateProtocolFrame.contents (frame : UpdateProtocolFrame) : Frame where
  version := frame.version
  command := frame.command
  sequence := frame.sequence
  payload := frame.data

/-- The result of a push. -/
def parseResult : UpdateProtocolParseStatus × UpdateProtocolParser → Option ParseResult
  | (.needMore, _) => none
  | (.frameReady, parser) => some (.frameReady parser.frame.contents)
  | (.errOversize, _) => some .errOversize
  | (.errCrc, _) => some .errCrc

/-- The results of pushing the bytes, one after the other. -/
def pushResults (parser : UpdateProtocolParser) : List UInt8 → List ParseResult
  | [] => []
  | byte :: bytes =>
    (parseResult (updateProtocolParserPush parser byte)).toList ++
      pushResults (updateProtocolParserPush parser byte).2 bytes

/-- The first result of pushing the bytes, and the bytes that have not been pushed by then. -/
def firstResult (parser : UpdateProtocolParser) : List UInt8 → Option (ParseResult × List UInt8)
  | [] => none
  | byte :: bytes =>
    match parseResult (updateProtocolParserPush parser byte) with
    | none => firstResult (updateProtocolParserPush parser byte).2 bytes
    | some result => some (result, bytes)

/-! ### The reference scanner -/

/-- `update_protocol_crc32`. -/
def updateProtocolCrc32 (data : List UInt8) : UInt32 := updateProtocolCrc32Update 0 data

/-- What follows the leftmost magic. -/
def skipToMagic : List UInt8 → Option (List UInt8)
  | [] => none
  | byte :: bytes =>
    if protocolMagic.isPrefixOf (byte :: bytes) then
      some ((byte :: bytes).drop protocolMagic.length)
    else
      skipToMagic bytes

/-- What follows a magic: the result and the bytes that are left, if there are enough. -/
def scanFrame : List UInt8 → Option (ParseResult × List UInt8)
  | version :: command :: s₀ :: s₁ :: l₀ :: l₁ :: body =>
    let length := (loadLe16 (byteAt [l₀, l₁]) 0).toNat
    if updateProtocolMaxPayloadSize < length then some (.errOversize, body)
    else if body.length < length + updateProtocolCrcSize then none
    else
      let header := protocolMagic ++ [version, command, s₀, s₁, l₀, l₁]
      let payload := body.take length
      let crc := loadLe32 (byteAt (body.drop length)) 0
      let rest := body.drop (length + updateProtocolCrcSize)
      if updateProtocolCrc32 (header ++ payload) = crc then
        some (.frameReady ⟨version, command, loadLe16 (byteAt [s₀, s₁]) 0, payload⟩, rest)
      else
        some (.errCrc, rest)
  | _ => none

/-- The first result in a stream, and the bytes behind it. -/
def nextResult (bytes : List UInt8) : Option (ParseResult × List UInt8) :=
  (skipToMagic bytes).bind scanFrame

theorem skipToMagic_length_lt {bytes rest : List UInt8} (h : skipToMagic bytes = some rest) :
    rest.length < bytes.length := by
  induction bytes with
  | nil => cases h
  | cons byte bytes ih =>
    rw [skipToMagic] at h
    split at h
    · obtain rfl := Option.some.inj h
      simp only [protocolMagic, List.length_drop, List.length_cons]
      omega
    · have := ih h
      simp only [List.length_cons]
      omega

theorem scanFrame_length_le {bytes rest : List UInt8} {result : ParseResult}
    (h : scanFrame bytes = some (result, rest)) : rest.length ≤ bytes.length := by
  rw [scanFrame.eq_def] at h
  split at h
  · simp only at h
    split_ifs at h <;>
    · simp only [Option.some.injEq, Prod.mk.injEq] at h
      obtain ⟨-, rfl⟩ := h
      simp only [List.length_drop, List.length_cons]
      omega
  · cases h

theorem nextResult_length_lt {bytes rest : List UInt8} {result : ParseResult}
    (h : nextResult bytes = some (result, rest)) : rest.length < bytes.length := by
  obtain ⟨after, hskip, hread⟩ := Option.bind_eq_some_iff.mp h
  exact lt_of_le_of_lt (scanFrame_length_le hread) (skipToMagic_length_lt hskip)

/-- The results the reference scanner finds in a stream. -/
def scan (bytes : List UInt8) : List ParseResult :=
  match _h : nextResult bytes with
  | none => []
  | some (result, rest) => result :: scan rest
termination_by bytes.length
decreasing_by exact nextResult_length_lt _h

theorem scan_of_none {bytes : List UInt8} (h : nextResult bytes = none) : scan bytes = [] := by
  rw [scan]
  split
  · rfl
  · simp_all

theorem scan_of_some {bytes rest : List UInt8} {result : ParseResult}
    (h : nextResult bytes = some (result, rest)) : scan bytes = result :: scan rest := by
  rw [scan]
  split
  · simp_all
  · rename_i h'
    rw [h] at h'
    obtain ⟨rfl, rfl⟩ := Prod.mk.inj (Option.some.inj h')
    rfl

/-- The scanner only looks at the first result and the rest. -/
theorem scan_congr {bytes bytes' : List UInt8} (h : nextResult bytes = nextResult bytes') :
    scan bytes = scan bytes' := by
  rcases hnext : nextResult bytes' with _ | ⟨result, rest⟩
  · rw [scan_of_none hnext, scan_of_none (h.trans hnext)]
  · rw [scan_of_some hnext, scan_of_some (h.trans hnext)]

/-! ### The magic -/

theorem skipToMagic_magic (rest : List UInt8) : skipToMagic (protocolMagic ++ rest) = some rest := by
  simp [protocolMagic, skipToMagic, List.isPrefixOf]

theorem skipToMagic_cons {byte : UInt8} {bytes : List UInt8} (h : ¬ protocolMagic <+: byte :: bytes) :
    skipToMagic (byte :: bytes) = skipToMagic bytes := by
  rw [skipToMagic, if_neg]
  rwa [List.isPrefixOf_iff_prefix]

/-- A magic that is cut short is no magic. -/
theorem skipToMagic_take {k : ℕ} (h : k < protocolMagic.length) :
    skipToMagic (protocolMagic.take k) = none := by
  simp only [protocolMagic, List.length_cons, List.length_nil] at h
  interval_cases k <;> rfl

/-- **Where a magic breaks off, only the byte that broke it can begin another one.** -/
theorem skipToMagic_resync {k : ℕ} {byte : UInt8} (h : k < protocolMagic.length)
    (hother : byte ≠ byteAt protocolMagic k) (rest : List UInt8) :
    skipToMagic (protocolMagic.take k ++ byte :: rest) =
      skipToMagic ((if byte = byteAt protocolMagic 0 then [byte] else []) ++ rest) := by
  have hskip : skipToMagic (protocolMagic.take k ++ byte :: rest) =
      skipToMagic (byte :: rest) := by
    simp only [protocolMagic, List.length_cons, List.length_nil] at h
    -- the bytes before `byte` are no magic, because `byte` is not the one that comes next in it
    interval_cases k
    · rfl
    · show skipToMagic (0x53 :: byte :: rest) = _
      rw [skipToMagic_cons]
      have hother : byte ≠ 0x55 := hother
      simp [protocolMagic, hother.symm]
    · show skipToMagic (0x53 :: 0x55 :: byte :: rest) = _
      have hother : byte ≠ 0x50 := hother
      rw [skipToMagic_cons, skipToMagic_cons]
      · simp [protocolMagic]
      · simp [protocolMagic, hother.symm]
    · show skipToMagic (0x53 :: 0x55 :: 0x50 :: byte :: rest) = _
      have hother : byte ≠ 0x44 := hother
      rw [skipToMagic_cons, skipToMagic_cons, skipToMagic_cons]
      · simp [protocolMagic]
      · simp [protocolMagic]
      · simp [protocolMagic, hother.symm]
  rw [hskip]
  by_cases hfirst : byte = byteAt protocolMagic 0
  · rw [if_pos hfirst]
    rfl
  · rw [if_neg hfirst]
    have hfirst : byte ≠ 0x53 := hfirst
    refine skipToMagic_cons ?_
    simp [protocolMagic, hfirst.symm]

/-- Noise without a magic in it is skipped, also when it ends in the start of one. -/
theorem skipToMagic_noise {noise : List UInt8} (h : ¬ protocolMagic <:+: noise)
    (rest : List UInt8) : skipToMagic (noise ++ protocolMagic ++ rest) = some rest := by
  induction noise with
  | nil => exact skipToMagic_magic rest
  | cons byte noise ih =>
    have hno : ¬ protocolMagic <+: byte :: (noise ++ protocolMagic ++ rest) := by
      intro hpre
      -- a magic at this place lies within the noise, or runs into the next one
      rcases noise with _ | ⟨b₁, _ | ⟨b₂, _ | ⟨b₃, noise⟩⟩⟩
      · simp [protocolMagic] at hpre
      · simp [protocolMagic] at hpre
      · simp [protocolMagic] at hpre
      · refine h ?_
        simp only [protocolMagic, List.cons_append, List.cons_prefix_cons, List.nil_prefix,
          and_true] at hpre
        obtain ⟨rfl, rfl, rfl, rfl⟩ := hpre
        exact ⟨[], noise, rfl⟩
    have hrest : skipToMagic (byte :: noise ++ protocolMagic ++ rest) =
        skipToMagic (noise ++ protocolMagic ++ rest) := skipToMagic_cons hno
    rw [hrest]
    exact ih fun hin => h (hin.trans (List.infix_cons (List.infix_refl noise)))

/-! ### Frames -/

/-- The CRC over two pieces is the CRC over the whole. -/
theorem frameCrc_eq (header payload : List UInt8) :
    frameCrc header payload = updateProtocolCrc32 (header ++ payload) := by
  simp only [frameCrc, updateProtocolCrc32, updateProtocolCrc32Update, crc32Update,
    List.foldl_append, UInt32.not_not]

/-- Ten bytes that begin with the magic are the header of a frame. -/
theorem exists_header {data : List UInt8} (hlength : updateProtocolHeaderSize ≤ data.length)
    (hmagic : protocolMagic <+: data) :
    ∃ (frame : UpdateProtocolFrame) (body : List UInt8), data = frame.header ++ body := by
  have hslice : slice (byteAt data) 0 updateProtocolHeaderSize =
      data.take updateProtocolHeaderSize := by
    have hlen : (data.take updateProtocolHeaderSize).length = updateProtocolHeaderSize := by
      rw [List.length_take]
      omega
    conv_lhs => rw [← List.take_append_drop updateProtocolHeaderSize data]
    exact slice_byteAt_append hlen
  have hstart : slice (byteAt data) 0 protocolMagic.length = protocolMagic := by
    obtain ⟨rest, rfl⟩ := hmagic
    exact slice_byteAt_append rfl
  have hdecoded : (decodeFields { header := byteAt data }).Decoded := decoded_decodeFields hstart
  refine ⟨(decodeFields { header := byteAt data }).frame,
    data.drop updateProtocolHeaderSize, ?_⟩
  have hheader : slice (byteAt data) 0 updateProtocolHeaderSize =
      (decodeFields { header := byteAt data }).frame.header := hdecoded.header
  rw [← hheader, hslice, List.take_append_drop]

@[simp] theorem header_length (frame : UpdateProtocolFrame) :
    frame.header.length = updateProtocolHeaderSize := rfl

theorem loadLe16_header (frame : UpdateProtocolFrame) (body : List UInt8) :
    loadLe16 (byteAt (frame.header ++ body)) 8 = frame.payloadLength := by
  have : loadLe16 (byteAt (storeLe16 frame.payloadLength)) 0 = frame.payloadLength :=
    loadLe16_of_slice (slice_byteAt _)
  exact this

/-- What the scanner makes of a header. -/
theorem nextResult_header (frame : UpdateProtocolFrame) (body : List UInt8) :
    nextResult (frame.header ++ body) =
      if updateProtocolMaxPayloadSize < frame.payloadLength.toNat then some (.errOversize, body)
      else if body.length < frame.payloadLength.toNat + updateProtocolCrcSize then none
      else if updateProtocolCrc32 (frame.header ++ body.take frame.payloadLength.toNat) =
          loadLe32 (byteAt (body.drop frame.payloadLength.toNat)) 0 then
        some (.frameReady ⟨frame.version, frame.command, frame.sequence,
          body.take frame.payloadLength.toNat⟩,
            body.drop (frame.payloadLength.toNat + updateProtocolCrcSize))
      else
        some (.errCrc, body.drop (frame.payloadLength.toNat + updateProtocolCrcSize)) := by
  have hsequence : loadLe16 (byteAt (storeLe16 frame.sequence)) 0 = frame.sequence :=
    loadLe16_of_slice (slice_byteAt _)
  have hlength : loadLe16 (byteAt (storeLe16 frame.payloadLength)) 0 = frame.payloadLength :=
    loadLe16_of_slice (slice_byteAt _)
  have hskip : skipToMagic (frame.header ++ body) = some (frame.version :: frame.command ::
      (storeLe16 frame.sequence ++ storeLe16 frame.payloadLength) ++ body) := by
    rw [← skipToMagic_magic]
    rfl
  rw [nextResult, hskip, Option.bind_some]
  simp only [storeLe16, List.cons_append, List.nil_append] at hsequence hlength ⊢
  rw [scanFrame]
  simp only [hsequence, hlength]
  rfl

/-- A frame that is all there is found. -/
theorem nextResult_frame (frame : UpdateProtocolFrame) (crc : UInt32) (rest : List UInt8)
    (hshort : frame.payloadLength.toNat ≤ updateProtocolMaxPayloadSize) :
    nextResult (frame.header ++ frame.data ++ storeLe32 crc ++ rest) =
      if frameCrc frame.header frame.data = crc then some (.frameReady frame.contents, rest)
      else some (.errCrc, rest) := by
  have hbody : frame.data ++ storeLe32 crc ++ rest = frame.data ++ (storeLe32 crc ++ rest) :=
    List.append_assoc ..
  have htake : (frame.data ++ (storeLe32 crc ++ rest)).take frame.payloadLength.toNat =
      frame.data := List.take_left' frame.data_length
  have hdrop : (frame.data ++ (storeLe32 crc ++ rest)).drop frame.payloadLength.toNat =
      storeLe32 crc ++ rest := List.drop_left' frame.data_length
  have hcrc : loadLe32 (byteAt (storeLe32 crc ++ rest)) 0 = crc :=
    loadLe32_of_slice (slice_byteAt_append (storeLe32_length crc))
  have hrest : (frame.data ++ (storeLe32 crc ++ rest)).drop
      (frame.payloadLength.toNat + updateProtocolCrcSize) = rest := by
    rw [← List.drop_drop, hdrop]
    exact List.drop_left' (storeLe32_length crc)
  have hlong : ¬ (frame.data ++ (storeLe32 crc ++ rest)).length <
      frame.payloadLength.toNat + updateProtocolCrcSize := by
    simp only [List.length_append, frame.data_length, storeLe32_length, updateProtocolCrcSize]
    omega
  rw [List.append_assoc, List.append_assoc, nextResult_header, if_neg (Nat.not_lt.mpr hshort),
    if_neg hlong, htake, hdrop, hcrc, hrest, ← frameCrc_eq]
  rfl

/-! ### The parser against the scanner -/

section Push

variable {parser : UpdateProtocolParser}

open UpdateProtocolParser

/-- A frame that is not complete gives no result. -/
theorem nextResult_held (wf : parser.WellFormed) : nextResult parser.held = none := by
  rcases hstate : parser.state with _ | _ | _ | _ <;> simp only [WellFormed, hstate] at wf
  · obtain ⟨hlt, hreceived, hheader, hpayload, hcrc⟩ := wf
    rw [nextResult, held, hreceived, hpayload, hcrc, hheader]
    simp only [slice_zero, List.append_nil, skipToMagic_take hlt]
    rfl
  · obtain ⟨hge, hlt, hmagic, hpayload, hcrc⟩ := wf
    obtain ⟨n, hn⟩ := Nat.exists_eq_add_of_le hge
    have hshort : n < 6 := by
      simp only [updateProtocolHeaderSize, protocolMagic, List.length_cons, List.length_nil] at *
      omega
    rw [nextResult, held, hn, hpayload, hcrc, slice_add, hmagic]
    simp only [slice_zero, List.append_nil, skipToMagic_magic, Option.bind_some]
    interval_cases n <;> rfl
  · obtain ⟨hheader, hdecoded, hshort, hlt, hcrc⟩ := wf
    rw [held, hheader, hcrc, hdecoded.header]
    simp only [slice_zero, List.append_nil]
    rw [nextResult_header, if_neg (Nat.not_lt.mpr hshort), if_pos]
    rw [slice_length]
    omega
  · obtain ⟨hheader, hdecoded, hshort, hpayload, hlt⟩ := wf
    rw [held, hheader, hdecoded.header, List.append_assoc, nextResult_header,
      if_neg (Nat.not_lt.mpr hshort), if_pos]
    rw [List.length_append, slice_length, slice_length]
    omega

/-- **One byte.** A push without a result leaves the scanner's first result the same; a push with a
result gives it, and the bytes behind it are the ones not yet pushed. -/
theorem nextResult_push (wf : parser.WellFormed) (byte : UInt8) (rest : List UInt8) :
    nextResult (parser.held ++ byte :: rest) =
      match parseResult (updateProtocolParserPush parser byte) with
      | none => nextResult ((updateProtocolParserPush parser byte).2.held ++ rest)
      | some result => some (result, rest) := by
  have happend : parser.held ++ byte :: rest = parser.held ++ [byte] ++ rest := by simp
  have hpushed := updateProtocolParserPush_pushed byte wf
  revert hpushed
  generalize updateProtocolParserPush parser byte = out
  intro hpushed
  cases hpushed with
  | more wf held =>
    show _ = nextResult _
    rw [happend, held]
  | resync lt start other wf held =>
    show _ = nextResult _
    rw [nextResult, nextResult, held, start, skipToMagic_resync lt other]
  | oversize wf held header long =>
    show _ = some (ParseResult.errOversize, rest)
    rw [happend, header, nextResult_header, if_pos long]
  | @ready parser' wf held encoded short =>
    show _ = some (ParseResult.frameReady parser'.frame.contents, rest)
    rw [happend, encoded, UpdateProtocolFrame.encode, nextResult_frame _ _ _ short, if_pos rfl]
  | badCrc wf held encoded short wrong =>
    show _ = some (ParseResult.errCrc, rest)
    rw [happend, encoded, nextResult_frame _ _ _ short, if_neg wrong]

theorem held_of_parseResult {byte : UInt8} {result : ParseResult} (wf : parser.WellFormed)
    (h : parseResult (updateProtocolParserPush parser byte) = some result) :
    (updateProtocolParserPush parser byte).2.held = [] := by
  have hpushed := updateProtocolParserPush_pushed byte wf
  revert hpushed h
  generalize updateProtocolParserPush parser byte = out
  intro h hpushed
  cases hpushed with
  | more => cases h
  | resync => cases h
  | oversize wf held => exact held
  | ready wf held => exact held
  | badCrc wf held => exact held

/-- **A parser reports what the scanner finds**, in the bytes it holds and the bytes to come. -/
theorem pushResults_eq_scan (wf : parser.WellFormed) (bytes : List UInt8) :
    pushResults parser bytes = scan (parser.held ++ bytes) := by
  induction bytes generalizing parser with
  | nil =>
    rw [List.append_nil, scan_of_none (nextResult_held wf)]
    rfl
  | cons byte bytes ih =>
    have hpush := nextResult_push wf byte bytes
    have hnext := ih (wf.push byte)
    rw [pushResults, hnext]
    rcases hresult : parseResult (updateProtocolParserPush parser byte) with _ | result
    · rw [hresult] at hpush
      rw [scan_congr hpush]
      rfl
    · rw [hresult] at hpush
      rw [scan_of_some hpush, held_of_parseResult wf hresult]
      rfl

/-- The first result of a parser is the first the scanner finds. -/
theorem firstResult_eq_nextResult (wf : parser.WellFormed) (bytes : List UInt8) :
    firstResult parser bytes = nextResult (parser.held ++ bytes) := by
  induction bytes generalizing parser with
  | nil =>
    rw [List.append_nil, nextResult_held wf]
    rfl
  | cons byte bytes ih =>
    rw [firstResult, nextResult_push wf, ih (wf.push byte)]

end Push

/-! ### Round trip -/

/-- A frame to be sent, the buffer it is built in, and the noise that the line puts before it. -/
structure NoisyFrame where
  noise : List UInt8
  command : UInt8
  sequence : UInt16
  payload : List UInt8
  outputCapacity : ℕ
  deriving Repr

namespace NoisyFrame

/-- No magic is completed in the noise, the payload may be sent and the buffer holds the frame. -/
structure Valid (item : NoisyFrame) : Prop where
  noise : ¬ protocolMagic <:+: item.noise
  payload : item.payload.length ≤ updateProtocolMaxPayloadSize
  capacity : updateProtocolHeaderSize + item.payload.length + updateProtocolCrcSize ≤
    item.outputCapacity

/-- The output of `update_protocol_encode_frame`, with the noise before it. -/
def line (item : NoisyFrame) : Except UpdateProtocolStatus (List UInt8) :=
  (updateProtocolEncodeFrame item.command item.sequence (byteAt item.payload)
    (UInt16.ofNat item.payload.length) item.outputCapacity).map (item.noise ++ ·)

/-- The frame as it should arrive. -/
def contents (item : NoisyFrame) : Frame where
  version := updateProtocolVersion
  command := item.command
  sequence := item.sequence
  payload := item.payload

end NoisyFrame

/-- A frame in the buffer of a sender. -/
def outgoing (command : UInt8) (sequence : UInt16) (payload : List UInt8) : UpdateProtocolFrame where
  version := updateProtocolVersion
  command := command
  sequence := sequence
  payloadLength := UInt16.ofNat payload.length
  payload := byteAt payload

section Outgoing

variable {command : UInt8} {sequence : UInt16} {payload : List UInt8}

theorem outgoing_length (h : payload.length ≤ updateProtocolMaxPayloadSize) :
    (outgoing command sequence payload).payloadLength.toNat = payload.length := by
  have : payload.length < 2 ^ 16 := lt_of_le_of_lt h (by decide)
  exact Nat.mod_eq_of_lt this

theorem outgoing_data (h : payload.length ≤ updateProtocolMaxPayloadSize) :
    (outgoing command sequence payload).data = payload := by
  rw [UpdateProtocolFrame.data, outgoing_length h]
  exact slice_byteAt payload

theorem outgoing_contents (h : payload.length ≤ updateProtocolMaxPayloadSize) :
    (outgoing command sequence payload).contents =
      ⟨updateProtocolVersion, command, sequence, payload⟩ := by
  rw [UpdateProtocolFrame.contents, outgoing_data h]
  rfl

/-- **A frame behind noise without a magic in it is found.** -/
theorem nextResult_noise_encode {noise : List UInt8} (hnoise : ¬ protocolMagic <:+: noise)
    (h : payload.length ≤ updateProtocolMaxPayloadSize) (rest : List UInt8) :
    nextResult (noise ++ (outgoing command sequence payload).encode ++ rest) =
      some (.frameReady ⟨updateProtocolVersion, command, sequence, payload⟩, rest) := by
  obtain ⟨body, hbody⟩ : ∃ body,
      (outgoing command sequence payload).encode ++ rest = protocolMagic ++ body := by
    rw [UpdateProtocolFrame.encode, UpdateProtocolFrame.header, frameHeader]
    simp only [List.append_assoc]
    exact ⟨_, rfl⟩
  have hsame : nextResult (noise ++ (outgoing command sequence payload).encode ++ rest) =
      nextResult ((outgoing command sequence payload).encode ++ rest) := by
    rw [List.append_assoc, hbody, ← List.append_assoc, nextResult, nextResult,
      skipToMagic_noise hnoise, skipToMagic_magic]
  rw [hsame, UpdateProtocolFrame.encode,
    nextResult_frame _ _ _ (by rw [outgoing_length h]; exact h), if_pos rfl, outgoing_contents h]

end Outgoing

theorem NoisyFrame.Valid.line {item : NoisyFrame} (h : item.Valid) :
    item.line =
      .ok (item.noise ++ (outgoing item.command item.sequence item.payload).encode) := by
  have hlength : (outgoing item.command item.sequence item.payload).payloadLength.toNat =
      item.payload.length := outgoing_length h.payload
  have hencode := @updateProtocolEncodeFrame_eq item.command item.sequence
    (byteAt item.payload) (UInt16.ofNat item.payload.length) item.outputCapacity
    (hlength.trans_le h.payload)
    (Eq.trans_le (by rw [show (UInt16.ofNat item.payload.length).toNat = _ from hlength])
      h.capacity)
  rw [NoisyFrame.line, hencode]
  rfl

/-- A stream of frames and noise gives back the frames. -/
theorem scan_noisyFrames {items : List NoisyFrame} (h : ∀ item ∈ items, item.Valid) :
    ∃ lines, items.mapM NoisyFrame.line = .ok lines ∧
      scan lines.flatten = items.map fun item => .frameReady item.contents := by
  induction items with
  | nil =>
    refine ⟨[], rfl, ?_⟩
    exact scan_of_none rfl
  | cons item items ih =>
    obtain ⟨lines, hlines, hscan⟩ := ih fun i hi => h i (List.mem_cons_of_mem _ hi)
    have hitem := h item List.mem_cons_self
    refine ⟨(item.noise ++ (outgoing item.command item.sequence item.payload).encode) :: lines,
      ?_, ?_⟩
    · rw [List.mapM_cons, hitem.line, hlines]
      rfl
    · rw [List.flatten_cons, scan_of_some (nextResult_noise_encode hitem.noise hitem.payload _),
        hscan]
      rfl

/-- **The frame parser is exact.** On every stream it reports what the reference scanner finds, and
frames that were encoded and sent over a line with noise between them arrive as they were sent. -/
theorem parser_exact (bytes : List UInt8) (items : List NoisyFrame)
    (hitems : ∀ item ∈ items, item.Valid) :
    pushResults {} bytes = scan bytes ∧
      ∃ lines, items.mapM NoisyFrame.line = .ok lines ∧
        pushResults {} lines.flatten = items.map fun item => .frameReady item.contents := by
  have hexact : ∀ stream, pushResults {} stream = scan stream := fun stream =>
    pushResults_eq_scan UpdateProtocolParser.wellFormed_init stream
  refine ⟨hexact bytes, ?_⟩
  obtain ⟨lines, hlines, hscan⟩ := scan_noisyFrames hitems
  exact ⟨lines, hlines, by rw [hexact, hscan]⟩

/-- Two frames: noise that ends like a magic, and a payload with a magic in it. -/
theorem parser_exact_supd :
    ∃ lines, [NoisyFrame.mk [0x53, 0x55, 0x50] 1 0 [] 14,
        NoisyFrame.mk [] 4 1 protocolMagic updateProtocolMaxFrameSize].mapM NoisyFrame.line =
          .ok lines ∧
      pushResults {} lines.flatten =
        [.frameReady ⟨1, 1, 0, []⟩, .frameReady ⟨1, 4, 1, protocolMagic⟩] := by
  refine (parser_exact [] [⟨[0x53, 0x55, 0x50], 1, 0, [], 14⟩,
    ⟨[], 4, 1, protocolMagic, updateProtocolMaxFrameSize⟩] ?_).2
  intro item hitem
  simp only [List.mem_cons, List.not_mem_nil, or_false] at hitem
  obtain rfl | rfl := hitem
  · exact ⟨by decide, by decide, by decide⟩
  · exact ⟨by decide, by decide, by decide⟩

end Stm32SecurityLab
