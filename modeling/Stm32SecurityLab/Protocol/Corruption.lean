import Stm32SecurityLab.Platform.Checksum
import Stm32SecurityLab.Protocol.Scanner

/-!
# Bursts in frames and records

What the CRC layer as a whole is good for. The four loops of the firmware compute one function, and
a frame or a metadata record that is altered inside four consecutive bytes is refused: the record
wherever the four bytes are, the frame as long as its magic and its length field arrive, since
without these the parser reads other bytes as the frame.

## Main definitions

* `pushed` — a parser after some bytes
* `DeliveredAltered` — a frame altered by a burst that leaves the magic and the length alone

## Main results

* `firstResult_altered` — the first and only result on such a frame is a CRC error, at its end
* `crc32_layer` — the CRC layer
-/

namespace Stm32SecurityLab

open UpdateProtocolParser

/-! ### Frames -/

/-- What is encoded fits, and is the frame as it stands on the wire. -/
theorem eq_of_updateProtocolEncodeFrame {command : UInt8} {sequence : UInt16} {payload : Mem}
    {payloadLength : UInt16} {outputCapacity : ℕ} {bytes : List UInt8}
    (h : updateProtocolEncodeFrame command sequence payload payloadLength outputCapacity =
      .ok bytes) :
    payloadLength.toNat ≤ updateProtocolMaxPayloadSize ∧
      ∃ frame : UpdateProtocolFrame, frame.payloadLength = payloadLength ∧ bytes = frame.encode := by
  rw [updateProtocolEncodeFrame] at h
  split at h
  · cases h
  by_cases hlong : payloadLength.toNat > updateProtocolMaxPayloadSize
  · rw [buildHeader, if_pos hlong] at h
    cases h
  · rw [buildHeader, if_neg hlong] at h
    refine ⟨Nat.not_lt.mp hlong, ⟨updateProtocolVersion, command, sequence, payloadLength, payload⟩,
      rfl, ?_⟩
    exact (Except.ok.inj h).symm

/-- A frame on the wire is a header and a payload with their CRC behind them. -/
theorem encode_eq_codeword (frame : UpdateProtocolFrame) :
    frame.encode = codeword (frame.header ++ frame.data) := by
  rw [UpdateProtocolFrame.encode, frameCrc_eq]
  rfl

/-- The bytes differ from the encoded frame inside four consecutive positions, and not in the magic
or the length field. -/
structure DeliveredAltered (encoded bytes : List UInt8) : Prop where
  burst : Crc.Burst 4 encoded bytes
  magic : protocolMagic <+: bytes
  length₀ : bytes[8]? = encoded[8]?
  length₁ : bytes[9]? = encoded[9]?

/-- The length field arrives. -/
theorem DeliveredAltered.payloadLength {frame altered : UpdateProtocolFrame} {body : List UInt8}
    (h : DeliveredAltered frame.encode (altered.header ++ body)) :
    altered.payloadLength = frame.payloadLength := by
  have hbyte : ∀ i, (altered.header ++ body)[i]? = frame.encode[i]? →
      byteAt (altered.header ++ body) i = byteAt frame.encode i := by
    intro i hi
    rw [byteAt, byteAt, List.getD, List.getD, hi]
  have hload : loadLe16 (byteAt (altered.header ++ body)) 8 = loadLe16 (byteAt frame.encode) 8 := by
    rw [loadLe16, loadLe16, hbyte 8 h.length₀, hbyte 9 h.length₁]
  rwa [loadLe16_header, UpdateProtocolFrame.encode, List.append_assoc, loadLe16_header] at hload

/-- One byte of a frame altered, neither of the magic nor of the length field. -/
theorem DeliveredAltered.set {frame : UpdateProtocolFrame} {i : ℕ} {v : UInt8} (hmagic : 4 ≤ i)
    (hlength₀ : i ≠ 8) (hlength₁ : i ≠ 9) (hi : i < frame.encode.length)
    (hv : frame.encode[i]? ≠ some v) : DeliveredAltered frame.encode (frame.encode.set i v) where
  burst := Crc.Burst.set (by decide) hv hi
  magic := by
    rw [List.prefix_iff_eq_take, List.take_set, List.set_eq_of_length_le]
    · rfl
    · rw [List.length_take]
      exact (Nat.min_le_left _ _).trans hmagic
  length₀ := List.getElem?_set_ne hlength₀
  length₁ := List.getElem?_set_ne hlength₁

/-- The scanner takes all of an altered frame and finds its CRC wrong. -/
theorem nextResult_altered {frame : UpdateProtocolFrame} {bytes : List UInt8}
    (hshort : frame.payloadLength.toNat ≤ updateProtocolMaxPayloadSize)
    (h : DeliveredAltered frame.encode bytes) : nextResult bytes = some (.errCrc, []) := by
  have hlength : bytes.length = updateProtocolHeaderSize + frame.payloadLength.toNat +
      updateProtocolCrcSize := by
    rw [h.burst.length, UpdateProtocolFrame.encode, List.length_append, List.length_append,
      frame.data_length, storeLe32_length, header_length, updateProtocolCrcSize]
  obtain ⟨altered, body, rfl⟩ := exists_header (by omega) h.magic
  have hpayload := h.payloadLength
  obtain ⟨n, hn⟩ : ∃ n, n = frame.payloadLength.toNat := ⟨_, rfl⟩
  have hbody : body.length = n + updateProtocolCrcSize := by
    rw [List.length_append, header_length] at hlength
    omega
  have hcrc : (body.drop n).length = 4 := by
    rw [List.length_drop, hbody, updateProtocolCrcSize]
    omega
  have hwrong : updateProtocolCrc32 (altered.header ++ body.take n) ≠
      loadLe32 (byteAt (body.drop n)) 0 := by
    intro hright
    -- the altered frame would carry its own CRC, as the encoded one does
    have hstored : storeLe32 (loadLe32 (byteAt (body.drop n)) 0) = body.drop n := by
      have hslice := slice_byteAt (body.drop n)
      rwa [hcrc, ← storeLe32_loadLe32] at hslice
    have hcodeword : altered.header ++ body = codeword (altered.header ++ body.take n) := by
      change _ = altered.header ++ body.take n ++
        storeLe32 (updateProtocolCrc32 (altered.header ++ body.take n))
      rw [hright, hstored, List.append_assoc, List.take_append_drop]
    have hburst := h.burst
    rw [encode_eq_codeword] at hburst
    exact ne_codeword_of_burst hburst hcodeword
  rw [nextResult_header, hpayload, ← hn, if_neg (by omega), if_neg (by omega), if_neg hwrong,
    List.drop_eq_nil_of_le (Nat.le_of_eq hbody)]

/-! ### The parser -/

/-- A parser after some bytes. -/
def pushed (bytes : List UInt8) : UpdateProtocolParser :=
  bytes.foldl (fun parser byte => (updateProtocolParserPush parser byte).2) {}

theorem wellFormed_pushed (bytes : List UInt8) : (pushed bytes).WellFormed := by
  have hfold : ∀ parser : UpdateProtocolParser, parser.WellFormed →
      (bytes.foldl (fun parser byte => (updateProtocolParserPush parser byte).2)
        parser).WellFormed := by
    induction bytes with
    | nil => exact fun _ wf => wf
    | cons byte bytes ih => exact fun parser wf => ih _ (wf.push byte)
  exact hfold {} wellFormed_init

/-- A parser that waits for the first byte of a magic holds nothing. -/
theorem held_of_waiting {parser : UpdateProtocolParser} (wf : parser.WellFormed)
    (hstate : parser.state = .sync) (hmagic : parser.magicMatched = 0) : parser.held = [] := by
  rw [WellFormed, hstate] at wf
  obtain ⟨-, hheader, -, hpayload, hcrc⟩ := wf
  rw [held, hheader, hmagic, hpayload, hcrc]
  rfl

/-- **An altered frame gives a CRC error**, with its last byte, and nothing else. -/
theorem firstResult_altered {parser : UpdateProtocolParser} {frame : UpdateProtocolFrame}
    {bytes : List UInt8} (wf : parser.WellFormed) (hheld : parser.held = [])
    (hshort : frame.payloadLength.toNat ≤ updateProtocolMaxPayloadSize)
    (h : DeliveredAltered frame.encode bytes) :
    firstResult parser bytes = some (.errCrc, []) ∧ pushResults parser bytes = [.errCrc] := by
  have hnext := nextResult_altered hshort h
  refine ⟨?_, ?_⟩
  · rw [firstResult_eq_nextResult wf, hheld, List.nil_append, hnext]
  · rw [pushResults_eq_scan wf, hheld, List.nil_append, scan_of_some hnext, scan_of_none rfl]

/-! ### The layer -/

/-- **The CRC layer.** The CRC can be computed piece by piece, the four loops agree on every input,
and a burst inside four bytes is detected: in a string with its CRC behind it, in a metadata record
and in a frame. -/
theorem crc32_layer :
    (∀ crc a b, updateProtocolCrc32Update (updateProtocolCrc32Update crc a) b =
      updateProtocolCrc32Update crc (a ++ b)) ∧
    (∀ crc data, crc32Update crc data = updateProtocolCrc32Update crc data ∧
      rsmCrc32Update crc data = updateProtocolCrc32Update crc data) ∧
    (∀ data, faultCrc32 data = updateProtocolCrc32 data) ∧
    (∀ x y z, Crc.Burst 4 (x ++ storeLe32 (updateProtocolCrc32 x)) z →
      z ≠ y ++ storeLe32 (updateProtocolCrc32 y)) ∧
    (∀ record encoded input, bootMetadataEncode record = .ok encoded →
      Crc.Burst 4 encoded input → ∃ e, bootMetadataDecode input = .error e) ∧
    ∀ command sequence payload payloadLength outputCapacity encoded bytes before,
      updateProtocolEncodeFrame command sequence payload payloadLength outputCapacity =
        .ok encoded →
      DeliveredAltered encoded bytes →
      (pushed before).state = .sync → (pushed before).magicMatched = 0 →
      firstResult (pushed before) bytes = some (.errCrc, []) ∧
        pushResults (pushed before) bytes = [.errCrc] := by
  refine ⟨crc32Update_append, fun crc data => ⟨rfl, rsmCrc32Update_eq crc data⟩, faultCrc32_eq,
    fun x y z h => ne_codeword_of_burst h, ?_, ?_⟩
  · intro record encoded input hencode hburst
    rw [bootMetadataEncode] at hencode
    split at hencode
    · cases hencode
    · obtain rfl := Except.ok.inj hencode
      exact bootMetadataDecode_burst hburst
  · intro command sequence payload payloadLength outputCapacity encoded bytes before hencode
      haltered hstate hmagic
    obtain ⟨hshort, frame, rfl, rfl⟩ := eq_of_updateProtocolEncodeFrame hencode
    have wf := wellFormed_pushed before
    exact firstResult_altered wf (held_of_waiting wf hstate hmagic) hshort haltered

/-- A confirmed record with another active slot, and a `HELLO` made a `GET_INFO` behind noise. -/
theorem crc32_layer_oneByte :
    (∃ encoded e, bootMetadataEncode ⟨1, .confirmed, 0, bootSlotNone, 1, 0, 1, 0⟩ = .ok encoded ∧
      bootMetadataDecode (encoded.set 20 1) = .error e) ∧
    ∃ encoded, updateProtocolEncodeFrame 1 0 (fun _ => 0) 0 14 = .ok encoded ∧
      firstResult (pushed [0x53, 0x00]) (encoded.set 5 2) = some (.errCrc, []) := by
  obtain ⟨-, -, -, -, hrecord, hframe⟩ := crc32_layer
  obtain ⟨record, hr⟩ : ∃ record : BootMetadataRecord,
      record = ⟨1, .confirmed, 0, bootSlotNone, 1, 0, 1, 0⟩ := ⟨_, rfl⟩
  have hencode : bootMetadataEncode record = .ok (encodedRecord record) := by
    rw [bootMetadataEncode, hr]
    rfl
  have hslot : (encodedRecord record)[20]? = some 0 := by
    rw [hr]
    rfl
  obtain ⟨e, he⟩ := hrecord _ _ _ hencode (Crc.Burst.set (i := 20) (v := 1) (by decide)
    (by rw [hslot]; decide) (by rw [encodedRecord_length]; decide))
  have hsent := @updateProtocolEncodeFrame_eq 1 0 (fun _ => 0) 0 14 (by decide) (by decide)
  refine ⟨⟨_, e, hr ▸ hencode, he⟩, _, hsent, ?_⟩
  refine (hframe 1 0 (fun _ => 0) 0 14 _ _ [0x53, 0x00] hsent ?_ rfl rfl).1
  exact DeliveredAltered.set (by decide) (by decide) (by decide) (by decide) (by decide)

end Stm32SecurityLab
