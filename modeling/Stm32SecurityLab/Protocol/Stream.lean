import Stm32SecurityLab.Crash.Loop
import Stm32SecurityLab.Protocol.Service

/-!
# A session and its line

What a session makes of everything that can come over the line: bytes, silences, and the two other
ways in which `update_protocol_session_process_reader` gives up. The frames it executes can be read
off the line, without a look at the session: a frame is executed if it is complete, has the right
version and carries the number of frames that have been executed before it.

## Main definitions

* `LineEvent`, `runLine` — a session that listens
* `acceptedFrames` — the frames that are executed

## Main results

* `handleLineEvent_spec` — what one event can do
* `runLine_spec` — the session counts the frames of `acceptedFrames`
* `wp_runLine_frame` — a frame that arrives as it was sent
-/

namespace Stm32SecurityLab

open Crash

/-! ### Events -/

/-- What can come over the line. -/
inductive LineEvent where
  | byte (value : UInt8)
  /-- No byte has come in time. -/
  | timeout
  /-- One byte too many has come. -/
  | overrun
  /-- The reader has failed. -/
  | failed
  deriving DecidableEq, Repr

/-- What an event does to a parser. -/
def LineEvent.parse (parser : UpdateProtocolParser) :
    LineEvent → UpdateProtocolParseStatus × UpdateProtocolParser
  | .byte value => updateProtocolParserPush parser value
  | .timeout => (.needMore, ReaderEnd.timeout.parserAfter parser)
  | .overrun => (.needMore, ReaderEnd.overrun.parserAfter parser)
  | .failed => (.needMore, parser)

/-- The session hears an event. -/
def handleLineEvent (crypto : Crypto) : LineEvent → Handler
  | .byte byte => updateProtocolSessionProcessByte crypto byte
  | .timeout => handleReaderEnd crypto .timeout
  | .overrun => handleReaderEnd crypto .overrun
  | .failed => handleReaderEnd crypto .failed

/-- The session hears one event after the other. -/
def runLine (crypto : Crypto) : List LineEvent → Prog UpdateProtocolSession Empty Unit
  | [] => pure ()
  | event :: events => do
    let _ ← handleLineEvent crypto event
    runLine crypto events

/-- The frames that are executed. -/
def acceptedFrames (parser : UpdateProtocolParser) (expectedSequence : UInt16) :
    List LineEvent → List UpdateProtocolFrame
  | [] => []
  | event :: events =>
    let out := event.parse parser
    if out.1 = .frameReady ∧ out.2.frame.version = updateProtocolVersion ∧
        out.2.frame.sequence = expectedSequence then
      out.2.frame :: acceptedFrames out.2 (expectedSequence + 1) events
    else
      acceptedFrames out.2 expectedSequence events

/-- The session with the parser that an event leaves. -/
def received (p : UpdateProtocolSession) (event : LineEvent) : UpdateProtocolSession :=
  { p with parser := (event.parse p.parser).2 }

theorem acceptedFrames_cons (p : UpdateProtocolSession) (event : LineEvent)
    (events : List LineEvent) :
    acceptedFrames p.parser p.expectedSequence (event :: events) =
      match accepted (received p event) (event.parse p.parser).1 with
      | some frame => frame ::
          acceptedFrames (received p event).parser (p.expectedSequence + 1) events
      | none => acceptedFrames (received p event).parser p.expectedSequence events := by
  rw [acceptedFrames]
  split
  · rename_i h
    rw [show accepted (received p event) (event.parse p.parser).1 = some _ from if_pos h]
    rfl
  · rename_i h
    rw [show accepted (received p event) (event.parse p.parser).1 = none from if_neg h]
    rfl

/-! ### One event -/

section Event

variable {crypto : Crypto} {p p' q : UpdateProtocolSession} {frame : UpdateProtocolFrame}
  {E : Empty → UpdateProtocolSession → Prop} {C : UpdateProtocolSession → Prop}

theorem handleTimeout_spec :
    wp handleTimeout p (fun _ p' => Heard (ReaderEnd.timeout.parserAfter p.parser) p p') E C := by
  rw [handleTimeout, wp_bind, wp_get, wp_ite, ReaderEnd.parserAfter]
  refine ⟨fun hpartial => ?_, fun hpartial => ?_⟩
  · rw [if_pos hpartial, wp_bind, wp_modify]
    split
    · exact ⟨_, _, rfl⟩
    · rw [wp_bind]
      refine (sendNack_spec _ _ _).mono ?_ (fun _ _ h => h) fun _ h => h
      intro status p' h
      rw [h.1.same, wp_ite]
      exact ⟨fun _ => ⟨_, _, rfl⟩, fun _ => ⟨_, _, rfl⟩⟩
  · rw [if_neg hpartial]
    exact ⟨_, _, rfl⟩

/-- **An event does one of the things `Handled` lists.** The power goes only while a frame is
executed. -/
theorem handleLineEvent_spec (event : LineEvent) :
    wp (handleLineEvent crypto event) p
      (fun _ p' => Handled crypto (event.parse p.parser).1 (received p event) p')
      (fun _ _ => False)
      (fun p' => ∃ frame, accepted (received p event) (event.parse p.parser).1 = some frame ∧
        Interrupted crypto frame (received p event) p') := by
  have hheard {p' : UpdateProtocolSession} {parser : UpdateProtocolParser}
      (h : Heard parser p p') : Handled crypto .needMore { p with parser } p' := by
    obtain ⟨lastStatus, written, rfl⟩ := h
    refine .skipped (if_neg fun h => ?_)
    cases h.1
  cases event with
  | byte byte => exact updateProtocolSessionProcessByte_spec byte
  | timeout => exact handleTimeout_spec.mono (fun _ _ h => hheard h) (fun _ _ h => h) fun _ h => h
  | overrun =>
    show wp (handleReaderEnd crypto .overrun) p _ _ _
    rw [handleReaderEnd, wp_bind, wp_modify]
    exact hheard ⟨_, _, rfl⟩
  | failed =>
    show wp (handleReaderEnd crypto .failed) p _ _ _
    rw [handleReaderEnd, wp_bind, setLastStatus, wp_modify]
    exact hheard ⟨_, _, rfl⟩

/-- Executing a frame changes neither the parser nor the sequence number. -/
theorem Executed.line {ack : Bool} (h : Executed crypto frame p ack q) :
    q.parser = p.parser ∧ q.expectedSequence = p.expectedSequence ∧ q.write = p.write := by
  cases h <;> exact ⟨rfl, rfl, rfl⟩

theorem Executed.written {ack : Bool} (h : Executed crypto frame p ack q) :
    q.written = p.written := by
  cases h <;> rfl

theorem Answered.line {ack : Bool} {sequence : UInt16} {command : UInt8}
    (h : Answered ack sequence command p p') :
    p'.parser = p.parser ∧ p'.expectedSequence = p.expectedSequence ∧ p'.write = p.write := by
  rw [h.same]
  exact ⟨rfl, rfl, rfl⟩

theorem Handled.parser {status : UpdateProtocolParseStatus} (h : Handled crypto status p p') :
    p'.parser = p.parser := by
  cases h with
  | skipped => rfl
  | executed _ run answer => exact answer.line.1.trans run.line.1

theorem Handled.write {status : UpdateProtocolParseStatus} (h : Handled crypto status p p') :
    p'.write = p.write := by
  cases h with
  | skipped => rfl
  | executed _ run answer => exact answer.line.2.2.trans run.line.2.2

/-- The sequence number advances with every executed frame, and only then. -/
theorem Handled.expectedSequence {status : UpdateProtocolParseStatus}
    (h : Handled crypto status p p') :
    p'.expectedSequence =
      if (accepted p status).isSome then p.expectedSequence + 1 else p.expectedSequence := by
  cases h with
  | skipped none => rw [none]; rfl
  | executed some run answer =>
    rw [some]
    show _ + 1 = p.expectedSequence + 1
    rw [answer.line.2.1, run.line.2.1]

end Event

/-! ### Runs -/

section Runs

variable {crypto : Crypto} {p : UpdateProtocolSession}

/-- **The session counts the frames it executes.** -/
theorem runLine_spec (events : List LineEvent) :
    wp (runLine crypto events) p
      (fun _ p' => p'.expectedSequence = p.expectedSequence +
        UInt16.ofNat (acceptedFrames p.parser p.expectedSequence events).length)
      (fun _ _ => False) fun _ => True := by
  induction events generalizing p with
  | nil => exact (UInt16.add_zero _).symm
  | cons event events ih =>
    rw [runLine, wp_bind]
    refine (handleLineEvent_spec event).mono ?_ (fun _ _ h => h) fun _ _ => trivial
    intro _ p' h
    refine ih.mono ?_ (fun _ _ h => h) fun _ _ => trivial
    rintro _ p'' heq
    have hsequence := h.expectedSequence
    rw [heq, acceptedFrames_cons, h.parser]
    rcases hframe : accepted (received p event) (event.parse p.parser).1 with _ | frame
    · rw [hframe] at hsequence
      rw [show p'.expectedSequence = p.expectedSequence from hsequence]
    · rw [hframe] at hsequence
      rw [show p'.expectedSequence = p.expectedSequence + 1 from hsequence]
      dsimp only
      rw [List.length_cons, UInt16.ofNat_add, UInt16.add_assoc, UInt16.add_comm 1]
      rfl

theorem runLine_append (events events' : List LineEvent) :
    runLine crypto (events ++ events') = (do
      runLine crypto events
      runLine crypto events') := by
  induction events with
  | nil => rfl
  | cons event events ih =>
    rw [List.cons_append, runLine, runLine, ih, bind_assoc]

end Runs

/-! ### Bytes that arrive one after the other -/

section Delivery

variable {crypto : Crypto} {p : UpdateProtocolSession} {Q : Unit → UpdateProtocolSession → Prop}
  {E : Empty → UpdateProtocolSession → Prop} {C : UpdateProtocolSession → Prop}

/-- The first push that does not ask for more, and the bytes behind it. -/
def firstParse (parser : UpdateProtocolParser) :
    List UInt8 → Option ((UpdateProtocolParseStatus × UpdateProtocolParser) × List UInt8)
  | [] => none
  | byte :: bytes =>
    match updateProtocolParserPush parser byte with
    | (.needMore, parser') => firstParse parser' bytes
    | out => some (out, bytes)

/-- The first result of a parser, with the parser. -/
theorem firstParse_of_firstResult {parser : UpdateProtocolParser} {bytes rest : List UInt8}
    {result : ParseResult} (wf : parser.WellFormed)
    (h : firstResult parser bytes = some (result, rest)) :
    ∃ out, firstParse parser bytes = some (out, rest) ∧ parseResult out = some result ∧
      out.2.WellFormed ∧ out.2.held = [] := by
  induction bytes generalizing parser with
  | nil => cases h
  | cons byte bytes ih =>
    have hwf := wf.push byte
    have hheld := @held_of_parseResult parser byte
    rw [firstResult] at h
    rw [firstParse]
    rcases hpush : updateProtocolParserPush parser byte with ⟨status, parser'⟩
    rw [hpush] at h hwf hheld
    cases status with
    | needMore => exact ih hwf h
    | _ =>
      obtain ⟨rfl, rfl⟩ := Prod.mk.inj (Option.some.inj h)
      exact ⟨_, rfl, rfl, hwf, hheld wf rfl⟩

/-- Nothing happens before the parser reports a result. -/
theorem wp_runLine_firstParse {bytes rest : List UInt8} {status : UpdateProtocolParseStatus}
    {parser' : UpdateProtocolParser}
    (hfirst : firstParse p.parser bytes = some ((status, parser'), rest))
    (hQ : wp (handleParsed crypto status) { p with parser := parser' }
      (fun _ p' => wp (runLine crypto (rest.map .byte)) p' Q E C) E C) :
    wp (runLine crypto (bytes.map .byte)) p Q E C := by
  induction bytes generalizing p with
  | nil => cases hfirst
  | cons byte bytes ih =>
    rw [firstParse] at hfirst
    rw [List.map_cons, runLine, wp_bind, handleLineEvent, updateProtocolSessionProcessByte, wp_bind,
      wp_get]
    rcases hpush : updateProtocolParserPush p.parser byte with ⟨status', parser''⟩
    rw [hpush] at hfirst
    dsimp only
    rw [wp_bind, wp_modify]
    cases status' with
    | needMore => exact ih hfirst hQ
    | _ =>
      obtain ⟨hout, rfl⟩ := Prod.mk.inj (Option.some.inj hfirst)
      obtain ⟨rfl, rfl⟩ := Prod.mk.inj hout
      exact hQ

/-- No frame is executed before the parser reports a result. -/
theorem acceptedFrames_firstParse {parser parser' : UpdateProtocolParser} {sequence : UInt16}
    {bytes rest : List UInt8} {status : UpdateProtocolParseStatus}
    (hfirst : firstParse parser bytes = some ((status, parser'), rest)) :
    acceptedFrames parser sequence (bytes.map .byte) =
      if status = .frameReady ∧ parser'.frame.version = updateProtocolVersion ∧
          parser'.frame.sequence = sequence then
        parser'.frame :: acceptedFrames parser' (sequence + 1) (rest.map .byte)
      else
        acceptedFrames parser' sequence (rest.map .byte) := by
  induction bytes generalizing parser with
  | nil => cases hfirst
  | cons byte bytes ih =>
    rw [firstParse] at hfirst
    rw [List.map_cons, acceptedFrames, LineEvent.parse]
    rcases hpush : updateProtocolParserPush parser byte with ⟨status', parser''⟩
    rw [hpush] at hfirst
    cases status' with
    | needMore =>
      rw [if_neg fun h => by cases h.1]
      exact ih hfirst
    | _ =>
      obtain ⟨hout, rfl⟩ := Prod.mk.inj (Option.some.inj hfirst)
      obtain ⟨rfl, rfl⟩ := Prod.mk.inj hout
      rfl

/-- A frame that arrives as it was sent is the first result of an empty parser. -/
theorem firstParse_frame {parser : UpdateProtocolParser} {command : UInt8} {sequence : UInt16}
    {payload : List UInt8} (wf : parser.WellFormed) (hheld : parser.held = [])
    (hlength : payload.length ≤ updateProtocolMaxPayloadSize) :
    ∃ parser', firstParse parser (outgoing command sequence payload).encode =
        some ((.frameReady, parser'), []) ∧ parser'.WellFormed ∧ parser'.held = [] ∧
      parser'.frame.contents = ⟨updateProtocolVersion, command, sequence, payload⟩ := by
  have hfirst : firstResult parser (outgoing command sequence payload).encode =
      some (.frameReady ⟨updateProtocolVersion, command, sequence, payload⟩, []) := by
    have hnoise : ¬ protocolMagic <:+: [] := by decide
    have := @nextResult_noise_encode command sequence payload [] hnoise hlength []
    rw [List.nil_append, List.append_nil] at this
    rw [firstResult_eq_nextResult wf, hheld, List.nil_append, this]
  obtain ⟨⟨status, parser'⟩, hparse, hresult, hwf, hheld'⟩ := firstParse_of_firstResult wf hfirst
  cases status with
  | frameReady =>
    exact ⟨parser', hparse, hwf, hheld', ParseResult.frameReady.inj (Option.some.inj hresult)⟩
  | _ => cases hresult

/-- A frame in sequence that arrives as it was sent is the one frame that is executed. -/
theorem acceptedFrames_frame {parser : UpdateProtocolParser} {command : UInt8} {sequence : UInt16}
    {payload : List UInt8} (wf : parser.WellFormed) (hheld : parser.held = [])
    (hlength : payload.length ≤ updateProtocolMaxPayloadSize) :
    (acceptedFrames parser sequence ((outgoing command sequence payload).encode.map .byte)).map
      (·.contents) = [⟨updateProtocolVersion, command, sequence, payload⟩] := by
  obtain ⟨parser', hparse, -, -, hcontents⟩ := @firstParse_frame parser command sequence _ wf hheld
    hlength
  rw [acceptedFrames_firstParse hparse, if_pos ⟨rfl, congrArg Frame.version hcontents,
    congrArg Frame.sequence hcontents⟩, List.map_cons, hcontents]
  rfl

/-- **A frame that arrives as it was sent is handled.** -/
theorem wp_runLine_frame {command : UInt8} {sequence : UInt16} {payload : List UInt8}
    (wf : p.parser.WellFormed) (hheld : p.parser.held = [])
    (hlength : payload.length ≤ updateProtocolMaxPayloadSize)
    (hQ : ∀ parser', parser'.WellFormed → parser'.held = [] →
      parser'.frame.contents = ⟨updateProtocolVersion, command, sequence, payload⟩ →
      wp (handleFrame crypto parser'.frame) { p with parser := parser' } (fun _ p' => Q () p') E C) :
    wp (runLine crypto ((outgoing command sequence payload).encode.map .byte)) p Q E C := by
  obtain ⟨parser', hparse, hwf, hheld', hcontents⟩ := @firstParse_frame p.parser command sequence _ wf
    hheld hlength
  exact wp_runLine_firstParse hparse (hQ parser' hwf hheld' hcontents)

/-- **A frame in sequence that arrives as it was sent is executed.** -/
theorem wp_runLine_inSequence {command : UInt8} {payload : List UInt8}
    (wf : p.parser.WellFormed) (hheld : p.parser.held = [])
    (hlength : payload.length ≤ updateProtocolMaxPayloadSize)
    (hQ : ∀ parser', parser'.WellFormed → parser'.held = [] →
      parser'.frame.contents = ⟨updateProtocolVersion, command, p.expectedSequence, payload⟩ →
      wp (executeFrame crypto parser'.frame) { p with parser := parser' }
        (fun _ p' => Q () { p' with expectedSequence := p'.expectedSequence + 1 }) E C) :
    wp (runLine crypto ((outgoing command p.expectedSequence payload).encode.map .byte)) p Q E C := by
  refine wp_runLine_frame wf hheld hlength fun parser' wf' hheld' hcontents => ?_
  have hversion : parser'.frame.version = updateProtocolVersion := congrArg Frame.version hcontents
  have hsequence : parser'.frame.sequence = p.expectedSequence := congrArg Frame.sequence hcontents
  rw [handleFrame, wp_bind, wp_get, if_neg (fun h => h hversion), if_neg (fun h => h hsequence),
    wp_bind]
  exact hQ parser' wf' hheld' hcontents

/-- **A frame out of sequence that arrives as it was sent is refused.** -/
theorem wp_runLine_outOfSequence {command : UInt8} {sequence : UInt16} {payload : List UInt8}
    (wf : p.parser.WellFormed) (hheld : p.parser.held = [])
    (hlength : payload.length ≤ updateProtocolMaxPayloadSize) (hne : sequence ≠ p.expectedSequence)
    (hQ : ∀ parser' p', parser'.WellFormed → parser'.held = [] →
      Answered false sequence command { p with parser := parser' } p' →
      p'.lastStatus = .sequenceError → Q () p') :
    wp (runLine crypto ((outgoing command sequence payload).encode.map .byte)) p Q E C := by
  refine wp_runLine_frame wf hheld hlength fun parser' wf' hheld' hcontents => ?_
  have hversion : parser'.frame.version = updateProtocolVersion := congrArg Frame.version hcontents
  have hcommand : parser'.frame.command = command := congrArg Frame.command hcontents
  have hsequence : parser'.frame.sequence = sequence := congrArg Frame.sequence hcontents
  rw [handleFrame, wp_bind, wp_get, if_neg (fun h => h hversion),
    if_pos (by rw [hsequence]; exact hne), refuse, hsequence, hcommand]
  exact (sendNack_spec _ _ _).mono (fun _ p' h => hQ parser' p' wf' hheld' h.1 h.2.1)
    (fun _ _ h => h) fun _ h => h

end Delivery

end Stm32SecurityLab
