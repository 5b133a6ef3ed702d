import Stm32SecurityLab.Host.Agreement

/-!
# A line that loses frames

A line that loses a frame now and then, in either direction, and does nothing else. The client sees
a silence and cannot tell whether the target has executed its request; the target has moved on if it
has. So a question that is asked again, or an abort, is welcome exactly if it was the request that
was lost.

## Main definitions

* `Host.Loss`, `Host.Passage.Drops` — what the line may do
* `Host.Reachable` — the pairs of states a client and a target reach over such a line
* `Host.Settled` — what holds of all of them
* `Host.Reacted` — what a target makes of a request that arrives

## Main results

* `Host.Reachable.settled`
* `Host.lost_frame_survived_iff` — which losses a client survives
-/

namespace Stm32SecurityLab.Host

open Crash

/-! ### What the line may do -/

/-- Which of the two frames of an exchange is lost. -/
inductive Loss where
  | request
  | response
  deriving DecidableEq, Repr

/-- The line loses the frame. -/
def Loss.passage : Loss → Passage
  | .request => .lostRequest
  | .response => .lostResponse

/-- Frames arrive whole or not at all. -/
def Passage.Drops (passage : Passage) : Prop :=
  passage = .clear ∨ ∃ loss : Loss, passage = loss.passage

/-- The pairs of states that a client and a target reach from their first ones over a line that
loses frames. Between two exchanges the caller may change whatever else the client knows. -/
inductive Reachable (crypto : Crypto) : Link → Prop
  | start {client : Client} {flash : BootFlash} {publicKey : List UInt8}
      {options : UpdateInstallOptions} {write : ℕ → List UInt8 → UpdateProtocolStatus}
      {programBuffer : Mem} {dev : Device} {passages : List Passage}
      (sequence : client.sequence = 0) (timeout : 0 < client.timeout)
      (writer : ∀ n data, write n data = .ok) :
      Reachable crypto
        { client
          target := updateProtocolSessionInit flash publicKey options write programBuffer dev
          passages }
  | answered {link link' : Link} {command : UpdateProtocolCommand} {payload : List UInt8}
      {response : Response} (before : Reachable crypto link)
      (drops : (link.passages.headD .clear).Drops)
      (run : exchange crypto command payload link = .ret response link') : Reachable crypto link'
  | failed {link link' : Link} {command : UpdateProtocolCommand} {payload : List UInt8}
      {e : HostError} (before : Reachable crypto link) (drops : (link.passages.headD .clear).Drops)
      (run : exchange crypto command payload link = .err e link') : Reachable crypto link'
  | meanwhile {link : Link} {timeout : ℚ} {retries : ℤ} {info : Option Info}
      {passages : List Passage} (before : Reachable crypto link) (positive : 0 < timeout) :
      Reachable crypto
        { link with client := { link.client with timeout, retries, info }, passages }

/-- Nothing is half done: there is no unread byte at either end, and the writer of the target
works. -/
structure Settled (link : Link) : Prop where
  sequence : link.client.sequence ≤ 0xFFFF
  timeout : 0 < link.client.timeout
  unread : link.unread = []
  parser : link.target.parser.WellFormed
  held : link.target.parser.held = []
  writer : link.target.WriterWorks

/-! ### What the target makes of a request -/

/-- What a target makes of a request that arrives: it executes it, or it refuses it for its sequence
number. -/
inductive Reacted (crypto : Crypto) (command : UpdateProtocolCommand) (sequence : UInt16)
    (payload : List UInt8) (p : UpdateProtocolSession) : Bool → UpdateProtocolSession → Prop
  | executed {parser : UpdateProtocolParser} {ack : Bool} {q : UpdateProtocolSession}
      {lastStatus : UpdateProtocolStatus} {written : List (List UInt8)}
      (inSequence : sequence = p.expectedSequence)
      (contents : parser.frame.contents =
        ⟨updateProtocolVersion, command.toUInt8, sequence, payload⟩)
      (run : Executed crypto parser.frame { p with parser } ack q) :
      Reacted crypto command sequence payload p ack
        { q with lastStatus, written, expectedSequence := q.expectedSequence + 1 }
  | refused {parser : UpdateProtocolParser} {lastStatus : UpdateProtocolStatus}
      {written : List (List UInt8)} (outOfSequence : sequence ≠ p.expectedSequence) :
      Reacted crypto command sequence payload p false { p with parser, lastStatus, written }

section Target

variable {crypto : Crypto} {command : UpdateProtocolCommand} {sequence : UInt16}
  {payload : List UInt8} {p p' : UpdateProtocolSession} {ack : Bool}

theorem Reacted.expectedSequence (h : Reacted crypto command sequence payload p ack p') :
    p'.expectedSequence =
      if sequence = p.expectedSequence then p.expectedSequence + 1 else p.expectedSequence := by
  cases h with
  | executed inSequence _ run =>
    rw [if_pos inSequence]
    exact congrArg (· + 1) run.line.2.1
  | refused outOfSequence => rw [if_neg outOfSequence]

/-- The target has heard a request and written one answer. -/
structure Served (crypto : Crypto) (command : UpdateProtocolCommand) (sequence : UInt16)
    (payload : List UInt8) (p : UpdateProtocolSession) (ack : Bool)
    (status : UpdateProtocolStatus) (p' : UpdateProtocolSession) : Prop where
  reacted : Reacted crypto command sequence payload p ack p'
  parser : p'.parser.WellFormed
  held : p'.parser.held = []
  write : p'.write = p.write
  status : status = .ok ↔ ack = true

/-- **A target that hears a whole request reacts to it and writes one answer.** -/
theorem runLine_served (wf : p.parser.WellFormed) (hheld : p.parser.held = [])
    (hwriter : p.WriterWorks) (hlength : payload.length ≤ updateProtocolMaxPayloadSize) :
    wp (runLine crypto ((outgoing command.toUInt8 sequence payload).encode.map .byte)) p
      (fun _ p' => ∃ ack status extra,
        WroteAnswer ack sequence command.toUInt8 status extra p p' ∧
          Served crypto command sequence payload p ack status p')
      (fun _ _ => False) fun _ => True := by
  by_cases hsequence : sequence = p.expectedSequence
  · subst hsequence
    refine wp_runLine_inSequence wf hheld hlength fun parser' wf' hheld' hcontents => ?_
    refine executeFrame_spec.mono ?_ (fun _ _ h => h) fun _ _ => trivial
    rintro _ r ⟨ack, q, hrun, hanswer⟩
    obtain ⟨hparser, -, hwrite⟩ := hrun.line
    rw [show parser'.frame.command = _ from congrArg Frame.command hcontents,
      show parser'.frame.sequence = _ from congrArg Frame.sequence hcontents] at hanswer
    have hworks : q.WriterWorks := by
      intro n data
      rw [hwrite]
      exact hwriter n data
    obtain ⟨extra, hextra, pieces, hwritten, hpieces⟩ := wroteAnswer_of_answered hanswer hworks
    obtain ⟨hparser', -, hwrite'⟩ := hanswer.line
    have hafter : ({ r with expectedSequence := r.expectedSequence + 1 } : UpdateProtocolSession) =
        { q with
          lastStatus := r.lastStatus
          written := r.written
          expectedSequence := q.expectedSequence + 1 } := by rw [hanswer.same]
    refine ⟨ack, r.lastStatus, extra, ⟨hextra, pieces, hwritten.trans ?_, hpieces⟩, ?_, ?_, ?_, ?_, ?_⟩
    · rw [hrun.written]
    · rw [hafter]
      exact .executed rfl hcontents hrun
    · rw [hparser', hparser]
      exact wf'
    · rw [hparser', hparser]
      exact hheld'
    · exact hwrite'.trans hwrite
    · exact hanswer.status
  · refine wp_runLine_outOfSequence wf hheld hlength hsequence ?_
    intro parser' p' wf' hheld' hanswer _
    obtain ⟨extra, hwrote⟩ := wroteAnswer_of_answered hanswer hwriter
    obtain ⟨hparser', -, hwrite'⟩ := hanswer.line
    refine ⟨false, p'.lastStatus, extra, hwrote, ?_, ?_, ?_, hwrite', hanswer.status⟩
    · rw [hanswer.same]
      exact .refused hsequence
    · rw [hparser']
      exact wf'
    · rw [hparser']
      exact hheld'

end Target

/-! ### Exchanges -/

section Exchanges

variable {crypto : Crypto} {link link' : Link} {command : UpdateProtocolCommand}
  {payload : List UInt8}

namespace Settled

theorem ready (h : Settled link) (hlength : payload.length ≤ updateProtocolMaxPayloadSize) :
    Ready link payload := ⟨h.sequence, h.timeout, h.unread, hlength⟩

theorem served {client : Client} {ack : Bool} {status : UpdateProtocolStatus} {sequence : UInt16}
    {target : UpdateProtocolSession} {passages : List Passage} (h : Settled link)
    (hserved : Served crypto command sequence payload link.target ack status target)
    (hsequence : client.sequence ≤ 0xFFFF) (htimeout : client.timeout = link.client.timeout) :
    Settled { link with client, target, passages } where
  sequence := hsequence
  timeout := by
    show 0 < client.timeout
    rw [htimeout]
    exact h.timeout
  unread := h.unread
  parser := hserved.parser
  held := hserved.held
  writer := by
    intro n data
    show target.write n data = .ok
    rw [hserved.write]
    exact h.writer n data

/-- Nothing is lost. -/
theorem exchange_clear (h : Settled link) (hlength : payload.length ≤ updateProtocolMaxPayloadSize)
    (hclear : link.passages.headD .clear = .clear) :
    wp (exchange crypto command payload) link
      (fun response link' => ∃ ack status target,
        Served crypto command (UInt16.ofNat link.client.sequence) payload link.target ack status
          target ∧
        response.responseCommand = (if ack then .ack else .nack) ∧
        link' = { link with
          client := link.client.advanced, target, passages := link.passages.tail })
      (fun _ _ => False) fun _ => True := by
  have hrun := @runLine_served crypto command (UInt16.ofNat link.client.sequence) payload
    link.target h.parser h.held h.writer hlength
  have hheard : link.heard command payload =
      (outgoing command.toUInt8 (UInt16.ofNat link.client.sequence) payload).encode.map .byte := by
    rw [Link.heard, hclear]
    rfl
  rw [← hheard] at hrun
  refine (exchange_answered (h.ready hlength) (by rw [hclear]; rfl) hrun).mono ?_ (fun _ _ h => h)
    fun _ h => h
  rintro response link' ⟨target, ack, status, extra, hserved, rfl, rfl⟩
  exact ⟨ack, status, target, hserved, rfl, rfl⟩

/-- The request is lost. -/
theorem exchange_lostRequest (h : Settled link)
    (hlength : payload.length ≤ updateProtocolMaxPayloadSize)
    (hlost : link.passages.headD .clear = Loss.request.passage) :
    exchange crypto command payload link =
      .err .timedOut { link with passages := link.passages.tail } := by
  have hheard : link.heard command payload = [] := by
    rw [Link.heard, hlost]
    rfl
  have hrun : wp (runLine crypto (link.heard command payload)) link.target
      (fun _ p' => p' = link.target ∧ ((link.passages.headD .clear).toHost
        (p'.written.drop link.target.written.length).flatten).flatten = [])
      (fun _ _ => False) fun _ => False := by
    rw [hheard, hlost]
    refine ⟨rfl, ?_⟩
    rw [List.drop_length]
    rfl
  have hwp := exchange_unanswered (h.ready hlength) hrun
  cases hexchange : exchange crypto command payload link with
  | ret response link' => exact (hwp.ret hexchange).elim
  | cut link' => exact (hwp.cut hexchange).elim
  | err e link' =>
    obtain ⟨rfl, target, rfl, rfl⟩ := hwp.err hexchange
    rfl

/-- The response is lost. -/
theorem exchange_lostResponse (h : Settled link)
    (hlength : payload.length ≤ updateProtocolMaxPayloadSize)
    (hlost : link.passages.headD .clear = Loss.response.passage) :
    wp (exchange crypto command payload) link (fun _ _ => False)
      (fun e link' => e = .timedOut ∧ ∃ ack status target,
        Served crypto command (UInt16.ofNat link.client.sequence) payload link.target ack status
          target ∧
        link' = { link with target, passages := link.passages.tail })
      fun _ => True := by
  have hrun := @runLine_served crypto command (UInt16.ofNat link.client.sequence) payload
    link.target h.parser h.held h.writer hlength
  have hheard : link.heard command payload =
      (outgoing command.toUInt8 (UInt16.ofNat link.client.sequence) payload).encode.map .byte := by
    rw [Link.heard, hlost]
    rfl
  rw [← hheard] at hrun
  have hsilent : wp (runLine crypto (link.heard command payload)) link.target
      (fun _ p' => (∃ ack status, Served crypto command (UInt16.ofNat link.client.sequence) payload
          link.target ack status p') ∧
        ((link.passages.headD .clear).toHost
          (p'.written.drop link.target.written.length).flatten).flatten = [])
      (fun _ _ => False) fun _ => True := by
    refine hrun.mono ?_ (fun _ _ h => h) fun _ h => h
    rintro _ p' ⟨ack, status, extra, -, hserved⟩
    refine ⟨⟨ack, status, hserved⟩, ?_⟩
    rw [hlost]
    rfl
  refine (exchange_unanswered (h.ready hlength) hsilent).mono (fun _ _ h => h) ?_ fun _ h => h
  rintro e link' ⟨rfl, target, ⟨ack, status, hserved⟩, rfl⟩
  exact ⟨rfl, ack, status, target, hserved, rfl⟩

end Settled

/-- A request that is too long is not sent. -/
theorem exchange_tooLong (hsequence : link.client.sequence ≤ 0xFFFF)
    (hlength : ¬ payload.length ≤ updateProtocolMaxPayloadSize) :
    exchange crypto command payload link = .err (.payloadTooLarge payload.length) link := by
  have hencode : encodeFrame command.toUInt8.toNat link.client.sequence payload =
      .error (.payloadTooLarge payload.length) := by
    rw [encodeFrame, if_neg (by omega), if_pos (Nat.not_le.mp hlength)]
  change Prog.bind (Prog.ofExcept (encodeFrame command.toUInt8.toNat link.client.sequence payload)) _
    link = _
  rw [hencode]
  rfl

theorem Client.advanced_le (client : Client) : client.advanced.sequence ≤ 0xFFFF := Nat.and_le_right

/-- An exchange over a line that loses frames leaves nothing half done. -/
theorem Settled.exchange (h : Settled link) (hdrops : (link.passages.headD .clear).Drops) :
    wp (exchange crypto command payload) link (fun _ link' => Settled link')
      (fun _ link' => Settled link') fun _ => True := by
  by_cases hlength : payload.length ≤ updateProtocolMaxPayloadSize
  · obtain hclear | ⟨loss, hlost⟩ := hdrops
    · refine (h.exchange_clear hlength hclear).mono ?_ (fun _ _ h => h.elim) fun _ h => h
      rintro response link' ⟨ack, status, target, hserved, -, rfl⟩
      exact h.served hserved (Client.advanced_le _) rfl
    · cases loss with
      | request =>
        rw [wp, h.exchange_lostRequest hlength hlost]
        exact { h with }
      | response =>
        refine (h.exchange_lostResponse hlength hlost).mono (fun _ _ h => h.elim) ?_ fun _ h => h
        rintro e link' ⟨-, ack, status, target, hserved, rfl⟩
        exact h.served hserved h.sequence rfl
  · rw [wp, exchange_tooLong h.sequence hlength]
    exact h

/-- **Nothing is half done in a reachable state.** -/
theorem Reachable.settled (h : Reachable crypto link) : Settled link := by
  induction h with
  | start sequence timeout writer =>
    exact ⟨by rw [sequence]; exact Nat.zero_le _, timeout, rfl,
      UpdateProtocolParser.wellFormed_init, rfl, writer⟩
  | answered _ drops run ih => exact (ih.exchange drops).ret run
  | failed _ drops run ih => exact (ih.exchange drops).err run
  | meanwhile _ positive ih => exact { ih with timeout := positive }

end Exchanges

/-! ### Questions -/

section Questions

variable {crypto : Crypto} {link : Link} {command : UpdateProtocolCommand} {payload : List UInt8}
  {losses : List Loss} {rest : List Passage}

/-- A client that the target has left behind is never acknowledged. -/
theorem requestAttempts_leftBehind (h : Settled link)
    (hlength : payload.length ≤ updateProtocolMaxPayloadSize)
    (hsequence : UInt16.ofNat link.client.sequence ≠ link.target.expectedSequence)
    (hline : link.passages = losses.map Loss.passage ++ rest)
    (hclear : rest.headD .clear = .clear) (attempts : ℕ) (last : HostError) :
    wp (requestAttempts crypto command payload attempts last) link (fun _ _ => False)
      (fun _ _ => True) fun _ => True := by
  induction losses generalizing link attempts last with
  | nil =>
    cases attempts with
    | zero => exact trivial
    | succ attempts =>
      have hrun := @exchange_outOfSequence crypto _ command _ (h.ready hlength)
        (by rw [hline]; exact hclear) h.parser h.held h.writer hsequence
      rw [requestAttempts, wp_bind, wp_attempt, sendOnce, wp_bind]
      refine hrun.mono ?_ (fun _ _ h => h.elim) fun _ h => h.elim
      rintro response link' ⟨hnack, -⟩
      rw [checkResponse, if_pos hnack]
      exact trivial
  | cons loss losses ih =>
    cases attempts with
    | zero => exact trivial
    | succ attempts =>
      have hhead : link.passages.headD .clear = loss.passage := by rw [hline]; rfl
      have htail : link.passages.tail = losses.map Loss.passage ++ rest := by rw [hline]; rfl
      rw [requestAttempts, wp_bind, wp_attempt, sendOnce, wp_bind]
      cases loss with
      | request =>
        rw [wp, h.exchange_lostRequest hlength hhead]
        exact @ih { link with passages := link.passages.tail } { h with } hsequence htail _ _
      | response =>
        refine (h.exchange_lostResponse hlength hhead).mono (fun _ _ h => h.elim) ?_ fun _ h => h
        rintro e link' ⟨rfl, ack, status, target, hserved, rfl⟩
        refine ih (h.served hserved h.sequence rfl) ?_ htail _ _
        show _ ≠ target.expectedSequence
        rw [hserved.reacted.expectedSequence, if_neg hsequence]
        exact hsequence

/-- **A question is acknowledged if and only if no response was lost.** -/
theorem requestAttempts_question_iff (h : Settled link) (hagree : Agrees link)
    (hquestion : command.IsQuestion) (hline : link.passages = losses.map Loss.passage ++ rest)
    (hclear : rest.headD .clear = .clear) {attempts : ℕ} (hattempts : losses.length < attempts)
    (last : HostError) :
    (∃ response link', requestAttempts crypto command [] attempts last link = .ret response link' ∧
        response.responseCommand = .ack) ↔ ∀ loss ∈ losses, loss = .request := by
  have hsequence : UInt16.ofNat link.client.sequence = link.target.expectedSequence := by
    rw [hagree, UInt16.ofNat_toNat]
  induction losses generalizing link attempts last with
  | nil =>
    obtain ⟨attempts, rfl⟩ := Nat.exists_eq_succ_of_ne_zero (Nat.ne_zero_of_lt hattempts)
    have hrun := @exchange_question crypto _ _ (h.ready (Nat.zero_le _))
      (by rw [hline]; exact hclear) h.parser h.held h.writer hsequence hquestion
    obtain ⟨response, link', hret⟩ := returns_iff.mp
      (hrun.mono (fun _ _ _ => trivial) (fun _ _ h => h) fun _ h => h)
    obtain ⟨hack, hstatus⟩ := hrun.ret hret
    refine iff_of_true ⟨response, link', ?_, hack⟩ (fun _ h => absurd h List.not_mem_nil)
    rw [requestAttempts_of_ret hret, checkResponse, if_neg (by rw [hack]; decide),
      if_neg fun h => h hstatus]
    rfl
  | cons loss losses ih =>
    have hhead : link.passages.headD .clear = loss.passage := by rw [hline]; rfl
    have htail : link.passages.tail = losses.map Loss.passage ++ rest := by rw [hline]; rfl
    have htimeout : HostError.timedOut.IsTimeout := .inl rfl
    obtain ⟨attempts, rfl⟩ := Nat.exists_eq_succ_of_ne_zero (Nat.ne_zero_of_lt hattempts)
    cases loss with
    | request =>
      have hlost := @Settled.exchange_lostRequest crypto _ command [] h (Nat.zero_le _) hhead
      rw [requestAttempts_of_timeout hlost htimeout, List.forall_mem_cons, and_iff_right rfl]
      exact @ih { link with passages := link.passages.tail } { h with } hagree htail _
        (Nat.lt_of_succ_lt_succ hattempts) _ hsequence
    | response =>
      refine iff_of_false ?_ fun hall => by cases hall .response List.mem_cons_self
      rintro ⟨response, link', hret, -⟩
      have hnever : wp (requestAttempts crypto command [] (attempts + 1) last) link
          (fun _ _ => False) (fun _ _ => True) fun _ => True := by
        rw [requestAttempts, wp_bind, wp_attempt, sendOnce, wp_bind]
        refine (h.exchange_lostResponse (Nat.zero_le _) hhead).mono (fun _ _ h => h.elim) ?_
          fun _ h => h
        rintro e link₁ ⟨rfl, ack, status, target, hserved, rfl⟩
        refine requestAttempts_leftBehind (h.served hserved h.sequence rfl) (Nat.zero_le _) ?_ htail
          hclear _ _
        show UInt16.ofNat link.client.sequence ≠ target.expectedSequence
        rw [hserved.reacted.expectedSequence, if_pos hsequence, hsequence]
        simp
      exact hnever.ret hret

theorem request_question_iff (h : Settled link) (hagree : Agrees link)
    (hquestion : command.IsQuestion) (hretries : losses.length ≤ link.client.retries)
    (hline : link.passages = losses.map Loss.passage ++ rest)
    (hclear : rest.headD .clear = .clear) :
    (∃ response link', request crypto command [] true link = .ret response link' ∧
      response.responseCommand = .ack) ↔ ∀ loss ∈ losses, loss = .request := by
  change (∃ response link', requestAttempts crypto command [] (link.client.retries + 1).toNat
    .noResponse link = .ret response link' ∧ response.responseCommand = .ack) ↔ _
  exact requestAttempts_question_iff h hagree hquestion hline hclear (by omega) _

end Questions

/-! ### Updates -/

/-- An update is under way. -/
def Underway (p : UpdateProtocolSession) : Prop := p.state = .updating ∧ p.installerStarted = true

/-- The counters agree, and the line will lose a frame of an exchange to come. -/
structure Awaiting (i : ℕ) (loss : Loss) (rest : List Passage) (link : Link) : Prop where
  settled : Settled link
  agrees : Agrees link
  line : link.passages = List.replicate i .clear ++ loss.passage :: rest

/-- The frame has been lost. -/
structure Lost (loss : Loss) (rest : List Passage) (link link' : Link) : Prop where
  settled : Settled link'
  line : link'.passages = rest
  client : link'.client = link.client
  target : match loss with
    | .request => link'.target = link.target
    | .response => link'.target.expectedSequence = link.target.expectedSequence + 1

/-- The frame has been lost in the middle of an update. -/
def Stranded (loss : Loss) (rest : List Passage) (link' : Link) : Prop :=
  ∃ link, Agrees link ∧ Underway link.target ∧ Lost loss rest link link'

section Updates

variable {crypto : Crypto} {link link' : Link} {command : UpdateProtocolCommand}
  {payload : List UInt8} {i : ℕ} {loss : Loss} {rest : List Passage}

theorem Agrees.sequence (h : Agrees link) :
    UInt16.ofNat link.client.sequence = link.target.expectedSequence := by
  rw [h, UInt16.ofNat_toNat]

/-- An acknowledged `BEGIN_UPDATE` has begun an update. -/
theorem Reacted.begun {sequence : UInt16} {p p' : UpdateProtocolSession}
    (h : Reacted crypto .beginUpdate sequence payload p true p') : Underway p' := by
  cases h with
  | executed _ contents run =>
    have hcommand : UpdateProtocolCommand.ofUInt8 _ = some _ :=
      congrArg (fun frame => UpdateProtocolCommand.ofUInt8 frame.command) contents
    cases run with
    | begun => exact ⟨rfl, rfl⟩
    | informed known question =>
      obtain rfl := Option.some.inj (hcommand.symm.trans known)
      exact absurd question (by decide)
    | wrote known => cases hcommand.symm.trans known
    | finished known => cases hcommand.symm.trans known
    | stopped known => cases hcommand.symm.trans known
    | aborted known => cases hcommand.symm.trans known
    | reset known => cases hcommand.symm.trans known

/-- An acknowledged `WRITE_BLOCK` leaves the update under way. -/
theorem Reacted.wrote {sequence : UInt16} {p p' : UpdateProtocolSession}
    (h : Reacted crypto .writeBlock sequence payload p true p') : Underway p' := by
  cases h with
  | executed _ contents run =>
    have hcommand : UpdateProtocolCommand.ofUInt8 _ = some _ :=
      congrArg (fun frame => UpdateProtocolCommand.ofUInt8 frame.command) contents
    cases run with
    | wrote _ state started => exact ⟨state, started⟩
    | informed known question =>
      obtain rfl := Option.some.inj (hcommand.symm.trans known)
      exact absurd question (by decide)
    | begun known => cases hcommand.symm.trans known
    | finished known => cases hcommand.symm.trans known
    | stopped known => cases hcommand.symm.trans known
    | aborted known => cases hcommand.symm.trans known
    | reset known => cases hcommand.symm.trans known

/-- A request in step is acknowledged before the loss, or it fails; it fails with a timeout only
when the loss is reached. -/
theorem request_awaiting (h : Awaiting i loss rest link) :
    wp (request crypto command payload false) link
      (fun _ link' => (∃ j, i = j + 1 ∧ Awaiting j loss rest link') ∧
        ∃ sequence, Reacted crypto command sequence payload link.target true link'.target)
      (fun e link' => e = .timedOut → i = 0 ∧ Lost loss rest link link') fun _ => True := by
  have hsequence := h.agrees.sequence
  rw [request, wp_bind, wp_get]
  change wp (requestAttempts crypto command payload 1 .noResponse) link _ _ _
  rw [requestAttempts, wp_bind, wp_attempt, sendOnce, wp_bind]
  by_cases hlength : payload.length ≤ updateProtocolMaxPayloadSize
  swap
  · rw [wp, exchange_tooLong h.settled.sequence hlength]
    exact fun he => by cases he
  cases i with
  | zero =>
    have hhead : link.passages.headD .clear = loss.passage := by rw [h.line]; rfl
    have htail : link.passages.tail = rest := by rw [h.line]; rfl
    cases loss with
    | request =>
      rw [wp, h.settled.exchange_lostRequest hlength hhead]
      exact fun _ => ⟨rfl, { h.settled with }, htail, rfl, rfl⟩
    | response =>
      refine (h.settled.exchange_lostResponse hlength hhead).mono (fun _ _ h => h.elim) ?_
        fun _ h => h
      rintro e link' ⟨rfl, ack, status, target, hserved, rfl⟩
      refine fun _ => ⟨rfl, h.settled.served hserved h.settled.sequence rfl, htail, rfl, ?_⟩
      rw [hserved.reacted.expectedSequence, if_pos hsequence]
  | succ j =>
    have hhead : link.passages.headD .clear = .clear := by rw [h.line]; rfl
    have htail : link.passages.tail = List.replicate j .clear ++ loss.passage :: rest := by
      rw [h.line]
      rfl
    refine (h.settled.exchange_clear hlength hhead).mono ?_ (fun _ _ h => h.elim) fun _ h => h
    rintro response link' ⟨ack, status, target, hserved, hresponse, rfl⟩
    rw [checkResponse, wp_ite]
    refine ⟨fun _ he => HostError.noConfusion he, fun hack => ?_⟩
    rw [wp_ite]
    refine ⟨fun _ he => HostError.noConfusion he, fun _ => ?_⟩
    obtain rfl : ack = true := by
      cases ack with
      | true => rfl
      | false => exact absurd hresponse hack
    refine ⟨⟨j, rfl, h.settled.served hserved (Client.advanced_le _) rfl, ?_, htail⟩, _,
      hserved.reacted⟩
    show link.client.advanced.sequence = target.expectedSequence.toNat
    rw [hserved.reacted.expectedSequence, if_pos hsequence, UInt16.toNat_add, ← h.agrees]
    exact Nat.and_two_pow_sub_one_eq_mod _ 16

/-- The blocks of an update, up to the loss. -/
theorem writeBlocks_awaiting {chunkSize fuel offset : ℕ} (h : Awaiting i loss rest link)
    (hunder : Underway link.target) :
    wp (writeBlocks crypto chunkSize fuel offset payload) link
      (fun _ link' => ∃ j, Awaiting j loss rest link' ∧ Underway link'.target)
      (fun e link' => e = .timedOut → Stranded loss rest link') fun _ => True := by
  induction fuel generalizing link i offset payload with
  | zero => exact ⟨i, h, hunder⟩
  | succ fuel ih =>
    rw [writeBlocks, wp_ite]
    refine ⟨fun _ => ⟨i, h, hunder⟩, fun _ => ?_⟩
    rw [wp_bind, wp_ofExcept]
    refine ⟨fun location _ => ?_, fun e he htimeout => ?_⟩
    · rw [wp_bind]
      refine (request_awaiting h).mono ?_ ?_ fun _ h => h
      · rintro _ link' ⟨⟨j, -, hnext⟩, _, hreacted⟩
        exact ih hnext hreacted.wrote
      · exact fun e link' hlost htimeout => ⟨link, h.agrees, hunder, (hlost htimeout).2⟩
    · rw [packOffset, htimeout] at he
      split at he <;> cases he

/-- The part of an update behind `BEGIN_UPDATE`. -/
theorem updateRest_awaiting {chunkSize : ℕ} (h : Awaiting i loss rest link)
    (hunder : Underway link.target) :
    wp (updateRest crypto payload chunkSize) link (fun _ _ => True)
      (fun e link' => e = .timedOut → Stranded loss rest link') fun _ => True := by
  rw [updateRest, wp_bind]
  refine (writeBlocks_awaiting h hunder).mono ?_ (fun _ _ h => h) fun _ h => h
  rintro _ link' ⟨j, hawait, hunder'⟩
  rw [wp_bind]
  refine (request_awaiting hawait).mono ?_ ?_ fun _ h => h
  · rintro response link'' -
    rw [wp_ofExcept]
    refine ⟨fun _ _ => trivial, fun e he htimeout => ?_⟩
    rw [parseStatus, htimeout] at he
    split at he <;> cases he
  · exact fun e link'' hlost htimeout => ⟨link', hawait.agrees, hunder', (hlost htimeout).2⟩

/-- An update that runs into the loss. The client knows whether it had begun. -/
theorem updateTry_awaiting {header : List UInt8} {chunkSize : ℕ} (h : Awaiting i loss rest link) :
    wp (updateTry crypto header payload chunkSize) link (fun _ _ => True)
      (fun e link' => e.1 = .timedOut → (e.2 = true ↔ i ≠ 0) ∧
        (e.2 = true → Stranded loss rest link'))
      fun _ => True := by
  rw [updateTry, wp_bind, wp_mapErr]
  refine (request_awaiting h).mono ?_ ?_ fun _ h => h
  · rintro _ link' ⟨⟨j, rfl, hnext⟩, _, hreacted⟩
    rw [wp_mapErr]
    refine (updateRest_awaiting hnext hreacted.begun).mono (fun _ _ h => h) ?_ fun _ h => h
    exact fun e link'' hlost htimeout => ⟨iff_of_true rfl (Nat.succ_ne_zero j), fun _ => hlost htimeout⟩
  · intro e link' hlost htimeout
    obtain ⟨rfl, -⟩ := hlost htimeout
    exact ⟨by simp, fun hstarted => by cases hstarted⟩

/-! ### The abort -/

/-- What an abort that arrives in sequence during an update comes to. -/
theorem exchange_abort (h : Settled link) (hagree : Agrees link) (hunder : Underway link.target)
    (hclear : link.passages.headD .clear = .clear) :
    wp (exchange crypto .abortUpdate []) link
      (fun response link' => (response.responseCommand = .ack ∧
          response.status = UpdateProtocolStatus.ok.toUInt16 ∧ link'.target.state = .aborted ∧
          ∃ s, updateInstallerAbort link.target.inst = .ret () s) ∨
        response.responseCommand = .nack ∧ ∃ e s, updateInstallerAbort link.target.inst = .err e s)
      (fun _ _ => False) fun _ => ∃ s, updateInstallerAbort link.target.inst = .cut s := by
  have hheard : link.heard .abortUpdate [] = (outgoing UpdateProtocolCommand.abortUpdate.toUInt8
      link.target.expectedSequence []).encode.map .byte := by
    rw [Link.heard, hclear, hagree.sequence]
    rfl
  have hrun : wp (runLine crypto (link.heard .abortUpdate [])) link.target
      (fun _ p' => ∃ ack status extra, WroteAnswer ack (UInt16.ofNat link.client.sequence)
          UpdateProtocolCommand.abortUpdate.toUInt8 status extra link.target p' ∧
        ((ack = true ∧ status = .ok ∧ p'.state = .aborted ∧
          ∃ s, updateInstallerAbort link.target.inst = .ret () s) ∨
        ack = false ∧ ∃ e s, updateInstallerAbort link.target.inst = .err e s))
      (fun _ _ => False) fun _ => ∃ s, updateInstallerAbort link.target.inst = .cut s := by
    rw [hheard, hagree.sequence]
    refine wp_runLine_inSequence h.parser h.held (Nat.zero_le _) fun parser' _ _ hcontents => ?_
    have hcommand : parser'.frame.command = UpdateProtocolCommand.abortUpdate.toUInt8 :=
      congrArg Frame.command hcontents
    have hempty := payloadLength_eq_zero (congrArg Frame.payload hcontents)
    refine wp.mono (executeFrame_abort (by rw [hcommand]; rfl) hempty (by exact hunder.1)
      (by exact hunder.2)) ?_ (fun _ _ h => h) ?_
    · rintro _ p' ⟨s, ⟨hret, hanswer⟩ | ⟨e, herr, hanswer⟩⟩
      all_goals
        rw [hcommand, show parser'.frame.sequence = _ from congrArg Frame.sequence hcontents]
          at hanswer
        obtain ⟨extra, hwrote⟩ := wroteAnswer_of_answered hanswer h.writer
      · refine ⟨true, p'.lastStatus, extra, hwrote, .inl ⟨rfl, hanswer.status.mpr rfl, ?_, s, hret⟩⟩
        rw [hanswer.same]
      · exact ⟨false, p'.lastStatus, extra, hwrote, .inr ⟨rfl, e, s, herr⟩⟩
    · rintro p' ⟨s, hcut, -⟩
      exact ⟨s, hcut⟩
  refine (exchange_answered (h.ready (Nat.zero_le _)) (by rw [hclear]; rfl) hrun).mono ?_
    (fun _ _ h => h) fun _ h => h
  rintro response link' ⟨target, ack, status, extra, hR, rfl, rfl⟩
  obtain ⟨rfl, rfl, hstate, hret⟩ | ⟨rfl, herr⟩ := hR
  · exact .inl ⟨rfl, rfl, hstate, hret⟩
  · exact .inr ⟨rfl, herr⟩

theorem abortUpdate_of_request {response : Response}
    (h : request crypto .abortUpdate [] false link = .ret response link') :
    abortUpdate crypto link = .ret () link' := by
  change Prog.bind (request crypto .abortUpdate [] false) _ link = _
  rw [Prog.bind, h]
  rfl

/-- An abort in step is acknowledged if and only if the installer aborts. -/
theorem abortUpdate_inStep_iff (h : Settled link) (hagree : Agrees link)
    (hunder : Underway link.target) (hclear : link.passages.headD .clear = .clear) :
    (∃ link', abortUpdate crypto link = .ret () link' ∧ link'.target.state = .aborted) ↔
      Returns updateInstallerAbort link.target.inst := by
  have hrun := @exchange_abort crypto _ h hagree hunder hclear
  constructor
  · rintro ⟨link', hret, -⟩
    have hspec : wp (abortUpdate crypto) link
        (fun _ _ => ∃ s, updateInstallerAbort link.target.inst = .ret () s) (fun _ _ => True)
        fun _ => True := by
      rw [abortUpdate, wp_bind, request, wp_bind, wp_get]
      change wp (requestAttempts crypto .abortUpdate [] 1 .noResponse) link _ _ _
      rw [requestAttempts, wp_bind, wp_attempt, sendOnce, wp_bind]
      refine hrun.mono ?_ (fun _ _ h => h.elim) fun _ _ => trivial
      rintro response link' (⟨hack, hstatus, -, hdone⟩ | ⟨hnack, -⟩)
      · rw [checkResponse, if_neg (by rw [hack]; decide), if_neg fun h => h hstatus]
        exact hdone
      · rw [checkResponse, if_pos hnack]
        exact trivial
    exact returns_iff.mpr ⟨(), hspec.ret hret⟩
  · intro hreturns
    obtain ⟨_, s, hdone⟩ := returns_iff.mp hreturns
    cases hexchange : exchange crypto .abortUpdate [] link with
    | err e link' => exact (hrun.err hexchange).elim
    | cut link' =>
      obtain ⟨s', hcut⟩ := hrun.cut hexchange
      cases hdone.symm.trans hcut
    | ret response link' =>
      obtain ⟨hack, hstatus, hstate, -⟩ | ⟨-, e, s', herr⟩ := hrun.ret hexchange
      · have hrequest : request crypto .abortUpdate [] false link = .ret response link' := by
          change requestAttempts crypto .abortUpdate [] 1 .noResponse link = _
          rw [requestAttempts_of_ret hexchange, checkResponse, if_neg (by rw [hack]; decide),
            if_neg fun h => h hstatus]
          rfl
        exact ⟨link', abortUpdate_of_request hrequest, hstate⟩
      · cases hdone.symm.trans herr

/-- The abort of a client that the target has left behind is refused. -/
theorem abortUpdate_leftBehind (h : Settled link) (hclear : link.passages.headD .clear = .clear)
    (hsequence : UInt16.ofNat link.client.sequence ≠ link.target.expectedSequence) :
    wp (abortUpdate crypto) link (fun _ _ => False) (fun _ _ => True) fun _ => True := by
  rw [abortUpdate, wp_bind, request, wp_bind, wp_get]
  change wp (requestAttempts crypto .abortUpdate [] 1 .noResponse) link _ _ _
  have hline : link.passages = List.map Loss.passage [] ++ link.passages := rfl
  exact (requestAttempts_leftBehind h (Nat.zero_le _) hsequence hline hclear _ _).mono
    (fun _ _ h => h.elim) (fun _ _ h => h) fun _ h => h

theorem Stranded.abort_iff (h : Stranded loss rest link') (hclear : rest.headD .clear = .clear) :
    (∃ link'', abortUpdate crypto link' = .ret () link'' ∧ link''.target.state = .aborted) ↔
      loss = .request ∧ Returns updateInstallerAbort link'.target.inst := by
  obtain ⟨link, hagree, hunder, hlost⟩ := h
  have hhead : link'.passages.headD .clear = .clear := by rw [hlost.line]; exact hclear
  cases loss with
  | request =>
    have htarget : link'.target = link.target := hlost.target
    have hagree' : Agrees link' := by
      rw [Agrees, htarget, hlost.client]
      exact hagree
    rw [and_iff_right rfl]
    exact abortUpdate_inStep_iff hlost.settled hagree' (htarget ▸ hunder) hhead
  | response =>
    refine iff_of_false ?_ fun h => by cases h.1
    rintro ⟨link'', hret, -⟩
    refine (abortUpdate_leftBehind hlost.settled hhead ?_).ret hret
    rw [hlost.client, hagree.sequence, hlost.target]
    simp

/-- **Which losses a client survives.** A question is acknowledged if and only if none of the lost
frames was a response. An update that times out is followed by an abort unless it was `BEGIN_UPDATE`
or the answer to it that was lost; and the abort is executed and acknowledged if and only if the lost
frame was a request and the installer can abort. -/
theorem lost_frame_survived_iff (h : Reachable crypto link) (hagree : Agrees link) :
    (∀ (command : UpdateProtocolCommand) (losses : List Loss) (rest : List Passage),
      command.IsQuestion → losses.length ≤ link.client.retries →
      link.passages = losses.map Loss.passage ++ rest → rest.headD .clear = .clear →
      ((∃ response link', request crypto command [] true link = .ret response link' ∧
          response.responseCommand = .ack) ↔ ∀ loss ∈ losses, loss = .request)) ∧
    ∀ (header payload : List UInt8) (chunkSize i : ℕ) (loss : Loss) (rest : List Passage)
      (started : Bool) (link' : Link),
      link.passages = List.replicate i .clear ++ loss.passage :: rest →
      rest.headD .clear = .clear →
      updateTry crypto header payload chunkSize link = .err (.timedOut, started) link' →
      (started = true ↔ i ≠ 0) ∧
      (started = true →
        ((∃ link'', abortUpdate crypto link' = .ret () link'' ∧ link''.target.state = .aborted) ↔
          loss = .request ∧ Returns updateInstallerAbort link'.target.inst)) := by
  refine ⟨?_, ?_⟩
  · intro command losses rest hquestion hretries hline hclear
    exact request_question_iff h.settled hagree hquestion hretries hline hclear
  · intro header payload chunkSize i loss rest started link' hline hclear hrun
    obtain ⟨hstarted, hstranded⟩ :=
      (updateTry_awaiting ⟨h.settled, hagree, hline⟩).err hrun rfl
    exact ⟨hstarted, fun hs => (hstranded hs).abort_iff hclear⟩

end Updates

theorem reachable_freshLink (crypto : Crypto) (passages : List Passage) :
    Reachable crypto (freshLink passages) :=
  .start rfl (ready_freshLink passages).timeout fun _ _ => rfl

/-- A `HELLO` that is lost is asked again. -/
theorem lost_frame_survived_hello : ∃ response link',
    request factoryCrypto .hello [] true (freshLink [.lostRequest]) = .ret response link' ∧
      response.responseCommand = .ack :=
  ((lost_frame_survived_iff (reachable_freshLink factoryCrypto [.lostRequest])
    (agrees_freshLink _)).1 .hello [.request] [] (by decide) (by decide) rfl rfl).mpr
    fun _ h => List.mem_singleton.mp h

/-- **The answer to a `HELLO` is lost.** The client asks again, and the target refuses the question
for its sequence number. -/
theorem lost_response_not_survived :
    Reachable factoryCrypto (freshLink [.lostResponse]) ∧ Agrees (freshLink [.lostResponse]) ∧
      1 ≤ (freshLink [.lostResponse]).client.retries ∧
      ¬ ∃ response link',
        request factoryCrypto .hello [] true (freshLink [.lostResponse]) = .ret response link' ∧
          response.responseCommand = .ack := by
  refine ⟨reachable_freshLink _ _, agrees_freshLink _, by decide, fun hack => ?_⟩
  have hiff := @request_question_iff factoryCrypto (freshLink [.lostResponse]) .hello
    [.response] [] (reachable_freshLink factoryCrypto _).settled (agrees_freshLink _) (by decide)
    (by decide) rfl rfl
  cases hiff.mp hack .response (List.mem_singleton_self _)

end Stm32SecurityLab.Host
