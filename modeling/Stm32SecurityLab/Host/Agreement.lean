import Stm32SecurityLab.Host.Client
import Stm32SecurityLab.System.Safety

/-!
# The two sequence counters

The client counts the responses that `parse_response` takes. The target counts the frames it
executes. A response may say that the target could not make anything of the request, and then only
the client has counted: from there on the target refuses every request.

## Main definitions

* `Host.Agrees` — the counters are equal
* `Host.Responded` — a request that gets a response, and what reaches the target until then
* `Host.InStep` — one frame is executed in a request
* `Host.Conversation` — runs of requests that all get a response

## Main results

* `Host.agrees_iff` — a request that gets a response keeps the counters equal if it is in step
* `Host.counters_agree` — so does a conversation
-/

namespace Stm32SecurityLab.Host

open Crash

/-- The counters are equal. -/
def Agrees (link : Link) : Prop := link.client.sequence = link.target.expectedSequence.toNat

/-- The attempts of a request up to the first response that `parse_response` takes, and what the
target hears meanwhile. -/
inductive Responded (crypto : Crypto) (command : UpdateProtocolCommand) (payload : List UInt8) :
    ℕ → Link → List LineEvent → Link → Prop
  | answered {attempts : ℕ} {link link' : Link} {response : Response}
      (run : exchange crypto command payload link = .ret response link') :
      Responded crypto command payload (attempts + 1) link (link.heard command payload) link'
  | retried {attempts : ℕ} {link link' link'' : Link} {e : HostError} {events : List LineEvent}
      (run : exchange crypto command payload link = .err e link') (timeout : e.IsTimeout)
      (rest : Responded crypto command payload attempts link' events link'') :
      Responded crypto command payload (attempts + 1) link (link.heard command payload ++ events)
        link''

/-- The events make the target execute one frame, up to the width of its counter. -/
def InStep (link : Link) (events : List LineEvent) : Prop :=
  (acceptedFrames link.target.parser link.target.expectedSequence events).length % 2 ^ 16 = 1

/-- Runs of requests that all get a response, of which each is of a kind. Between two requests
anything may happen that leaves the counters and the target alone. -/
inductive Conversation (crypto : Crypto) (kind : Link → List LineEvent → Prop) (link₀ : Link) :
    Link → Prop
  | start : Conversation crypto kind link₀ link₀
  | request {link link' : Link} {command : UpdateProtocolCommand} {payload : List UInt8}
      {attempts : ℕ} {events : List LineEvent} (before : Conversation crypto kind link₀ link)
      (run : Responded crypto command payload attempts link events link') (kept : kind link events) :
      Conversation crypto kind link₀ link'
  | meanwhile {link link' : Link} (before : Conversation crypto kind link₀ link)
      (sequence : link'.client.sequence = link.client.sequence)
      (target : link'.target = link.target) : Conversation crypto kind link₀ link'

section Requests

variable {crypto : Crypto} {link link' link₀ : Link} {command : UpdateProtocolCommand}
  {payload : List UInt8} {attempts : ℕ} {events : List LineEvent}

theorem requestAttempts_of_ret {response : Response}
    (h : exchange crypto command payload link = .ret response link') (last : HostError) :
    requestAttempts crypto command payload (attempts + 1) last link =
      checkResponse command response link' := by
  have hsend : sendOnce crypto command payload link = checkResponse command response link' := by
    change Prog.bind (exchange crypto command payload) _ link = _
    rw [Prog.bind, h]
  change Prog.bind (Prog.attempt (sendOnce crypto command payload)) _ link = _
  rw [Prog.bind, Prog.attempt, hsend, checkResponse]
  split_ifs <;> rfl

theorem requestAttempts_of_timeout {e : HostError}
    (h : exchange crypto command payload link = .err e link') (htimeout : e.IsTimeout)
    (last : HostError) :
    requestAttempts crypto command payload (attempts + 1) last link =
      requestAttempts crypto command payload attempts e link' := by
  have hsend : sendOnce crypto command payload link = .err e link' := by
    change Prog.bind (exchange crypto command payload) _ link = _
    rw [Prog.bind, h]
  change Prog.bind (Prog.attempt (sendOnce crypto command payload)) _ link = _
  rw [Prog.bind, Prog.attempt, hsend]
  exact congrFun (if_pos htimeout) link'

/-- `request` ends with the check of the response. -/
theorem Responded.requestAttempts (h : Responded crypto command payload attempts link events link')
    (last : HostError) :
    ∃ response, Host.requestAttempts crypto command payload attempts last link =
      checkResponse command response link' := by
  induction h generalizing last with
  | answered run => exact ⟨_, requestAttempts_of_ret run last⟩
  | retried run timeout rest ih =>
    rw [requestAttempts_of_timeout run timeout]
    exact ih _

theorem Responded.counts (h : Responded crypto command payload attempts link events link') :
    runLine crypto events link.target = .ret () link'.target ∧
      link'.client = link.client.advanced := by
  induction h with
  | answered run => exact exchange_spec.ret run
  | retried run timeout rest ih =>
    obtain ⟨htarget, hclient⟩ := exchange_spec.err run timeout
    rw [← hclient, runLine_append]
    exact ⟨(bind_of_ret htarget).trans ih.1, ih.2⟩

/-- **A request that gets a response keeps the counters equal if and only if it is in step.** -/
theorem agrees_iff (hagree : Agrees link)
    (h : Responded crypto command payload attempts link events link') :
    Agrees link' ↔ InStep link events := by
  obtain ⟨htarget, hclient⟩ := h.counts
  have hsequence := (runLine_spec events).ret htarget
  have hlt := link.target.expectedSequence.toNat_lt
  have hadvanced : link'.client.sequence = (link.client.sequence + 1) % 2 ^ 16 := by
    rw [hclient]
    exact Nat.and_two_pow_sub_one_eq_mod _ 16
  rw [Agrees] at hagree
  rw [Agrees, InStep, hadvanced, hagree, hsequence, UInt16.toNat_add, UInt16.toNat_ofNat']
  generalize (acceptedFrames link.target.parser link.target.expectedSequence events).length = count
  omega

/-- **The counters agree in a conversation whose requests are all in step.** After one more request
they agree if and only if that request is in step, too; and as long as they agree, a request that
arrives whole is executed. -/
theorem counters_agree (hagree : Agrees link₀) (h : Conversation crypto InStep link₀ link) :
    Agrees link ∧
      (∀ {command : UpdateProtocolCommand} {payload : List UInt8} {attempts : ℕ}
        {events : List LineEvent} {link' : Link},
        Responded crypto command payload attempts link events link' →
          (Agrees link' ↔ InStep link events)) ∧
      ∀ (command : UpdateProtocolCommand) (payload : List UInt8),
        payload.length ≤ updateProtocolMaxPayloadSize → link.passages = [] →
        link.target.parser.WellFormed → link.target.parser.held = [] →
          (acceptedFrames link.target.parser link.target.expectedSequence
            (link.heard command payload)).map (·.contents) =
            [⟨updateProtocolVersion, command.toUInt8, link.target.expectedSequence, payload⟩] := by
  have hall : Agrees link := by
    induction h with
    | start => exact hagree
    | request _ run kept ih => exact (agrees_iff ih run).mpr kept
    | meanwhile _ sequence target ih => rw [Agrees, sequence, target]; exact ih
  refine ⟨hall, fun hrun => agrees_iff hall hrun, fun command payload hlength hclear wf hheld => ?_⟩
  rw [Agrees] at hall
  rw [Link.heard, hclear, hall, UInt16.ofNat_toNat]
  exact acceptedFrames_frame wf hheld hlength

/-- A question that a client in step asks over a clear line is one request of a conversation. -/
theorem Conversation.question (h : Conversation crypto InStep link₀ link) (hagree : Agrees link)
    (hready : Ready link []) (hclear : link.passages = []) (wf : link.target.parser.WellFormed)
    (hheld : link.target.parser.held = []) (hwriter : link.target.WriterWorks)
    (hquestion : command.IsQuestion) :
    ∃ link', Conversation crypto InStep link₀ link' ∧ link'.client = link.client.advanced := by
  have hsequence : UInt16.ofNat link.client.sequence = link.target.expectedSequence := by
    rw [hagree, UInt16.ofNat_toNat]
  have hstep : InStep link (link.heard command []) := by
    have hframes := congrArg List.length (@acceptedFrames_frame _ command.toUInt8
      link.target.expectedSequence [] wf hheld (Nat.zero_le _))
    rw [List.length_map] at hframes
    rw [InStep, Link.heard, hclear, hsequence]
    exact congrArg (· % 2 ^ 16) hframes
  have hrun := @exchange_question crypto _ _ hready (by rw [hclear]; rfl) wf hheld hwriter hsequence
    hquestion
  obtain ⟨response, link', hret⟩ := returns_iff.mp
    (hrun.mono (fun _ _ _ => trivial) (fun _ _ h => h) fun _ h => h)
  exact ⟨link', .request h (@Responded.answered _ _ _ 0 _ _ _ hret) hstep,
    (exchange_spec.ret hret).2⟩

theorem Ready.advanced (h : Ready link payload) (hclient : link'.client = link.client.advanced)
    (hunread : link'.unread = []) {payload' : List UInt8}
    (hlength : payload'.length ≤ updateProtocolMaxPayloadSize) : Ready link' payload' where
  sequence := by
    rw [hclient]
    exact Nat.and_le_right
  timeout := by
    rw [hclient]
    exact h.timeout
  unread := hunread
  length := hlength

/-- A damaged request is one request of a conversation, after which only the client has counted. -/
theorem Conversation.badCrc {bytes : List UInt8} {parser' : UpdateProtocolParser}
    (h : Conversation crypto (fun _ _ => True) link₀ link) (hready : Ready link payload)
    (hhost : (link.passages.headD .clear).toHost = fun bytes => [bytes])
    (hheard : link.heard command payload = bytes.map .byte)
    (hparse : firstParse link.target.parser bytes = some ((.errCrc, parser'), []))
    (hinfo : updateProtocolParserErrorInfo parser' =
      some (command.toUInt8, UInt16.ofNat link.client.sequence))
    (hwriter : link.target.WriterWorks) :
    ∃ link', Conversation crypto (fun _ _ => True) link₀ link' ∧ ∃ target,
      target.parser = parser' ∧ target.write = link.target.write ∧
      target.expectedSequence = link.target.expectedSequence ∧
      link' = { link with
        client := link.client.advanced, target, passages := link.passages.tail } := by
  have hrun := @exchange_badCrc crypto _ _ _ _ _ hready hhost hheard hparse hinfo hwriter
  obtain ⟨response, link', hret⟩ := returns_iff.mp
    (hrun.mono (fun _ _ _ => trivial) (fun _ _ h => h) fun _ h => h)
  exact ⟨link', .request h (@Responded.answered _ _ _ 0 _ _ _ hret) trivial, (hrun.ret hret).2.2⟩

/-- A client out of step is refused. -/
theorem request_outOfSequence (hready : Ready link payload) (hclear : link.passages = [])
    (wf : link.target.parser.WellFormed) (hheld : link.target.parser.held = [])
    (hwriter : link.target.WriterWorks)
    (hsequence : UInt16.ofNat link.client.sequence ≠ link.target.expectedSequence) :
    ∃ link', request crypto command payload false link =
      .err (.nack command.toUInt8 UpdateProtocolStatus.sequenceError.toUInt16) link' := by
  have hrun := @exchange_outOfSequence crypto _ command _ hready (by rw [hclear]; rfl) wf hheld
    hwriter hsequence
  obtain ⟨response, link', hret⟩ := returns_iff.mp
    (hrun.mono (fun _ _ _ => trivial) (fun _ _ h => h) fun _ h => h)
  obtain ⟨hnack, hstatus⟩ := hrun.ret hret
  refine ⟨link', ?_⟩
  change requestAttempts crypto command payload 1 .noResponse link = _
  rw [requestAttempts_of_ret hret, checkResponse, if_pos hnack, hstatus]
  rfl

end Requests

/-! ### A line that damages a frame -/

/-- A target in update mode that has just started. -/
def freshTarget : UpdateProtocolSession :=
  updateProtocolSessionInit updateModeFlash factoryKey (updateModeOptions false) (fun _ _ => .ok)
    (fun _ => 0) (flashWith factoryRecord)

/-- A client that has just connected to the target. -/
def freshLink (passages : List Passage) : Link := { client := {}, target := freshTarget, passages }

theorem agrees_freshLink (passages : List Passage) : Agrees (freshLink passages) := rfl

theorem wellFormed_freshLink (passages : List Passage) :
    (freshLink passages).target.parser.WellFormed ∧ (freshLink passages).target.parser.held = [] :=
  ⟨UpdateProtocolParser.wellFormed_init, rfl⟩

theorem ready_freshLink (passages : List Passage) : Ready (freshLink passages) [] where
  sequence := Nat.zero_le _
  timeout := by
    show (0 : ℚ) < 15
    norm_num
  unread := rfl
  length := Nat.zero_le _

theorem counters_agree_hello : ∃ link, Conversation factoryCrypto InStep (freshLink []) link ∧
    link.client.sequence = 1 ∧ Agrees link := by
  obtain ⟨wf, hheld⟩ := wellFormed_freshLink []
  obtain ⟨link, htalk, hclient⟩ := @Conversation.question factoryCrypto (freshLink []) (freshLink [])
    .hello .start (agrees_freshLink []) (ready_freshLink []) rfl wf hheld (fun _ _ => rfl) (by decide)
  refine ⟨link, htalk, ?_, (counters_agree (agrees_freshLink []) htalk).1⟩
  rw [hclient]
  rfl

/-- One bit of the last byte of a `HELLO` is flipped. -/
def flippedBit : Passage :=
  ⟨fun bytes => (bytes.set 13 (byteAt bytes 13 ^^^ 1)).map .byte, fun bytes => [bytes]⟩

/-- The `HELLO` as it reaches the target. -/
def flippedHello : List UInt8 :=
  [0x53, 0x55, 0x50, 0x44, 0x01, 0x01, 0x00, 0x00, 0x00, 0x00, 0xBD, 0x09, 0x32, 0x9B]

theorem heard_flippedBit :
    (freshLink [flippedBit]).heard .hello [] = flippedHello.map .byte := by decide +kernel

theorem firstParse_flippedHello : ∃ parser',
    firstParse (freshLink [flippedBit]).target.parser flippedHello =
        some ((.errCrc, parser'), []) ∧ parser'.WellFormed ∧ parser'.held = [] ∧
      updateProtocolParserErrorInfo parser' = some (UpdateProtocolCommand.hello.toUInt8, 0) := by
  have hresult : firstResult {} flippedHello = some (.errCrc, []) := by decide +kernel
  have hinfo : (firstParse {} flippedHello).map (fun out => updateProtocolParserErrorInfo out.1.2) =
      some (some (UpdateProtocolCommand.hello.toUInt8, 0)) := by decide +kernel
  obtain ⟨⟨status, parser'⟩, hparse, hstatus, wf, hheld⟩ :=
    firstParse_of_firstResult UpdateProtocolParser.wellFormed_init hresult
  rw [hparse] at hinfo
  cases status with
  | errCrc => exact ⟨parser', hparse, wf, hheld, Option.some.inj hinfo⟩
  | _ => cases hstatus

/-- **One flipped bit, and the target refuses what follows.** The `HELLO` is answered, and after the
answer the counters differ. Over a line that is clear from then on, every request is refused for its
sequence number; so is the abort. -/
theorem counters_disagree :
    Agrees (freshLink [flippedBit]) ∧ ∃ link,
      Conversation factoryCrypto (fun _ _ => True) (freshLink [flippedBit]) link ∧
      link.passages = [] ∧ ¬ Agrees link ∧
      ∀ (command : UpdateProtocolCommand) (payload : List UInt8),
        payload.length ≤ updateProtocolMaxPayloadSize →
        ∃ link', request factoryCrypto command payload false link =
          .err (.nack command.toUInt8 UpdateProtocolStatus.sequenceError.toUInt16) link' := by
  refine ⟨agrees_freshLink _, ?_⟩
  obtain ⟨parser', hparse, wf, hheld, hinfo⟩ := firstParse_flippedHello
  obtain ⟨link, htalk, target, rfl, hwrite, hsequence, hlink⟩ :=
    @Conversation.badCrc factoryCrypto (freshLink [flippedBit]) (freshLink [flippedBit]) .hello []
      flippedHello _ .start (ready_freshLink _) rfl heard_flippedBit hparse hinfo (fun _ _ => rfl)
  have hclient : link.client = (freshLink [flippedBit]).client.advanced := by rw [hlink]
  have htarget : link.target = target := by rw [hlink]
  have hne : UInt16.ofNat link.client.sequence ≠ link.target.expectedSequence := by
    rw [hclient, htarget, hsequence]
    decide
  refine ⟨link, htalk, by rw [hlink]; rfl, fun h => hne ?_, fun command payload hlength => ?_⟩
  · rw [h, UInt16.ofNat_toNat]
  · refine request_outOfSequence ((ready_freshLink _).advanced hclient (by rw [hlink]; rfl) hlength)
      (by rw [hlink]; rfl) (htarget ▸ wf) (htarget ▸ hheld) ?_ hne
    intro n data
    rw [htarget, hwrite]
    rfl

end Stm32SecurityLab.Host
