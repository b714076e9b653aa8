import Netconf.Proofs.Correlator.Answer
import Netconf.Proofs.Correlator.Flight
import Netconf.Proofs.Correlator.History
import Netconf.Proofs.Correlator.Trace

/-!
# Pairing replies with requests

A request resolves with a reply only if this is the first that came in after the transmitter took
the request, and carries its number. Every message is delivered to one request, passed on, or ends
the session, and in the last case all requests that are not cancelled resolve with its cause. The
main result is `History.run_paired`, which says this of all histories.
-/

namespace Netconf

namespace Correlator

variable {c d : Correlator} {i : Nat} {es fs : List Event} {f : Option Event} {reply : Node}

/-! ## The first reply -/

/-- No reply has come in. -/
def Quiet (es : List Event) : Prop :=
  ∀ message result, .routed message result ∈ es → message.messageKind ≠ .rpcReply

/-- The transmitter took the request, and no reply has come in since. -/
def Awaiting (es : List Event) (i : Nat) : Prop :=
  ∃ before rpc after, es = before ++ .handed rpc (.ok ()) :: after ∧
    rpc.messageId? = some (messageId i) ∧ Quiet after

/-- The transmitter took the request, and the reply is the first that came in since. -/
def FirstReply (es : List Event) (i : Nat) (reply : Node) : Prop :=
  ∃ before rpc between after,
    es = before ++ .handed rpc (.ok ()) :: (between ++ .routed reply (.ok .delivered) :: after) ∧
    rpc.messageId? = some (messageId i) ∧ Quiet between ∧
    reply.messageKind = .rpcReply ∧ reply.messageId? = some (messageId i)

/-- A request waits on as long as no reply comes in. -/
lemma Awaiting.append (aw : Awaiting es i) (quiet : Quiet fs) : Awaiting (es ++ fs) i := by
  obtain ⟨before, rpc, after, rfl, num, none_yet⟩ := aw
  refine ⟨before, rpc, after ++ fs, by simp, num, fun message result mem => ?_⟩
  rcases List.mem_append.mp mem with mem | mem
  · exact none_yet message result mem
  · exact quiet message result mem

/-- The first reply stays the first with later events. -/
lemma FirstReply.append (first : FirstReply es i reply) : FirstReply (es ++ fs) i reply := by
  obtain ⟨before, rpc, between, after, rfl, rest⟩ := first
  exact ⟨before, rpc, between, after ++ fs, by simp, rest⟩

/-- The reply that comes in while a request waits is the first. -/
lemma Awaiting.first (aw : Awaiting es i) (kind : reply.messageKind = .rpcReply)
    (num : reply.messageId? = some (messageId i)) :
    FirstReply (es ++ [.routed reply (.ok .delivered)]) i reply := by
  obtain ⟨before, rpc, after, rfl, num', quiet⟩ := aw
  exact ⟨before, rpc, after, [], by simp, num', quiet, kind, num⟩

/-- The request in flight waits for its reply. -/
lemma Moves.awaiting (mvs : Moves .new es c) (fl : c.inFlight = some i) : Awaiting es i := by
  induction mvs with
  | refl => cases fl
  | @tail es c f d mvs mv ih =>
    cases mv.flight (mvs.coherent .new) with
    | stays same _ _ other =>
      rw [same] at fl
      -- A reply would have been for the request in flight, so what came in is none.
      refine (ih fl).append fun message result mem => ?_
      have not_free := (other message result (Option.mem_toList.mp mem)).resolve_right
      exact not_free (by simp [fl])
    | starts _ started eq num =>
      rw [fl, Option.some.injEq] at started
      cases started
      exact ⟨es, _, [], by rw [eq]; rfl, num, nofun⟩
    | lands _ gone _ _ _ _ => simp [fl] at gone
    | ends _ gone _ _ => simp [fl] at gone

/-- A request is answered with the first reply that came in after the transmitter took it. -/
lemma Moves.first_reply (mvs : Moves .new es c) (given : c.answer? i = some (.given (.ok reply))) :
    FirstReply es i reply := by
  induction mvs with
  | refl => cases given
  | tail mvs mv ih =>
    rcases mv.answer_cases (mvs.coherent .new) given with old | origin
    · exact (ih old).append
    · cases origin with
      | reply fl eq kind num =>
        cases eq
        exact (mvs.awaiting fl).first kind num

/-- The request with the number of a reply that was delivered is answered with it. -/
lemma Moves.answer_of_delivered (mvs : Moves c es d) (ch : Coherent c)
    (mem : .routed reply (.ok .delivered) ∈ es) (num : reply.messageId? = some (messageId i)) :
    d.answer? i = some (.given (.ok reply)) := by
  obtain ⟨before, after, rfl⟩ := List.append_of_mem mem
  obtain ⟨x, y, mvs, mv, rest⟩ := mvs.split
  have chx := mvs.coherent ch
  cases mv.flight chx with
  | stays _ _ deliv _ => simp [Event.delivery?] at deliv
  | starts _ _ eq _ => cases eq
  | lands _ _ eq _ num' given =>
    cases eq
    rw [num, Option.some.injEq, messageId_inj] at num'
    cases num'
    exact (rest.later (mv.coherent chx)).answer given nofun
  | ends _ _ _ deliv => simp [Event.delivery?] at deliv

/-! ## The end of the session -/

/-- At the end of the session the outstanding requests fail with its cause. -/
lemma Coherent.answer?_failAll (ch : Coherent c) (cause : Cause) (mem : i ∈ c.outstanding) :
    (c.failAll cause).answer? i = some (.given (.error (.sessionTerminated cause))) := by
  obtain ⟨r, hr, _⟩ := ch.outstanding_due mem
  rw [answer?, getElem?_failAll, hr]
  simp [mem]

/-- After the end a request resolves with its cause when it is submitted. -/
lemma Coherent.poll_submit {τ : Type} (transmit : Node → τ → Except Error Unit × τ)
    {cause : Cause} (ch : Coherent c) (term : c.terminated = some cause) (operation : Node)
    (t : τ) : (c.submit transmit operation t).2.1.poll c.requests.size =
      some (.resolved (.error (.sessionTerminated cause))) := by
  rw [submit_of_terminated _ _ _ term, (ch.refuse _).poll_iff]
  exact ⟨_, getElem?_push_size, rfl, .given nofun rfl⟩

end Correlator

namespace History

variable {τ : Type} (transmit : Node → τ → Except Error Unit × τ)

/-- The session ended with a cause, and with it all requests that were outstanding before. -/
structure Broken (before after : History τ) (cause : Cause) : Prop where
  terminated : after.correlator.terminated = some cause
  /-- The request that was in flight can no longer be cancelled. -/
  sent {i} (more : List Action) : before.correlator.inFlight = some i →
    (after.run transmit more).correlator.status? i = some .sent
  /-- Whoever still waits for a request that is not cancelled is told the cause. -/
  told {i r} (more : List Action) : i ∈ before.correlator.outstanding →
    (after.run transmit more).correlator.requests[i]? = some r → r.held = true →
    r.status ≠ .cancelled →
    (after.run transmit more).correlator.poll i =
      some (.resolved (.error (.sessionTerminated cause)))
  /-- So is whoever submits a request later. -/
  refused (more : List Action) (operation : Node) :
    ((after.run transmit more).act transmit (.submit operation)).correlator.poll
      (after.run transmit more).correlator.requests.size =
        some (.resolved (.error (.sessionTerminated cause)))

/-- What becomes of a message that comes in after a history. -/
inductive Disposed (h : History τ) (message : Node) : Prop where
  /-- It is delivered to the request in flight, and to no other. -/
  | delivered {i} :
    message.messageKind = .rpcReply → h.correlator.inFlight = some i →
    message.messageId? = some (Correlator.messageId i) →
    (h.correlator.onReply transmit message h.transmitter).1 = .ok .delivered →
    h.correlator.answer? i = some .due →
    (∀ j, (h.act transmit (.reply message)).correlator.answer? j =
      some (.given (.ok message)) ↔ j = i) →
    Disposed h message
  /-- It is passed on, and nothing changes. -/
  | unsolicited :
    message.messageKind ≠ .rpcReply ∨ h.correlator.inFlight = none →
    h.correlator.onReply transmit message h.transmitter =
      (.ok (.unsolicited message), h.correlator, h.transmitter) →
    Disposed h message
  /-- It is a reply with another number than that of the request in flight, and ends the session. -/
  | unexpected {i} :
    message.messageKind = .rpcReply → h.correlator.inFlight = some i →
    message.messageId? ≠ some (Correlator.messageId i) →
    (h.correlator.onReply transmit message h.transmitter).1 =
      .error (.correlation (Correlator.messageId i) message.messageId?) →
    Broken transmit h (h.act transmit (.reply message))
      (Error.correlation (Correlator.messageId i) message.messageId?).cause →
    Disposed h message

/-- When the outstanding requests fail, they fail for good. -/
lemma broken_of_failAll {h h' : History τ} {cause : Cause} (ch : h.correlator.Coherent)
    (eq : h'.correlator = h.correlator.failAll cause) : Broken transmit h h' cause := by
  have ch' : h'.correlator.Coherent := eq ▸ ch.failAll cause
  have term : h'.correlator.terminated = some cause := by rw [eq]; rfl
  refine ⟨term, ?_, ?_, ?_⟩
  · intro i more fl
    obtain ⟨es, _, mvs⟩ := h'.run_moves transmit more
    have later := (ch.later_failAll cause).trans (eq ▸ mvs.later ch')
    exact later.status (ch.status?_inFlight fl) nofun
  · intro i r more mem hr held alive
    obtain ⟨es, _, mvs⟩ := h'.run_moves transmit more
    have failed := ch.answer?_failAll cause mem
    rw [← eq] at failed
    obtain ⟨s, hs, given⟩ := Correlator.answer?_eq_some.mp
      ((mvs.later ch').answer failed nofun)
    rw [hr, Option.some.injEq] at hs
    rw [(mvs.coherent ch').poll_iff]
    exact ⟨r, hr, held, .given alive (hs ▸ given)⟩
  · intro more operation
    obtain ⟨es, _, mvs⟩ := h'.run_moves transmit more
    rw [correlator_act_submit]
    exact (mvs.coherent ch').poll_submit transmit (mvs.terminated ch' term) operation _

/-- How replies are paired with requests in a history. -/
structure Paired (h : History τ) : Prop where
  /-- A request resolves with a reply only if it is the first since the request was sent. -/
  resolved {i reply} : h.correlator.poll i = some (.resolved (.ok reply)) →
    Correlator.FirstReply h.trace i reply
  disposed (message : Node) : Disposed transmit h message

/-- All histories pair replies with requests. -/
theorem run_paired (t : τ) (actions : List Action) :
    Paired transmit ((start t).run transmit actions) := by
  have mvs := start_run_moves transmit t actions
  generalize (start t).run transmit actions = h at mvs
  have ch := mvs.coherent .new
  refine ⟨?_, ?_⟩
  · intro i reply told
    obtain ⟨r, hr, _, dec⟩ := ch.poll_iff.mp told
    cases dec with
    | given _ given => exact mvs.first_reply (Correlator.answer?_eq_some.mpr ⟨r, hr, given⟩)
  · intro message
    cases h.correlator.reception message with
    | unsolicited other =>
      exact .unsolicited other (Correlator.onReply_of_unsolicited _ _ other)
    | unexpected kind fl num =>
      have eq := Correlator.onReply_of_mismatch transmit h.transmitter kind fl num
      refine .unexpected kind fl num (by rw [eq]) (broken_of_failAll transmit ch ?_)
      rw [correlator_act_reply, eq]
    | @expected i kind fl num =>
      have out := Correlator.mem_outstanding.mpr (.inl fl)
      have eq := Correlator.onReply_of_match transmit h.transmitter kind fl num
      refine .delivered kind fl num (by rw [eq]) (ch.answer?_outstanding out) fun j => ?_
      obtain ⟨es, _, mvs'⟩ :=
        Correlator.onReply_recording transmit h.correlator message h.transmitter
      rw [← correlator_act_reply, eq] at mvs'
      constructor
      · -- Whoever is answered with the message has its number.
        intro given
        obtain ⟨_, _, _, _, _, _, _, _, num'⟩ := (mvs.trans mvs').first_reply given
        rw [num, Option.some.injEq, Correlator.messageId_inj] at num'
        exact num'.symm
      · rintro rfl
        exact mvs'.answer_of_delivered ch (by simp) num

end History

end Netconf
