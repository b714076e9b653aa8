import Netconf.Proofs.Correlator.Handover
import Netconf.Proofs.Correlator.Pairing
import Netconf.Proofs.Negotiation.Hello
import Netconf.Proofs.Session.Turn
import Netconf.Proofs.Tree.Parts

/-!
# Sessions that ask

A session whose application sends by submitting only. All messages that it puts on their way are
requests that the transmitter has taken (`Course.Asks`), each one once and in the order of
submission, and the last of them is the one in flight.
-/

namespace Netconf

namespace Node

variable {id : String} {operation : Node}

/-- A request is classified as one. -/
lemma messageKind_rpc : (rpc id operation).messageKind = .rpc := by
  have name : (rpc id operation).name = ⟨baseUri, "rpc"⟩ := rfl
  simp only [messageKind, isNamed, localName, uri, name]
  decide

end Node

namespace Correlator

variable {c d : Correlator} {es : List Event} {i : Nat}

/-- What the transmitter takes it was handed. -/
lemma transmissions_sublist (es : List Event) :
    (es.filterMap Event.transmission?).Sublist (es.filterMap Event.handover?) := by
  induction es with
  | nil => exact .slnil
  | cons e es ih =>
    cases e with
    | handed rpc outcome =>
      cases outcome with
      | ok => exact ih.cons_cons rpc
      | error => exact ih.cons rpc
    | _ => exact ih

/-- The transmitter takes some of the requests that were submitted, in this order. -/
lemma Moves.transmissions (mvs : Moves .new es c) :
    (es.filterMap Event.transmission?).Sublist (es.filterMap Event.submission?) :=
  (transmissions_sublist es).trans ((List.sublist_append_left _ _).trans mvs.sublist)

/-- Where nothing is submitted, nothing is taken. -/
lemma Moves.transmissions_of_quiet (mvs : Moves .new es c)
    (quiet : es.filterMap Event.submission? = []) : es.filterMap Event.transmission? = [] := by
  have sub := mvs.transmissions
  rw [quiet] at sub
  exact List.sublist_nil.mp sub

/-- The request in flight is the last one that the transmitter has taken. -/
lemma Moves.last_transmission (mvs : Moves .new es c) (fl : c.inFlight = some i) :
    ∃ before rpc, es.filterMap Event.transmission? = before ++ [rpc] ∧
      rpc.messageId? = some (messageId i) := by
  induction mvs with
  | refl => cases fl
  | tail mvs mv ih =>
    rw [List.filterMap_append, filterMap_toList]
    cases mv.flight (mvs.coherent .new) with
    | stays same trans _ _ =>
      rw [trans, Option.toList_none, List.append_nil]
      exact ih (same ▸ fl)
    | starts _ started eq num =>
      rw [fl, Option.some.injEq] at started
      subst started eq
      exact ⟨_, _, rfl, num⟩
    | lands _ gone _ _ _ _ => simp [fl] at gone
    | ends _ gone _ _ => simp [fl] at gone

/-- What a request is answered with was delivered, and has its number. -/
lemma Moves.delivered_of_answer {reply : Node} (mvs : Moves .new es c)
    (given : c.answer? i = some (.given (.ok reply))) :
    reply ∈ es.filterMap Event.delivery? ∧ reply.messageId? = some (messageId i) := by
  obtain ⟨before, rpc, between, after, rfl, -, -, -, num⟩ := mvs.first_reply given
  exact ⟨List.mem_filterMap.mpr ⟨.routed reply (.ok .delivered), by simp, rfl⟩, num⟩

/-- As long as the session goes on, requests are refused for want of room only. -/
lemma Moves.queueFull_of_answer {e : Error} (mvs : Moves .new es c) (plain : ∀ e ∈ es, e.Plain)
    (going : c.terminated = none) (failed : c.answer? i = some (.given (.error e))) :
    e = .queueFull := by
  induction mvs with
  | refl => cases failed
  | @tail _ d _ _ mvs mv ih =>
    rw [List.forall_mem_append] at plain
    have ch := mvs.coherent .new
    rcases mv.answer_cases ch failed with old | origin
    · refine ih plain.1 ?_ old
      cases term : d.terminated with
      | none => rfl
      | some cause => exact absurd (going.symm.trans (mv.terminated ch term)) nofun
    · cases origin with
      | refusal eq _ =>
        cases eq
        rcases plain.2 _ List.mem_cons_self _ _ rfl with full | rfl
        · exact full
        · have ended := mv.terminated_of_ends rfl
          rw [going] at ended
          cases ended
      | ended term => exact absurd (going.symm.trans term) nofun

end Correlator

namespace Course

open Correlator Session

variable {c : Course} {act : Act} {rpc : Node}

/-- Where no sender goes on, what is put on its way is told by what is seen of requests. -/
lemma posted_of_trace (c : Course) (send : ∀ message, act ≠ .send message)
    (proceed : ∀ k, act ≠ .proceed k) :
    ∃ es, (c.step act).trace = c.trace ++ es ∧
      (c.step act).posted = c.posted ++ es.filterMap Event.transmission? ∧
      (c.step act).senders = c.senders := by
  have quiet {d : Course} (trace : d.trace = c.trace) (posted : d.posted = c.posted)
      (senders : d.senders = c.senders) : ∃ es, d.trace = c.trace ++ es ∧
        d.posted = c.posted ++ es.filterMap Event.transmission? ∧ d.senders = c.senders :=
    ⟨[], by simp [trace], by simp [posted], senders⟩
  cases act with
  | send message => exact absurd rfl (send message)
  | proceed k => exact absurd rfl (proceed k)
  | nextMessage =>
    rw [step, nextMessage]
    split <;> exact quiet rfl rfl rfl
  | read reads =>
    rw [step, read]
    split
    · exact ⟨_, rfl, rfl, rfl⟩
    · exact quiet rfl rfl rfl
  | fetch =>
    rw [step]
    split <;> exact quiet rfl rfl rfl
  | write => exact quiet rfl rfl rfl
  | flush => exact quiet rfl rfl rfl
  | awaitEnd => exact quiet rfl rfl rfl
  | _ => exact ⟨_, rfl, rfl, rfl⟩

/-- Where no sender goes on, an act puts the requests on their way that the transmitter takes. -/
lemma posted_step (c : Course) (send : ∀ message, act ≠ .send message)
    (proceed : ∀ k, act ≠ .proceed k) :
    ∃ es, (c.step act).trace = c.trace ++ es ∧
      (c.step act).posted = c.posted ++ es.filterMap Event.transmission? ∧
      (c.step act).senders = c.senders ∧ ∀ e ∈ es, e.Shows act := by
  obtain ⟨es, trace, posted, senders⟩ := c.posted_of_trace send proceed
  obtain ⟨fs, trace', shows⟩ := c.shows_step act
  obtain rfl := List.append_cancel_left (trace.symm.trans trace')
  exact ⟨es, trace, posted, senders, shows⟩

/-- A submission is seen where an operation is submitted. -/
lemma submission_of_shows {es : List Event} (shows : ∀ e ∈ es, e.Shows act)
    (mem : rpc ∈ es.filterMap Event.submission?) :
    ∃ i operation, rpc = .rpc (messageId i) operation ∧ act = .submit operation := by
  obtain ⟨e, mem, eq⟩ := List.mem_filterMap.mp mem
  cases shows e mem with
  | submitted submit =>
    cases eq
    exact ⟨_, _, rfl, submit⟩
  | _ => cases eq

/-- The application sends by submitting, and a document can hold what it submits. -/
structure Asks (c : Course) : Prop where
  senders : c.senders = []
  posted : c.posted = c.trace.filterMap Event.transmission?
  kept : ∀ rpc ∈ c.trace.filterMap Event.submission?, rpc.Everywhere Node.Kept
  plain : ∀ e ∈ c.trace, e.Plain

namespace Asks

/-- A session that has just been established has asked for nothing. -/
lemma start (s : Session) (written : Bytes) : (Course.start s written).Asks :=
  ⟨rfl, rfl, List.forall_mem_nil _, List.forall_mem_nil _⟩

/-- An application that submits what a document can hold goes on to do so. -/
lemma step (as : c.Asks) (send : ∀ message, act ≠ .send message)
    (kept : ∀ operation, act = .submit operation → operation.Everywhere Node.Kept) :
    (c.step act).Asks := by
  by_cases proceeds : ∃ k, act = .proceed k
  · obtain ⟨k, rfl⟩ := proceeds
    have none : c.senders[k]? = none := by rw [as.senders, List.getElem?_nil]
    have same : c.step (.proceed k) = c := by simp only [Course.step, proceed, none]
    rw [same]
    exact as
  · obtain ⟨es, trace, posted, senders, shows⟩ :=
      c.posted_step send fun k eq => proceeds ⟨k, eq⟩
    refine ⟨senders.trans as.senders, ?_, ?_, plain_step as.plain act⟩
    · rw [posted, trace, List.filterMap_append, as.posted]
    · rw [trace, List.filterMap_append]
      refine List.forall_mem_append.mpr ⟨as.kept, fun rpc mem => ?_⟩
      obtain ⟨i, operation, rfl, submit⟩ := submission_of_shows shows mem
      exact Node.kept_rpc (isXmlText_toString _) (kept operation submit)

variable (as : c.Asks) (mvs : Moves .new c.trace c.session.correlator)

include as mvs

/-- What was posted are submitted requests in the order of their submission. -/
lemma sublist : c.posted.Sublist (c.trace.filterMap Event.submission?) := by
  rw [as.posted]
  exact mvs.transmissions

/-- A document can hold all that is posted. -/
lemma kept_posted : ∀ n ∈ c.posted, n.Everywhere Node.Kept :=
  fun n mem => as.kept n ((as.sublist mvs).subset mem)

/-- All that is posted are requests. -/
lemma request_of_mem (mem : rpc ∈ c.posted) :
    ∃ i operation, rpc = .rpc (messageId i) operation ∧ .submitted i operation ∈ c.trace := by
  obtain ⟨e, seen, eq⟩ := List.mem_filterMap.mp ((as.sublist mvs).subset mem)
  cases e with
  | submitted i operation =>
    cases eq
    exact ⟨i, operation, rfl, seen⟩
  | _ => cases eq

/-- What was posted is no reply. -/
lemma kind_of_mem (mem : rpc ∈ c.posted) : rpc.messageKind ≠ .rpcReply := by
  obtain ⟨i, operation, rfl, -⟩ := as.request_of_mem mvs mem
  rw [Node.messageKind_rpc]
  exact nofun

/-- What is posted is posted once, and in the order of submission. -/
lemma numbered : ∃ indices : List Nat, indices.Pairwise (· < ·) ∧
    c.posted.map Node.messageId? = indices.map fun i => some (messageId i) := by
  have sub := (as.sublist mvs).map Node.messageId?
  rw [mvs.submissions, List.sublist_map_iff] at sub
  obtain ⟨indices, sub, eq⟩ := sub
  exact ⟨indices, List.pairwise_lt_range.sublist sub, eq⟩

end Asks

end Course

end Netconf
