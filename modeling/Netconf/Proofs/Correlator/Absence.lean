import Netconf.Proofs.Correlator.Accounting
import Netconf.Proofs.Correlator.Transmitter

/-!
# Requests that were never submitted

A request that the transmitter refuses without ending the session leaves no trace in what becomes of
the others. Its number is used up, and for the rest the history is that in which it was never
submitted and nothing was done with it, if the transmitter answers the other requests as it did
(`History.Mirrors.run`).
-/

namespace Netconf

namespace Event

/-- The event tells of one of the requests. -/
def tellsOf (gone : List Nat) : Event → Bool
  | submitted i _ | cancelled i _ | forgot i _ | took i _ => gone.contains i
  | e => gone.any fun i => e.hands i

/-- What is seen of the other requests. -/
def others (gone : List Nat) (es : List Event) : List Event :=
  es.filter fun e => !e.tellsOf gone

/-- What is handed over of the other requests. -/
def otherHandovers (gone : List Nat) (es : List Event) : List Event :=
  (others gone es).filter fun e => e.handover?.isSome

/-- The transmitter refuses those of the requests that it is handed, and the session goes on. -/
def Refused (gone : List Nat) (es : List Event) : Prop :=
  ∀ {rpc outcome i}, .handed rpc outcome ∈ es → i ∈ gone →
    rpc.messageId? = some (Correlator.messageId i) →
    ∃ e : Error, outcome = .error e ∧ e.isFatal = false

section

variable {gone : List Nat} {es fs : List Event} {e : Event} {w : Waiting}
  {outcome : Except Error Unit}

/-- What is seen of the other requests in two parts is seen one after the other. -/
lemma others_append : others gone (es ++ fs) = others gone es ++ others gone fs :=
  List.filter_append ..

/-- What is handed over of the other requests in two parts is handed over one after the other. -/
lemma otherHandovers_append :
    otherHandovers gone (es ++ fs) = otherHandovers gone es ++ otherHandovers gone fs := by
  rw [otherHandovers, others_append, List.filter_append]
  rfl

/-- What is not handed over does not matter to the transmitter. -/
lemma otherHandovers_cons (quiet : e.handover? = none) :
    otherHandovers gone (e :: es) = otherHandovers gone es := by
  simp only [otherHandovers, others, List.filter_cons]
  split <;> simp [quiet]

/-- Requests that are refused in the whole are refused in both parts. -/
lemma Refused.of_append (ref : Refused gone (es ++ fs)) : Refused gone es ∧ Refused gone fs :=
  ⟨fun mem => ref (List.mem_append_left _ mem), fun mem => ref (List.mem_append_right _ mem)⟩

/-- Requests that are refused in the whole are refused after the first event. -/
lemma Refused.tail (ref : Refused gone (e :: es)) : Refused gone es :=
  fun mem => ref (List.mem_cons_of_mem _ mem)

/-- Handing a request over tells of this request. -/
lemma tellsOf_handed (num : w.rpc.messageId? = some (Correlator.messageId w.index)) :
    (handed w.rpc outcome).tellsOf gone = gone.contains w.index := by
  rw [Bool.eq_iff_iff]
  simp [tellsOf, hands, num]

/-- Handing over one of the requests is not seen of the others. -/
lemma handed_gone (num : w.rpc.messageId? = some (Correlator.messageId w.index))
    (mem : w.index ∈ gone) :
    others gone (handed w.rpc outcome :: es) = others gone es ∧
      otherHandovers gone (handed w.rpc outcome :: es) = otherHandovers gone es := by
  simp [otherHandovers, others, tellsOf_handed num, mem]

/-- Handing over another request is seen of the others. -/
lemma handed_other (num : w.rpc.messageId? = some (Correlator.messageId w.index))
    (mem : w.index ∉ gone) :
    others gone (handed w.rpc outcome :: es) = handed w.rpc outcome :: others gone es ∧
      otherHandovers gone (handed w.rpc outcome :: es) =
        handed w.rpc outcome :: otherHandovers gone es := by
  simp [otherHandovers, others, tellsOf_handed num, mem, handover?]

end

end Event

namespace Correlator

open Event

/-- Uses a number up for a request that is never submitted. -/
def reserve (c : Correlator) : Correlator :=
  c.push ⟨.cancelled, .withheld, false⟩

/-- The second is the first without some of the requests. -/
structure Without (gone : List Nat) (c d : Correlator) : Prop where
  queue : d.queue = c.queue.filter fun w => !gone.contains w.index
  inFlight : d.inFlight = c.inFlight
  flies {i : Nat} : c.inFlight = some i → i ∉ gone
  terminated : d.terminated = c.terminated
  size : d.requests.size = c.requests.size
  requests {i : Nat} : i ∉ gone → d.requests[i]? = c.requests[i]?

variable {gone : List Nat} {c d : Correlator} {i : Nat}

namespace Without

/-- A new correlator has none of the requests. -/
lemma new (gone : List Nat) : Without gone .new .new :=
  ⟨rfl, rfl, nofun, rfl, rfl, fun _ => rfl⟩

/-- Another request is queued in both or in none. -/
lemma isQueued (wo : Without gone c d) (other : i ∉ gone) : d.isQueued i = c.isQueued i := by
  rw [Correlator.isQueued, Correlator.isQueued, wo.requests other]

/-- A change of one request leaves the same difference. -/
lemma update (wo : Without gone c d) (f : Request → Request) :
    Without gone (c.update i f) (d.update i f) where
  queue := wo.queue
  inFlight := wo.inFlight
  flies := wo.flies
  terminated := wo.terminated
  size := by rw [size_requests_update, size_requests_update, wo.size]
  requests other := by rw [getElem?_update, getElem?_update, wo.requests other]

/-- A request that was never submitted does not change. -/
lemma update_gone (wo : Without gone c d) (mem : i ∈ gone) (f : Request → Request) :
    Without gone (c.update i f) d where
  queue := wo.queue
  inFlight := wo.inFlight
  flies := wo.flies
  terminated := wo.terminated
  size := by rw [size_requests_update, wo.size]
  requests {j} other := by
    have ne : i ≠ j := by
      rintro rfl
      exact other mem
    rw [getElem?_update, if_neg ne, wo.requests other]

/-- New requests leave the same difference if they are the same where they are not left out. -/
lemma push (wo : Without gone c d) {r s : Request} (same : c.requests.size ∉ gone → s = r) :
    Without gone (c.push r) (d.push s) where
  queue := wo.queue
  inFlight := wo.inFlight
  flies := wo.flies
  terminated := wo.terminated
  size := by rw [size_requests_push, size_requests_push, wo.size]
  requests {j} other := by
    rw [getElem?_push, getElem?_push, wo.size]
    split
    · next eq => rw [same (eq ▸ other)]
    · exact wo.requests other

/-- Failing the outstanding requests leaves the same difference. -/
lemma failAll (wo : Without gone c d) (cause : Cause) :
    Without gone (c.failAll cause) (d.failAll cause) where
  queue := rfl
  inFlight := rfl
  flies := nofun
  terminated := rfl
  size := by rw [size_requests_failAll, size_requests_failAll, wo.size]
  requests {j} other := by
    have same : j ∈ d.outstanding ↔ j ∈ c.outstanding := by
      simp only [mem_outstanding, wo.inFlight, wo.queue, List.mem_filter]
      constructor
      · rintro (fl | ⟨w, ⟨mem, -⟩, eq⟩)
        · exact .inl fl
        · exact .inr ⟨w, mem, eq⟩
      · rintro (fl | ⟨w, mem, rfl⟩)
        · exact .inl fl
        · exact .inr ⟨w, ⟨mem, by simpa using other⟩, rfl⟩
    rw [getElem?_failAll, getElem?_failAll, wo.requests other]
    simp only [same]

/-- Queueing another request leaves the same difference. -/
lemma enqueue (wo : Without gone c d) (other : c.requests.size ∉ gone) (operation : Node) :
    Without gone (c.enqueue operation) (d.enqueue operation) where
  queue := by simp [Correlator.enqueue, wo.queue, wo.size, other]
  inFlight := wo.inFlight
  flies := wo.flies
  terminated := wo.terminated
  size := (wo.push fun _ => rfl).size
  requests := (wo.push fun _ => rfl).requests

/-- A request that was never submitted does not wait. -/
lemma enqueue_gone (wo : Without gone c d) (mem : c.requests.size ∈ gone) (operation : Node) :
    Without gone (c.enqueue operation) d.reserve where
  queue := by simp [Correlator.enqueue, reserve, Correlator.push, wo.queue, mem]
  inFlight := wo.inFlight
  flies := wo.flies
  terminated := wo.terminated
  size := (wo.push (absurd mem)).size
  requests := (wo.push (absurd mem)).requests

/-- The reply to the request in flight arrives. -/
lemma deliver (wo : Without gone c d) (result : Except Error Node) :
    Without gone { c.resolve i result with inFlight := none }
      { d.resolve i result with inFlight := none } :=
  ⟨wo.queue, rfl, nofun, wo.terminated, (wo.update _).size, (wo.update _).requests⟩

/-- The end of the session leaves the same difference. -/
lemma terminate (wo : Without gone c d) (cause : Cause) :
    Without gone (c.terminate cause) (d.terminate cause) := by
  unfold Correlator.terminate
  rw [wo.terminated]
  split
  · exact wo
  · exact wo.failAll cause

/-- Cancelling another request comes to the same in both. -/
lemma cancel (wo : Without gone c d) (other : i ∉ gone) :
    (d.cancel i).1 = (c.cancel i).1 ∧ Without gone (c.cancel i).2 (d.cancel i).2 := by
  unfold Correlator.cancel
  rw [wo.isQueued other]
  split
  · exact ⟨rfl, wo.update _⟩
  · exact ⟨rfl, wo⟩

/-- Cancelling one of the requests is not missed where it was never submitted. -/
lemma cancel_gone (wo : Without gone c d) (mem : i ∈ gone) : Without gone (c.cancel i).2 d := by
  rcases cancel_cases (c := c) (i := i) with ⟨_, eq⟩ | ⟨_, eq⟩ <;> rw [eq]
  · exact wo.update_gone mem _
  · exact wo

/-- Taking the answer to another request comes to the same in both. -/
lemma take (wo : Without gone c d) (other : i ∉ gone) :
    (d.take i).1 = (c.take i).1 ∧ Without gone (c.take i).2 (d.take i).2 := by
  have same : d.poll i = c.poll i := by
    rw [Correlator.poll, Correlator.poll, held?, held?, wo.requests other]
  unfold Correlator.take
  rw [same]
  split
  · exact ⟨rfl, wo.update _⟩
  · exact ⟨rfl, wo⟩

/-- Taking the answer to one of the requests is not missed where it was never submitted. -/
lemma take_gone (wo : Without gone c d) (mem : i ∈ gone) : Without gone (c.take i).2 d := by
  rcases take_cases (c := c) (i := i) with eq | eq <;> rw [eq]
  · exact wo
  · exact wo.update_gone mem _

/-- If the first correlator is settled, so is the second. -/
lemma settled (wo : Without gone c d) (set : c.Settled) : d.Settled := by
  intro fl
  rw [wo.queue, set (wo.inFlight.symm.trans fl), List.filter_nil]

end Without

/-! ## Handing over -/

section

variable {τ τ' : Type} (transmit : Node → τ → Except Error Unit × τ)
  (transmit' : Node → τ' → Except Error Unit × τ')

/-- What the first comes to, with more events than the log, the second comes to without the
requests, if its transmitter answers the others in the same way. -/
def Parallel (gone : List Nat) (log : List Event) (first : Correlator × τ × List Event)
    (second : τ' × List Event → Correlator × τ' × List Event) : Prop :=
  ∃ es, first.2.2 = log ++ es ∧
    ∀ {u u'} (log' : List Event), Refused gone es → Handed transmit' u (otherHandovers gone es) u' →
      (second (u, log')).2 = (u', log' ++ others gone es) ∧
        Without gone first.1 (second (u, log')).1

variable {w : Waiting} {rest : List Waiting}

/-- The second correlator does not have the request, and the first passes over it or fails it. -/
lemma Without.advance_gone (wo : Without gone c d) (t : τ) (log : List Event) (mem : w.index ∈ gone)
    (num : w.rpc.messageId? = some (messageId w.index))
    {second : τ' × List Event → Correlator × τ' × List Event}
    (later : ∀ {c} t log, Without gone c d →
      Parallel transmit' gone log (c.advance (recording transmit) (t, log) rest) second) :
    Parallel transmit' gone log (c.advance (recording transmit) (t, log) (w :: rest)) second := by
  cases q : c.isQueued w.index with
  | false =>
    simp only [Correlator.advance, q, Bool.false_eq_true, if_false]
    exact later t log (wo.update_gone mem _)
  | true =>
    cases out : transmit w.rpc t with | mk outcome t' =>
    cases outcome with
    | ok _ =>
      simp only [Correlator.advance, q, if_true, recording, out]
      refine ⟨[.handed w.rpc (.ok ())], rfl, ?_⟩
      -- The request is one that was refused mildly, so this does not come to pass.
      intro u u' log' ref
      obtain ⟨e, eq, -⟩ := ref List.mem_cons_self mem num
      cases eq
    | error e =>
      cases fatal : e.isFatal with
      | true =>
        simp only [Correlator.advance, q, if_true, recording, out, fatal]
        refine ⟨[.handed w.rpc (.error e)], rfl, ?_⟩
        intro u u' log' ref
        obtain ⟨e, eq, mild⟩ := ref List.mem_cons_self mem num
        cases eq
        rw [fatal] at mild
        cases mild
      | false =>
        have wo' : Without gone ((c.mark w.index .sent).resolve w.index (.error e)) d :=
          (wo.update_gone mem _).update_gone mem _
        obtain ⟨es, eq, law⟩ := later t' (log ++ [.handed w.rpc (.error e)]) wo'
        simp only [Correlator.advance, q, if_true, recording, out, fatal, Bool.false_eq_true,
          if_false]
        refine ⟨.handed w.rpc (.error e) :: es, by simpa using eq, ?_⟩
        intro u u' log' ref handed
        rw [(handed_gone num mem).2] at handed
        rw [(handed_gone num mem).1]
        exact law log' ref.tail handed

/-- Both correlators pass over a request, or hand it over with the same outcome. -/
lemma Without.advance_other (wo : Without gone c d) (t : τ) (log : List Event)
    (mem : w.index ∉ gone) (num : w.rpc.messageId? = some (messageId w.index))
    {rest' : List Waiting} (left : rest' = rest.filter fun w => !gone.contains w.index)
    (later : ∀ {c d} t log, Without gone c d →
      Parallel transmit' gone log (c.advance (recording transmit) (t, log) rest)
        fun s => d.advance (recording transmit') s rest') :
    Parallel transmit' gone log (c.advance (recording transmit) (t, log) (w :: rest))
      fun s => d.advance (recording transmit') s (w :: rest') := by
  have same := wo.isQueued mem
  cases q : c.isQueued w.index with
  | false =>
    simp only [Correlator.advance, same, q, Bool.false_eq_true, if_false]
    exact later t log (wo.update _)
  | true =>
    cases out : transmit w.rpc t with | mk outcome t' =>
    -- The transmitter of the second is asked for the same request first.
    have ask {es u u'} (handed : Handed transmit' u
        (otherHandovers gone (.handed w.rpc outcome :: es)) u') :
        ∃ u₁, transmit' w.rpc u = (outcome, u₁) ∧
          Handed transmit' u₁ (otherHandovers gone es) u' := by
      rw [(handed_other num mem).2] at handed
      obtain _ | ⟨out', handed⟩ := handed
      exact ⟨_, out', handed⟩
    cases outcome with
    | ok _ =>
      simp only [Correlator.advance, same, q, if_true, recording, out]
      refine ⟨[.handed w.rpc (.ok ())], rfl, ?_⟩
      intro u u' log' ref handed
      obtain ⟨u₁, out', handed⟩ := ask handed
      cases handed
      simp only [(handed_other num mem).1, out']
      refine ⟨rfl, ⟨left, rfl, ?_, wo.terminated, (wo.update _).size, (wo.update _).requests⟩⟩
      intro i fl
      cases fl
      exact mem
    | error e =>
      have wo' : Without gone ((c.mark w.index .sent).resolve w.index (.error e))
          ((d.mark w.index .sent).resolve w.index (.error e)) :=
        (wo.update _).update _
      cases fatal : e.isFatal with
      | true =>
        simp only [Correlator.advance, same, q, if_true, recording, out, fatal]
        refine ⟨[.handed w.rpc (.error e)], rfl, ?_⟩
        intro u u' log' ref handed
        obtain ⟨u₁, out', handed⟩ := ask handed
        cases handed
        simp only [(handed_other num mem).1, out', fatal, if_true]
        refine ⟨rfl, Without.failAll ?_ _⟩
        exact ⟨left, wo'.inFlight, wo'.flies, wo'.terminated, wo'.size, wo'.requests⟩
      | false =>
        obtain ⟨es, eq, law⟩ := later t' (log ++ [.handed w.rpc (.error e)]) wo'
        simp only [Correlator.advance, same, q, if_true, recording, out, fatal,
          Bool.false_eq_true, if_false]
        refine ⟨.handed w.rpc (.error e) :: es, by simpa using eq, ?_⟩
        intro u u' log' ref handed
        obtain ⟨u₁, out', handed⟩ := ask handed
        have after := law (log' ++ [.handed w.rpc (.error e)]) ref.tail handed
        simp only [(handed_other num mem).1, out', fatal, Bool.false_eq_true, if_false]
        rwa [List.append_assoc] at after

/-- Both correlators go through the queue alike but for the requests that the second does not have.
-/
lemma Without.advance (wo : Without gone c d) (t : τ) (log : List Event) {ws : List Waiting}
    (numbered : ∀ w ∈ ws, w.rpc.messageId? = some (messageId w.index)) :
    Parallel transmit' gone log (c.advance (recording transmit) (t, log) ws)
      fun s => d.advance (recording transmit') s
        (ws.filter fun w => !gone.contains w.index) := by
  induction ws generalizing c d t log with
  | nil =>
    refine ⟨[], by simp [Correlator.advance], ?_⟩
    intro u u' log' _ handed
    cases handed
    refine ⟨by simp [Correlator.advance, others], ?_⟩
    exact ⟨rfl, wo.inFlight, wo.flies, wo.terminated, wo.size, wo.requests⟩
  | cons w rest ih =>
    obtain ⟨num, numbered⟩ := List.forall_mem_cons.mp numbered
    by_cases mem : w.index ∈ gone
    · rw [List.filter_cons_of_neg (by simpa using mem)]
      exact wo.advance_gone transmit transmit' t log mem num
        fun t log wo => ih wo t log numbered
    · rw [List.filter_cons_of_pos (by simpa using mem)]
      exact wo.advance_other transmit transmit' t log mem num rfl
        fun t log wo => ih wo t log numbered

/-- Both correlators hand over what waits alike but for the requests that the second does not have.
-/
lemma Without.pump (wo : Without gone c d) (ch : Coherent c) (t : τ) (log : List Event) :
    Parallel transmit' gone log (c.pump (recording transmit) (t, log))
      fun s => d.pump (recording transmit') s := by
  have same : (d.inFlight.isNone && d.terminated.isNone) =
      (c.inFlight.isNone && c.terminated.isNone) := by
    rw [wo.inFlight, wo.terminated]
  cases fr : c.inFlight.isNone && c.terminated.isNone with
  | true =>
    simp only [Correlator.pump, same, fr, if_true, wo.queue]
    exact wo.advance transmit transmit' t log fun w mem => ch.numbered mem
  | false =>
    simp only [Correlator.pump, same, fr, Bool.false_eq_true, if_false]
    refine ⟨[], by simp, ?_⟩
    intro u u' log' _ handed
    cases handed
    exact ⟨by simp [others], wo⟩

/-- Nothing is handed over if nothing waits. -/
lemma Settled.pump (set : c.Settled) (t : τ) : c.pump transmit t = (c, t) := by
  unfold Correlator.pump
  split
  · next fr =>
    have empty : c.queue = [] := set (by simp_all)
    obtain ⟨_, _, _, _⟩ := c
    cases empty
    rfl
  · rfl

end

end Correlator

namespace History

open Correlator Event

variable {τ τ' : Type} (transmit : Node → τ → Except Error Unit × τ)
  (transmit' : Node → τ' → Except Error Unit × τ')

/-- One more action, if some requests are never submitted: only their numbers are used up, and
nothing is done with them. -/
def actWithout (gone : List Nat) (h : History τ) (action : Action) : History τ :=
  match action with
  | .submit operation =>
    if h.correlator.requests.size ∈ gone then { h with correlator := h.correlator.reserve }
    else h.act transmit (.submit operation)
  | .cancel i => if i ∈ gone then h else h.act transmit (.cancel i)
  | .forget i => if i ∈ gone then h else h.act transmit (.forget i)
  | .take i => if i ∈ gone then h else h.act transmit (.take i)
  | .reply message => h.act transmit (.reply message)
  | .terminate cause => h.act transmit (.terminate cause)

/-- Some more actions, if some requests are never submitted. -/
def runWithout (gone : List Nat) (h : History τ) (actions : List Action) : History τ :=
  actions.foldl (actWithout transmit gone) h

/-- The second history is the first without some of the requests. -/
structure Mirrors (gone : List Nat) (h : History τ) (g : History τ') : Prop where
  trace : g.trace = others gone h.trace
  correlator : Without gone h.correlator g.correlator

variable {gone : List Nat} {h : History τ} {g : History τ'}

/-- Events of an action, by which the second history goes on like the first, if its transmitter
answers the other requests in the same way. -/
def Follows (gone : List Nat) (h h' : History τ) (g g' : History τ') : Prop :=
  ∃ es, h'.trace = h.trace ++ es ∧
    ∀ {u}, Refused gone es → Handed transmit' g.transmitter (otherHandovers gone es) u →
      Mirrors gone h' g' ∧ g'.transmitter = u

variable {transmit'}

section

variable {h' : History τ} {g' : History τ'} {e : Event}

/-- An action during which nothing is handed over. -/
lemma Mirrors.quiet (mi : Mirrors gone h g) (quiet : e.handover? = none) {c d : Correlator}
    (wo : Without gone c d) (eq : h' = ⟨h.trace ++ [e], c, h.transmitter⟩)
    (eq' : g' = ⟨g.trace ++ others gone [e], d, g.transmitter⟩) :
    Follows transmit' gone h h' g g' := by
  subst eq eq'
  refine ⟨[e], rfl, ?_⟩
  intro u _ handed
  rw [otherHandovers_cons quiet] at handed
  cases handed
  exact ⟨⟨by rw [others_append, mi.trace], wo⟩, rfl⟩

/-- An action that is followed by handing requests over. -/
lemma Mirrors.parallel (mi : Mirrors gone h g) (quiet : e.handover? = none)
    {first : Correlator × τ × List Event} {second : τ' × List Event → Correlator × τ' × List Event}
    (par : Parallel transmit' gone [] first second)
    (eq : h' = ⟨h.trace ++ e :: first.2.2, first.1, first.2.1⟩)
    (eq' : g' = ⟨g.trace ++ (others gone [e] ++ (second (g.transmitter, [])).2.2),
      (second (g.transmitter, [])).1, (second (g.transmitter, [])).2.1⟩) :
    Follows transmit' gone h h' g g' := by
  subst eq eq'
  obtain ⟨es, shown, law⟩ := par
  rw [List.nil_append] at shown
  refine ⟨e :: es, by rw [shown], ?_⟩
  intro u ref handed
  rw [otherHandovers_cons quiet] at handed
  obtain ⟨same, wo⟩ := law [] ref.tail handed
  refine ⟨⟨?_, wo⟩, by rw [same]⟩
  rw [same, shown, others_append, mi.trace, List.nil_append, ← others_append,
    List.singleton_append]

end

/-- A submission after the end of the session fails with the cause. -/
lemma act_submit_of_terminated {cause : Cause} (term : h.correlator.terminated = some cause)
    (operation : Node) :
    h.act transmit (.submit operation) =
      ⟨h.trace ++ [.submitted h.correlator.requests.size operation],
        h.correlator.push ⟨.sent, .given (.error (.sessionTerminated cause)), true⟩,
        h.transmitter⟩ := by
  simp only [act, submit_of_terminated _ _ _ term]

/-- A submission while the session goes on is queued, and then what waits is handed over. -/
lemma act_submit_of_open (term : h.correlator.terminated = none) (operation : Node) :
    let pumped := (h.correlator.enqueue operation).pump (recording transmit) (h.transmitter, [])
    h.act transmit (.submit operation) =
      ⟨h.trace ++ .submitted h.correlator.requests.size operation :: pumped.2.2, pumped.1,
        pumped.2.1⟩ := by
  simp only [act, submit_of_open _ _ _ term]

/-- A submission that does not take place. -/
lemma Mirrors.submit_gone (mi : Mirrors gone h g) (ch : h.correlator.Coherent)
    (set : h.correlator.Settled) (mem : h.correlator.requests.size ∈ gone) (operation : Node) :
    Follows transmit' gone h (h.act transmit (.submit operation)) g
      (g.actWithout transmit' gone (.submit operation)) := by
  have wo := mi.correlator
  have left : g.actWithout transmit' gone (.submit operation) =
      ⟨g.trace ++ others gone [.submitted h.correlator.requests.size operation],
        g.correlator.reserve, g.transmitter⟩ := by
    simp [actWithout, wo.size, mem, others, tellsOf]
  cases term : h.correlator.terminated with
  | some cause =>
    exact mi.quiet rfl (wo.push (absurd mem)) (act_submit_of_terminated transmit term operation)
      left
  | none =>
    -- If nothing is in flight, the request is all that waits, and there is nothing to hand over.
    have par := (wo.enqueue_gone mem operation).pump transmit transmit' (ch.enqueue term operation)
      h.transmitter []
    have still : g.correlator.reserve.Settled := wo.settled set
    refine mi.parallel rfl par (act_submit_of_open transmit term operation) ?_
    rw [left, still.pump, List.append_nil]

/-- Both histories go on alike when another request is submitted. -/
lemma Mirrors.submit_other (mi : Mirrors gone h g) (ch : h.correlator.Coherent)
    (other : h.correlator.requests.size ∉ gone) (operation : Node) :
    Follows transmit' gone h (h.act transmit (.submit operation)) g
      (g.actWithout transmit' gone (.submit operation)) := by
  have wo := mi.correlator
  have same : g.actWithout transmit' gone (.submit operation) =
      g.act transmit' (.submit operation) := if_neg (wo.size.symm ▸ other)
  have shown : others gone [.submitted h.correlator.requests.size operation] =
      [.submitted g.correlator.requests.size operation] := by
    simp [others, tellsOf, other, wo.size]
  cases term : h.correlator.terminated with
  | some cause =>
    refine mi.quiet rfl (wo.push fun _ => rfl) (act_submit_of_terminated transmit term operation) ?_
    rw [same, shown, act_submit_of_terminated transmit' (wo.terminated.trans term)]
  | none =>
    have par := (wo.enqueue other operation).pump transmit transmit' (ch.enqueue term operation)
      h.transmitter []
    refine mi.parallel rfl par (act_submit_of_open transmit term operation) ?_
    rw [same, shown, act_submit_of_open transmit' (wo.terminated.trans term)]
    rfl

/-- Both histories go on alike when a message comes in. -/
lemma Mirrors.reply (mi : Mirrors gone h g) (ch : h.correlator.Coherent) (message : Node) :
    Follows transmit' gone h (h.act transmit (.reply message)) g
      (g.actWithout transmit' gone (.reply message)) := by
  have wo := mi.correlator
  have shown (result : Except Error Routing) :
      others gone [.routed message result] = [.routed message result] := by
    simp [others, tellsOf, hands]
  cases h.correlator.reception message with
  | unsolicited other =>
    have other' := wo.inFlight.symm ▸ other
    refine mi.quiet (e := .routed message (.ok (.unsolicited message))) rfl wo ?_ ?_
    · simp only [act, onReply_of_unsolicited _ _ other]
    · simp only [actWithout, act, onReply_of_unsolicited _ _ other', shown]
  | expected kind fl num =>
    have fl' := wo.inFlight.trans fl
    refine mi.parallel (e := .routed message (.ok .delivered)) rfl
      ((wo.deliver (.ok message)).pump transmit transmit' (ch.settle_inFlight fl _)
        h.transmitter []) ?_ ?_
    · simp only [act, onReply_of_match _ _ kind fl num]
    · simp only [actWithout, act, onReply_of_match _ _ kind fl' num, shown]
      rfl
  | @unexpected i kind fl num =>
    have fl' := wo.inFlight.trans fl
    refine mi.quiet (e := .routed message (.error (.correlation (messageId i) message.messageId?)))
      rfl (wo.failAll (Error.correlation (messageId i) message.messageId?).cause) ?_ ?_
    · simp only [act, onReply_of_mismatch _ _ kind fl num]
    · simp only [actWithout, act, onReply_of_mismatch _ _ kind fl' num, shown]

/-- One action of the first history, and the same in the second. -/
lemma Mirrors.act (mi : Mirrors gone h g) (ch : h.correlator.Coherent)
    (set : h.correlator.Settled) (action : Action) :
    Follows transmit' gone h (h.act transmit action) g (g.actWithout transmit' gone action) := by
  have wo := mi.correlator
  -- What is done to a request that is left out is not done in the second history.
  cases action with
  | submit operation =>
    by_cases mem : h.correlator.requests.size ∈ gone
    · exact mi.submit_gone transmit ch set mem operation
    · exact mi.submit_other transmit ch mem operation
  | cancel i =>
    by_cases mem : i ∈ gone
    · refine mi.quiet (e := .cancelled i (h.correlator.cancel i).1) rfl (wo.cancel_gone mem) rfl ?_
      simp [actWithout, mem, others, tellsOf]
    · obtain ⟨same, wo'⟩ := wo.cancel mem
      refine mi.quiet (e := .cancelled i (h.correlator.cancel i).1) rfl wo' rfl ?_
      simp [actWithout, History.act, mem, others, tellsOf, same]
  | forget i =>
    by_cases mem : i ∈ gone
    · refine mi.quiet (e := .forgot i (h.correlator.cancel i).1) rfl
        ((wo.cancel_gone mem).update_gone mem _) rfl ?_
      simp [actWithout, mem, others, tellsOf]
    · obtain ⟨same, wo'⟩ := wo.cancel mem
      refine mi.quiet (e := .forgot i (h.correlator.cancel i).1) rfl (wo'.update _) rfl ?_
      simp [actWithout, History.act, mem, others, tellsOf, same, Correlator.forget]
  | take i =>
    by_cases mem : i ∈ gone
    · refine mi.quiet (e := .took i (h.correlator.take i).1) rfl (wo.take_gone mem) rfl ?_
      simp [actWithout, mem, others, tellsOf]
    · obtain ⟨same, wo'⟩ := wo.take mem
      refine mi.quiet (e := .took i (h.correlator.take i).1) rfl wo' rfl ?_
      simp [actWithout, History.act, mem, others, tellsOf, same]
  | reply message => exact mi.reply transmit ch message
  | terminate cause =>
    refine mi.quiet (e := .terminated cause) rfl (wo.terminate cause) rfl ?_
    simp [actWithout, History.act, others, tellsOf, hands]

/-- Without requests that are refused a history goes on as it does with them, if the transmitter
answers the others in the same way. -/
lemma Mirrors.run (mi : Mirrors gone h g) (ch : h.correlator.Coherent)
    (set : h.correlator.Settled) (actions : List Action) :
    Follows transmit' gone h (h.run transmit actions) g
      (g.runWithout transmit' gone actions) := by
  induction actions generalizing h g with
  | nil =>
    refine ⟨[], by simp [History.run], ?_⟩
    intro u _ handed
    cases handed
    exact ⟨mi, rfl⟩
  | cons action rest ih =>
    obtain ⟨es, eq, now⟩ : Follows transmit' gone h (h.act transmit action) g
        (g.actWithout transmit' gone action) := mi.act transmit ch set action
    obtain ⟨_, _, mvs⟩ := h.act_moves transmit action
    obtain ⟨fs, eq', _⟩ := (h.act transmit action).run_moves transmit rest
    refine ⟨es ++ fs, ?_, ?_⟩
    · rw [← List.append_assoc, ← eq]
      exact eq'
    · intro u ref handed
      rw [otherHandovers_append] at handed
      obtain ⟨u₁, first, second⟩ := handed.append_inv
      obtain ⟨mi', left⟩ := now ref.of_append.1 first
      obtain ⟨es', seen, later⟩ := ih mi' (mvs.coherent ch) (act_settled transmit ch set action)
      obtain rfl : es' = fs := List.append_cancel_left (seen.symm.trans eq')
      rw [← left] at second
      exact later ref.of_append.2 second

end History

end Netconf
