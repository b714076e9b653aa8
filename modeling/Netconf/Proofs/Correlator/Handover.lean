import Netconf.Proofs.Correlator.Flight
import Netconf.Proofs.Correlator.History
import Netconf.Proofs.Correlator.Trace

/-!
# Handing requests over

The transmitter is handed requests in the order of their submission, and after it has taken one, it
is handed no other before the reply to that one has come. A request is either cancelled or handed
over, never both, and nothing is handed over after the end of the session. The main result is
`History.run_orderly`, which says this of all histories.
-/

namespace Netconf

namespace Correlator

variable {c d : Correlator} {i : Nat} {es : List Event} {f : Option Event}

/-! ## The order of submission -/

/-- A move takes from the front of the queue what it hands over, and puts at its end what it
submits. -/
lemma Move.sublist (mv : Move c f d) :
    (f.toList.filterMap Event.handover? ++ d.queue.map (·.rpc)).Sublist
      (c.queue.map (·.rpc) ++ f.toList.filterMap Event.submission?) := by
  have first {w : Waiting} {rest} (eq : c.queue = w :: rest) :
      (w.rpc :: rest.map (·.rpc)).Sublist (c.queue.map (·.rpc) ++ []) := by
    simp [eq]
  have aside {g} (as : c.Aside g) :
      (g.queue.map (·.rpc)).Sublist (c.queue.map (·.rpc) ++ []) := by
    simp [as.queue]
  cases mv with
  | accept => simp [enqueue, Event.handover?, Event.submission?]
  | refuse => simp [push, Event.handover?, Event.submission?]
  | skip _ eq _ => exact (List.sublist_cons_self _ _).trans (first eq)
  | send _ eq _ => exact first eq
  | reject _ eq _ _ => exact first eq
  | collapse _ eq _ _ => exact ((List.nil_sublist _).cons_cons _).trans (first eq)
  | deliver => exact List.sublist_append_left _ _
  | mismatch => exact List.nil_sublist _
  | pass => exact List.sublist_append_left _ _
  | terminate =>
    rcases terminate_cases (c := c) _ with ⟨_, eq⟩ | ⟨_, eq⟩ <;> rw [eq]
    · exact List.nil_sublist _
    · exact List.sublist_append_left _ _
  | cancel => exact aside aside_cancel
  | forget => exact aside aside_forget
  | take => exact aside aside_take

/-- What was handed over and what still waits are in the order of submission. -/
lemma Moves.sublist (mvs : Moves .new es c) :
    (es.filterMap Event.handover? ++ c.queue.map (·.rpc)).Sublist
      (es.filterMap Event.submission?) := by
  induction mvs with
  | refl => exact .slnil
  | tail mvs mv ih =>
    rw [List.filterMap_append, List.filterMap_append, List.append_assoc]
    refine (mv.sublist.append_left _).trans ?_
    rw [← List.append_assoc]
    exact ih.append_right _

/-- The numbers of the requests that were handed over go up. -/
lemma Moves.numbers (mvs : Moves .new es c) :
    ∃ indices : List Nat, indices.Pairwise (· < ·) ∧
      (es.filterMap Event.handover?).map Node.messageId? =
        indices.map fun i => some (messageId i) := by
  -- The numbers that were submitted are all numbers in order, so a part of them is in order too.
  have sub := ((List.sublist_append_left _ _).trans mvs.sublist).map Node.messageId?
  rw [mvs.submissions, List.sublist_map_iff] at sub
  obtain ⟨indices, sub, eq⟩ := sub
  exact ⟨indices, List.pairwise_lt_range.sublist sub, eq⟩

/-! ## One reply after the other -/

/-- How far the reply to a request is that was in flight, by the replies delivered since. -/
inductive Turn (i : Nat) (replies : List Node) (c : Correlator) : Prop where
  | awaited :
    c.inFlight = some i → replies = [] → Turn i replies c
  | arrived {reply} :
    c.inFlight = none → replies = [reply] → reply.messageId? = some (messageId i) →
    c.answer? i = some (.given (.ok reply)) → Turn i replies c
  | ended :
    c.terminated.isSome → Turn i replies c

/-- A move by which the transmitter takes nothing delivers the awaited reply, or none. -/
lemma Move.turn {replies : List Node} (mv : Move c f d) (ch : Coherent c)
    (quiet : f.bind Event.transmission? = none) (turn : Turn i replies c) :
    Turn i (replies ++ (f.bind Event.delivery?).toList) d := by
  cases turn with
  | awaited fl none_yet =>
    cases mv.flight ch with
    | stays same _ deliv _ => exact .awaited (same.trans fl) (by simp [deliv, none_yet])
    | starts _ _ eq _ => simp [eq, Event.transmission?] at quiet
    | lands flown gone eq _ num given =>
      rw [fl, Option.some.injEq] at flown
      cases flown
      exact .arrived gone (by simp [eq, none_yet, Event.delivery?]) num given
    | ends term _ _ _ => exact .ended term
  | arrived gone one num given =>
    -- The answer is decided, and nothing is in flight that another reply could be for.
    have given := (mv.later ch).answer given nofun
    cases mv.flight ch with
    | stays same _ deliv _ => exact .arrived (same.trans gone) (by simp [deliv, one]) num given
    | starts _ _ eq _ => simp [eq, Event.transmission?] at quiet
    | lands flown _ _ _ _ _ => simp [gone] at flown
    | ends term _ _ _ => exact .ended term
  | ended term =>
    obtain ⟨cause, term⟩ := Option.isSome_iff_exists.mp term
    exact .ended (by simp [mv.terminated ch term])

/-- Until another request is transmitted, the one in flight is awaited, or its reply arrives, or the
session ends. -/
lemma Moves.turn (mvs : Moves c es d) (ch : Coherent c) (fl : c.inFlight = some i)
    (quiet : es.filterMap Event.transmission? = []) :
    Turn i (es.filterMap Event.delivery?) d := by
  induction mvs with
  | refl => exact .awaited fl rfl
  | @tail es d f d' mvs mv ih =>
    rw [List.filterMap_append, filterMap_toList, List.append_eq_nil_iff,
      Option.toList_eq_nil_iff] at quiet
    rw [List.filterMap_append, filterMap_toList]
    exact mv.turn (mvs.coherent ch) quiet.2 (ih quiet.1)

/-- Between a request that the transmitter takes and the next that it is handed, exactly one reply
is delivered, and it is the answer to the first. -/
lemma Moves.one_reply {before between after : List Event} {first second : Node}
    {outcome : Except Error Unit}
    (mvs : Moves .new (before ++ .handed first (.ok ()) ::
      (between ++ .handed second outcome :: after)) c)
    (quiet : between.filterMap Event.transmission? = []) :
    ∃ i reply, first.messageId? = some (messageId i) ∧
      between.filterMap Event.delivery? = [reply] ∧ reply.messageId? = first.messageId? ∧
      c.answer? i = some (.given (.ok reply)) := by
  obtain ⟨c₀, c₁, mvs₀, sent, mvs⟩ := mvs.split
  obtain ⟨c₂, c₃, mvs₁, next, mvs₂⟩ := mvs.split
  have ch₀ := mvs₀.coherent .new
  have ch₁ := sent.coherent ch₀
  have ch₂ := mvs₁.coherent ch₁
  -- Nothing is in flight when the second is handed over, so the reply to the first has arrived.
  have fr : c₂.Free := by
    cases next <;> assumption
  cases sent with
  | @send w rest _ eq _ =>
    cases mvs₁.turn ch₁ (i := w.index) rfl quiet with
    | awaited fl _ => simp [fr.1] at fl
    | arrived _ one num given =>
      have num₁ := ch₀.numbered (w := w) (by simp [eq])
      have later := (next.later ch₂).trans (mvs₂.later (next.coherent ch₂))
      exact ⟨w.index, _, num₁, one, num.trans num₁.symm, later.answer given nofun⟩
    | ended term => simp [fr.2] at term

/-- How many requests were taken, compared with how many replies were delivered. -/
structure Balance (taken delivered : Nat) (c : Correlator) : Prop where
  current : c.terminated = none → taken = delivered + c.inFlight.toList.length
  least : delivered ≤ taken
  most : taken ≤ delivered + 1

/-- Every move keeps the balance. -/
lemma Move.balance {taken delivered : Nat} (mv : Move c f d) (ch : Coherent c)
    (bal : Balance taken delivered c) :
    Balance (taken + (f.bind Event.transmission?).toList.length)
      (delivered + (f.bind Event.delivery?).toList.length) d := by
  -- The count is exact only as long as the session goes on, which it then did before as well.
  have back (op : d.terminated = none) : c.terminated = none := by
    cases term : c.terminated with
    | none => rfl
    | some cause => simp [mv.terminated ch term] at op
  obtain ⟨current, least, most⟩ := bal
  cases mv.flight ch with
  | stays same trans deliv _ =>
    rw [trans, deliv]
    refine ⟨fun op => ?_, least, most⟩
    rw [same]
    exact current (back op)
  | starts fr fl eq _ =>
    cases eq
    have now : taken = delivered := by simpa [fr.1] using current fr.2
    refine ⟨fun _ => ?_, ?_, ?_⟩ <;> simp [fl, now, Event.transmission?, Event.delivery?]
  | lands fl gone eq _ _ _ =>
    cases eq
    have now : taken = delivered + 1 := by simpa [fl] using current (ch.open_of_inFlight fl)
    refine ⟨fun _ => ?_, ?_, ?_⟩ <;> simp [gone, now, Event.transmission?, Event.delivery?]
  | ends term _ trans deliv =>
    rw [trans, deliv]
    exact ⟨fun op => by simp [op] at term, least, most⟩

/-- At most one more request is transmitted than replies are delivered. -/
lemma Moves.balance (mvs : Moves .new es c) :
    Balance (es.filterMap Event.transmission?).length (es.filterMap Event.delivery?).length c := by
  induction mvs with
  | refl => exact ⟨fun _ => rfl, Nat.le_refl 0, Nat.zero_le 1⟩
  | tail mvs mv ih =>
    simp only [List.filterMap_append, filterMap_toList, List.length_append]
    exact mv.balance (mvs.coherent .new) ih

end Correlator

namespace History

/-- The rules by which requests are handed over, as they show in a history. -/
structure Orderly {τ : Type} (h : History τ) : Prop where
  /-- The transmitter is handed requests in the order of submission. -/
  ordered : (h.trace.filterMap Event.handover?).Sublist (h.trace.filterMap Event.submission?)
  /-- Their numbers go up, so that it is handed none twice. -/
  numbered : ∃ indices : List Nat, indices.Pairwise (· < ·) ∧
    (h.trace.filterMap Event.handover?).map Node.messageId? =
      indices.map fun i => some (Correlator.messageId i)
  /-- Between a request that it takes and the next, one reply is delivered, and to the first. -/
  alternating {before between after first second outcome} :
    h.trace = before ++ .handed first (.ok ()) :: (between ++ .handed second outcome :: after) →
    between.filterMap Event.transmission? = [] →
    ∃ i reply, first.messageId? = some (Correlator.messageId i) ∧
      between.filterMap Event.delivery? = [reply] ∧ reply.messageId? = first.messageId? ∧
      h.correlator.answer? i = some (.given (.ok reply))
  /-- It takes at most one request more than replies are delivered, which is then in flight. -/
  single : Correlator.Balance (h.trace.filterMap Event.transmission?).length
    (h.trace.filterMap Event.delivery?).length h.correlator
  /-- A request that was cancelled is not handed over, neither before nor after. -/
  exclusive {i x y} : x ∈ h.trace → x.cancels i = true → y ∈ h.trace → y.hands i = false
  /-- A request that was handed over cannot be cancelled. -/
  fixed {i x} : x ∈ h.trace → x.hands i = true → h.correlator.cancel i = (false, h.correlator)
  /-- Nothing is handed over after the end of the session. -/
  silent {before x after y} : h.trace = before ++ x :: after → x.ends = true → y ∈ after →
    y.handover? = none
  /-- The session has ended if this was seen. -/
  ended : h.correlator.terminated.isSome ↔ ∃ x ∈ h.trace, x.ends = true

/-- All histories are orderly, whatever is done and whatever the transmitter makes of it. -/
theorem run_orderly {τ : Type} (transmit : Node → τ → Except Error Unit × τ) (t : τ)
    (actions : List Action) : Orderly ((start t).run transmit actions) := by
  have mvs := start_run_moves transmit t actions
  refine ⟨?_, mvs.numbers, ?_, mvs.balance, ?_, ?_, ?_, mvs.terminated_iff⟩
  · exact (List.sublist_append_left _ _).trans mvs.sublist
  · intro before between after first second outcome eq quiet
    rw [eq] at mvs
    exact mvs.one_reply quiet
  · intro i x y memx cancels memy
    rw [Bool.eq_false_iff]
    intro hands
    have sent := mvs.sent_of_hands .new memy hands
    rw [mvs.cancelled_of_cancels .new memx cancels] at sent
    cases sent
  · intro i x mem hands
    have sent := mvs.sent_of_hands .new mem hands
    rcases Correlator.cancel_cases (c := ((start t).run transmit actions).correlator) (i := i) with
      ⟨q, _⟩ | ⟨_, eq⟩
    · rw [Correlator.isQueued_iff, sent] at q
      cases q
    · exact eq
  · intro before x after y eq ends mem
    rw [eq] at mvs
    obtain ⟨c₀, c₁, mvs₀, mv, mvs₁⟩ := mvs.split
    have ch := mvs₀.coherent .new
    exact mvs₁.handover?_of_terminated (mv.coherent ch) (mv.terminated_of_ends ends) mem

-- The second request is cancelled, so the reply to the first makes way for the third.
example :
    let get : Node := .empty (.unqualified "get")
    let reply : Node := .leaf ⟨baseUri, "rpc-reply"⟩ [⟨.unqualified "message-id", "1"⟩] none
    (((start ()).run accepting
      [.submit get, .submit get, .submit get, .cancel 1, .reply reply]).trace.filterMap
        Event.handover?).map Node.messageId? = [some "1", some "3"] := by
  decide

end History

end Netconf
