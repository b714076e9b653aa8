import Netconf.Proofs.Correlator.Coherent

/-!
# The answers to requests

Where the answer to a request comes from. It is the reply that was delivered to the request, the
error with which the transmitter refused it, or the cause of the end of the session. A submitter is
told this answer, unless the request was cancelled.
-/

namespace Netconf.Correlator

section

variable {c d : Correlator} {i j : Nat} {a : Answer}

/-- Cancelling gives no request an answer. -/
lemma of_answer?_cancel (ha : (c.cancel j).2.answer? i = some a) : c.answer? i = some a := by
  rcases cancel_cases (c := c) (i := j) with ⟨_, eq⟩ | ⟨_, eq⟩ <;> rw [eq] at ha
  · exact of_map_update_same ha fun _ => rfl
  · exact ha

/-- The answer to a request after one got its answer. -/
lemma of_answer?_resolve {result : Except Error Node}
    (ha : (c.resolve j result).answer? i = some a) :
    c.answer? i = some a ∨ j = i ∧ a = .given result := by
  rcases of_map_update ha with old | ⟨eq, _, _, rfl⟩
  · exact .inl old
  · exact .inr ⟨eq, rfl⟩

/-- What the end of the session answers is that it has ended. -/
lemma of_answer?_failAll {cause : Cause} (ha : (c.failAll cause).answer? i = some a) :
    c.answer? i = some a ∨ a = .given (.error (.sessionTerminated cause)) := by
  obtain ⟨s, look, rfl⟩ := answer?_eq_some.mp ha
  obtain ⟨r, hr, _, old | failed⟩ := of_getElem?_failAll c cause look
  · exact .inl (answer?_eq_some.mpr ⟨r, hr, old.symm⟩)
  · exact .inr failed

/-- What decides the answer to a request, when a move does so. -/
inductive Origin (c : Correlator) (f : Option Event) (d : Correlator) (i : Nat) :
    Except Error Node → Prop where
  /-- The reply to it was delivered. -/
  | reply {message} :
    c.inFlight = some i → f = some (.routed message (.ok .delivered)) →
    message.messageKind = .rpcReply → message.messageId? = some (messageId i) →
    Origin c f d i (.ok message)
  /-- The transmitter refused it. -/
  | refusal {rpc e} :
    f = some (.handed rpc (.error e)) → rpc.messageId? = some (messageId i) →
    Origin c f d i (.error e)
  /-- The session has ended. -/
  | ended {cause} :
    d.terminated = some cause →
    Origin c f d i (.error (.sessionTerminated cause))

/-- An answer was there before, or the move decides it. -/
lemma Move.answer_cases {f : Option Event} {result : Except Error Node} (mv : Move c f d)
    (ch : Coherent c) (ha : d.answer? i = some (.given result)) :
    c.answer? i = some (.given result) ∨ Origin c f d i result := by
  cases mv with
  | accept =>
    rcases of_map_push ha with old | ⟨_, new⟩
    · exact .inl old
    · cases new
  | refuse term =>
    rcases of_map_push ha with old | ⟨_, new⟩
    · exact .inl old
    · cases new
      exact .inr (.ended term)
  | @skip w _ _ _ _ =>
    -- A request that is passed over is not answered, its result is withheld.
    have ha : (c.withhold w.index).answer? i = some (.given result) := ha
    rcases of_map_update ha with old | ⟨_, _, _, new⟩
    · exact .inl old
    · cases new
  | @send w _ _ _ _ =>
    have ha : (c.mark w.index .sent).answer? i = some (.given result) := ha
    exact .inl (of_map_update_same ha fun _ => rfl)
  | @reject w _ e _ eq _ _ =>
    have ha : ((c.mark w.index .sent).resolve w.index (.error e)).answer? i =
      some (.given result) := ha
    rcases of_answer?_resolve ha with old | ⟨rfl, new⟩
    · exact .inl (of_map_update_same old fun _ => rfl)
    · cases new
      exact .inr (.refusal rfl (ch.numbered (by simp [eq])))
  | @collapse w rest e _ eq _ _ =>
    -- The answer is that of the session's end, or of the refused request, or an old one.
    rcases of_answer?_failAll ha with ha | new
    · have ha : ((c.mark w.index .sent).resolve w.index (.error e)).answer? i =
        some (.given result) := ha
      rcases of_answer?_resolve ha with old | ⟨rfl, new⟩
      · exact .inl (of_map_update_same old fun _ => rfl)
      · cases new
        exact .inr (.refusal rfl (ch.numbered (by simp [eq])))
    · cases new
      exact .inr (.ended rfl)
  | @deliver j message kind fl num =>
    have ha : (c.resolve j (.ok message)).answer? i = some (.given result) := ha
    rcases of_answer?_resolve ha with old | ⟨rfl, new⟩
    · exact .inl old
    · cases new
      exact .inr (.reply fl rfl kind num)
  | mismatch =>
    rcases of_answer?_failAll ha with old | new
    · exact .inl old
    · cases new
      exact .inr (.ended rfl)
  | pass => exact .inl ha
  | @terminate cause =>
    rcases terminate_cases (c := c) cause with ⟨_, eq⟩ | ⟨_, eq⟩ <;> rw [eq] at ha ⊢
    · rcases of_answer?_failAll ha with old | new
      · exact .inl old
      · cases new
        exact .inr (.ended rfl)
    · exact .inl ha
  | cancel => exact .inl (of_answer?_cancel ha)
  | @forget j =>
    have ha : (c.cancel j).2.answer? i = some (.given result) := of_map_update_same ha fun _ => rfl
    exact .inl (of_answer?_cancel ha)
  | @take j =>
    rcases take_cases (c := c) (i := j) with eq | eq <;> rw [eq] at ha
    · exact .inl ha
    · exact .inl (of_map_update_same ha fun _ => rfl)

end

/-! ## What submitters are told -/

/-- A submitter who still waits is told the result that was decided, and no other. -/
lemma Coherent.poll_iff {c : Correlator} {i : Nat} {result : Except Error Node} (ch : Coherent c) :
    c.poll i = some (.resolved result) ↔
      ∃ r, c.requests[i]? = some r ∧ r.held = true ∧ r.Decided result := by
  simp only [poll, held?, Option.map_eq_some_iff, Option.filter_eq_some_iff]
  constructor
  · rintro ⟨r, ⟨hr, held⟩, told⟩
    refine ⟨r, hr, held, ?_⟩
    split at told
    case isTrue st =>
      cases told
      exact .cancelled st
    case isFalse st =>
      split at told
      · cases told
      · next a =>
        cases told
        exact .given st a
      · next a => exact absurd (ch.withheld hr a) st
  · rintro ⟨r, hr, held, dec⟩
    refine ⟨r, ⟨hr, held⟩, ?_⟩
    cases dec with
    | cancelled st => rw [if_pos st]
    | given st a => rw [if_neg st, a]

end Netconf.Correlator
