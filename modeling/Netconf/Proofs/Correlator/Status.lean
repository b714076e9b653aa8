import Netconf.Proofs.Correlator.Coherent

/-!
# The status of requests

Where the status of a request comes from. A request is sent by being handed over or by coming after
the end of the session, and it is cancelled by an event that cancels it. No other move changes a
status.
-/

namespace Netconf.Correlator

section

variable {c d : Correlator} {i : Nat} {e : Event} {w : Waiting} {rest : List Waiting}

/-- A request that the transmitter refuses is sent. -/
lemma Coherent.status?_reject (ch : Coherent c) (eq : c.queue = w :: rest) (e : Error) :
    ({ (c.mark w.index .sent).resolve w.index (.error e) with queue := rest }).status? w.index =
      some .sent := by
  obtain ⟨r, hr, _⟩ := ch.waiting (w := w) (by simp [eq])
  rw [resolve_mark]
  exact status?_eq_some.mpr ⟨_, getElem?_update_of_some hr, by simp⟩

/-- The first of the queue has the number that its envelope shows. -/
lemma Coherent.index_eq (ch : Coherent c) (eq : c.queue = w :: rest) {outcome : Except Error Unit}
    (hands : (Event.handed w.rpc outcome).hands i = true) : i = w.index := by
  have num := ch.numbered (w := w) (by simp [eq])
  simp only [Event.hands, num, beq_iff_eq, Option.some.injEq, messageId_inj] at hands
  exact hands.symm

/-- A request that is handed over is sent. -/
lemma Move.sent_of_hands (mv : Move c (some e) d) (ch : Coherent c) (hands : e.hands i = true) :
    d.status? i = some .sent := by
  cases mv with
  | @send w rest fr eq q =>
    obtain ⟨r, hr, _⟩ := ch.waiting (w := w) (by simp [eq])
    rw [ch.index_eq eq hands]
    exact status?_eq_some.mpr ⟨_, getElem?_update_of_some hr, by simp⟩
  | reject fr eq _ _ =>
    rw [ch.index_eq eq hands]
    exact ch.status?_reject eq _
  | collapse fr eq _ _ =>
    rw [ch.index_eq eq hands]
    exact ((ch.reject fr eq _).later_failAll _).status (ch.status?_reject eq _) nofun
  | _ => cases hands

/-- A request that could be cancelled is cancelled. -/
lemma status?_cancel (done : (c.cancel i).1 = true) :
    (c.cancel i).2.status? i = some .cancelled := by
  rcases cancel_cases (c := c) (i := i) with ⟨q, eq⟩ | ⟨_, eq⟩
  · obtain ⟨r, hr, _⟩ := status?_eq_some.mp (isQueued_iff.mp q)
    rw [eq]
    exact status?_eq_some.mpr ⟨_, getElem?_update_of_some hr, by simp⟩
  · simp [eq] at done

/-- An event that cancels a request leaves it cancelled. -/
lemma Move.cancelled_of_cancels (mv : Move c (some e) d) (cancels : e.cancels i = true) :
    d.status? i = some .cancelled := by
  cases mv with
  | cancel =>
    obtain ⟨rfl, done⟩ : _ = i ∧ _ := by simpa [Event.cancels] using cancels
    exact status?_cancel done
  | forget =>
    obtain ⟨rfl, done⟩ : _ = i ∧ _ := by simpa [Event.cancels] using cancels
    exact later_release.status (status?_cancel done) nofun
  | _ => cases cancels

/-- A request that comes after the end is sent. -/
lemma Move.sent_of_submitted {operation : Node}
    (mv : Move c (some (.submitted i operation)) d) (term : c.terminated.isSome) :
    d.status? i = some .sent := by
  cases mv with
  | accept op => simp [op] at term
  | refuse => exact status?_eq_some.mpr ⟨_, getElem?_push_size, rfl⟩

/-- Failing the outstanding requests leaves their status. -/
lemma of_status?_failAll {cause : Cause} {st : RequestStatus}
    (hs : (c.failAll cause).status? i = some st) : c.status? i = some st := by
  obtain ⟨s, look, rfl⟩ := status?_eq_some.mp hs
  obtain ⟨r, hr, eq, _⟩ := of_getElem?_failAll c cause look
  exact status?_eq_some.mpr ⟨r, hr, eq.symm⟩

/-- The status of a request after one was marked. -/
lemma of_status?_mark {st new : RequestStatus} {j : Nat} (hs : (c.mark j new).status? i = some st) :
    c.status? i = some st ∨ j = i ∧ st = new := by
  rcases of_map_update hs with same | ⟨eq, r, _, rfl⟩
  · exact .inl same
  · exact .inr ⟨eq, rfl⟩

/-- A status after a cancellation was there before, or is that of the request cancelled. -/
lemma of_status?_cancel {st : RequestStatus} {j : Nat} (hs : (c.cancel j).2.status? i = some st) :
    c.status? i = some st ∨ st = .cancelled ∧ j = i ∧ (c.cancel j).1 = true := by
  rcases cancel_cases (c := c) (i := j) with ⟨_, eq⟩ | ⟨_, eq⟩
  · rw [eq] at hs ⊢
    rcases of_status?_mark hs with same | ⟨rfl, rfl⟩
    · exact .inl same
    · exact .inr ⟨rfl, rfl, rfl⟩
  · rw [eq] at hs
    exact .inl hs

/-- What brings about the status of a request, when a move does so. -/
inductive Turning (c : Correlator) (f : Option Event) (i : Nat) : RequestStatus → Prop where
  /-- The request is new in the queue. -/
  | queued : Turning c f i .queued
  /-- It is handed over. -/
  | handed {x} : f = some x → x.hands i = true → Turning c f i .sent
  /-- It comes after the end of the session. -/
  | late {operation} :
    f = some (.submitted i operation) → c.terminated.isSome → Turning c f i .sent
  | cancelled {x} : f = some x → x.cancels i = true → Turning c f i .cancelled

/-- A status was there before, or the move brings it about. -/
lemma Move.status_cases {f : Option Event} {st : RequestStatus} (mv : Move c f d) (ch : Coherent c)
    (hs : d.status? i = some st) : c.status? i = some st ∨ Turning c f i st := by
  have hands {w rest outcome} (eq : c.queue = w :: rest) :
      (Event.handed w.rpc outcome).hands w.index = true := by
    simp [Event.hands, ch.numbered (w := w) (by simp [eq])]
  cases mv with
  | accept _ =>
    rcases of_map_push hs with same | ⟨_, rfl⟩
    · exact .inl same
    · exact .inr .queued
  | refuse term =>
    rcases of_map_push hs with same | ⟨rfl, rfl⟩
    · exact .inl same
    · exact .inr (.late rfl (by simp [term]))
  | @skip w _ _ _ _ =>
    have hs : (c.withhold w.index).status? i = some st := hs
    exact .inl (of_map_update_same hs fun _ => rfl)
  | @send w _ _ eq _ =>
    have hs : (c.mark w.index .sent).status? i = some st := hs
    rcases of_status?_mark hs with same | ⟨rfl, rfl⟩
    · exact .inl same
    · exact .inr (.handed rfl (hands eq))
  | @reject w _ e _ eq _ _ =>
    have hs : ((c.mark w.index .sent).resolve w.index (.error e)).status? i = some st := hs
    rcases of_status?_mark (of_map_update_same hs fun _ => rfl) with same | ⟨rfl, rfl⟩
    · exact .inl same
    · exact .inr (.handed rfl (hands eq))
  | @collapse w rest e _ eq _ _ =>
    -- The two records differ in the queue only, but no tactic sees that by itself.
    have before : ({ (c.mark w.index .sent).resolve w.index (.error e) with
        queue := rest }).status? i = some st := of_status?_failAll hs
    have hs : ((c.mark w.index .sent).resolve w.index (.error e)).status? i = some st := before
    rcases of_status?_mark (of_map_update_same hs fun _ => rfl) with same | ⟨rfl, rfl⟩
    · exact .inl same
    · exact .inr (.handed rfl (hands eq))
  | @deliver j message _ _ _ =>
    have hs : (c.resolve j (.ok message)).status? i = some st := hs
    exact .inl (of_map_update_same hs fun _ => rfl)
  | mismatch => exact .inl (of_status?_failAll hs)
  | pass => exact .inl hs
  | @terminate cause =>
    rcases terminate_cases (c := c) cause with ⟨_, eq⟩ | ⟨_, eq⟩
    · exact .inl (of_status?_failAll (eq ▸ hs))
    · exact .inl (eq ▸ hs)
  | cancel =>
    rcases of_status?_cancel hs with same | ⟨rfl, rfl, done⟩
    · exact .inl same
    · exact .inr (.cancelled rfl (by simp [Event.cancels, done]))
  | @forget j =>
    have hs : (c.cancel j).2.status? i = some st := of_map_update_same hs fun _ => rfl
    rcases of_status?_cancel hs with same | ⟨rfl, rfl, done⟩
    · exact .inl same
    · exact .inr (.cancelled rfl (by simp [Event.cancels, done]))
  | @take j =>
    rcases take_cases (c := c) (i := j) with eq | eq
    · exact .inl (eq ▸ hs)
    · rw [eq] at hs
      exact .inl (of_map_update_same hs fun _ => rfl)

end

end Netconf.Correlator
