import Netconf.Proofs.Correlator.Answer
import Netconf.Proofs.Correlator.History
import Netconf.Proofs.Correlator.Trace

/-!
# Finality of results

A request whose result is decided keeps it: it is no longer queued, cannot be cancelled, and whoever
waits for it is told this result. There is one exception. When the session ends, the requests still
in the queue fail with its cause, but their status stays as it is. Such a request is left behind: it
can be cancelled after it has failed, and then tells another result. The main result is
`History.decided_final`, which says this of all histories. That a request cannot be wrapped is no
case of its own, as this never happens.
-/

namespace Netconf

namespace Correlator

/-- The request came before the end of the session, which found it neither handed over nor
cancelled, and it was not cancelled since. -/
structure LeftBehind (es : List Event) (i : Nat) : Prop where
  submitted : ∃ operation, .submitted i operation ∈ es
  early : ¬Late es i
  ended : ∃ e ∈ es, e.ends = true
  unsent : ∀ e ∈ es, e.hands i = false
  uncancelled : ∀ e ∈ es, e.cancels i = false

/-- The result of a request is final: there is nothing to cancel, and no other to be told. -/
structure Final (c : Correlator) (i : Nat) (result : Except Error Node) : Prop where
  status : c.status? i ≠ some .queued
  cancel : c.cancel i = (false, c)
  poll {r} : c.requests[i]? = some r → r.held = true → c.poll i = some (.resolved result)

/-- The result of a request that failed with the session can still be exchanged for another. -/
structure Revocable (c : Correlator) (i : Nat) (result : Except Error Node) : Prop where
  failed : ∃ cause, c.terminated = some cause ∧ result = .error (.sessionTerminated cause)
  status : c.status? i = some .queued
  cancel : (c.cancel i).1 = true
  poll {r} : c.requests[i]? = some r → r.held = true →
    c.poll i = some (.resolved result) ∧
    (c.cancel i).2.poll i = some (.resolved (.error .cancelled))

section

variable {c : Correlator} {i : Nat} {es : List Event} {result : Except Error Node} {r : Request}

/-- A request that is queued when it is answered failed with the session. -/
lemma Moves.failed_of_queued (mvs : Moves .new es c) (st : c.status? i = some .queued)
    (given : c.answer? i = some (.given result)) :
    ∃ cause, c.terminated = some cause ∧ result = .error (.sessionTerminated cause) := by
  induction mvs with
  | refl => cases given
  | tail mvs mv ih =>
    have ch := mvs.coherent .new
    rcases mv.answer_cases ch given with old | origin
    · -- No move puts a request back into the queue.
      obtain ⟨r, hr, _⟩ := answer?_eq_some.mp old
      have still := (mv.later ch).queued st hr
      obtain ⟨cause, term, eq⟩ := ih (status?_eq_some.mpr ⟨r, hr, still⟩) old
      exact ⟨cause, mv.terminated ch term, eq⟩
    · cases origin with
      | reply fl _ _ _ =>
        have sent := (mv.later ch).status (ch.status?_inFlight fl) nofun
        rw [st] at sent
        cases sent
      | refusal eq num =>
        cases eq
        have sent := mv.sent_of_hands ch (i := i) (by simp [Event.hands, num])
        rw [st] at sent
        cases sent
      | ended term => exact ⟨_, term, rfl⟩

/-- The requests left behind are those that are still queued after the end. -/
lemma Moves.leftBehind_iff (mvs : Moves .new es c) :
    LeftBehind es i ↔ c.status? i = some .queued ∧ c.terminated.isSome := by
  constructor
  · rintro ⟨submitted, early, ended, unsent, uncancelled⟩
    refine ⟨?_, mvs.terminated_iff.mpr ended⟩
    have lt := mvs.lt_size_iff.mpr submitted
    have hr := Array.getElem?_eq_getElem lt
    refine status?_eq_some.mpr ⟨_, hr, ?_⟩
    -- The trace rules out the other two statuses.
    cases st : c.requests[i].status with
    | queued => rfl
    | sent =>
      rcases mvs.sent_iff.mp (status?_eq_some.mpr ⟨_, hr, st⟩) with ⟨e, mem, hands⟩ | late
      · simp [unsent e mem] at hands
      · exact absurd late early
    | cancelled =>
      obtain ⟨e, mem, cancels⟩ := mvs.cancelled_iff.mp (status?_eq_some.mpr ⟨_, hr, st⟩)
      simp [uncancelled e mem] at cancels
  · rintro ⟨st, term⟩
    have unsent : c.status? i ≠ some .sent := by simp [st]
    have uncancelled : c.status? i ≠ some .cancelled := by simp [st]
    rw [ne_eq, mvs.sent_iff, not_or] at unsent
    rw [ne_eq, mvs.cancelled_iff] at uncancelled
    obtain ⟨r, hr, _⟩ := status?_eq_some.mp st
    refine ⟨mvs.lt_size_iff.mp (Array.getElem?_eq_some_iff.mp hr).1, unsent.2,
      mvs.terminated_iff.mp term, fun e mem => ?_, fun e mem => ?_⟩
    · exact Bool.eq_false_iff.mpr fun hands => unsent.1 ⟨e, mem, hands⟩
    · exact Bool.eq_false_iff.mpr fun cancels => uncancelled ⟨e, mem, cancels⟩

/-- What is decided of a request that is no longer queued is final. -/
lemma Coherent.final (ch : Coherent c) (hr : c.requests[i]? = some r) (dec : r.Decided result)
    (st : r.status ≠ .queued) : Final c i result := by
  have unqueued : c.status? i ≠ some .queued := by simp [status?, hr, st]
  refine ⟨unqueued, ?_, fun hs held => ch.poll_iff.mpr ⟨r, hr, ?_, dec⟩⟩
  · rcases cancel_cases (c := c) (i := i) with ⟨q, _⟩ | ⟨_, eq⟩
    · exact absurd (isQueued_iff.mp q) unqueued
    · exact eq
  · rw [hr, Option.some.injEq] at hs
    rwa [hs]

/-- What is decided of a request that is still queued can be exchanged. -/
lemma Coherent.revocable (ch : Coherent c) (hr : c.requests[i]? = some r)
    (dec : r.Decided result) (st : c.status? i = some .queued)
    (failed : ∃ cause, c.terminated = some cause ∧ result = .error (.sessionTerminated cause)) :
    Revocable c i result := by
  have cancels : c.cancel i = (true, c.mark i .cancelled) := by
    rcases cancel_cases (c := c) (i := i) with ⟨_, eq⟩ | ⟨unqueued, _⟩
    · exact eq
    · exact absurd st (isQueued_eq_false_iff.mp unqueued)
  refine ⟨failed, st, by rw [cancels], fun {s} hs held => ⟨?_, ?_⟩⟩
  · rw [hr, Option.some.injEq] at hs
    exact ch.poll_iff.mpr ⟨r, hr, hs ▸ held, dec⟩
  · have marked := getElem?_update_of_some (i := i)
      (f := fun r => { r with status := .cancelled }) hs
    rw [if_pos rfl] at marked
    rw [ch.cancel.poll_iff, cancels]
    exact ⟨_, marked, held, .cancelled rfl⟩

end

end Correlator

namespace History

open Correlator

variable {τ : Type} (transmit : Node → τ → Except Error Unit × τ)

/-- A result that is decided is final for ever, unless the request was left behind at the end of the
session, and then it is not. -/
theorem decided_final (t : τ) (actions : List Action) {i : Nat} {r : Request}
    {result : Except Error Node}
    (hr : ((start t).run transmit actions).correlator.requests[i]? = some r)
    (dec : r.Decided result) :
    (¬LeftBehind ((start t).run transmit actions).trace i → ∀ more,
      Final (((start t).run transmit actions).run transmit more).correlator i result) ∧
    (LeftBehind ((start t).run transmit actions).trace i →
      Revocable ((start t).run transmit actions).correlator i result) := by
  have mvs := start_run_moves transmit t actions
  generalize (start t).run transmit actions = h at mvs hr
  have ch := mvs.coherent .new
  -- Only the end of the session decides the result of a request that is still queued.
  have failed (st : r.status = .queued) :
      ∃ cause, h.correlator.terminated = some cause ∧
        result = .error (.sessionTerminated cause) := by
    cases dec with
    | cancelled eq =>
      rw [st] at eq
      cases eq
    | given _ eq =>
      exact mvs.failed_of_queued (status?_eq_some.mpr ⟨r, hr, st⟩) (answer?_eq_some.mpr ⟨r, hr, eq⟩)
  refine ⟨fun kept more => ?_, fun left => ?_⟩
  · have st : r.status ≠ .queued := by
      intro st
      obtain ⟨cause, term, _⟩ := failed st
      exact kept (mvs.leftBehind_iff.mpr ⟨status?_eq_some.mpr ⟨r, hr, st⟩, by simp [term]⟩)
    obtain ⟨es, _, mvs'⟩ := h.run_moves transmit more
    obtain ⟨s, hs, later⟩ := mvs'.later ch i r hr
    exact (mvs'.coherent ch).final hs (dec.later later st) (later.status st ▸ st)
  · have st := (mvs.leftBehind_iff.mp left).1
    exact ch.revocable hr dec st (failed ((Later.refl _).queued st hr))

/-- The session ends while one request is in flight and another waits. -/
def interrupted : History Unit :=
  (start ()).run accepting
    [.submit (.empty (.unqualified "get")), .submit (.empty (.unqualified "get")),
      .terminate .peerClosed]

/-- The request that was in flight has failed for good, and the one that waited was left behind. -/
theorem interrupted_decided :
    (∀ more, Final (interrupted.run accepting more).correlator 0
      (.error (.sessionTerminated .peerClosed))) ∧
    Revocable interrupted.correlator 1 (.error (.sessionTerminated .peerClosed)) := by
  have mvs := start_run_moves accepting ()
    [.submit (.empty (.unqualified "get")), .submit (.empty (.unqualified "get")),
      .terminate .peerClosed]
  have first : interrupted.correlator.requests[0]? =
      some ⟨.sent, .given (.error (.sessionTerminated .peerClosed)), true⟩ := rfl
  have second : interrupted.correlator.requests[1]? =
      some ⟨.queued, .given (.error (.sessionTerminated .peerClosed)), true⟩ := rfl
  refine ⟨?_, ?_⟩
  · refine (decided_final accepting () _ first (.given nofun rfl)).1 fun left => ?_
    cases (mvs.leftBehind_iff.mp left).1
  · exact (decided_final accepting () _ second (.given nofun rfl)).2
      (mvs.leftBehind_iff.mpr ⟨rfl, rfl⟩)

end History

end Netconf
