import Netconf.Proofs.Correlator.Absence
import Netconf.Proofs.Correlator.Finality
import Netconf.Proofs.Correlator.Handover
import Netconf.Proofs.Correlator.Pairing

/-!
# Requests that the transmitter refuses

A request that the transmitter refuses resolves with the error. If this is not fatal, the session
goes on as if the request had never been submitted. If it is, the session ends, and with it all
requests that still wait. The main result is `History.run_contained`, which says this of all
histories.
-/

namespace Netconf

namespace Event

/-- By the event the submitter of the request gives up, or asks for the answer. -/
def leaves (i : Nat) : Event → Bool
  | forgot j _ | took j _ => j == i
  | _ => false

end Event

namespace Correlator

variable {c d : Correlator} {i : Nat} {e : Event} {es : List Event}

/-! ## Requests that are handed over -/

/-- A request waits when it is handed over. -/
lemma Move.waiting_of_hands (mv : Move c (some e) d) (ch : Coherent c) (hands : e.hands i = true) :
    ∃ r, c.requests[i]? = some r ∧ r.status = .queued ∧ r.answer = .due := by
  have first {w rest} (eq : c.queue = w :: rest) (q : c.isQueued w.index = true) :
      ∃ r, c.requests[w.index]? = some r ∧ r.status = .queued ∧ r.answer = .due := by
    obtain ⟨r, hr, queued⟩ := status?_eq_some.mp (isQueued_iff.mp q)
    exact ⟨r, hr, queued, (ch.first eq hr).2⟩
  cases mv with
  | send _ eq q =>
    rw [ch.index_eq eq hands]
    exact first eq q
  | reject _ eq q _ =>
    rw [ch.index_eq eq hands]
    exact first eq q
  | collapse _ eq q _ =>
    rw [ch.index_eq eq hands]
    exact first eq q
  | _ => cases hands

/-- No request is handed over twice. -/
lemma Moves.handed_once {before after : List Event} (mvs : Moves .new (before ++ e :: after) c)
    (hands : e.hands i = true) :
    (∀ x ∈ before, x.hands i = false) ∧ ∀ x ∈ after, x.hands i = false := by
  obtain ⟨c₀, c₁, mvs₀, mv, mvs₁⟩ := mvs.split
  have ch₀ := mvs₀.coherent .new
  have ch₁ := mv.coherent ch₀
  constructor
  · intro x mem
    rw [Bool.eq_false_iff]
    intro early
    have sent := mvs₀.sent_of_hands .new mem early
    obtain ⟨r, hr, queued, -⟩ := mv.waiting_of_hands ch₀ hands
    rw [status?_eq_some.mpr ⟨r, hr, queued⟩] at sent
    cases sent
  · intro x mem
    rw [Bool.eq_false_iff]
    intro late
    obtain ⟨left, right, rfl⟩ := List.append_of_mem mem
    obtain ⟨c₂, c₃, mvs₂, next, -⟩ := mvs₁.split
    have ch₂ := mvs₂.coherent ch₁
    have sent := (mvs₂.later ch₁).status (mv.sent_of_hands ch₀ hands) (by simp)
    obtain ⟨r, hr, queued, -⟩ := next.waiting_of_hands ch₂ late
    rw [status?_eq_some.mpr ⟨r, hr, queued⟩] at sent
    cases sent

/-- A request that is refused is answered with the error. -/
lemma Move.answer_of_refusal {rpc : Node} {error : Error}
    (mv : Move c (some (.handed rpc (.error error))) d) (ch : Coherent c)
    (num : rpc.messageId? = some (messageId i)) : d.answer? i = some (.given (.error error)) := by
  have hands : (Event.handed rpc (.error error)).hands i = true := by simp [Event.hands, num]
  have answer {w rest} (eq : c.queue = w :: rest) :
      ({ (c.mark w.index .sent).resolve w.index (.error error) with
        queue := rest }).answer? w.index = some (.given (.error error)) := by
    obtain ⟨r, hr, _⟩ := ch.waiting (w := w) (by simp [eq])
    rw [resolve_mark]
    exact answer?_eq_some.mpr ⟨_, getElem?_update_of_some hr, by simp⟩
  cases mv with
  | reject _ eq _ _ =>
    rw [ch.index_eq eq hands]
    exact answer eq
  | collapse fr eq _ _ =>
    rw [ch.index_eq eq hands]
    exact ((ch.reject fr eq error).later_failAll _).answer (answer eq) (by simp)

/-! ## Submitters who wait -/

/-- The submitter of the request still waits for it. -/
def Attends (c : Correlator) (i : Nat) : Prop :=
  ∃ r, c.requests[i]? = some r ∧ r.held = true

/-- No request is given up as long as it is queued and its answer is due. -/
def Attended (c : Correlator) : Prop :=
  ∀ (i : Nat) (r : Request), c.requests[i]? = some r → r.status = .queued → r.answer = .due →
    r.held = true

/-- A submitter waits after a change that leaves waiting as it is. -/
lemma Attends.update {j : Nat} {f : Request → Request} (att : c.Attends i)
    (keep : j = i → ∀ r, (f r).held = r.held) : (c.update j f).Attends i := by
  obtain ⟨r, hr, held⟩ := att
  refine ⟨_, getElem?_update_of_some hr, ?_⟩
  split
  · next eq => rw [keep eq, held]
  · exact held

/-- A submitter waits when a request is marked. -/
lemma Attends.mark {j : Nat} (att : c.Attends i) (status : RequestStatus) :
    (c.mark j status).Attends i :=
  att.update fun _ _ => rfl

/-- A submitter waits when a request gets its answer. -/
lemma Attends.resolve {j : Nat} (att : c.Attends i) (result : Except Error Node) :
    (c.resolve j result).Attends i :=
  att.update fun _ _ => rfl

/-- A submitter waits when the answer to a request is withheld. -/
lemma Attends.withhold {j : Nat} (att : c.Attends i) : (c.withhold j).Attends i :=
  att.update fun _ _ => rfl

/-- Whether a submitter waits is told by the requests alone. -/
lemma Attends.of_requests (att : c.Attends i) (same : d.requests = c.requests) : d.Attends i := by
  rwa [Attends, same]

/-- A submitter waits when there is one more request. -/
lemma Attends.push {r : Request} (att : c.Attends i) : (c.push r).Attends i := by
  obtain ⟨s, hs, held⟩ := att
  exact ⟨s, getElem?_push_of_some hs, held⟩

/-- A submitter waits when the outstanding requests fail. -/
lemma Attends.failAll (att : c.Attends i) (cause : Cause) : (c.failAll cause).Attends i := by
  obtain ⟨r, hr, held⟩ := att
  refine ⟨_, by rw [getElem?_failAll, hr]; rfl, ?_⟩
  split <;> exact held

/-- A submitter waits when a request is cancelled. -/
lemma Attends.cancel {j : Nat} (att : c.Attends i) : (c.cancel j).2.Attends i := by
  rcases cancel_cases (c := c) (i := j) with ⟨_, eq⟩ | ⟨_, eq⟩ <;> rw [eq]
  · exact att.update fun _ _ => rfl
  · exact att

/-- Only the submitter stops waiting. -/
lemma Move.attends {f : Option Event} (mv : Move c f d)
    (stay : ∀ x, f = some x → x.leaves i = false) (att : c.Attends i) : d.Attends i := by
  cases mv with
  | accept => exact att.push.of_requests rfl
  | refuse => exact att.push
  | skip => exact att.withhold.of_requests rfl
  | send => exact (att.mark .sent).of_requests rfl
  | reject => exact ((att.mark .sent).resolve _).of_requests rfl
  | collapse =>
    refine Attends.failAll ?_ _
    exact ((att.mark .sent).resolve _).of_requests rfl
  | deliver => exact (att.resolve _).of_requests rfl
  | mismatch => exact att.failAll _
  | pass => exact att
  | terminate =>
    rcases terminate_cases (c := c) _ with ⟨_, eq⟩ | ⟨_, eq⟩ <;> rw [eq]
    · exact att.failAll _
    · exact att
  | cancel => exact att.cancel
  | @forget j =>
    have ne : j ≠ i := by simpa [Event.leaves] using stay _ rfl
    exact att.cancel.update (absurd · ne)
  | @take j =>
    have ne : j ≠ i := by simpa [Event.leaves] using stay _ rfl
    rcases take_cases (c := c) (i := j) with eq | eq <;> rw [eq]
    · exact att
    · exact att.update (absurd · ne)

/-- A submitter waits under any moves by which it does not leave. -/
lemma Moves.attends (mvs : Moves c es d) (stay : ∀ x ∈ es, x.leaves i = false)
    (att : c.Attends i) : d.Attends i := by
  induction mvs with
  | refl => exact att
  | @tail es d f d' mvs mv ih =>
    refine mv.attends ?_ (ih fun x mem => stay x (List.mem_append_left _ mem))
    rintro x rfl
    exact stay x (by simp)

/-- No queued request is given up by a change that leaves one queued, due and waited for as it was.
-/
lemma Attended.update {j : Nat} {f : Request → Request} (att : c.Attended)
    (keep : ∀ r, c.requests[j]? = some r → (f r).status = .queued → (f r).answer = .due →
      r.status = .queued ∧ r.answer = .due ∧ (f r).held = r.held) : (c.update j f).Attended := by
  intro i s hs st due
  obtain ⟨r, hr, ⟨rfl, rfl⟩ | ⟨_, rfl⟩⟩ := of_getElem?_update hs
  · obtain ⟨st, due, held⟩ := keep r hr st due
    rw [held]
    exact att _ r hr st due
  · exact att i s hr st due

/-- No queued request is given up when one is sent. -/
lemma Attended.sent {j : Nat} (att : c.Attended) : (c.mark j .sent).Attended :=
  att.update fun _ _ st => by cases st

/-- No queued request is given up when one gets its answer. -/
lemma Attended.resolve {j : Nat} (att : c.Attended) (result : Except Error Node) :
    (c.resolve j result).Attended :=
  att.update fun _ _ _ due => by cases due

/-- No queued request is given up when the answer to one is withheld. -/
lemma Attended.withhold {j : Nat} (att : c.Attended) : (c.withhold j).Attended :=
  att.update fun _ _ _ due => by cases due

/-- Whether a queued request is given up is told by the requests alone. -/
lemma Attended.of_requests (att : c.Attended) (same : d.requests = c.requests) : d.Attended := by
  rwa [Attended, same]

/-- No queued request is given up when there is one more that is waited for. -/
lemma Attended.push {r : Request} (att : c.Attended) (held : r.held = true) :
    (c.push r).Attended := by
  intro i s hs st due
  rcases of_getElem?_push hs with ⟨_, rfl⟩ | old
  · exact held
  · exact att i s old st due

/-- No queued request is given up when the outstanding requests fail. -/
lemma Attended.failAll (att : c.Attended) (cause : Cause) : (c.failAll cause).Attended := by
  intro i s hs st due
  rw [getElem?_failAll] at hs
  obtain ⟨r, hr, rfl⟩ := Option.map_eq_some_iff.mp hs
  split at due
  · cases due
  · next out =>
    rw [if_neg out] at st ⊢
    exact att i r hr st due

/-- No queued request is given up when one is cancelled. -/
lemma Attended.cancel {j : Nat} (att : c.Attended) : (c.cancel j).2.Attended := by
  rcases cancel_cases (c := c) (i := j) with ⟨_, eq⟩ | ⟨_, eq⟩ <;> rw [eq]
  · exact att.update fun _ _ st => by cases st
  · exact att

/-- A request that was cancelled is not queued. -/
lemma isQueued_cancel : (c.cancel i).2.isQueued i = false := by
  rcases cancel_cases (c := c) (i := i) with ⟨q, eq⟩ | ⟨q, eq⟩ <;> rw [eq]
  · obtain ⟨r, hr, _⟩ := status?_eq_some.mp (isQueued_iff.mp q)
    simp [isQueued, mark, getElem?_update_of_some hr]
  · exact q

/-- No move gives up a request that is queued and whose answer is due. -/
lemma Move.attended {f : Option Event} (mv : Move c f d) (att : c.Attended) : d.Attended := by
  cases mv with
  | accept => exact (att.push rfl).of_requests rfl
  | refuse => exact att.push rfl
  | skip => exact att.withhold.of_requests rfl
  | send => exact att.sent.of_requests rfl
  | reject => exact (att.sent.resolve _).of_requests rfl
  | collapse =>
    refine Attended.failAll ?_ _
    exact (att.sent.resolve _).of_requests rfl
  | deliver => exact (att.resolve _).of_requests rfl
  | mismatch => exact att.failAll _
  | pass => exact att
  | terminate =>
    rcases terminate_cases (c := c) _ with ⟨_, eq⟩ | ⟨_, eq⟩ <;> rw [eq]
    · exact att.failAll _
    · exact att
  | cancel => exact att.cancel
  | @forget j =>
    refine att.cancel.update fun r hr st _ => ?_
    have queued : (c.cancel j).2.isQueued j = true :=
      isQueued_iff.mpr (status?_eq_some.mpr ⟨r, hr, st⟩)
    rw [isQueued_cancel] at queued
    cases queued
  | @take j =>
    unfold Correlator.take
    split
    · next told =>
      refine att.update fun r hr st due => ?_
      -- A request whose answer is due is told that it is pending.
      have st : r.status = .queued := st
      have due : r.answer = .due := due
      simp only [poll, held?, Option.map_eq_some_iff, Option.filter_eq_some_iff] at told
      obtain ⟨s, ⟨hs, _⟩, eq⟩ := told
      rw [hr, Option.some.injEq] at hs
      subst hs
      simp [st, due] at eq
    · exact att

/-- No queued request is given up under any moves. -/
lemma Moves.attended (mvs : Moves .new es c) : c.Attended := by
  induction mvs with
  | refl => exact fun i r hr => by simp [Correlator.new] at hr
  | tail _ mv ih => exact mv.attended ih

/-- Whoever waits for a request that is decided is told the result. -/
lemma Coherent.told (ch : Coherent c) (att : c.Attends i) {result : Except Error Node}
    (given : c.answer? i = some (.given result)) (alive : c.status? i ≠ some .cancelled) :
    c.poll i = some (.resolved result) := by
  obtain ⟨r, hr, held⟩ := att
  obtain ⟨s, hs, answer⟩ := answer?_eq_some.mp given
  rw [hr, Option.some.injEq] at hs
  refine ch.poll_iff.mpr ⟨r, hr, held, .given ?_ (hs ▸ answer)⟩
  exact fun st => alive (status?_eq_some.mpr ⟨r, hr, st⟩)

/-! ## Refusals -/

section

variable {before after : List Event} {rpc : Node} {error : Error}

/-- A request that the transmitter refused has failed with the error for good, and its submitter is
told so. -/
lemma Moves.refused (mvs : Moves .new (before ++ .handed rpc (.error error) :: after) c) :
    ∃ i, rpc.messageId? = some (messageId i) ∧ Final c i (.error error) ∧
      ((∀ x ∈ after, x.leaves i = false) → c.poll i = some (.resolved (.error error))) := by
  have ch := mvs.coherent .new
  obtain ⟨c₀, c₁, mvs₀, mv, mvs₁⟩ := mvs.split
  have ch₀ := mvs₀.coherent .new
  have ch₁ := mv.coherent ch₀
  obtain ⟨i, num⟩ : ∃ i, rpc.messageId? = some (messageId i) := by
    cases mv with
    | @reject w _ _ _ eq => exact ⟨w.index, ch₀.numbered (by simp [eq])⟩
    | @collapse w _ _ _ eq => exact ⟨w.index, ch₀.numbered (by simp [eq])⟩
  have hands : (Event.handed rpc (.error error)).hands i = true := by simp [Event.hands, num]
  have given := (mvs₁.later ch₁).answer (mv.answer_of_refusal ch₀ num) (by simp)
  have sent := (mvs₁.later ch₁).status (mv.sent_of_hands ch₀ hands) (by simp)
  refine ⟨i, num, ?_, ?_⟩
  · obtain ⟨r, hr, st⟩ := status?_eq_some.mp sent
    obtain ⟨s, hs, answer⟩ := answer?_eq_some.mp given
    rw [hr, Option.some.injEq] at hs
    exact ch.final hr (.given (by simp [st]) (hs ▸ answer)) (by simp [st])
  · intro stay
    obtain ⟨r, hr, queued, due⟩ := mv.waiting_of_hands ch₀ hands
    have waits : c₀.Attends i := ⟨r, hr, mvs₀.attended i r hr queued due⟩
    refine ch.told (mvs₁.attends stay (mv.attends ?_ waits)) given (by simp [sent])
    rintro x eq
    cases eq
    rfl

/-- The request waited when the events had been seen. -/
structure Waited (es : List Event) (i : Nat) : Prop where
  submitted : ∃ operation, .submitted i operation ∈ es
  unsent : ∀ x ∈ es, x.hands i = false
  uncancelled : ∀ x ∈ es, x.cancels i = false

/-- As long as the session goes on, a request that waited is queued, and its answer is due. -/
lemma Moves.queued_of_waited (mvs : Moves .new es c) (op : c.terminated = none)
    (waited : Waited es i) :
    ∃ r, c.requests[i]? = some r ∧ r.status = .queued ∧ r.answer = .due := by
  have ch := mvs.coherent .new
  obtain ⟨s, hs⟩ : ∃ s, c.requests[i]? = some s :=
    ⟨_, Array.getElem?_eq_getElem (mvs.lt_size_iff.mpr waited.submitted)⟩
  -- Two of the three statuses would show in an event that was not seen.
  have uncancelled : c.status? i ≠ some .cancelled := by
    rw [ne_eq, mvs.cancelled_iff]
    rintro ⟨x, mem, cancels⟩
    simp [waited.uncancelled x mem] at cancels
  have unsent : c.status? i ≠ some .sent := by
    rw [ne_eq, mvs.sent_iff]
    rintro (⟨x, mem, hands⟩ | ⟨early, operation, late, rfl, x, mem, ends⟩)
    · simp [waited.unsent x mem] at hands
    · have ended := mvs.terminated_iff.mpr ⟨x, List.mem_append_left _ mem, ends⟩
      simp [op] at ended
  have queued : c.status? i = some .queued := by
    simp only [status?, hs, Option.map_some, ne_eq, Option.some.injEq] at uncancelled unsent ⊢
    cases st : s.status with
    | queued => rfl
    | sent => exact absurd st unsent
    | cancelled => exact absurd st uncancelled
  obtain ⟨r, hr, st⟩ := status?_eq_some.mp queued
  refine ⟨r, hr, st, ?_⟩
  cases answer : r.answer with
  | due => rfl
  | given result =>
    obtain ⟨cause, term, _⟩ :=
      mvs.failed_of_queued queued (answer?_eq_some.mpr ⟨r, hr, answer⟩)
    simp [op] at term
  | withheld => simp [ch.withheld hr answer] at st

/-- A fatal refusal, before and after which some events were seen, has ended the session. -/
structure Collapsed (before after : List Event) (rpc : Node) (error : Error) (c : Correlator) :
    Prop where
  terminated : c.terminated = some error.cause
  empty : c.outstanding = []
  silent : ∀ x ∈ after, x.handover? = none
  /-- All other requests that waited have failed. -/
  failed {j} : Waited before j → rpc.messageId? ≠ some (messageId j) →
    c.answer? j = some (.given (.error (.sessionTerminated error.cause)))
  /-- Whoever waits for one of them is told so. -/
  told {j} : Waited before j → rpc.messageId? ≠ some (messageId j) →
    (∀ x ∈ after, x.leaves j = false ∧ x.cancels j = false) →
    c.poll j = some (.resolved (.error (.sessionTerminated error.cause)))

/-- A fatal refusal ends the session with its cause, and with it all other requests that waited. -/
lemma Moves.collapsed (mvs : Moves .new (before ++ .handed rpc (.error error) :: after) c)
    (fatal : error.isFatal = true) : Collapsed before after rpc error c := by
  have ch := mvs.coherent .new
  obtain ⟨c₀, c₁, mvs₀, mv, mvs₁⟩ := mvs.split
  have ch₀ := mvs₀.coherent .new
  have ch₁ := mv.coherent ch₀
  have term₁ : c₁.terminated = some error.cause := by
    cases mv with
    | reject _ _ _ mild =>
      rw [fatal] at mild
      cases mild
    | collapse => rfl
  have op : c₀.terminated = none := by
    cases mv with
    | reject fr => exact fr.2
    | collapse fr => exact fr.2
  have failed {j} (waited : Waited before j) (other : rpc.messageId? ≠ some (messageId j)) :
      c₁.answer? j = some (.given (.error (.sessionTerminated error.cause))) := by
    obtain ⟨r, hr, _, due⟩ := mvs₀.queued_of_waited op waited
    cases mv with
    | reject _ _ _ mild =>
      rw [fatal] at mild
      cases mild
    | @collapse w rest _ fr eq =>
      refine (ch₀.reject fr eq error).answer?_failAll _ ?_
      -- What waited besides the refused request is left in the queue.
      have mem := ch₀.due hr due
      rw [outstanding_of_cons fr.1 eq, List.mem_cons] at mem
      have ne : j ≠ w.index := by
        rintro rfl
        exact other (ch₀.numbered (by simp [eq]))
      have left := mem.resolve_left ne
      simp only [outstanding, resolve_mark, inFlight_update, fr.1]
      simpa using left
  have term := mvs₁.terminated ch₁ term₁
  refine ⟨term, ch.ended (by simp [term]), ?_, ?_, ?_⟩
  · intro x mem
    exact mvs₁.handover?_of_terminated ch₁ (by simp [term₁]) mem
  · intro j waited other
    exact (mvs₁.later ch₁).answer (failed waited other) (by simp)
  · intro j waited other stay
    have given := (mvs₁.later ch₁).answer (failed waited other) (by simp)
    obtain ⟨r, hr, queued, due⟩ := mvs₀.queued_of_waited op waited
    have waits : c₀.Attends j := ⟨r, hr, mvs₀.attended j r hr queued due⟩
    have here : c₁.Attends j := by
      refine mv.attends ?_ waits
      rintro x eq
      cases eq
      rfl
    refine ch.told (mvs₁.attends (fun x mem => (stay x mem).1) here) given ?_
    rw [ne_eq, mvs.cancelled_iff]
    rintro ⟨x, mem, cancels⟩
    rcases List.mem_append.mp mem with early | late
    · simp [waited.uncancelled x early] at cancels
    · rcases List.mem_cons.mp late with rfl | late
      · cases cancels
      · simp [(stay x late).2] at cancels

/-- A mild refusal does not end the session. -/
lemma Moves.survived (mvs : Moves .new (before ++ .handed rpc (.error error) :: after) c)
    (mild : error.isFatal = false) (calm : ∀ x ∈ after, x.ends = false) : c.terminated = none := by
  obtain ⟨c₀, c₁, mvs₀, mv, -⟩ := mvs.split
  have op : ¬c₀.terminated.isSome := by
    intro term
    have none_handed := mv.handover?_of_terminated term
    cases none_handed
  rw [← Option.not_isSome_iff_eq_none, mvs.terminated_iff]
  rintro ⟨x, mem, ends⟩
  rcases List.mem_append.mp mem with early | mem
  · exact op (mvs₀.terminated_iff.mpr ⟨x, early, ends⟩)
  · rcases List.mem_cons.mp mem with rfl | late
    · simp [Event.ends, mild] at ends
    · simp [calm x late] at ends

end

/-! ## Requests that were never submitted -/

section

variable {gone : List Nat}

/-- The transmitter refused the request, and the session went on. -/
def Spared (es : List Event) (i : Nat) : Prop :=
  ∃ rpc error, .handed rpc (.error error) ∈ es ∧ rpc.messageId? = some (messageId i) ∧
    error.isFatal = false

/-- There is only one event that hands a request over. -/
lemma Moves.handed_unique {x y : Event} (mvs : Moves .new es c) (memx : x ∈ es) (memy : y ∈ es)
    (hx : x.hands i = true) (hy : y.hands i = true) : x = y := by
  obtain ⟨before, after, rfl⟩ := List.append_of_mem memx
  obtain ⟨early, late⟩ := mvs.handed_once hx
  rcases List.mem_append.mp memy with mem | mem
  · simp [early y mem] at hy
  · rcases List.mem_cons.mp mem with rfl | mem
    · rfl
    · simp [late y mem] at hy

/-- Requests that were spared are refused, and the session goes on. -/
lemma Moves.refused_of_spared (mvs : Moves .new es c) (spared : ∀ j ∈ gone, Spared es j) :
    Event.Refused gone es := by
  intro rpc outcome j mem here num
  obtain ⟨rpc', error, mem', num', mild⟩ := spared j here
  have same := mvs.handed_unique (i := j) mem mem' (by simp [Event.hands, num])
    (by simp [Event.hands, num'])
  cases same
  exact ⟨error, rfl, mild⟩

/-- A request that was refused does not wait any more. -/
lemma Moves.queue_of_spared (mvs : Moves .new es c) (spared : ∀ j ∈ gone, Spared es j) :
    (c.queue.filter fun w => !gone.contains w.index) = c.queue := by
  rw [List.filter_eq_self]
  intro w mem
  simp only [Bool.not_eq_true', List.contains_eq_mem, decide_eq_false_iff_not]
  intro here
  obtain ⟨rpc, error, seen, num, -⟩ := spared _ here
  have sent := mvs.sent_of_hands .new seen (i := w.index) (by simp [Event.hands, num])
  obtain ⟨r, hr, unsent, -⟩ := (mvs.coherent .new).waiting mem
  obtain ⟨s, hs, st⟩ := status?_eq_some.mp sent
  rw [hr, Option.some.injEq] at hs
  exact unsent (hs ▸ st)

variable {τ : Type} {transmit : Node → τ → Except Error Unit × τ} {t t' : τ}

/-- A transmitter that is as before when it has refused a request can be handed the other requests
alone. -/
lemma Handed.others (handed : Handed transmit t (es.filter fun e => e.handover?.isSome) t')
    (ref : Event.Refused gone es)
    (unmoved : ∀ {rpc t e}, (transmit rpc t).1 = .error e → e.isFatal = false →
      (transmit rpc t).2 = t) : Handed transmit t (Event.otherHandovers gone es) t' := by
  induction es generalizing t with
  | nil => exact handed
  | cons e es ih =>
    cases given : e.handover? with
    | none =>
      rw [List.filter_cons_of_neg (by simp [given])] at handed
      rw [Event.otherHandovers_cons given]
      exact ih handed ref.tail
    | some rpc =>
      rw [List.filter_cons_of_pos (by simp [given])] at handed
      cases handed with
      | @cons _ t₁ _ rpc outcome _ out handed =>
        have rest := ih handed ref.tail
        cases tells : (Event.handed rpc outcome).tellsOf gone with
        | true =>
          obtain ⟨i, here, hands⟩ := List.any_eq_true.mp tells
          have num : rpc.messageId? = some (messageId i) := by simpa [Event.hands] using hands
          -- Refusing left the transmitter as it was, as if the request had not been there.
          obtain ⟨error, rfl, mild⟩ := ref List.mem_cons_self here num
          have still : (transmit rpc t).2 = t := unmoved (by rw [out]) mild
          rw [out] at still
          subst still
          simpa [Event.otherHandovers, Event.others, tells] using rest
        | false =>
          have shown : Event.otherHandovers gone (.handed rpc outcome :: es) =
              .handed rpc outcome :: Event.otherHandovers gone es := by
            simp [Event.otherHandovers, Event.others, tells, Event.handover?]
          rw [shown]
          exact .cons out rest

end

end Correlator

namespace History

open Correlator Event

variable {τ : Type} (transmit : Node → τ → Except Error Unit × τ)

/-- The second history is the first as it would be if some of its requests, which do not wait any
more, had never been submitted. -/
structure Spares {τ' : Type} (gone : List Nat) (h : History τ) (g : History τ') : Prop where
  mirrors : Mirrors gone h g
  queue : g.correlator.queue = h.correlator.queue

/-- Refusals are contained in a history that some actions lead to. -/
structure Contained (t : τ) (actions : List Action) (h : History τ) : Prop where
  /-- A request that was refused has failed with the error for good, and whoever waits for it is
  told so. -/
  failed {before after rpc error} :
    h.trace = before ++ .handed rpc (.error error) :: after →
    ∃ i, rpc.messageId? = some (messageId i) ∧ Final h.correlator i (.error error) ∧
      ((∀ x ∈ after, x.leaves i = false) → h.correlator.poll i = some (.resolved (.error error)))
  /-- After a mild refusal the session goes on, until something else ends it. -/
  survived {before after rpc error} :
    h.trace = before ++ .handed rpc (.error error) :: after → error.isFatal = false →
    (∀ x ∈ after, x.ends = false) → h.correlator.terminated = none
  /-- A fatal refusal ends the session, and with it all that waits. -/
  collapsed {before after rpc error} :
    h.trace = before ++ .handed rpc (.error error) :: after → error.isFatal = true →
    Collapsed before after rpc error h.correlator
  /-- Requests that were refused mildly might as well never have been submitted, if the transmitter
  answers the others as it did. -/
  absent {gone} (spared : ∀ i ∈ gone, Spared h.trace i) {τ' : Type}
    (transmit' : Node → τ' → Except Error Unit × τ') {u u' : τ'} :
    Handed transmit' u (otherHandovers gone h.trace) u' →
    Spares gone h ((start u).runWithout transmit' gone actions) ∧
      ((start u).runWithout transmit' gone actions).transmitter = u'
  /-- The same transmitter answers them as it did, if it is as before when it has refused a request
  mildly. -/
  unmoved {gone} (spared : ∀ i ∈ gone, Spared h.trace i) :
    (∀ {rpc t e}, (transmit rpc t).1 = .error e → e.isFatal = false → (transmit rpc t).2 = t) →
    Spares gone h ((start t).runWithout transmit gone actions) ∧
      ((start t).runWithout transmit gone actions).transmitter = h.transmitter

/-- A history mirrors another when both have just begun. -/
lemma Mirrors.start (gone : List Nat) {τ' : Type} (t : τ) (u : τ') :
    Mirrors gone (start t) (start u) :=
  ⟨rfl, .new gone⟩

/-- A mild refusal concerns only the request that is refused, and a fatal one all that wait. -/
theorem run_contained (t : τ) (actions : List Action) :
    Contained transmit t actions ((start t).run transmit actions) := by
  have mvs := start_run_moves transmit t actions
  -- The run without the requests mirrors this one, whichever transmitter takes what is left.
  have absent {gone} (spared : ∀ i ∈ gone, Spared ((start t).run transmit actions).trace i)
      {τ' : Type} (transmit' : Node → τ' → Except Error Unit × τ') {u u' : τ'}
      (handed : Handed transmit' u
        (otherHandovers gone ((start t).run transmit actions).trace) u') :
      Spares gone ((start t).run transmit actions)
          ((start u).runWithout transmit' gone actions) ∧
        ((start u).runWithout transmit' gone actions).transmitter = u' := by
    obtain ⟨es, eq, law⟩ : Follows transmit' gone (start t) ((start t).run transmit actions)
        (start u) ((start u).runWithout transmit' gone actions) :=
      (Mirrors.start gone t u).run transmit .new (fun _ => rfl) actions
    obtain rfl : ((start t).run transmit actions).trace = es := eq
    obtain ⟨mi, left⟩ := law (mvs.refused_of_spared spared) handed
    exact ⟨⟨mi, by rw [mi.correlator.queue, mvs.queue_of_spared spared]⟩, left⟩
  refine ⟨?_, ?_, ?_, absent, ?_⟩
  · intro before after rpc error shown
    rw [shown] at mvs
    exact mvs.refused
  · intro before after rpc error shown
    rw [shown] at mvs
    exact mvs.survived
  · intro before after rpc error shown
    rw [shown] at mvs
    exact mvs.collapsed
  · intro gone spared unmoved
    obtain ⟨es, eq, handed⟩ := (start t).handed_run transmit actions
    obtain rfl : ((start t).run transmit actions).trace = es := eq
    exact absent spared transmit (handed.others (mvs.refused_of_spared spared) unmoved)

/-- A transmitter whose queue is full when it is handed the second request, and whose connection is
closed when it is handed the fourth. -/
def choosy (rpc : Node) (_ : Unit) : Except Error Unit × Unit :=
  if rpc.messageId? = some (messageId 1) then (.error .queueFull, ())
  else if rpc.messageId? = some (messageId 3) then (.error .connectionClosed, ())
  else (.ok (), ())

/-- The request with the given index, as it is handed over. -/
def requestOf (i : Nat) : Node :=
  .rpc (messageId i) (.empty (.unqualified "get"))

/-- The reply to a request. -/
def replyTo (i : Nat) : Node :=
  .leaf ⟨baseUri, "rpc-reply"⟩ [⟨.unqualified "message-id", messageId i⟩] none

/-- Five requests, and the replies to the first and the third. -/
def strain : List Action :=
  List.replicate 5 (.submit (.empty (.unqualified "get"))) ++
    [.reply (replyTo 0), .reply (replyTo 2)]

/-- What is seen until the transmitter refuses the second request. -/
def beforeMild : List Event :=
  [.submitted 0 (.empty (.unqualified "get")),
    .handed (requestOf 0) (.ok ()),
    .submitted 1 (.empty (.unqualified "get")), .submitted 2 (.empty (.unqualified "get")),
    .submitted 3 (.empty (.unqualified "get")), .submitted 4 (.empty (.unqualified "get")),
    .routed (replyTo 0) (.ok .delivered)]

/-- What is seen from then until the transmitter refuses the fourth. -/
def beforeFatal : List Event :=
  [.handed (requestOf 2) (.ok ()), .routed (replyTo 2) (.ok .delivered)]

/-- The second request failed alone, and the fourth took the fifth with it. -/
theorem strain_contained :
    let h := (start ()).run choosy strain
    h.correlator.poll 1 = some (.resolved (.error .queueFull)) ∧
      Spares [1] h ((start ()).runWithout choosy [1] strain) ∧
      h.correlator.poll 3 = some (.resolved (.error .connectionClosed)) ∧
      h.correlator.terminated = some .peerClosed ∧
      h.correlator.poll 4 = some (.resolved (.error (.sessionTerminated .peerClosed))) := by
  intro h
  have contained := run_contained choosy () strain
  have mild : h.trace = beforeMild ++ .handed (requestOf 1) (.error .queueFull) ::
      (beforeFatal ++ [.handed (requestOf 3) (.error .connectionClosed)]) := rfl
  have fatal : h.trace = (beforeMild ++ .handed (requestOf 1) (.error .queueFull) :: beforeFatal) ++
      .handed (requestOf 3) (.error .connectionClosed) :: [] := rfl
  have number {i j : Nat} (num : (requestOf i).messageId? = some (messageId j)) : i = j := by
    rw [requestOf, messageId?_rpc, Option.some.injEq, messageId_inj] at num
    exact num
  refine ⟨?_, ?_, ?_, ?_, ?_⟩
  · obtain ⟨i, num, -, told⟩ := contained.failed mild
    cases number num
    exact told (by decide)
  · refine (contained.unmoved ?_ ?_).1
    · intro i mem
      rw [List.mem_singleton] at mem
      subst mem
      exact ⟨requestOf 1, .queueFull, by rw [mild]; simp, messageId?_rpc _ _, rfl⟩
    · intros
      rfl
  · obtain ⟨i, num, -, told⟩ := contained.failed fatal
    cases number num
    exact told (by decide)
  · exact (contained.collapsed fatal rfl).terminated
  · refine (contained.collapsed fatal rfl).told ?_ (fun num => ?_) (by decide)
    · exact ⟨⟨.empty (.unqualified "get"), by simp [beforeMild]⟩, by decide, by decide⟩
    · cases number num

end History

end Netconf
