import Netconf.Proofs.Correlator.Move

/-!
# The invariant of a correlator

A correlator is coherent if the requests it keeps track of and the requests whose answer is due are
the same, each of them in one place. Every move keeps that, and under it every move changes each
request in one direction only.
-/

namespace Netconf.Correlator

/-- What holds of a correlator after every move. -/
structure Coherent (c : Correlator) : Prop where
  /-- The outstanding requests are kept in the order of submission, each of them once. -/
  sorted : c.outstanding.Pairwise (· < ·)
  inFlight {i} : c.inFlight = some i →
    ∃ r, c.requests[i]? = some r ∧ r.status = .sent ∧ r.answer = .due
  waiting {w} : w ∈ c.queue →
    ∃ r, c.requests[w.index]? = some r ∧ r.status ≠ .sent ∧ r.answer = .due
  /-- What is handed over is the envelope with the number of the request. -/
  numbered {w} : w ∈ c.queue → w.rpc.messageId? = some (messageId w.index)
  /-- No request is forgotten as long as its answer is due. -/
  due {i : Nat} {r : Request} : c.requests[i]? = some r → r.answer = .due → i ∈ c.outstanding
  /-- Only cancelled requests are left without an answer. -/
  withheld {i : Nat} {r : Request} :
    c.requests[i]? = some r → r.answer = .withheld → r.status = .cancelled
  ended : c.terminated.isSome → c.outstanding = []

/-- All is in place in a new correlator. -/
lemma Coherent.new : Coherent .new where
  sorted := .nil
  inFlight := nofun
  waiting := nofun
  numbered := nofun
  due := by simp [Correlator.new]
  withheld := by simp [Correlator.new]
  ended := nofun

/-! ## Outstanding requests -/

section

variable {c : Correlator} {i : Nat}

/-- The outstanding requests are the one in flight and those in the queue. -/
lemma mem_outstanding :
    i ∈ c.outstanding ↔ c.inFlight = some i ∨ ∃ w ∈ c.queue, w.index = i := by
  simp [outstanding, eq_comm]

/-- If none is in flight, the outstanding requests are those in the queue. -/
lemma outstanding_of_cons {w rest} (fr : c.inFlight = none) (eq : c.queue = w :: rest) :
    c.outstanding = w.index :: rest.map (·.index) := by
  simp [outstanding, fr, eq]

/-- The answer to an outstanding request is due. -/
lemma Coherent.outstanding_due (ch : Coherent c) (mem : i ∈ c.outstanding) :
    ∃ r, c.requests[i]? = some r ∧ r.answer = .due := by
  rcases mem_outstanding.mp mem with fl | ⟨w, memq, rfl⟩
  · obtain ⟨r, hr, _, due⟩ := ch.inFlight fl
    exact ⟨r, hr, due⟩
  · obtain ⟨r, hr, _, due⟩ := ch.waiting memq
    exact ⟨r, hr, due⟩

/-- No outstanding request is answered. -/
lemma Coherent.answer?_outstanding (ch : Coherent c) (mem : i ∈ c.outstanding) :
    c.answer? i = some .due :=
  answer?_eq_some.mpr (ch.outstanding_due mem)

/-- The request in flight is sent. -/
lemma Coherent.status?_inFlight (ch : Coherent c) (fl : c.inFlight = some i) :
    c.status? i = some .sent := by
  obtain ⟨r, hr, sent, _⟩ := ch.inFlight fl
  exact status?_eq_some.mpr ⟨r, hr, sent⟩

/-- An outstanding request is one of the requests. -/
lemma Coherent.outstanding_lt (ch : Coherent c) (mem : i ∈ c.outstanding) :
    i < c.requests.size := by
  obtain ⟨r, hr, _⟩ := ch.outstanding_due mem
  exact (Array.getElem?_eq_some_iff.mp hr).1

/-- While a request is in flight the session goes on. -/
lemma Coherent.open_of_inFlight (ch : Coherent c) (fl : c.inFlight = some i) :
    c.terminated = none := by
  cases term : c.terminated with
  | none => rfl
  | some cause => simpa [outstanding, fl] using ch.ended (by simp [term])

end

/-! ## New requests -/

/-- A queued request is new at the end of the queue. -/
lemma Coherent.enqueue {c : Correlator} (ch : Coherent c) (op : c.terminated = none)
    (operation : Node) : Coherent (c.enqueue operation) where
  sorted := by
    simp only [outstanding, Correlator.enqueue, List.map_append, ← List.append_assoc]
    refine List.pairwise_append.mpr ⟨ch.sorted, by simp, fun i mem j eq => ?_⟩
    rw [List.mem_singleton.mp eq]
    exact ch.outstanding_lt mem
  inFlight fl := by
    obtain ⟨r, hr, sent, due⟩ := ch.inFlight fl
    exact ⟨r, getElem?_push_of_some hr, sent, due⟩
  waiting mem := by
    rcases List.mem_append.mp mem with mem | mem
    · obtain ⟨r, hr, unsent, due⟩ := ch.waiting mem
      exact ⟨r, getElem?_push_of_some hr, unsent, due⟩
    · rw [List.mem_singleton.mp mem]
      exact ⟨⟨.queued, .due, true⟩, getElem?_push_size, by simp, rfl⟩
  numbered mem := by
    rcases List.mem_append.mp mem with mem | mem
    · exact ch.numbered mem
    · rw [List.mem_singleton.mp mem]
      exact messageId?_rpc _ _
  due {i r} hr due := by
    rw [mem_outstanding]
    rw [requests_enqueue, getElem?_push] at hr
    -- The request is the new one at the end, or was there before.
    split at hr
    case isTrue eq => exact .inr ⟨_, List.mem_append_right _ (List.mem_singleton.mpr rfl), eq.symm⟩
    case isFalse =>
      rcases mem_outstanding.mp (ch.due hr due) with fl | ⟨w, mem, eq⟩
      · exact .inl fl
      · exact .inr ⟨w, List.mem_append_left _ mem, eq⟩
  withheld hr wh := by
    rw [requests_enqueue, getElem?_push] at hr
    split at hr
    case isTrue => cases hr; cases wh
    case isFalse => exact ch.withheld hr wh
  ended (ended : c.terminated.isSome) := by simp [op] at ended

/-- All stays in place when a request is refused at once. -/
lemma Coherent.refuse {c : Correlator} (ch : Coherent c) (result : Except Error Node) :
    Coherent (c.push ⟨.sent, .given result, true⟩) where
  sorted := ch.sorted
  inFlight fl := by
    obtain ⟨r, hr, sent, due⟩ := ch.inFlight fl
    exact ⟨r, getElem?_push_of_some hr, sent, due⟩
  waiting mem := by
    obtain ⟨r, hr, unsent, due⟩ := ch.waiting mem
    exact ⟨r, getElem?_push_of_some hr, unsent, due⟩
  numbered := ch.numbered
  due hr due := by
    rw [getElem?_push] at hr
    split at hr
    case isTrue => cases hr; cases due
    case isFalse => exact ch.due hr due
  withheld hr wh := by
    rw [getElem?_push] at hr
    split at hr
    case isTrue => cases hr; cases wh
    case isFalse => exact ch.withheld hr wh
  ended := ch.ended

/-! ## Requests that are dealt with -/

/-- The first of the outstanding requests gets its answer, or none as it was cancelled. -/
lemma Coherent.settle {c d : Correlator} {i : Nat} {f : Request → Request} (ch : Coherent c)
    (out : c.outstanding = i :: d.outstanding) (reqs : d.requests = (c.update i f).requests)
    (term : d.terminated = none) (fl : d.inFlight = none) (sub : d.queue ⊆ c.queue)
    (done : ∀ r, c.requests[i]? = some r →
      (f r).answer ≠ .due ∧ ((f r).answer = .withheld → (f r).status = .cancelled)) :
    Coherent d := by
  -- The request comes before all that are left, so it is none of them.
  have srt := List.pairwise_cons.mp (out ▸ ch.sorted)
  refine ⟨srt.2, by simp [fl], ?_, fun mem => ch.numbered (sub mem), ?_, ?_, by simp [term]⟩
  · intro w mem
    have lt : i < w.index := srt.1 _ (mem_outstanding.mpr (.inr ⟨w, mem, rfl⟩))
    obtain ⟨r, hr, unsent, due⟩ := ch.waiting (sub mem)
    exact ⟨r, by rw [reqs, getElem?_update, if_neg (by omega), hr], unsent, due⟩
  · intro j s hs due
    rw [reqs] at hs
    obtain ⟨r, hr, ⟨rfl, rfl⟩ | ⟨ne, rfl⟩⟩ := of_getElem?_update hs
    · exact absurd due (done r hr).1
    · have mem := ch.due hr due
      rw [out, List.mem_cons] at mem
      exact mem.resolve_left ne.symm
  · intro j s hs wh
    rw [reqs] at hs
    obtain ⟨r, hr, ⟨rfl, rfl⟩ | ⟨_, rfl⟩⟩ := of_getElem?_update hs
    · exact (done r hr).2 wh
    · exact ch.withheld hr wh

/-- All stays in place when the first of the queue is dealt with. -/
lemma Coherent.settle_first {c : Correlator} {w rest} {f : Request → Request} (ch : Coherent c)
    (fr : c.Free) (eq : c.queue = w :: rest)
    (done : ∀ r, c.requests[w.index]? = some r →
      (f r).answer ≠ .due ∧ ((f r).answer = .withheld → (f r).status = .cancelled)) :
    Coherent { c.update w.index f with queue := rest } :=
  ch.settle (by simp [outstanding, fr.1, eq]) rfl fr.2 fr.1 (by simp [eq]) done

/-- All stays in place when the request in flight gets its answer. -/
lemma Coherent.settle_inFlight {c : Correlator} {i : Nat} (ch : Coherent c)
    (fl : c.inFlight = some i) (result : Except Error Node) :
    Coherent { c.resolve i result with inFlight := none } := by
  refine ch.settle (f := fun r => { r with answer := .given result }) ?_ rfl
    (ch.open_of_inFlight fl) rfl
    (List.Subset.refl _) (by simp)
  simp [outstanding, fl, resolve]

/-- The first of the queue goes in flight. -/
lemma Coherent.send {c : Correlator} {w rest} (ch : Coherent c) (fr : c.Free)
    (eq : c.queue = w :: rest) :
    Coherent { c.mark w.index .sent with queue := rest, inFlight := some w.index } := by
  -- The same requests are outstanding as before, the first of them now in flight.
  have out := outstanding_of_cons fr.1 eq
  have srt := ch.sorted
  rw [out] at srt
  have first : w ∈ c.queue := by simp [eq]
  have later {v} (mem : v ∈ rest) : v ∈ c.queue := by simp [eq, mem]
  refine ⟨srt, ?_, ?_, fun mem => ch.numbered (later mem), ?_, ?_, ?_⟩
  · intro i fl
    cases fl
    obtain ⟨r, hr, _, due⟩ := ch.waiting first
    exact ⟨_, getElem?_update_of_some hr, by simp, by simpa using due⟩
  · intro v mem
    have lt : w.index < v.index :=
      (List.pairwise_cons.mp srt).1 _ (List.mem_map.mpr ⟨v, mem, rfl⟩)
    obtain ⟨r, hr, unsent, due⟩ := ch.waiting (later mem)
    refine ⟨r, ?_, unsent, due⟩
    rw [← hr]
    exact getElem?_update.trans (if_neg (by omega))
  · intro i s hs due
    obtain ⟨r, hr, ⟨rfl, rfl⟩ | ⟨_, rfl⟩⟩ := of_getElem?_update hs
    · simp [outstanding]
    · have mem := ch.due hr due
      rwa [out] at mem
  · intro i s hs wh
    obtain ⟨r, hr, ⟨rfl, rfl⟩ | ⟨_, rfl⟩⟩ := of_getElem?_update hs
    · obtain ⟨u, hu, _, due⟩ := ch.waiting first
      rw [hr] at hu
      cases hu
      simp [due] at wh
    · exact ch.withheld hr wh
  · intro (ended : c.terminated.isSome)
    simp [fr.2] at ended

/-- At the end of the session all outstanding requests get their answer. -/
lemma Coherent.failAll {c : Correlator} (ch : Coherent c) (cause : Cause) :
    Coherent (c.failAll cause) where
  sorted := .nil
  inFlight := nofun
  waiting := nofun
  numbered := nofun
  due {i r} hr due := by
    obtain ⟨s, hs, rfl⟩ := Option.map_eq_some_iff.mp (getElem?_failAll c cause i ▸ hr)
    split at due
    case isTrue => cases due
    case isFalse out => exact absurd (ch.due hs due) out
  withheld {i r} hr wh := by
    obtain ⟨s, hs, rfl⟩ := Option.map_eq_some_iff.mp (getElem?_failAll c cause i ▸ hr)
    split at wh
    case isTrue => cases wh
    case isFalse => simpa [*] using ch.withheld hs wh
  ended _ := rfl

/-- A change of a request that leaves it in its place keeps all in place. -/
lemma Coherent.update {c : Correlator} {i : Nat} {f : Request → Request} (ch : Coherent c)
    (keep : ∀ r, c.requests[i]? = some r → r.Stays (f r)) : Coherent (c.update i f) := by
  -- The request at an index is the changed one or as it was, and stays in its place either way.
  have look {j : Nat} {r s : Request} (hr : c.requests[j]? = some r)
      (eq : i = j ∧ s = f r ∨ i ≠ j ∧ s = r) : r.Stays s := by
    rcases eq with ⟨rfl, rfl⟩ | ⟨_, rfl⟩
    · exact keep r hr
    · exact .refl s
  have fore {j : Nat} {r : Request} (hr : c.requests[j]? = some r) :
      ∃ s, (c.update i f).requests[j]? = some s ∧ r.Stays s := by
    refine ⟨_, getElem?_update_of_some hr, ?_⟩
    split
    case isTrue eq => exact look hr (.inl ⟨eq, rfl⟩)
    case isFalse ne => exact look hr (.inr ⟨ne, rfl⟩)
  refine ⟨ch.sorted, ?_, ?_, ch.numbered, ?_, ?_, ch.ended⟩
  · intro j fl
    obtain ⟨r, hr, sent, due⟩ := ch.inFlight fl
    obtain ⟨s, hs, st⟩ := fore hr
    exact ⟨s, hs, st.sent.mpr sent, st.answer ▸ due⟩
  · intro w mem
    obtain ⟨r, hr, unsent, due⟩ := ch.waiting mem
    obtain ⟨s, hs, st⟩ := fore hr
    exact ⟨s, hs, fun sent => unsent (st.sent.mp sent), st.answer ▸ due⟩
  · intro j s hs due
    obtain ⟨r, hr, eq⟩ := of_getElem?_update hs
    exact ch.due hr ((look hr eq).answer ▸ due)
  · intro j s hs wh
    obtain ⟨r, hr, eq⟩ := of_getElem?_update hs
    exact (look hr eq).cancelled (ch.withheld hr ((look hr eq).answer ▸ wh))

/-! ## Operations of the submitter -/

section

variable {c : Correlator} {i : Nat}

/-- All stays in place when a submitter stops waiting. -/
lemma Coherent.release (ch : Coherent c) :
    Coherent (c.update i fun r => { r with held := false }) :=
  ch.update fun r _ => { Request.Stays.refl r with }

/-- All stays in place when a request is cancelled. -/
lemma Coherent.cancel (ch : Coherent c) : Coherent (c.cancel i).2 := by
  rcases cancel_cases (c := c) (i := i) with ⟨q, eq⟩ | ⟨_, eq⟩
  · rw [eq]
    apply ch.update
    intro r hr
    obtain ⟨s, hs, queued⟩ := status?_eq_some.mp (isQueued_iff.mp q)
    rw [hr] at hs
    cases hs
    exact ⟨rfl, by simp [queued], fun _ => rfl⟩
  · rwa [eq]

/-- All stays in place when a request is given up. -/
lemma Coherent.forget (ch : Coherent c) : Coherent (c.forget i) :=
  ch.cancel.release

/-- All stays in place when the answer to a request is taken. -/
lemma Coherent.take (ch : Coherent c) : Coherent (c.take i).2 := by
  rcases take_cases (c := c) (i := i) with eq | eq
  · rwa [eq]
  · rw [eq]
    exact ch.release

/-- All stays in place at the end of the session. -/
lemma Coherent.terminate (ch : Coherent c) (cause : Cause) : Coherent (c.terminate cause) := by
  rcases terminate_cases (c := c) cause with ⟨_, eq⟩ | ⟨_, eq⟩
  · rw [eq]
    exact ch.failAll cause
  · rwa [eq]

end

/-! ## Moves -/

section

variable {c : Correlator} {w : Waiting} {rest : List Waiting}

/-- The first of the queue is not sent, and its answer is due. -/
lemma Coherent.first {r} (ch : Coherent c) (eq : c.queue = w :: rest)
    (hr : c.requests[w.index]? = some r) : r.status ≠ .sent ∧ r.answer = .due := by
  obtain ⟨s, hs, unsent, due⟩ := ch.waiting (w := w) (by simp [eq])
  rw [hr] at hs
  cases hs
  exact ⟨unsent, due⟩

/-- Marking a request as sent and failing it is one change. -/
lemma resolve_mark {i : Nat} {result : Except Error Node} :
    (c.mark i .sent).resolve i result =
      c.update i fun r => { r with status := .sent, answer := .given result } :=
  update_update

/-- All stays in place when the transmitter refuses the first of the queue. -/
lemma Coherent.reject (ch : Coherent c) (fr : c.Free) (eq : c.queue = w :: rest) (e : Error) :
    Coherent { (c.mark w.index .sent).resolve w.index (.error e) with queue := rest } := by
  rw [resolve_mark]
  exact ch.settle_first fr eq fun _ _ => by simp

/-- Every move keeps all in place. -/
lemma Move.coherent {e d} (mv : Move c e d) (ch : Coherent c) : Coherent d := by
  cases mv with
  | accept op => exact ch.enqueue op _
  | refuse _ => exact ch.refuse _
  | skip fr eq q =>
    refine ch.settle_first fr eq fun r hr => ?_
    -- A request in the queue is queued or cancelled, and only the latter is passed over.
    cases st : r.status with
    | queued => simp [isQueued, hr, st] at q
    | sent => exact absurd st (ch.first eq hr).1
    | cancelled => simp
  | send fr eq _ => exact ch.send fr eq
  | reject fr eq _ _ => exact ch.reject fr eq _
  | collapse fr eq _ _ => exact (ch.reject fr eq _).failAll _
  | deliver _ fl _ => exact ch.settle_inFlight fl _
  | mismatch => exact ch.failAll _
  | pass => exact ch
  | terminate => exact ch.terminate _
  | cancel => exact ch.cancel
  | forget => exact ch.forget
  | take => exact ch.take

/-- Moves keep all in place. -/
lemma Moves.coherent {es d} (mvs : Moves c es d) (ch : Coherent c) : Coherent d := by
  induction mvs with
  | refl => exact ch
  | tail _ mv ih => exact mv.coherent ih

end

/-! ## The one direction of requests -/

section

variable {c : Correlator} {i : Nat} {w : Waiting} {rest : List Waiting}

/-- Failing the outstanding requests leaves what was decided. -/
lemma Coherent.later_failAll (ch : Coherent c) (cause : Cause) : c.Later (c.failAll cause) := by
  intro j r hr
  rw [getElem?_failAll, hr]
  refine ⟨_, rfl, ?_⟩
  split
  case isTrue out =>
    obtain ⟨s, hs, due⟩ := ch.outstanding_due out
    rw [hr] at hs
    cases hs
    exact ⟨fun _ => rfl, fun h => absurd due h⟩
  case isFalse => exact .refl r

/-- A request that the transmitter refuses was queued, and its answer was due. -/
lemma Coherent.later_reject (ch : Coherent c) (eq : c.queue = w :: rest)
    (q : c.isQueued w.index = true) (e : Error) :
    c.Later { (c.mark w.index .sent).resolve w.index (.error e) with queue := rest } := by
  rw [resolve_mark]
  refine later_update fun r hr => ⟨fun h => ?_, fun h => ?_⟩
  · simp [isQueued, hr, h] at q
  · exact absurd (ch.first eq hr).2 h

/-- A request goes on in its one direction when one is cancelled. -/
lemma later_cancel : c.Later (c.cancel i).2 := by
  rcases cancel_cases (c := c) (i := i) with ⟨q, eq⟩ | ⟨_, eq⟩
  · rw [eq]
    refine later_update fun r hr => ⟨fun h => ?_, fun _ => rfl⟩
    simp [isQueued, hr, h] at q
  · rw [eq]
    exact .refl c

/-- A request goes on in its one direction when a submitter stops waiting. -/
lemma later_release : c.Later (c.update i fun r => { r with held := false }) :=
  later_update fun _ _ => ⟨fun _ => rfl, fun _ => rfl⟩

/-- Under every move the requests go on in their one direction. -/
lemma Move.later {e d} (mv : Move c e d) (ch : Coherent c) : c.Later d := by
  cases mv with
  | accept _ => exact later_push
  | refuse _ => exact later_push
  | skip _ eq _ =>
    exact later_update fun r hr => ⟨fun _ => rfl, fun h => absurd (ch.first eq hr).2 h⟩
  | send _ eq q =>
    refine later_update fun r hr => ⟨fun h => ?_, fun _ => rfl⟩
    -- What is handed over was queued.
    simp [isQueued, hr, h] at q
  | reject _ eq q _ => exact ch.later_reject eq q _
  | collapse fr eq q _ => exact (ch.later_reject eq q _).trans ((ch.reject fr eq _).later_failAll _)
  | deliver _ fl _ =>
    refine later_update fun r hr => ⟨fun _ => rfl, fun h => ?_⟩
    obtain ⟨s, hs, _, due⟩ := ch.inFlight fl
    rw [hr] at hs
    cases hs
    exact absurd due h
  | mismatch => exact ch.later_failAll _
  | pass => exact .refl c
  | terminate =>
    rcases terminate_cases (c := c) _ with ⟨_, eq⟩ | ⟨_, eq⟩
    · rw [eq]
      exact ch.later_failAll _
    · rw [eq]
      exact .refl c
  | cancel => exact later_cancel
  | forget => exact later_cancel.trans later_release
  | @take j =>
    rcases take_cases (c := c) (i := j) with eq | eq
    · rw [eq]
      exact .refl c
    · rw [eq]
      exact later_release

/-- Requests go on in their one direction under any moves. -/
lemma Moves.later {es d} (mvs : Moves c es d) (ch : Coherent c) : c.Later d := by
  induction mvs with
  | refl => exact .refl c
  | tail mvs mv ih => exact ih.trans (mv.later (mvs.coherent ch))

end

end Netconf.Correlator
