import Netconf.Proofs.Correlator.Status

/-!
# What a trace tells of the state

The status of a request can be read off the events seen so far: it is sent if it was handed over or
came after the end, and cancelled if an event cancelled it. The session has ended if an event ended
it, and from then on nothing is handed over. The requests are those that were submitted, numbered in
this order.
-/

namespace Netconf.Correlator

section

variable {c d : Correlator} {i : Nat} {e : Event}

/-! ## Single moves -/

/-- After an event that ends the session it has ended. -/
lemma Move.terminated_of_ends (mv : Move c (some e) d) (ends : e.ends = true) :
    d.terminated.isSome := by
  cases mv with
  | reject _ _ _ mild =>
    simp only [Event.ends, mild] at ends
    cases ends
  | collapse => rfl
  | mismatch => rfl
  | terminate =>
    rcases terminate_cases (c := c) _ with ⟨_, eq⟩ | ⟨term, eq⟩
    · rw [eq]
      rfl
    · rwa [eq]
  | _ => cases ends

/-- The session ends by an event that shows it. -/
lemma Move.ends_of_terminated {f : Option Event} (mv : Move c f d) (op : c.terminated = none)
    (term : d.terminated.isSome) : ∃ e, f = some e ∧ e.ends = true := by
  have same (eq : d.terminated = c.terminated) : ¬d.terminated.isSome := by
    simp [eq, op]
  cases mv with
  | collapse _ _ _ fatal => exact ⟨_, rfl, fatal⟩
  | mismatch => exact ⟨_, rfl, rfl⟩
  | terminate => exact ⟨_, rfl, rfl⟩
  | cancel => exact absurd term (same aside_cancel.terminated)
  | forget => exact absurd term (same aside_forget.terminated)
  | take => exact absurd term (same aside_take.terminated)
  | _ => exact absurd term (same rfl)

/-- The first cause of the end stays. -/
lemma Move.terminated {f : Option Event} {cause : Cause} (mv : Move c f d) (ch : Coherent c)
    (term : c.terminated = some cause) : d.terminated = some cause := by
  have ended : ¬c.Free := fun fr => by simp [fr.2] at term
  cases mv with
  | collapse fr => exact absurd fr ended
  | mismatch _ fl _ => simp [ch.open_of_inFlight fl] at term
  | terminate =>
    rcases terminate_cases (c := c) _ with ⟨op, _⟩ | ⟨_, eq⟩
    · simp [op] at term
    · rwa [eq]
  | cancel => exact aside_cancel.terminated.trans term
  | forget => exact aside_forget.terminated.trans term
  | take => exact aside_take.terminated.trans term
  | _ => exact term

/-- Once the session has ended nothing is handed over. -/
lemma Move.handover?_of_terminated (mv : Move c (some e) d) (term : c.terminated.isSome) :
    e.handover? = none := by
  have ended : ¬c.Free := fun fr => by simp [fr.2] at term
  cases mv with
  | send fr => exact absurd fr ended
  | reject fr => exact absurd fr ended
  | collapse fr => exact absurd fr ended
  | _ => rfl

end

/-! ## Traces -/

section

variable {c d : Correlator} {i : Nat} {e : Event} {es : List Event}

/-- The first cause of the end stays under any moves. -/
lemma Moves.terminated {cause : Cause} (mvs : Moves c es d) (ch : Coherent c)
    (term : c.terminated = some cause) : d.terminated = some cause := by
  induction mvs with
  | refl => exact term
  | tail mvs mv ih => exact mv.terminated (mvs.coherent ch) ih

/-- Once the session has ended nothing is handed over under any moves. -/
lemma Moves.handover?_of_terminated (mvs : Moves c es d) (ch : Coherent c)
    (term : c.terminated.isSome) (mem : e ∈ es) : e.handover? = none := by
  obtain ⟨cause, term⟩ := Option.isSome_iff_exists.mp term
  obtain ⟨before, after, rfl⟩ := List.append_of_mem mem
  obtain ⟨x, y, mvs, mv, _⟩ := mvs.split
  exact mv.handover?_of_terminated (by simp [mvs.terminated ch term])

/-- After moves with an event that ends the session it has ended. -/
lemma Moves.terminated_of_ends (mvs : Moves c es d) (ch : Coherent c) (mem : e ∈ es)
    (ends : e.ends = true) : d.terminated.isSome := by
  obtain ⟨before, after, rfl⟩ := List.append_of_mem mem
  obtain ⟨x, y, mvs, mv, rest⟩ := mvs.split
  obtain ⟨cause, term⟩ := Option.isSome_iff_exists.mp (mv.terminated_of_ends ends)
  simp [rest.terminated (mv.coherent (mvs.coherent ch)) term]

/-- The session has ended if an event ended it. -/
lemma Moves.terminated_iff (mvs : Moves .new es c) :
    c.terminated.isSome ↔ ∃ e ∈ es, e.ends = true := by
  refine ⟨fun term => ?_, fun ⟨e, mem, ends⟩ => mvs.terminated_of_ends .new mem ends⟩
  induction mvs with
  | refl => cases term
  | @tail es c f d mvs mv ih =>
    -- If the session had not ended before the last move, this move shows why it has now.
    cases op : c.terminated with
    | some cause =>
      obtain ⟨e, mem, ends⟩ := ih (by simp [op])
      exact ⟨e, List.mem_append_left _ mem, ends⟩
    | none =>
      obtain ⟨e, rfl, ends⟩ := mv.ends_of_terminated op term
      exact ⟨e, by simp, ends⟩

/-- A status that an event brings about stays, unless it is that of a queued request. -/
lemma Moves.status_of_event {st : RequestStatus} (mvs : Moves c es d) (ch : Coherent c)
    (mem : e ∈ es) (brings : ∀ {x y}, Move x (some e) y → Coherent x → y.status? i = some st)
    (ne : st ≠ .queued) : d.status? i = some st := by
  obtain ⟨before, after, rfl⟩ := List.append_of_mem mem
  obtain ⟨x, y, mvs, mv, rest⟩ := mvs.split
  have chx := mvs.coherent ch
  exact (rest.later (mv.coherent chx)).status (brings mv chx) ne

/-- A request that was handed over is sent after any moves. -/
lemma Moves.sent_of_hands (mvs : Moves c es d) (ch : Coherent c) (mem : e ∈ es)
    (hands : e.hands i = true) : d.status? i = some .sent :=
  mvs.status_of_event ch mem (fun mv chx => mv.sent_of_hands chx hands) nofun

/-- A request that was cancelled is cancelled after any moves. -/
lemma Moves.cancelled_of_cancels (mvs : Moves c es d) (ch : Coherent c) (mem : e ∈ es)
    (cancels : e.cancels i = true) : d.status? i = some .cancelled :=
  mvs.status_of_event ch mem (fun mv _ => mv.cancelled_of_cancels cancels) nofun

/-- A request is cancelled if an event cancelled it. -/
lemma Moves.cancelled_iff (mvs : Moves .new es c) :
    c.status? i = some .cancelled ↔ ∃ e ∈ es, e.cancels i = true := by
  refine ⟨fun hs => ?_, fun ⟨e, mem, cancels⟩ => mvs.cancelled_of_cancels .new mem cancels⟩
  induction mvs with
  | refl => cases hs
  | tail mvs mv ih =>
    rcases mv.status_cases (mvs.coherent .new) hs with same | turning
    · obtain ⟨e, mem, cancels⟩ := ih same
      exact ⟨e, List.mem_append_left _ mem, cancels⟩
    · cases turning with
      | @cancelled e eq cancels => exact ⟨e, by simp [eq], cancels⟩

/-- The request came after the end of the session. -/
def Late (es : List Event) (i : Nat) : Prop :=
  ∃ before operation after, es = before ++ .submitted i operation :: after ∧
    ∃ e ∈ before, e.ends = true

/-- A request that came after the end did so whatever follows. -/
lemma Late.append {fs : List Event} : Late es i → Late (es ++ fs) i := by
  rintro ⟨before, operation, after, rfl, ended⟩
  exact ⟨before, operation, after ++ fs, by simp, ended⟩

/-- A request is sent if it was handed over or came after the end. -/
lemma Moves.sent_iff (mvs : Moves .new es c) :
    c.status? i = some .sent ↔ (∃ e ∈ es, e.hands i = true) ∨ Late es i := by
  constructor
  · intro hs
    induction mvs with
    | refl => cases hs
    | tail mvs mv ih =>
      rcases mv.status_cases (mvs.coherent .new) hs with same | turning
      · rcases ih same with ⟨e, mem, hands⟩ | late
        · exact .inl ⟨e, List.mem_append_left _ mem, hands⟩
        · exact .inr late.append
      · cases turning with
        | @handed e eq hands => exact .inl ⟨e, by simp [eq], hands⟩
        | late eq term =>
          cases eq
          exact .inr ⟨_, _, [], rfl, mvs.terminated_iff.mp term⟩
  · rintro (⟨e, mem, hands⟩ | ⟨before, operation, after, rfl, ended⟩)
    · exact mvs.sent_of_hands .new mem hands
    · obtain ⟨x, y, mvs, mv, rest⟩ := mvs.split
      have sent := mv.sent_of_submitted (mvs.terminated_iff.mpr ended)
      exact (rest.later (mv.coherent (mvs.coherent .new))).status sent nofun

/-! ## Submissions -/

/-- A new request is submitted with the next index, and nothing else makes one. -/
lemma Move.submission_cases {f : Option Event} (mv : Move c f d) :
    (∃ operation, f = some (.submitted c.requests.size operation) ∧
      d.requests.size = c.requests.size + 1) ∨
    (f.bind Event.submission? = none ∧ d.requests.size = c.requests.size) := by
  cases mv with
  | accept => exact .inl ⟨_, rfl, size_requests_push⟩
  | refuse => exact .inl ⟨_, rfl, size_requests_push⟩
  | skip => exact .inr ⟨rfl, size_requests_update⟩
  | send => exact .inr ⟨rfl, size_requests_update⟩
  | reject => exact .inr ⟨rfl, by simp [resolve_mark]⟩
  | collapse => exact .inr ⟨rfl, by simp [resolve_mark]⟩
  | deliver => exact .inr ⟨rfl, size_requests_update⟩
  | mismatch => exact .inr ⟨rfl, size_requests_failAll _ _⟩
  | pass => exact .inr ⟨rfl, rfl⟩
  | terminate =>
    refine .inr ⟨rfl, ?_⟩
    rcases terminate_cases (c := c) _ with ⟨_, eq⟩ | ⟨_, eq⟩ <;> rw [eq]
    exact size_requests_failAll _ _
  | cancel => exact .inr ⟨rfl, aside_cancel.size⟩
  | forget => exact .inr ⟨rfl, aside_forget.size⟩
  | take => exact .inr ⟨rfl, aside_take.size⟩

/-- The requests are numbered in the order of submission. -/
lemma Moves.submissions (mvs : Moves .new es c) :
    (es.filterMap Event.submission?).map Node.messageId? =
      (List.range c.requests.size).map fun i => some (messageId i) := by
  induction mvs with
  | refl => rfl
  | @tail es c f d mvs mv ih =>
    rw [List.filterMap_append, List.map_append, ih]
    rcases mv.submission_cases with ⟨operation, rfl, size⟩ | ⟨other, size⟩
    · simp [size, List.range_succ, Event.submission?]
    · cases f with
      | none => simp [size]
      | some e => simp [size, show e.submission? = none from other]

/-- The requests are those that were submitted. -/
lemma Moves.lt_size_iff (mvs : Moves .new es c) :
    i < c.requests.size ↔ ∃ operation, .submitted i operation ∈ es := by
  have mem : some (messageId i) ∈ (es.filterMap Event.submission?).map Node.messageId? ↔
      i < c.requests.size := by
    simp [mvs.submissions]
  rw [← mem]
  constructor
  · intro mem
    obtain ⟨rpc, memr, num⟩ := List.mem_map.mp mem
    obtain ⟨e, seen, sub⟩ := List.mem_filterMap.mp memr
    cases e with
    | submitted j operation =>
      cases sub
      rw [messageId?_rpc, Option.some.injEq, messageId_inj] at num
      exact ⟨operation, num ▸ seen⟩
    | _ => cases sub
  · rintro ⟨operation, mem⟩
    exact List.mem_map.mpr
      ⟨_, List.mem_filterMap.mpr ⟨_, mem, rfl⟩, messageId?_rpc _ _⟩

end

end Netconf.Correlator
