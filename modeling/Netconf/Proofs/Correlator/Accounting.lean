import Mathlib.Logic.ExistsUnique
import Netconf.Proofs.Correlator.Answer
import Netconf.Proofs.Correlator.History
import Netconf.Proofs.Correlator.Trace

/-!
# Keeping account of requests

No request is lost: as long as it is not cancelled, it is in the queue, in flight or answered, and
only in one of these places. The queue is never stuck, since it is empty whenever nothing is in
flight. The main result is `History.run_accounted`, which says this of all histories.
-/

namespace Netconf

/-- Whether a request is neither cancelled nor answered. -/
def Request.isOpen (r : Request) : Bool :=
  r.status != .cancelled && match r.answer with
    | .given _ => false
    | .due | .withheld => true

/-- Where a request can be. -/
inductive Place where
  | queue
  | flight
  | done (result : Except Error Node)

namespace Correlator

/-- A request is in a place. -/
inductive Holds (c : Correlator) (i : Nat) : Place → Prop where
  | queue {w} : w ∈ c.queue → w.index = i → Holds c i .queue
  | flight : c.inFlight = some i → Holds c i .flight
  | done {result} : c.answer? i = some (.given result) → Holds c i (.done result)

section

variable {c : Correlator} {i : Nat}

/-- A request that waits, or flies, is not answered yet. -/
lemma Coherent.not_done (ch : Coherent c) (mem : i ∈ c.outstanding) (result : Except Error Node) :
    ¬c.Holds i (.done result) := by
  intro held
  cases held with
  | done given =>
    rw [ch.answer?_outstanding mem] at given
    cases given

/-- A request is in one place at most. -/
lemma Coherent.place_unique (ch : Coherent c) {p q : Place} (atp : c.Holds i p)
    (atq : c.Holds i q) : p = q := by
  have apart (fl : c.inFlight = some i) {w} (mem : w ∈ c.queue) (eq : w.index = i) : False := by
    have lt := (List.pairwise_append.mp ch.sorted).2.2 i (by simp [fl]) w.index
      (List.mem_map.mpr ⟨w, mem, rfl⟩)
    omega
  cases atp with
  | queue mem eq =>
    cases atq with
    | queue => rfl
    | flight fl => exact (apart fl mem eq).elim
    | done given =>
      exact absurd (.done given) (ch.not_done (mem_outstanding.mpr (.inr ⟨_, mem, eq⟩)) _)
  | flight fl =>
    cases atq with
    | queue mem eq => exact (apart fl mem eq).elim
    | flight => rfl
    | done given => exact absurd (.done given) (ch.not_done (mem_outstanding.mpr (.inl fl)) _)
  | done given =>
    cases atq with
    | queue mem eq =>
      exact absurd (.done given) (ch.not_done (mem_outstanding.mpr (.inr ⟨_, mem, eq⟩)) _)
    | flight fl => exact absurd (.done given) (ch.not_done (mem_outstanding.mpr (.inl fl)) _)
    | done given' =>
      rw [given] at given'
      cases given'
      rfl

/-- A request that was not cancelled is in a place. -/
lemma Coherent.exists_place (ch : Coherent c) (lt : i < c.requests.size)
    (alive : c.status? i ≠ some .cancelled) : ∃ p, c.Holds i p := by
  have hr := Array.getElem?_eq_getElem lt
  cases a : c.requests[i].answer with
  | due =>
    rcases mem_outstanding.mp (ch.due hr a) with fl | ⟨w, mem, eq⟩
    · exact ⟨_, .flight fl⟩
    · exact ⟨_, .queue mem eq⟩
  | given result => exact ⟨_, .done (answer?_eq_some.mpr ⟨_, hr, a⟩)⟩
  | withheld => exact absurd (status?_eq_some.mpr ⟨_, hr, ch.withheld hr a⟩) alive

/-! ## Counting -/

/-- What is counted in an array is counted over its indices. -/
lemma countP_range {α : Type} (p : α → Bool) (xs : List α) :
    xs.countP p = (List.range xs.length).countP fun i => xs[i]?.any p := by
  induction xs with
  | nil => rfl
  | cons x xs ih =>
    rw [List.length_cons, List.range_succ_eq_map, List.countP_cons, List.countP_cons,
      List.countP_map, ih]
    rfl

/-- Whether a request was cancelled. -/
def isAlive (c : Correlator) (i : Nat) : Bool :=
  c.status? i != some .cancelled

/-- The pending requests are the outstanding ones that were not cancelled. -/
lemma Coherent.pending_eq (ch : Coherent c) : c.pending = c.outstanding.countP c.isAlive := by
  have waits {w} (mem : w ∈ c.queue) : c.isQueued w.index = c.isAlive w.index := by
    obtain ⟨r, hr, unsent, _⟩ := ch.waiting mem
    simp only [isQueued, isAlive, status?, hr]
    cases st : r.status with
    | queued => simp [st]
    | sent => exact absurd st unsent
    | cancelled => simp [st]
  have flies {i} (fl : c.inFlight = some i) : c.isAlive i = true := by
    obtain ⟨r, hr, sent, _⟩ := ch.inFlight fl
    simp [isAlive, status?, hr, sent]
  rw [pending, outstanding, List.countP_append, List.countP_map, ← List.countP_eq_length_filter,
    Nat.add_comm]
  congr 1
  · cases fl : c.inFlight with
    | none => rfl
    | some i => simp [flies fl]
  · apply List.countP_congr
    intro w mem
    simp [waits mem]

/-- An open request is an outstanding one that was not cancelled. -/
lemma Coherent.isOpen_iff (ch : Coherent c) :
    (c.requests[i]?.any Request.isOpen) = true ↔ i ∈ c.outstanding ∧ c.isAlive i = true := by
  cases hr : c.requests[i]? with
  | none =>
    simp only [Option.any_none, Bool.false_eq_true, false_iff, not_and]
    intro mem
    obtain ⟨r, hr', _⟩ := ch.outstanding_due mem
    simp [hr] at hr'
  | some r =>
    have alive : c.isAlive i = true ↔ r.status ≠ .cancelled := by
      simp [isAlive, status?, hr]
    rw [Option.any_some, alive]
    constructor
    · intro op
      simp only [Request.isOpen, Bool.and_eq_true, bne_iff_ne] at op
      refine ⟨?_, op.1⟩
      cases a : r.answer with
      | due => exact ch.due hr a
      | given _ => simp [a] at op
      | withheld => exact absurd (ch.withheld hr a) op.1
    · rintro ⟨mem, live⟩
      obtain ⟨s, hs, due⟩ := ch.outstanding_due mem
      rw [hr] at hs
      cases hs
      simp [Request.isOpen, live, due]

/-- No request is outstanding twice. -/
lemma Coherent.nodup (ch : Coherent c) : c.outstanding.Nodup :=
  ch.sorted.imp Nat.ne_of_lt

/-- The pending requests are the open ones. -/
lemma Coherent.pending_eq_open (ch : Coherent c) :
    c.pending = c.requests.toList.countP Request.isOpen := by
  rw [ch.pending_eq, countP_range Request.isOpen, List.countP_eq_length_filter,
    List.countP_eq_length_filter]
  -- Both sides count the members of a list without repetition, and these are the same.
  apply List.Perm.length_eq
  rw [List.perm_ext_iff_of_nodup (ch.nodup.filter _) (List.nodup_range.filter _)]
  intro i
  simp only [List.mem_filter, List.mem_range, Array.getElem?_toList, Array.length_toList,
    ch.isOpen_iff]
  exact ⟨fun h => ⟨ch.outstanding_lt h.1, h⟩, fun h => h.2⟩

end

/-! ## Progress -/

section

variable {τ : Type} (transmit : Node → τ → Except Error Unit × τ)

/-- No request waits without another being in flight. -/
def Settled (c : Correlator) : Prop :=
  c.inFlight = none → c.queue = []

/-- Advancing stops only with a request in flight or an empty queue. -/
lemma advance_settled (c : Correlator) (t : τ) (ws : List Waiting) :
    (c.advance transmit t ws).1.Settled := by
  induction ws generalizing c t with
  | nil => exact fun _ => rfl
  | cons w rest ih =>
    unfold advance
    split
    case isFalse => exact ih _ _
    case isTrue =>
      dsimp only
      split
      · exact nofun
      · split
        case isTrue => exact fun _ => rfl
        case isFalse => exact ih _ _

/-- With nothing in flight, the queue is handed over. -/
lemma pump_settled {c : Correlator} (ch : Coherent c) (t : τ) :
    (c.pump transmit t).1.Settled := by
  unfold pump
  split
  case isTrue => exact advance_settled transmit c t c.queue
  case isFalse busy =>
    intro (fl : c.inFlight = none)
    show c.queue = []
    -- Only the end of the session stops the queue now, and then nothing waits.
    have term : c.terminated.isSome := by
      cases term : c.terminated with
      | none => simp [fl, term] at busy
      | some cause => rfl
    have out := ch.ended term
    simpa [outstanding, fl] using out

/-- A settled correlator stays so when something happens aside from the queue. -/
lemma Aside.settled {c d : Correlator} (as : c.Aside d) (set : c.Settled) : d.Settled := by
  intro fl
  rw [as.queue]
  exact set (as.inFlight ▸ fl)

end

end Correlator

namespace History

variable {τ : Type} (transmit : Node → τ → Except Error Unit × τ)

/-- No action leaves a request waiting without another in flight. -/
lemma act_settled {h : History τ} (ch : h.correlator.Coherent) (set : h.correlator.Settled)
    (action : Action) : (h.act transmit action).correlator.Settled := by
  cases action with
  | submit operation =>
    rw [correlator_act_submit]
    cases term : h.correlator.terminated with
    | some cause =>
      rw [Correlator.submit_of_terminated _ _ _ term]
      exact set
    | none =>
      rw [Correlator.submit_of_open _ _ _ term]
      exact Correlator.pump_settled transmit (ch.enqueue term operation) _
  | cancel => exact Correlator.aside_cancel.settled set
  | forget => exact Correlator.aside_forget.settled set
  | take => exact Correlator.aside_take.settled set
  | reply message =>
    rw [correlator_act_reply]
    cases h.correlator.reception message with
    | unsolicited other =>
      rw [Correlator.onReply_of_unsolicited _ _ other]
      exact set
    | expected kind fl num =>
      rw [Correlator.onReply_of_match _ _ kind fl num]
      exact Correlator.pump_settled transmit (ch.settle_inFlight fl _) _
    | unexpected kind fl num =>
      rw [Correlator.onReply_of_mismatch _ _ kind fl num]
      exact fun _ => rfl
  | terminate cause =>
    show (h.correlator.terminate cause).Settled
    rcases Correlator.terminate_cases (c := h.correlator) cause with ⟨_, eq⟩ | ⟨_, eq⟩ <;> rw [eq]
    · exact fun _ => rfl
    · exact set

/-- No actions leave a request waiting without another in flight. -/
lemma run_settled {h : History τ} (ch : h.correlator.Coherent) (set : h.correlator.Settled)
    (actions : List Action) : (h.run transmit actions).correlator.Settled := by
  induction actions generalizing h with
  | nil => exact set
  | cons action rest ih =>
    obtain ⟨es, _, mvs⟩ := h.act_moves transmit action
    exact ih (mvs.coherent ch) (act_settled transmit ch set action)

/-- The account that a history gives of its requests. -/
structure Accounted (h : History τ) : Prop where
  /-- Every request that was submitted and not cancelled is in exactly one place. -/
  placed {i operation} : .submitted i operation ∈ h.trace →
    (∀ x ∈ h.trace, x.cancels i = false) → ∃! p, h.correlator.Holds i p
  /-- It is there once. -/
  once : h.correlator.outstanding.Nodup
  /-- The answer to a request is decided once. -/
  answered {i result} (more : List Action) : h.correlator.Holds i (.done result) →
    (h.run transmit more).correlator.Holds i (.done result)
  /-- No request waits without another being in flight. -/
  moving : h.correlator.inFlight = none → h.correlator.queue = []
  /-- After the end of the session no request waits or is in flight. -/
  ended : h.correlator.terminated.isSome →
    h.correlator.queue = [] ∧ h.correlator.inFlight = none
  /-- The first cause of the end stays. -/
  first {cause} (more : List Action) : h.correlator.terminated = some cause →
    (h.run transmit more).correlator.terminated = some cause
  /-- The pending requests are those neither cancelled nor answered. -/
  pending : h.correlator.pending = h.correlator.requests.toList.countP Request.isOpen
  /-- The requests are those that were submitted. -/
  complete {i} : i < h.correlator.requests.size ↔ ∃ operation, .submitted i operation ∈ h.trace
  /-- The cancelled ones are those that an event cancelled. -/
  cancelled {i} :
    h.correlator.status? i = some .cancelled ↔ ∃ x ∈ h.trace, x.cancels i = true
  /-- Only cancelled requests are left without an answer. -/
  withheld {i} : h.correlator.answer? i = some .withheld → ∃ x ∈ h.trace, x.cancels i = true
  /-- No submitter is told that the connection is closed, unless that is the answer. -/
  told {i} : h.correlator.poll i = some (.resolved (.error .connectionClosed)) →
    h.correlator.Holds i (.done (.error .connectionClosed))

/-- All histories account for all their requests. -/
theorem run_accounted (t : τ) (actions : List Action) :
    Accounted transmit ((start t).run transmit actions) := by
  have mvs := start_run_moves transmit t actions
  have ch := mvs.coherent .new
  refine
    { placed := ?_
      once := ch.nodup
      answered := ?_
      moving := run_settled transmit .new (fun _ => rfl) actions
      ended := ?_
      first := ?_
      pending := ch.pending_eq_open
      complete := mvs.lt_size_iff
      cancelled := mvs.cancelled_iff
      withheld := ?_
      told := ?_ }
  · intro i operation seen kept
    -- A request has no place only when it is cancelled, and this one is not.
    have alive : ((start t).run transmit actions).correlator.status? i ≠ some .cancelled := by
      intro cancelled
      obtain ⟨x, mem, cancels⟩ := mvs.cancelled_iff.mp cancelled
      simp [kept x mem] at cancels
    obtain ⟨p, held⟩ := ch.exists_place (mvs.lt_size_iff.mpr ⟨operation, seen⟩) alive
    exact ⟨p, held, fun q other => ch.place_unique other held⟩
  · intro i result more held
    obtain ⟨es, _, mvs'⟩ := run_moves transmit ((start t).run transmit actions) more
    cases held with
    | done given => exact .done ((mvs'.later ch).answer given nofun)
  · intro term
    have out := ch.ended term
    simpa [Correlator.outstanding, and_comm] using out
  · intro cause more term
    obtain ⟨es, _, mvs'⟩ := run_moves transmit ((start t).run transmit actions) more
    exact mvs'.terminated ch term
  · intro i wh
    obtain ⟨r, hr, eq⟩ := Correlator.answer?_eq_some.mp wh
    exact mvs.cancelled_iff.mp (Correlator.status?_eq_some.mpr ⟨r, hr, ch.withheld hr eq⟩)
  · intro i closed
    obtain ⟨r, hr, _, dec⟩ := ch.poll_iff.mp closed
    cases dec with
    | given _ eq => exact .done (Correlator.answer?_eq_some.mpr ⟨r, hr, eq⟩)

end History

end Netconf
