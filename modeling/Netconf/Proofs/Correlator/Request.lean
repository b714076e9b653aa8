import Mathlib.Tactic.Lemma
import Netconf.Correlator
import Std.Data.String.ToNat

/-!
# Requests of a correlator

What the operations of a correlator do to single requests. A request is `outstanding` as long as it
waits for its turn or for its reply. Over time a request changes in one direction only, which is
said by `Request.Later`: it leaves the queue once, and its answer is decided once.
-/

namespace Netconf

namespace Request

/-- What time may do to a request: its status changes only while it is queued, and its answer only
while it is due. -/
structure Later (r s : Request) : Prop where
  status : r.status ≠ .queued → s.status = r.status
  answer : r.answer ≠ .due → s.answer = r.answer

/-- A request goes on in its one direction when nothing happens to it. -/
lemma Later.refl (r : Request) : r.Later r :=
  ⟨fun _ => rfl, fun _ => rfl⟩

/-- A request that goes on twice in its one direction goes on in it. -/
lemma Later.trans {r s u : Request} (rs : r.Later s) (su : s.Later u) : r.Later u := by
  refine ⟨fun h => ?_, fun h => ?_⟩
  · have e := rs.status h
    rw [← e]
    exact su.status (by rwa [e])
  · have e := rs.answer h
    rw [← e]
    exact su.answer (by rwa [e])

/-- A change that leaves a request where it is: in the queue, in flight, or done with. -/
structure Stays (r s : Request) : Prop where
  answer : s.answer = r.answer
  sent : s.status = .sent ↔ r.status = .sent
  cancelled : r.status = .cancelled → s.status = .cancelled

/-- A request stays where it is when nothing happens to it. -/
lemma Stays.refl (r : Request) : r.Stays r :=
  ⟨rfl, .rfl, id⟩

/-- The result of a request is decided: it was cancelled, or it was not and has got its answer. -/
inductive Decided (r : Request) : Except Error Node → Prop where
  | cancelled : r.status = .cancelled → Decided r (.error .cancelled)
  | given {result} : r.status ≠ .cancelled → r.answer = .given result → Decided r result

/-- Once a request is no longer queued, its result stays decided. -/
lemma Decided.later {r s : Request} {result : Except Error Node} (dec : r.Decided result)
    (later : r.Later s) (st : r.status ≠ .queued) : s.Decided result := by
  cases dec with
  | cancelled eq => exact .cancelled ((later.status st).trans eq)
  | given alive eq =>
    refine .given (later.status st ▸ alive) ((later.answer ?_).trans eq)
    simp [eq]

end Request

namespace Correlator

/-- The requests that wait for their turn or for their reply, in the order of submission. -/
def outstanding (c : Correlator) : List Nat :=
  c.inFlight.toList ++ c.queue.map (·.index)

/-- The status of a request. -/
def status? (c : Correlator) (i : Nat) : Option RequestStatus :=
  c.requests[i]?.map (·.status)

/-- The answer to a request. -/
def answer? (c : Correlator) (i : Nat) : Option Answer :=
  c.requests[i]?.map (·.answer)

/-- Adds a request, which gets the next index. -/
def push (c : Correlator) (r : Request) : Correlator :=
  { c with requests := c.requests.push r }

/-- Enters a new request for an operation at the end of the queue. -/
def enqueue (c : Correlator) (operation : Node) : Correlator :=
  { c.push ⟨.queued, .due, true⟩ with
    queue := c.queue ++ [⟨c.requests.size, .rpc (messageId c.requests.size) operation⟩] }

/-- An operation that enters the queue adds a request that is queued and due. -/
lemma requests_enqueue (c : Correlator) (operation : Node) :
    (c.enqueue operation).requests = (c.push ⟨.queued, .due, true⟩).requests := rfl

/-- Requests with the same number are the same. -/
@[simp]
lemma messageId_inj {i j : Nat} : messageId i = messageId j ↔ i = j := by
  simp [messageId, toString]

/-- The envelope of a request shows its number. -/
@[simp]
lemma messageId?_rpc (id : String) (operation : Node) :
    (Node.rpc id operation).messageId? = some id := by
  simp [Node.rpc, Node.messageId?, Node.attribute?, Node.attributes, QName.unqualified]

section

variable {c : Correlator} {i j : Nat} {f : Request → Request}

/-- A request is found after one was added if it was before, or is the one added. -/
lemma getElem?_push {r : Request} :
    (c.push r).requests[j]? = if j = c.requests.size then some r else c.requests[j]? := by
  simp [push, Array.getElem?_push]

/-- The request that was added is found with the next index. -/
lemma getElem?_push_size {r : Request} : (c.push r).requests[c.requests.size]? = some r := by
  rw [getElem?_push, if_pos rfl]

/-- A request that was found before is found after another was added. -/
lemma getElem?_push_of_some {r s : Request} (hs : c.requests[j]? = some s) :
    (c.push r).requests[j]? = some s := by
  have lt := (Array.getElem?_eq_some_iff.mp hs).1
  rw [getElem?_push, if_neg (by omega), hs]

/-- What is found after a request was added is that one, or was found before. -/
lemma of_getElem?_push {r s : Request} (hs : (c.push r).requests[j]? = some s) :
    j = c.requests.size ∧ s = r ∨ c.requests[j]? = some s := by
  rw [getElem?_push] at hs
  split at hs
  case isTrue eq => exact .inl ⟨eq, (Option.some.inj hs).symm⟩
  case isFalse => exact .inr hs

/-- There is one more request after one was added. -/
@[simp]
lemma size_requests_push {r : Request} :
    (c.push r).requests.size = c.requests.size + 1 := by
  simp [push]

/-- A change of a request leaves the queue. -/
@[simp]
lemma queue_update : (c.update i f).queue = c.queue := rfl

/-- A change of a request leaves the one in flight. -/
@[simp]
lemma inFlight_update : (c.update i f).inFlight = c.inFlight := rfl

/-- There are as many requests after a change of one. -/
@[simp]
lemma size_requests_update : (c.update i f).requests.size = c.requests.size := by
  simp [update]

/-- A change of a request is found where the request is, and nowhere else. -/
lemma getElem?_update :
    (c.update i f).requests[j]? = if i = j then c.requests[j]?.map f else c.requests[j]? := by
  simp [update, Array.getElem?_modify]

/-- What is found after a change is the request changed, or another as it was. -/
lemma of_getElem?_update {s : Request} (hs : (c.update i f).requests[j]? = some s) :
    ∃ r, c.requests[j]? = some r ∧ (i = j ∧ s = f r ∨ i ≠ j ∧ s = r) := by
  rw [getElem?_update] at hs
  split at hs
  case isTrue eq =>
    obtain ⟨r, hr, rfl⟩ := Option.map_eq_some_iff.mp hs
    exact ⟨r, hr, .inl ⟨eq, rfl⟩⟩
  case isFalse ne => exact ⟨s, hs, .inr ⟨ne, rfl⟩⟩

/-- A request that was found before is found after a change, changed if it is the one. -/
lemma getElem?_update_of_some {r : Request} (hr : c.requests[j]? = some r) :
    (c.update i f).requests[j]? = some (if i = j then f r else r) := by
  rw [getElem?_update]
  split <;> simp [hr]

/-- What is found of a request after a change was found before, or comes from the change. -/
lemma of_map_update {α : Type} {g : Request → α} {a : α}
    (h : (c.update i f).requests[j]?.map g = some a) :
    c.requests[j]?.map g = some a ∨ i = j ∧ ∃ r, c.requests[j]? = some r ∧ g (f r) = a := by
  obtain ⟨s, hs, rfl⟩ := Option.map_eq_some_iff.mp h
  obtain ⟨r, hr, ⟨rfl, rfl⟩ | ⟨_, rfl⟩⟩ := of_getElem?_update hs
  · exact .inr ⟨rfl, r, hr, rfl⟩
  · exact .inl (Option.map_eq_some_iff.mpr ⟨s, hr, rfl⟩)

/-- What a change leaves alone was found before. -/
lemma of_map_update_same {α : Type} {g : Request → α} {a : α}
    (h : (c.update i f).requests[j]?.map g = some a) (same : ∀ r, g (f r) = g r) :
    c.requests[j]?.map g = some a := by
  rcases of_map_update h with old | ⟨_, r, hr, eq⟩
  · exact old
  · exact Option.map_eq_some_iff.mpr ⟨r, hr, same r ▸ eq⟩

/-- What is told of a request after one was added was so before, or is told of the one added. -/
lemma of_map_push {α : Type} {g : Request → α} {a : α} {r : Request}
    (h : (c.push r).requests[j]?.map g = some a) :
    c.requests[j]?.map g = some a ∨ j = c.requests.size ∧ g r = a := by
  obtain ⟨s, hs, rfl⟩ := Option.map_eq_some_iff.mp h
  rcases of_getElem?_push hs with ⟨new, rfl⟩ | old
  · exact .inr ⟨new, rfl⟩
  · exact .inl (Option.map_eq_some_iff.mpr ⟨s, old, rfl⟩)

/-- Two changes of a request one after the other are one change. -/
lemma update_update {g : Request → Request} :
    (c.update i f).update i g = c.update i fun r => g (f r) := by
  have e : (c.requests.modify i f).modify i g = c.requests.modify i fun r => g (f r) := by
    apply Array.ext_getElem?
    intro j
    simp only [Array.getElem?_modify]
    split
    · cases c.requests[j]? <;> rfl
    · rfl
  simp only [update, e]

/-- A status is that of a request with the index. -/
lemma status?_eq_some {st : RequestStatus} :
    c.status? i = some st ↔ ∃ r, c.requests[i]? = some r ∧ r.status = st :=
  Option.map_eq_some_iff

/-- An answer is that of a request with the index. -/
lemma answer?_eq_some {a : Answer} :
    c.answer? i = some a ↔ ∃ r, c.requests[i]? = some r ∧ r.answer = a :=
  Option.map_eq_some_iff

/-- A request is queued just when that is its status. -/
lemma isQueued_iff : c.isQueued i = true ↔ c.status? i = some .queued := by
  simp [isQueued, status?, Option.any_eq_true]

/-- A request is not queued just when it has another status or is not there. -/
lemma isQueued_eq_false_iff : c.isQueued i = false ↔ c.status? i ≠ some .queued := by
  rw [ne_eq, ← isQueued_iff, Bool.not_eq_true]

/-- Later all requests are still there, and each has gone on in its one direction. -/
def Later (c d : Correlator) : Prop :=
  ∀ (i : Nat) (r : Request), c.requests[i]? = some r → ∃ s, d.requests[i]? = some s ∧ r.Later s

/-- A correlator goes on in the one direction when nothing happens to it. -/
lemma Later.refl (c : Correlator) : c.Later c :=
  fun _ r hr => ⟨r, hr, .refl r⟩

/-- A correlator that goes on twice in the one direction goes on in it. -/
lemma Later.trans {c d e : Correlator} (cd : c.Later d) (de : d.Later e) : c.Later e := by
  intro i r hr
  obtain ⟨s, hs, rs⟩ := cd i r hr
  obtain ⟨u, hu, su⟩ := de i s hs
  exact ⟨u, hu, rs.trans su⟩

/-- The status of a request that is not queued is later the same. -/
lemma Later.status {d : Correlator} {st : RequestStatus} (cd : c.Later d)
    (hs : c.status? i = some st) (ne : st ≠ .queued) : d.status? i = some st := by
  obtain ⟨r, hr, rfl⟩ := status?_eq_some.mp hs
  obtain ⟨s, hs, rs⟩ := cd i r hr
  exact status?_eq_some.mpr ⟨s, hs, rs.status ne⟩

/-- A request that is still queued was so before. -/
lemma Later.queued {d : Correlator} {r : Request} (cd : c.Later d)
    (hs : d.status? i = some .queued) (hr : c.requests[i]? = some r) : r.status = .queued := by
  apply Decidable.byContradiction
  intro moved
  have stays := cd.status (status?_eq_some.mpr ⟨r, hr, rfl⟩) moved
  rw [hs, Option.some.injEq] at stays
  exact moved stays.symm

/-- An answer that is not due is later the same. -/
lemma Later.answer {d : Correlator} {a : Answer} (cd : c.Later d)
    (ha : c.answer? i = some a) (ne : a ≠ .due) : d.answer? i = some a := by
  obtain ⟨r, hr, rfl⟩ := answer?_eq_some.mp ha
  obtain ⟨s, hs, rs⟩ := cd i r hr
  exact answer?_eq_some.mpr ⟨s, hs, rs.answer ne⟩

/-- The two differ in what their requests are like, and in nothing else. -/
structure Aside (c d : Correlator) : Prop where
  queue : d.queue = c.queue
  inFlight : d.inFlight = c.inFlight
  terminated : d.terminated = c.terminated
  size : d.requests.size = c.requests.size

/-- A correlator differs from itself in nothing. -/
lemma Aside.refl (c : Correlator) : c.Aside c :=
  ⟨rfl, rfl, rfl, rfl⟩

/-- Correlators that differ only in what their requests are like do so one after the other. -/
lemma Aside.trans {c d e : Correlator} (cd : c.Aside d) (de : d.Aside e) : c.Aside e :=
  ⟨de.queue.trans cd.queue, de.inFlight.trans cd.inFlight, de.terminated.trans cd.terminated,
    de.size.trans cd.size⟩

/-- A change of a request changes only what requests are like. -/
lemma aside_update : c.Aside (c.update i f) :=
  ⟨rfl, rfl, rfl, size_requests_update⟩

/-- Requests go on in their one direction when there is one more. -/
lemma later_push {r : Request} : c.Later (c.push r) :=
  fun _ s hs => ⟨s, getElem?_push_of_some hs, .refl s⟩

/-- Requests go on in their one direction when one is changed in it. -/
lemma later_update (ahead : ∀ r, c.requests[i]? = some r → r.Later (f r)) :
    c.Later (c.update i f) := by
  intro j r hr
  refine ⟨_, getElem?_update_of_some hr, ?_⟩
  split
  case isTrue eq => exact ahead r (eq ▸ hr)
  case isFalse => exact .refl r

end

/-! ## Termination -/

/-- Failing some requests gives each of them the error as its answer and leaves the others. -/
lemma getElem?_foldl_resolve (c : Correlator) (result : Except Error Node) (failed : List Nat)
    (j : Nat) :
    (failed.foldl (fun c i => c.resolve i result) c).requests[j]? =
      c.requests[j]?.map fun r => if j ∈ failed then { r with answer := .given result } else r := by
  induction failed generalizing c with
  | nil => simp
  | cons i rest ih =>
    rw [List.foldl_cons, ih, resolve, getElem?_update]
    cases c.requests[j]? with
    | none => simp
    | some r =>
      by_cases e : j = i <;> by_cases m : j ∈ rest <;> simp [e, m, eq_comm (a := i)]

/-- There are as many requests after some got their answer. -/
lemma size_foldl_resolve (c : Correlator) (result : Except Error Node) (failed : List Nat) :
    (failed.foldl (fun c i => c.resolve i result) c).requests.size = c.requests.size := by
  induction failed generalizing c with
  | nil => rfl
  | cons i rest ih => rw [List.foldl_cons, ih, resolve, size_requests_update]

section

variable (c : Correlator) (cause : Cause)

/-- The error that the outstanding requests get at the end of the session. -/
lemma getElem?_failAll (j : Nat) :
    (c.failAll cause).requests[j]? = c.requests[j]?.map fun r =>
      if j ∈ c.outstanding then
        { r with answer := .given (.error (.sessionTerminated cause)) }
      else r :=
  getElem?_foldl_resolve c _ _ j

/-- A request at the end of the session is one from before, failed if it was outstanding. -/
lemma of_getElem?_failAll {j : Nat} {s : Request}
    (hs : (c.failAll cause).requests[j]? = some s) :
    ∃ r, c.requests[j]? = some r ∧ s.status = r.status ∧
      (s.answer = r.answer ∨ s.answer = .given (.error (.sessionTerminated cause))) := by
  rw [getElem?_failAll] at hs
  obtain ⟨r, hr, rfl⟩ := Option.map_eq_some_iff.mp hs
  refine ⟨r, hr, ?_⟩
  split
  case isTrue => exact ⟨rfl, .inr rfl⟩
  case isFalse => exact ⟨rfl, .inl rfl⟩

/-- There are as many requests after the outstanding ones have failed. -/
@[simp]
lemma size_requests_failAll : (c.failAll cause).requests.size = c.requests.size :=
  size_foldl_resolve c _ _

end

/-! ## Operations by cases -/

/-- What a message is to a correlator. -/
inductive Reception (c : Correlator) (message : Node) : Prop where
  | unsolicited :
    message.messageKind ≠ .rpcReply ∨ c.inFlight = none → Reception c message
  /-- It is the reply to the request in flight. -/
  | expected {i} :
    message.messageKind = .rpcReply → c.inFlight = some i →
    message.messageId? = some (messageId i) → Reception c message
  /-- It is a reply with another number, or none. -/
  | unexpected {i} :
    message.messageKind = .rpcReply → c.inFlight = some i →
    message.messageId? ≠ some (messageId i) → Reception c message

/-- Every message is one of these. -/
lemma reception (c : Correlator) (message : Node) : c.Reception message := by
  by_cases kind : message.messageKind = .rpcReply
  · cases fl : c.inFlight with
    | none => exact .unsolicited (.inr fl)
    | some i =>
      by_cases num : message.messageId? = some (messageId i)
      · exact .expected kind fl num
      · exact .unexpected kind fl num
  · exact .unsolicited (.inl kind)

section

variable {τ : Type} (transmit : Node → τ → Except Error Unit × τ) {c : Correlator} {i : Nat}
  {message : Node} (operation : Node) (t : τ)

/-- After the end a request fails when it is submitted. -/
lemma submit_of_terminated {cause : Cause} (term : c.terminated = some cause) :
    c.submit transmit operation t =
      (c.requests.size, c.push ⟨.sent, .given (.error (.sessionTerminated cause)), true⟩, t) := by
  obtain ⟨_, _, _, _⟩ := c
  cases term
  rfl

/-- Before the end a request enters the queue when it is submitted. -/
lemma submit_of_open (term : c.terminated = none) :
    c.submit transmit operation t =
      (c.requests.size, (c.enqueue operation).pump transmit t) := by
  obtain ⟨_, _, _, _⟩ := c
  cases term
  rfl

/-- A message that nothing waits for is passed on. -/
lemma onReply_of_unsolicited (other : message.messageKind ≠ .rpcReply ∨ c.inFlight = none) :
    c.onReply transmit message t = (.ok (.unsolicited message), c, t) := by
  unfold onReply
  split
  case isTrue => rfl
  case isFalse kind =>
    rw [other.resolve_left kind]

/-- The reply to the request in flight is its answer and makes way for the next one. -/
lemma onReply_of_match (kind : message.messageKind = .rpcReply) (fl : c.inFlight = some i)
    (num : message.messageId? = some (messageId i)) :
    c.onReply transmit message t =
      (.ok .delivered, { c.resolve i (.ok message) with inFlight := none }.pump transmit t) := by
  simp only [onReply, kind, fl, num, ne_eq, not_true, if_false, if_true]

/-- A reply with another number ends the session. -/
lemma onReply_of_mismatch (kind : message.messageKind = .rpcReply) (fl : c.inFlight = some i)
    (num : message.messageId? ≠ some (messageId i)) :
    c.onReply transmit message t =
      (.error (.correlation (messageId i) message.messageId?),
        c.failAll (Error.correlation (messageId i) message.messageId?).cause, t) := by
  simp only [onReply, kind, fl, num, ne_eq, not_true, if_false]

/-- Cancelling marks a request that is queued, and does nothing otherwise. -/
lemma cancel_cases :
    c.isQueued i = true ∧ c.cancel i = (true, c.mark i .cancelled) ∨
      c.isQueued i = false ∧ c.cancel i = (false, c) := by
  cases q : c.isQueued i <;> simp [cancel, q]

/-- Taking an answer ends the waiting for it, or changes nothing. -/
lemma take_cases :
    (c.take i).2 = c ∨ (c.take i).2 = c.update i fun r => { r with held := false } := by
  unfold take
  split
  · exact .inr rfl
  · exact .inl rfl

/-- Cancelling changes only what requests are like. -/
lemma aside_cancel : c.Aside (c.cancel i).2 := by
  rcases cancel_cases (c := c) (i := i) with ⟨_, eq⟩ | ⟨_, eq⟩ <;> rw [eq]
  · exact aside_update
  · exact .refl c

/-- Giving a request up changes only what requests are like. -/
lemma aside_forget : c.Aside (c.forget i) :=
  aside_cancel.trans aside_update

/-- Taking an answer changes only what requests are like. -/
lemma aside_take : c.Aside (c.take i).2 := by
  rcases take_cases (c := c) (i := i) with eq | eq <;> rw [eq]
  · exact .refl c
  · exact aside_update

/-- Only the first end of the session counts. -/
lemma terminate_cases (cause : Cause) :
    c.terminated = none ∧ c.terminate cause = c.failAll cause ∨
      c.terminated.isSome ∧ c.terminate cause = c := by
  cases t : c.terminated <;> simp [terminate, t]

end

end Correlator

end Netconf
