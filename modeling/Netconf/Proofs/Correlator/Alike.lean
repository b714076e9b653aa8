import Mathlib.Data.Option.Basic
import Netconf.Proofs.Correlator.Request
import Netconf.Proofs.Tree.Equality

/-!
# Equal messages are treated alike

A correlator looks at the kind and the `message-id` of a message and passes the message on as it is.
So it does not tell equal messages apart unless it has to compare a `message-id` that is ambiguous:
attributes are looked up by local name and the first one counts, while equal messages may have their
attributes in different orders.
-/

namespace Netconf

/-- The two are the same answer, up to equality of the replies. -/
inductive Answer.Alike : Answer → Answer → Prop where
  | refl (a : Answer) : Alike a a
  | reply {a b : Node} : (a == b) = true → Alike (.given (.ok a)) (.given (.ok b))

/-- The two requests got as far, and their answers are alike. -/
structure Request.Alike (r s : Request) : Prop where
  status : s.status = r.status
  held : s.held = r.held
  answer : r.answer.Alike s.answer

/-- A request is like itself. -/
lemma Request.Alike.refl (r : Request) : r.Alike r :=
  ⟨rfl, rfl, .refl _⟩

/-- The two messages go the same way, or fail with the same error. -/
inductive Routing.Alike : Except Error Routing → Except Error Routing → Prop where
  | delivered : Alike (.ok .delivered) (.ok .delivered)
  | unsolicited {a b : Node} :
    (a == b) = true → Alike (.ok (.unsolicited a)) (.ok (.unsolicited b))
  | failed (e : Error) : Alike (.error e) (.error e)

namespace Correlator

/-- The two have the same requests, which differ at most in replies that are equal. -/
structure Alike (c d : Correlator) : Prop where
  queue : d.queue = c.queue
  inFlight : d.inFlight = c.inFlight
  terminated : d.terminated = c.terminated
  requests : ∀ i : Nat, Option.Rel Request.Alike c.requests[i]? d.requests[i]?

section

variable {c d : Correlator} {i : Nat}

/-- A correlator is like itself. -/
lemma Alike.refl (c : Correlator) : c.Alike c where
  queue := rfl
  inFlight := rfl
  terminated := rfl
  requests i := by
    cases c.requests[i]? with
    | none => exact .none
    | some r => exact .some (.refl r)

/-- Correlators that are alike have the same requests outstanding. -/
lemma Alike.outstanding (like : c.Alike d) : d.outstanding = c.outstanding := by
  rw [Correlator.outstanding, Correlator.outstanding, like.queue, like.inFlight]

/-- Correlators that are alike have the same requests queued. -/
lemma Alike.isQueued (like : c.Alike d) : d.isQueued i = c.isQueued i := by
  unfold Correlator.isQueued
  have both := like.requests i
  generalize c.requests[i]? = x, d.requests[i]? = y at both ⊢
  cases both with
  | some same => simp [same.status]
  | none => rfl

/-- Requests that are alike stay so under changes that keep them alike. -/
lemma Alike.map {f g : Request → Request} (like : c.Alike d)
    (keep : ∀ r s, r.Alike s → (f r).Alike (g s)) (i : Nat) :
    Option.Rel Request.Alike (c.requests[i]?.map f) (d.requests[i]?.map g) := by
  have both := like.requests i
  generalize c.requests[i]? = x, d.requests[i]? = y at both ⊢
  cases both with
  | some same => exact .some (keep _ _ same)
  | none => exact .none

/-- Correlators stay alike under changes of a request that keep requests alike. -/
lemma Alike.update {f g : Request → Request} (like : c.Alike d)
    (keep : ∀ r s, r.Alike s → (f r).Alike (g s)) : (c.update i f).Alike (d.update i g) where
  queue := like.queue
  inFlight := like.inFlight
  terminated := like.terminated
  requests j := by
    rw [getElem?_update, getElem?_update]
    split
    · exact like.map keep j
    · exact like.requests j

/-- Correlators stay alike when a request is marked. -/
lemma Alike.mark (like : c.Alike d) (status : RequestStatus) :
    (c.mark i status).Alike (d.mark i status) :=
  like.update fun _ _ same => ⟨rfl, same.held, same.answer⟩

/-- Correlators stay alike when the answer to a request is withheld. -/
lemma Alike.withhold (like : c.Alike d) : (c.withhold i).Alike (d.withhold i) :=
  like.update fun _ _ same => ⟨same.status, same.held, .refl _⟩

/-- Correlators stay alike when a request gets answers that are alike. -/
lemma Alike.resolve {x y : Except Error Node} (like : c.Alike d)
    (results : (Answer.given x).Alike (.given y)) : (c.resolve i x).Alike (d.resolve i y) :=
  like.update fun _ _ same => ⟨same.status, same.held, results⟩

/-- Correlators stay alike when their outstanding requests fail. -/
lemma Alike.failAll (like : c.Alike d) (cause : Cause) :
    (c.failAll cause).Alike (d.failAll cause) where
  queue := rfl
  inFlight := rfl
  terminated := rfl
  requests j := by
    rw [getElem?_failAll, getElem?_failAll, like.outstanding]
    refine like.map (fun r s same => ?_) j
    split
    · exact ⟨same.status, same.held, .refl _⟩
    · exact same

end

section

variable {τ : Type} (transmit : Node → τ → Except Error Unit × τ) {c d : Correlator}

/-- Correlators that are alike go through the queue alike, and their transmitter comes to the same.
-/
lemma Alike.advance (like : c.Alike d) (t : τ) (ws : List Waiting) :
    (c.advance transmit t ws).1.Alike (d.advance transmit t ws).1 ∧
      (d.advance transmit t ws).2 = (c.advance transmit t ws).2 := by
  induction ws generalizing c d t with
  | nil =>
    exact ⟨⟨rfl, like.inFlight, like.terminated, like.requests⟩, rfl⟩
  | cons w rest ih =>
    -- What is handed over depends on which requests are still queued, and these are the same.
    cases q : c.isQueued w.index with
    | false =>
      simp only [Correlator.advance, like.isQueued, q, Bool.false_eq_true, if_false]
      exact ih like.withhold t
    | true =>
      have sent : (c.mark w.index .sent).Alike (d.mark w.index .sent) := like.mark .sent
      cases out : transmit w.rpc t with | mk outcome t' =>
      cases outcome with
      | ok =>
        simp only [Correlator.advance, like.isQueued, q, if_true, out]
        exact ⟨⟨rfl, rfl, sent.terminated, sent.requests⟩, trivial⟩
      | error e =>
        have refused : ((c.mark w.index .sent).resolve w.index (.error e)).Alike
            ((d.mark w.index .sent).resolve w.index (.error e)) := sent.resolve (.refl _)
        cases fatal : e.isFatal with
        | false =>
          simp only [Correlator.advance, like.isQueued, q, if_true, out, fatal,
            Bool.false_eq_true, if_false]
          exact ih refused t'
        | true =>
          simp only [Correlator.advance, like.isQueued, q, if_true, out, fatal]
          refine ⟨Alike.failAll ?_ e.cause, trivial⟩
          exact ⟨rfl, refused.inFlight, refused.terminated, refused.requests⟩

/-- Correlators that are alike hand over what waits alike, and their transmitter comes to the same.
-/
lemma Alike.pump (like : c.Alike d) (t : τ) :
    (c.pump transmit t).1.Alike (d.pump transmit t).1 ∧
      (d.pump transmit t).2 = (c.pump transmit t).2 := by
  unfold Correlator.pump
  rw [like.queue, like.inFlight, like.terminated]
  split
  · exact like.advance transmit t c.queue
  · exact ⟨like, rfl⟩

/-- Two results of taking in a message are alike: the routing, all requests, and the state of the
transmitter. -/
structure TakenAlike (x y : Except Error Routing × Correlator × τ) : Prop where
  routing : Routing.Alike x.1 y.1
  correlator : x.2.1.Alike y.2.1
  transmitter : y.2.2 = x.2.2

/-- Equal messages that show the same `message-id`, if it is looked at, are taken in alike. -/
lemma Alike.onReply {a b : Node} (like : c.Alike d) (eq : (a == b) = true)
    (id : a.messageKind = .rpcReply → c.inFlight ≠ none → b.messageId? = a.messageId?) (t : τ) :
    TakenAlike (c.onReply transmit a t) (d.onReply transmit b t) := by
  have kinds := Node.messageKind_of_beq eq
  cases reception c a with
  | unsolicited other =>
    rw [onReply_of_unsolicited transmit t other,
      onReply_of_unsolicited transmit t (by rwa [kinds, like.inFlight])]
    exact ⟨.unsolicited eq, like, rfl⟩
  | @expected i kind fl num =>
    have ids := id kind (by simp [fl])
    rw [onReply_of_match transmit t kind fl num, onReply_of_match transmit t (kinds.trans kind)
      (like.inFlight.trans fl) (ids.trans num)]
    have answered : (c.resolve i (.ok a)).Alike (d.resolve i (.ok b)) := like.resolve (.reply eq)
    have ready : ({ c.resolve i (.ok a) with inFlight := none } : Correlator).Alike
        { d.resolve i (.ok b) with inFlight := none } :=
      ⟨answered.queue, rfl, answered.terminated, answered.requests⟩
    obtain ⟨correlator, transmitter⟩ := ready.pump transmit t
    exact ⟨.delivered, correlator, transmitter⟩
  | @unexpected i kind fl num =>
    have ids := id kind (by simp [fl])
    rw [onReply_of_mismatch transmit t kind fl num, onReply_of_mismatch transmit t
      (kinds.trans kind) (like.inFlight.trans fl) (by rwa [ids]), ids]
    exact ⟨.failed _, like.failAll _, rfl⟩

end

end Correlator

namespace Node

/-- What can be read of two nodes without looking at attributes is the same, up to equality. -/
structure ReadsAlike (a b : Node) : Prop where
  text : b.text = a.text
  isLeaf : b.isLeaf = a.isLeaf
  child : ∀ l, (a.child? l == b.child? l) = true
  childrenNamed : ∀ l, (a.childrenNamed l == b.childrenNamed l) = true
  kind : b.messageKind = a.messageKind

/-- Equal nodes read alike. -/
lemma readsAlike_of_beq {a b : Node} (eq : (a == b) = true) : a.ReadsAlike b where
  text := (agrees_of_beq eq).text
  isLeaf := (agrees_of_beq eq).isLeaf
  child _ := find?_localName_of_beq (agrees_of_beq eq).children
  childrenNamed _ := filter_localName_of_beq (agrees_of_beq eq).children
  kind := messageKind_of_beq eq

/-- Equal nodes read the same but for their attributes, and an attribute has the same value on all
nodes equal to one exactly if its name is unambiguous there. If `message-id` is, or does not matter,
then equal messages are taken in alike by every correlator. -/
theorem equal_taken_alike {a : Node} (distinct : (a.attributes.map (·.name)).Nodup) :
    (∀ l, (∀ b, (a == b) = true → b.attribute? l = a.attribute? l) ↔ a.Unambiguous l) ∧
    ∀ b, (a == b) = true →
      a.ReadsAlike b ∧
      (a.Unambiguous "message-id" → b.messageId? = a.messageId?) ∧
      ∀ (τ : Type) (transmit : Node → τ → Except Error Unit × τ) (c : Correlator) (t : τ),
        a.messageKind ≠ .rpcReply ∨ c.inFlight = none ∨ a.Unambiguous "message-id" →
          Correlator.TakenAlike (c.onReply transmit a t) (c.onReply transmit b t) := by
  have found {l : String} := attribute?_eq_iff_unambiguous (l := l) distinct
  refine ⟨fun _ => found, fun b eq => ⟨readsAlike_of_beq eq, fun one => ?_, ?_⟩⟩
  · exact found.mpr one b eq
  · intro τ transmit c t which
    refine (Correlator.Alike.refl c).onReply transmit eq (fun kind fl => ?_) t
    rcases which with other | idle | one
    · exact absurd kind other
    · exact absurd idle fl
    · exact found.mpr one b eq

/-- A reply with a user in it, given the attributes of both. -/
def replyWithUser (attributes userAttributes : List Attribute) : Node :=
  .container ⟨baseUri, "rpc-reply"⟩ attributes
    [.container ⟨baseUri, "data"⟩ [] [.leaf ⟨"urn:users", "user"⟩ userAttributes (some "bob")]]

end Node

/-- The correlator after one request was submitted and sent. -/
def Correlator.oneSent : Correlator :=
  (Correlator.new.submit (fun _ t => (.ok (), t)) (.empty ⟨baseUri, "get"⟩) ()).2.1

namespace Node

/-- Two equal replies whose attributes stand in different orders are taken in alike, as their number
is unambiguous. -/
theorem equal_taken_alike_nested :
    let number : Attribute := ⟨.unqualified "message-id", "1"⟩
    let note : Attribute := ⟨⟨"urn:notes", "note"⟩, "first"⟩
    let role : Attribute := ⟨.unqualified "role", "admin"⟩
    let a := replyWithUser [number, note] [note, role]
    let b := replyWithUser [note, number] [role, note]
    (a.attributes.map (·.name)).Nodup ∧ (a == b) = true ∧ a.Unambiguous "message-id" ∧
      a.ReadsAlike b ∧ b.messageId? = some "1" ∧
      Correlator.TakenAlike (Correlator.oneSent.onReply (fun _ t => (.ok (), t)) a ())
        (Correlator.oneSent.onReply (fun _ t => (.ok (), t)) b ()) := by
  intro number note role a b
  have distinct : (a.attributes.map (·.name)).Nodup := by decide
  have eq : (a == b) = true := by decide
  have one : a.Unambiguous "message-id" := by decide
  obtain ⟨reads, id, taken⟩ := (equal_taken_alike distinct).2 b eq
  exact ⟨distinct, eq, one, reads, id one, taken Unit _ _ () (.inr (.inr one))⟩

/-- Of two equal replies that differ in the order of their attributes, one is the reply to the
request in flight and the other ends the session. -/
theorem equal_taken_apart :
    let number : Attribute := ⟨.unqualified "message-id", "1"⟩
    let other : Attribute := ⟨⟨"urn:notes", "message-id"⟩, "7"⟩
    let a := Node.leaf ⟨baseUri, "rpc-reply"⟩ [number, other] none
    let b := Node.leaf ⟨baseUri, "rpc-reply"⟩ [other, number] none
    a.WellShaped ∧ b.WellShaped ∧ (a == b) = true ∧
      a.attribute? "message-id" ≠ b.attribute? "message-id" ∧ a.messageId? ≠ b.messageId? ∧
      (Correlator.oneSent.onReply (fun _ t => (.ok (), t)) a ()).1 = .ok .delivered ∧
      (Correlator.oneSent.onReply (fun _ t => (.ok (), t)) b ()).1 =
        .error (.correlation "1" (some "7")) := by
  intro number other a b
  refine ⟨.leaf ?_, .leaf ?_, ?_, ?_, ?_, rfl, rfl⟩ <;> decide

end Node

end Netconf
