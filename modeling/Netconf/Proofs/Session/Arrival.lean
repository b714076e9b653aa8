import Netconf.Proofs.Session.Course

/-!
# Arrival of payloads

Of a payload that arrives a session makes one of four things: it cannot be read, it answers the
request in flight, it is a reply that does not fit and ends the session, or it is a message for the
application (`Session.TakesIn`). All else that happens leaves alone what the reader and the
application go by (`Course.Apart`).
-/

namespace Netconf

/-- A payload that has arrived, with the request that was in flight then. -/
structure Arrival where
  payload : Bytes
  inFlight : Option Nat

namespace Arrival

/-- The message for the application: any that can be read, but no reply while a request is in
flight. -/
def passed? (a : Arrival) : Option Node :=
  match Node.decode? a.payload with
  | .ok message =>
    if message.messageKind = .rpcReply ∧ a.inFlight.isSome then none else some message
  | .error _ => none

/-- It is a reply that shows another number than the request in flight, or none. -/
inductive Mismatched (a : Arrival) : String → Option String → Prop where
  | intro {message i} :
    Node.decode? a.payload = .ok message → message.messageKind = .rpcReply →
    a.inFlight = some i → message.messageId? ≠ some (Correlator.messageId i) →
    Mismatched a (Correlator.messageId i) message.messageId?

/-- It is no reply that shows another number than the request in flight. -/
def Fits (a : Arrival) : Prop :=
  ∀ expected received, ¬ a.Mismatched expected received

end Arrival

namespace Session

variable {s : Session} {a : Arrival}

/-- What becomes of a session when a payload arrives. -/
structure TakesIn (s : Session) (a : Arrival) (s' : Session) : Prop where
  reader : s'.reader = s.reader
  inbound : s'.inbound.toList = s.inbound.toList ++ a.passed?.toList
  watch : s'.watch = s.watch ∧ a.Fits ∨ ∃ expected received, a.Mismatched expected received ∧
    s'.watch = .ended (.correlation (Error.correlation expected received).message)

/-- A session takes in a payload as it stands with its request in flight. -/
lemma takesIn_receive (s : Session) (payload : Bytes) :
    s.TakesIn ⟨payload, s.correlator.inFlight⟩ (s.receive payload) := by
  rw [receive]
  cases readable : Node.decode? payload with
  | error =>
    have none : Arrival.passed? ⟨payload, s.correlator.inFlight⟩ = none := by
      simp only [Arrival.passed?, readable]
    refine ⟨rfl, ?_, .inl ⟨rfl, ?_⟩⟩
    · rw [none, Option.toList_none, List.append_nil]
    · rintro _ _ ⟨eq, -, -, -⟩
      cases readable.symm.trans eq
  | ok message =>
    -- What becomes of a message depends on how it fits the request in flight.
    cases Correlator.reception s.correlator message with
    | unsolicited other =>
      have some : Arrival.passed? ⟨payload, s.correlator.inFlight⟩ = some message := by
        simp only [Arrival.passed?, readable]
        rcases other with kind | idle
        · rw [if_neg (fun reply => kind reply.1)]
        · rw [if_neg (fun reply => by simp [idle] at reply)]
      simp only [route_of_unsolicited other]
      refine ⟨rfl, ?_, .inl ⟨rfl, ?_⟩⟩
      · rw [some, Queue.toList_push, Option.toList_some]
      · rintro _ _ ⟨eq, kind, fl, -⟩
        cases readable.symm.trans eq
        rcases other with other | idle
        · exact other kind
        · cases idle.symm.trans fl
    | expected kind fl num =>
      have none : Arrival.passed? ⟨payload, s.correlator.inFlight⟩ = none := by
        simp [Arrival.passed?, readable, kind, fl]
      simp only [route_of_match kind fl num]
      refine ⟨rfl, ?_, .inl ⟨rfl, ?_⟩⟩
      · rw [none, Option.toList_none, List.append_nil]
      · rintro _ _ ⟨eq, -, fl', other⟩
        cases readable.symm.trans eq
        cases fl.symm.trans fl'
        exact other num
    | unexpected kind fl num =>
      have none : Arrival.passed? ⟨payload, s.correlator.inFlight⟩ = none := by
        simp [Arrival.passed?, readable, kind, fl]
      simp only [route_of_mismatch kind fl num]
      refine ⟨rfl, ?_, .inr ⟨_, _, .intro readable kind fl num, rfl⟩⟩
      rw [none, Option.toList_none, List.append_nil]
      rfl

end Session

/-! ## Beside the reader -/

namespace Course

open Session

/-- What an act other than reading may do about the end of the session. -/
inductive Heeds (c : Course) (act : Act) : Watch → Prop where
  | same : Heeds c act c.session.watch
  | noticed {e} :
    act = .notice → c.session.outbound.failure? = some e → c.session.watch = .reading →
    Heeds c act (.ended e.cause)
  | told {cause} : c.session.watch = .ended cause → Heeds c act .told

/-- What an act other than reading leaves alone. -/
structure Apart (c : Course) (act : Act) (d : Course) : Prop where
  reader : d.session.reader = c.session.reader
  passed : d.taken ++ d.session.inbound.toList = c.taken ++ c.session.inbound.toList
  watch : c.Heeds act d.session.watch

variable {c d : Course} {act : Act}

/-- An act stays apart that leaves the reader, the messages for the application and the end alone.
-/
lemma Apart.of_same (reader : d.session.reader = c.session.reader) (taken : d.taken = c.taken)
    (inbound : d.session.inbound = c.session.inbound)
    (watch : d.session.watch = c.session.watch) : c.Apart act d :=
  ⟨reader, by rw [taken, inbound], watch ▸ .same⟩

/-- Every act but reading stays apart from the reader. -/
lemma apart_step (c : Course) (other : ∀ reads, act ≠ .read reads) :
    c.Apart act (c.step act) := by
  cases act with
  | submit operation => exact .of_same rfl rfl rfl rfl
  | cancel index => exact .of_same rfl rfl rfl rfl
  | forget index => exact .of_same rfl rfl rfl rfl
  | take index => exact .of_same rfl rfl rfl rfl
  | send message =>
    have sent : (c.session.send message).2.reader = c.session.reader ∧
        (c.session.send message).2.inbound = c.session.inbound ∧
        (c.session.send message).2.watch = c.session.watch := by
      unfold Session.send
      split
      · exact ⟨rfl, rfl, rfl⟩
      · split <;> exact ⟨rfl, rfl, rfl⟩
    exact .of_same sent.1 rfl sent.2.1 sent.2.2
  | proceed k =>
    rw [step, proceed]
    split <;> exact .of_same rfl rfl rfl rfl
  | nextMessage =>
    rw [step, Course.nextMessage, Session.nextMessage]
    cases front : c.session.inbound.pop? with
    | none =>
      by_cases reading : c.session.watch = .reading
      · simp only [reading, if_true]
        exact .of_same rfl rfl rfl rfl
      · simp only [reading, if_false]
        exact .of_same rfl rfl rfl rfl
    | some next =>
      refine ⟨rfl, ?_, .same⟩
      rw [Queue.toList_of_pop? front, List.append_assoc]
      rfl
  | read reads => exact absurd rfl (other reads)
  | fetch =>
    rw [step]
    split <;> exact .of_same rfl rfl rfl rfl
  | write => exact .of_same rfl rfl rfl rfl
  | flush => exact .of_same rfl rfl rfl rfl
  | notice =>
    rw [step, Session.notice]
    split
    · next reading failed => exact ⟨rfl, rfl, .noticed rfl failed reading⟩
    · exact .of_same rfl rfl rfl rfl
  | awaitEnd =>
    rw [step, Session.awaitEnd]
    split
    · exact .of_same rfl rfl rfl rfl
    · next ended => exact ⟨rfl, rfl, .told ended⟩
    · exact .of_same rfl rfl rfl rfl

end Course

end Netconf
