import Netconf.Proofs.Correlator.Request

/-!
# Moves of a correlator

Every operation of a correlator is made of elementary moves. Each move does one thing to the state:
it takes a request in, hands the first one of the queue over, delivers a reply, ends the session,
and so on; and it can be seen from outside by at most one event. What holds after each move holds in
particular after each operation.
-/

namespace Netconf

/-- What can be seen of a correlator: its operations with their results, and what the transmitter
is handed in between. -/
inductive Event where
  /-- An operation was submitted and became the request with the index. -/
  | submitted (index : Nat) (operation : Node)
  /-- Cancelling a request was tried. -/
  | cancelled (index : Nat) (done : Bool)
  /-- A request was given up, and cancelled by that if it was still queued. -/
  | forgot (index : Nat) (done : Bool)
  /-- The answer to a request was asked for. -/
  | took (index : Nat) (polled : Option Polled)
  /-- A message came in. -/
  | routed (message : Node) (result : Except Error Routing)
  /-- The session was ended. -/
  | terminated (cause : Cause)
  /-- The transmitter was handed a request, which it took or refused. -/
  | handed (rpc : Node) (outcome : Except Error Unit)

namespace Event

/-- Whether the event cancels the request with the index. -/
def cancels (i : Nat) : Event → Bool
  | cancelled j done | forgot j done => j == i && done
  | _ => false

/-- Whether the event hands over the request with the index. -/
def hands (i : Nat) : Event → Bool
  | handed rpc _ => rpc.messageId? == some (Correlator.messageId i)
  | _ => false

/-- Whether the session has ended after the event. -/
def ends : Event → Bool
  | terminated _ | routed _ (.error _) => true
  | handed _ (.error e) => e.isFatal
  | _ => false

/-- The request that the event submits. -/
def submission? : Event → Option Node
  | submitted i operation => some (.rpc (Correlator.messageId i) operation)
  | _ => none

/-- The request that the event hands over. -/
def handover? : Event → Option Node
  | handed rpc _ => some rpc
  | _ => none

/-- The request that the transmitter takes by the event. -/
def transmission? : Event → Option Node
  | handed rpc (.ok _) => some rpc
  | _ => none

/-- The reply that the event delivers. -/
def delivery? : Event → Option Node
  | routed message (.ok .delivered) => some message
  | _ => none

end Event

namespace Correlator

/-- Nothing keeps the next request from being handed over. -/
def Free (c : Correlator) : Prop :=
  c.inFlight = none ∧ c.terminated = none

/-- One elementary move, with the event that shows it. -/
inductive Move : Correlator → Option Event → Correlator → Prop where
  /-- A new request enters the queue. -/
  | accept {c operation} :
    c.terminated = none →
    Move c (some (.submitted c.requests.size operation)) (c.enqueue operation)
  /-- After the end a new request fails at once. -/
  | refuse {c operation cause} :
    c.terminated = some cause →
    Move c (some (.submitted c.requests.size operation))
      (c.push ⟨.sent, .given (.error (.sessionTerminated cause)), true⟩)
  /-- The first of the queue is passed over, as it was cancelled. -/
  | skip {c w rest} :
    c.Free → c.queue = w :: rest → c.isQueued w.index = false →
    Move c none { c.withhold w.index with queue := rest }
  /-- The transmitter takes the first of the queue. -/
  | send {c w rest} :
    c.Free → c.queue = w :: rest → c.isQueued w.index = true →
    Move c (some (.handed w.rpc (.ok ())))
      { c.mark w.index .sent with queue := rest, inFlight := some w.index }
  /-- The transmitter refuses the first of the queue, and the session goes on. -/
  | reject {c w rest e} :
    c.Free → c.queue = w :: rest → c.isQueued w.index = true → e.isFatal = false →
    Move c (some (.handed w.rpc (.error e)))
      { (c.mark w.index .sent).resolve w.index (.error e) with queue := rest }
  /-- The transmitter refuses the first of the queue, and the session ends. -/
  | collapse {c w rest e} :
    c.Free → c.queue = w :: rest → c.isQueued w.index = true → e.isFatal = true →
    Move c (some (.handed w.rpc (.error e)))
      ({ (c.mark w.index .sent).resolve w.index (.error e) with queue := rest }.failAll e.cause)
  /-- The reply to the request in flight arrives. -/
  | deliver {c i message} :
    message.messageKind = .rpcReply → c.inFlight = some i →
    message.messageId? = some (messageId i) →
    Move c (some (.routed message (.ok .delivered)))
      { c.resolve i (.ok message) with inFlight := none }
  /-- A reply with another number than that of the request in flight ends the session. -/
  | mismatch {c i message} :
    message.messageKind = .rpcReply → c.inFlight = some i →
    message.messageId? ≠ some (messageId i) →
    Move c (some (.routed message (.error (.correlation (messageId i) message.messageId?))))
      (c.failAll (Error.correlation (messageId i) message.messageId?).cause)
  /-- A message that nothing waits for is passed on. -/
  | pass {c message} :
    message.messageKind ≠ .rpcReply ∨ c.inFlight = none →
    Move c (some (.routed message (.ok (.unsolicited message)))) c
  | terminate {c cause} :
    Move c (some (.terminated cause)) (c.terminate cause)
  | cancel {c i} :
    Move c (some (.cancelled i (c.cancel i).1)) (c.cancel i).2
  | forget {c i} :
    Move c (some (.forgot i (c.cancel i).1)) (c.forget i)
  | take {c i} :
    Move c (some (.took i (c.take i).1)) (c.take i).2

/-- Moves one after the other, with the events that show them. -/
inductive Moves (c : Correlator) : List Event → Correlator → Prop where
  | refl : Moves c [] c
  | tail {es d e d'} : Moves c es d → Move d e d' → Moves c (es ++ e.toList) d'

/-- A move is some moves. -/
lemma Moves.single {c e d} (mv : Move c e d) : Moves c e.toList d := by
  simpa using Moves.refl.tail mv

/-- Moves after moves are moves. -/
lemma Moves.trans {c d d' es fs} (first : Moves c es d) (second : Moves d fs d') :
    Moves c (es ++ fs) d' := by
  induction second with
  | refl => simpa using first
  | tail _ mv ih => simpa [List.append_assoc] using ih.tail mv

/-- Where an event was seen, there was the move that it shows. -/
lemma Moves.split {c d' before e after} (mvs : Moves c (before ++ e :: after) d') :
    ∃ d d₁, Moves c before d ∧ Move d (some e) d₁ ∧ Moves d₁ after d' := by
  generalize eq : before ++ e :: after = es at mvs
  induction mvs generalizing after with
  | refl => simp at eq
  | @tail gs d f d' mvs mv ih =>
    -- The event in question shows the last move, or it was seen before.
    cases f with
    | none =>
      obtain ⟨x, y, left, one, right⟩ := ih (by simpa using eq)
      exact ⟨x, y, left, one, by simpa using right.tail mv⟩
    | some f =>
      rcases List.eq_nil_or_concat after with rfl | ⟨hs, g, rfl⟩
      · obtain ⟨rfl, eqe⟩ := List.append_inj' eq rfl
        cases eqe
        exact ⟨d, d', mvs, mv, .refl⟩
      · rw [List.concat_eq_append, ← List.cons_append, ← List.append_assoc] at eq
        obtain ⟨eqs, eqe⟩ := List.append_inj' eq rfl
        cases eqe
        obtain ⟨x, y, left, one, right⟩ := ih eqs
        exact ⟨x, y, left, one, by simpa using right.tail mv⟩

end Correlator

end Netconf
