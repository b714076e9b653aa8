import Netconf.Proofs.Framing.Following
import Netconf.Proofs.Outbound.Carrying
import Netconf.Proofs.Tree.RoundTrip

/-!
# What one side says

All that one side of a session says are its hello in end-of-message framing and then the messages
that have entered its channel, in the framing agreed on. If a document can hold them all, and no
chunk is beyond what the other side takes, the bytes come to the very nodes (`told_said`).
-/

namespace Netconf

open Framing

namespace Node

/-- What a document can hold has plain names. -/
lemma plain_of_kept {n : Node} (kept : n.Everywhere Kept) : n.Everywhere HasPlainNames := by
  have plain {name : String} (isName : Xml.IsName name.toList) : IsPlain name :=
    ⟨fun mem => absurd (isName.chars _ mem) (by decide), gt_notMem_of_isName isName⟩
  induction kept with
  | intro here _ ih =>
    exact .intro ⟨plain here.2.name, fun a mem => plain (here.2.attributes a mem).name⟩ ih

/-- A node that a document can hold, as a payload. -/
def delimited (n : Node) (kept : n.Everywhere Kept) : Delimited :=
  ⟨n.encode, endsAtMarker_encode (plain_of_kept kept)⟩

variable {limit size : Nat} {n : Node} {ns : List Node}

/-- In chunks that are not beyond the limit a node is a message. -/
lemma wire_chunked (pos : 0 < size) (fit : size ≤ limit) (n : Node) :
    ∃ m : Message limit, n.wire .chunked size = m.wire ∧ m.payload = n.encode := by
  have greatest : greatestChunk size n.encode ≤ limit := by
    rw [greatestChunk]
    omega
  obtain ⟨m, framed, payload⟩ := encode_of_le n.encode_ne_nil greatest
  rw [n.encode_eq_wire] at framed
  exact ⟨m, Except.ok.inj framed, payload⟩

/-- What is said in chunks is a stream of messages with the same payloads. -/
lemma stream_chunked (pos : 0 < size) (fit : size ≤ limit) (ns : List Node) :
    ∃ ms : List (Message limit), ns.flatMap (wire .chunked size) = Message.stream ms ∧
      ns.map encode = ms.map Message.payload := by
  induction ns with
  | nil => exact ⟨[], rfl, rfl⟩
  | cons n ns ih =>
    obtain ⟨m, wire, payload⟩ := wire_chunked pos fit n
    obtain ⟨ms, wires, payloads⟩ := ih
    refine ⟨m :: ms, ?_, ?_⟩
    · rw [List.flatMap_cons, wire, wires]
      rfl
    · rw [List.map_cons, payloads, ← payload]
      rfl

/-- What is said with markers is a stream of delimited payloads if it can stand in a document. -/
lemma stream_marked (size : Nat) (kept : ∀ n ∈ ns, n.Everywhere Kept) :
    ∃ ps, ns.flatMap (wire .endOfMessage size) = Delimited.stream ps ∧
      ns.map encode = ps.map Delimited.payload := by
  induction ns with
  | nil => exact ⟨[], rfl, rfl⟩
  | cons n ns ih =>
    rw [List.forall_mem_cons] at kept
    obtain ⟨ps, wires, payloads⟩ := ih kept.2
    refine ⟨n.delimited kept.1 :: ps, ?_, ?_⟩
    · rw [List.flatMap_cons, wires]
      rfl
    · rw [List.map_cons, payloads]
      rfl

end Node

/-! ## All that is said -/

/-- The bytes of a hello, and of messages in the framing. -/
def said (mode : Mode) (size : Nat) (hello : Node) (posted : List Node) : Bytes :=
  hello.wire .endOfMessage size ++ posted.flatMap (Node.wire mode size)

section

variable {mode : Mode} {size limit : Nat} {hello : Node} {posted : List Node}

/-- Saying more is writing that behind what was said. -/
lemma said_append (more : List Node) :
    said mode size hello (posted ++ more) =
      said mode size hello posted ++ more.flatMap (Node.wire mode size) := by
  rw [said, said, List.flatMap_append, List.append_assoc]

/-- What is said comes to the messages after the hello. -/
lemma told_said (pos : 0 < size) (fit : size ≤ limit) (greeting : hello.Everywhere Node.Kept)
    (kept : ∀ n ∈ posted, n.Everywhere Node.Kept) :
    Decoder.Told limit (hello.delimited greeting) (said mode size hello posted)
      (posted.map Node.encode) none mode := by
  cases mode with
  | endOfMessage =>
    obtain ⟨ps, wires, payloads⟩ := Node.stream_marked size kept
    refine .marked ⟨rfl, [], ?_, by decide⟩ payloads
    rw [said, wires, List.append_nil]
    rfl
  | chunked =>
    obtain ⟨ms, wires, payloads⟩ := Node.stream_chunked pos fit posted
    refine .chunked ?_ (.stream ms) payloads
    rw [said, wires]
    rfl

end

end Netconf
