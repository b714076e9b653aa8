import Netconf.Opening
import Netconf.Proofs.Framing.Reading
import Netconf.Proofs.Session.Course
import Netconf.Proofs.Session.Response

/-!
# Two sessions linked with each other

A client and a server at the two ends of a transport that loses nothing. Each party writes its
hello, reads the other's and goes on with the session, while bytes that one has written arrive at
the other in pieces of any size and at any time. The server's application answers requests that it
has taken, each of them once.
-/

namespace Netconf

open Framing

/-- What one side brings to a session. -/
structure Offer where
  config : Config
  capabilities : CapabilitySet

/-- One end of a link. -/
inductive Party (σ : Type) where
  /-- It says hello; the given slices of that are not written yet. -/
  | opening (opening : Opening) (ids : σ) (unwritten : List Bytes) (written : Bytes)
  /-- Its hello is written and flushed, and it waits for the other's. -/
  | awaiting (opening : Opening) (ids : σ) (written : Bytes)
  | running (course : Course)
  | failed

namespace Party

variable {σ : Type} (source : IdSource σ)

/-- Begins to open a session. -/
def begin (side : Side) (offer : Offer) (ids : σ) : Party σ :=
  match Opening.begin source side offer.config offer.capabilities ids with
  | (.ok (hello, o), ids) => .opening o ids (Outbound.remainingSlices 0 [hello]) []
  | (.error _, _) => .failed

/-- The bytes that it has written. -/
def written : Party σ → Bytes
  | opening _ _ _ written | awaiting _ _ written => written
  | running c => c.written
  | failed => []

/-- The messages that it has put on their way. -/
def posted : Party σ → List Node
  | running c => c.posted
  | opening _ _ _ _ | awaiting _ _ _ | failed => []

/-- What was seen of its requests. -/
def trace : Party σ → List Event
  | running c => c.trace
  | opening _ _ _ _ | awaiting _ _ _ | failed => []

/-- The messages that its application has taken. -/
def taken : Party σ → List Node
  | running c => c.taken
  | opening _ _ _ _ | awaiting _ _ _ | failed => []

/-- All that it has to write is written. -/
def Flushed : Party σ → Prop
  | opening _ _ unwritten _ => unwritten = []
  | awaiting _ _ _ => True
  | running c => c.session.outbound.unwritten = [] ∧ c.session.outbound.channel = []
  | failed => False

/-- In what it has read there is no more message, and it waits for more bytes. -/
def Waits : Party σ → Prop
  | opening o _ _ _ | awaiting o _ _ => ∃ d, o.reader.decoder.next = (.ok none, d)
  | running c => ∃ d, c.session.reader.decoder.next = (.ok none, d)
  | failed => False

/-- Does something else than reading. Until it has said hello it can only write and have the
transport flushed, and then it can do nothing but wait. -/
def act (p : Party σ) (act : Session.Act) : Party σ :=
  match p with
  | opening o ids unwritten written =>
    match act with
    | .write planned =>
      match Outbound.writeBatch Sink.write unwritten ⟨planned, written⟩ with
      | (.complete, sink) => opening o ids [] sink.taken
      | (.blocked slices, sink) => opening o ids slices sink.taken
      | (.failed _ _, _) => failed
    | .flush failure =>
      match unwritten, failure with
      | [], none => awaiting o ids written
      | [], some _ => failed
      | _, _ => p
    | _ => p
  | awaiting _ _ _ => p
  | running c => running (c.step act)
  | failed => failed

/-- Reads; the answers of the transport that were not used are left. The other's hello is read when
the own one is written and flushed. -/
def read (p : Party σ) (reads : List Read) : Party σ × List Read :=
  match p with
  | opening _ _ _ _ => (p, reads)
  | awaiting o ids written =>
    match o.reader.next reads with
    | (.message payload, reader, rest) =>
      match { o with reader := reader }.establish source payload ids with
      | (.ok s, _) => (running (.start s written), rest)
      | (.error _, _) => (failed, rest)
    | (.waiting, reader, rest) => (awaiting { o with reader := reader } ids written, rest)
    | (_, _, rest) => (failed, rest)
  | running c =>
    let (c, rest) := c.read reads
    (running c, rest)
  | failed => (failed, reads)

end Party

/-- A client and a server with the transport between them. -/
structure Link (σ : Type) where
  client : Party σ
  server : Party σ
  /-- How many of the server's bytes the client has read. -/
  clientRead : Nat
  serverRead : Nat
  /-- The requests that the server's application has answered, by their place among those that it
  has taken, each with the place of the sender of its reply. -/
  answered : List (Nat × Nat)

namespace Link

variable {σ : Type} (source : IdSource σ)

/-- A client and a server that begin to open a session. -/
def start (client server : Offer) (ids : σ) : Link σ where
  client := .begin source .client client ids
  server := .begin source .server server ids
  clientRead := 0
  serverRead := 0
  answered := []

/-- What can happen to a link. -/
inductive Act where
  | client (act : Session.Act)
  | server (act : Session.Act)
  /-- The client reads, and at most `n` bytes arrive. -/
  | toClient (n : Nat)
  | toServer (n : Nat)
  /-- The server's application answers the request at the given place. -/
  | reply (place : Nat) (response : Response)

/-- The answer to a read call for at most `n` bytes. There is none as long as no byte is on its
way. -/
def arriving (written : Bytes) (read n : Nat) : List Read :=
  match (written.drop read).take n with
  | [] => []
  | bytes => [.data bytes]

/-- The server's application answers a request, if it has taken it and not answered it yet. -/
def reply (l : Link σ) (place : Nat) (response : Response) : Link σ :=
  match l.server with
  | .running c =>
    match c.taken[place]? with
    | some request =>
      if place ∈ l.answered.map Prod.fst then l
      else
        { l with
          server := .running (c.send (response.build request))
          answered := l.answered ++ [(place, c.senders.length)] }
    | none => l
  | _ => l

/-- The link after one more act. -/
def act (l : Link σ) : Act → Link σ
  | .client act => { l with client := l.client.act act }
  | .server act => { l with server := l.server.act act }
  | .toClient n =>
    let reads := arriving l.server.written l.clientRead n
    let (client, left) := l.client.read source reads
    let used := (Read.stream reads).length - (Read.stream left).length
    { l with client := client, clientRead := l.clientRead + used }
  | .toServer n =>
    let reads := arriving l.client.written l.serverRead n
    let (server, left) := l.server.read source reads
    let used := (Read.stream reads).length - (Read.stream left).length
    { l with server := server, serverRead := l.serverRead + used }
  | .reply place response => l.reply place response

/-- The link after some more acts. -/
def run (l : Link σ) (acts : List Act) : Link σ :=
  acts.foldl (act source) l

/-- Nothing is on its way any more. -/
structure Quiet (l : Link σ) : Prop where
  client : l.client.Flushed
  server : l.server.Flushed
  clientRead : l.clientRead = l.server.written.length
  serverRead : l.serverRead = l.client.written.length
  clientWaits : l.client.Waits
  serverWaits : l.server.Waits

end Link

/-! ## What the applications may do -/

/-- The session goes on by itself, or the application asks for what is there. The transport takes
bytes or none for now and is flushed, and it does not fail. -/
inductive Session.Act.Goes : Session.Act → Prop where
  | nextMessage : Goes .nextMessage
  | fetch : Goes .fetch
  | write {planned} :
    Sink.Reliable planned →
    Goes (.write planned)
  | flush : Goes (.flush none)
  | notice : Goes .notice
  | awaitEnd : Goes .awaitEnd

/-- An act of a client, whose application sends by submitting operations only. -/
inductive Session.Act.OfClient : Session.Act → Prop where
  | goes {act} :
    act.Goes →
    OfClient act
  | submit {operation : Node} :
    operation.Everywhere Node.Kept →
    OfClient (.submit operation)
  | cancel {index} : OfClient (.cancel index)
  | forget {index} : OfClient (.forget index)
  | take {index} : OfClient (.take index)

/-- An act of a server, whose application sends messages that are no replies. -/
inductive Session.Act.OfServer : Session.Act → Prop where
  | goes {act} :
    act.Goes →
    OfServer act
  | send {message : Node} :
    message.Everywhere Node.Kept → message.messageKind ≠ .rpcReply →
    OfServer (.send message)
  | proceed {sender} : OfServer (.proceed sender)

namespace Session.Act

variable {act : Session.Act}

/-- A session that goes on by itself is not read to. -/
lemma Goes.other (goes : act.Goes) (reads : List Read) : act ≠ .read reads := by
  cases goes <;> exact nofun

/-- The transport does not fail where a session goes on by itself. -/
lemma Goes.reliable (goes : act.Goes) : act.Reliable := by
  cases goes with
  | write reliable => exact reliable
  | flush => rfl
  | _ => trivial

/-- The application of a client does not read. -/
lemma OfClient.other (of : act.OfClient) (reads : List Read) : act ≠ .read reads := by
  cases of with
  | goes goes => exact goes.other reads
  | _ => exact nofun

/-- The transport of a client does not fail. -/
lemma OfClient.reliable (of : act.OfClient) : act.Reliable := by
  cases of with
  | goes goes => exact goes.reliable
  | _ => trivial

/-- The application of a client sends nothing but requests. -/
lemma OfClient.send (of : act.OfClient) (message : Node) : act ≠ .send message := by
  cases of with
  | goes goes => cases goes <;> exact nofun
  | _ => exact nofun

/-- What the application of a client submits can stand in a document. -/
lemma OfClient.kept (of : act.OfClient) :
    ∀ operation, act = .submit operation → operation.Everywhere Node.Kept := by
  rintro operation rfl
  cases of with
  | goes goes => cases goes
  | submit kept => exact kept

/-- The application of a server does not read. -/
lemma OfServer.other (of : act.OfServer) (reads : List Read) : act ≠ .read reads := by
  cases of with
  | goes goes => exact goes.other reads
  | _ => exact nofun

/-- The transport of a server does not fail. -/
lemma OfServer.reliable (of : act.OfServer) : act.Reliable := by
  cases of with
  | goes goes => exact goes.reliable
  | _ => trivial

end Session.Act

/-- The applications keep to this, and all that they pass in a document can hold. -/
inductive Link.Act.Proper : Link.Act → Prop where
  | client {act} :
    act.OfClient →
    Proper (.client act)
  | server {act} :
    act.OfServer →
    Proper (.server act)
  | toClient {n} : Proper (.toClient n)
  | toServer {n} : Proper (.toServer n)
  | reply {place response} :
    response.IsXml →
    Proper (.reply place response)

end Netconf
