import Netconf.Session

/-!
# Opening a session

The way from a configuration to an established session. A server leases the number of the session
first; whatever fails after that gives it back. Then the hellos are exchanged, in end-of-message
framing.
-/

namespace Netconf

/-- Which side of a session to open. -/
inductive Side where
  | client
  | server
  deriving DecidableEq, Repr

/-- A session on the way to being established. -/
structure Opening where
  config : Config
  /-- The leased number of a server. -/
  lease : Option Nat
  handshake : Handshake
  reader : Framing.Reader

namespace Opening

variable {σ : Type} (source : IdSource σ)

/-- The capabilities offered unless others are. -/
def defaultCapabilities : CapabilitySet :=
  .ofUris [Capability.base10, Capability.base11]

/-- Leases the number that a server announces. -/
def leaseFor (side : Side) (ids : σ) : Except HandshakeError (Option Nat) × σ :=
  match side with
  | .client => (.ok none, ids)
  | .server =>
    match source.allocate ids with
    | (some id, ids) => (.ok (some id), ids)
    | (none, ids) => (.error .sessionIdsExhausted, ids)

/-- The role that goes with a lease. -/
def roleOf : Option Nat → Role
  | none => .client
  | some id => .server id

/-- Gives up the opening. -/
def abandon (o : Opening) (ids : σ) : σ :=
  match o.lease with
  | some id => source.release id ids
  | none => ids

/-- Begins to open a session; the own hello comes with the opening, framed. -/
def begin (side : Side) (config : Config) (offered : CapabilitySet) (ids : σ) :
    Except Error (Bytes × Opening) × σ :=
  match config.validate with
  | .error e => (.error e, ids)
  | .ok _ =>
    match leaseFor source side ids with
    | (.error e, ids) => (.error (.handshake e), ids)
    | (.ok lease, ids) =>
      let (started, handshake) := (Handshake.new (roleOf lease) offered).start
      let o : Opening := ⟨config, lease, handshake, .new config.maxChunkSize⟩
      let framed : Except Error Bytes := do
        let hello ← started.mapError .handshake
        (Framing.encode .endOfMessage config.outboundChunkSize hello.encode).mapError .framing
      match framed with
      | .error e => (.error e, o.abandon source ids)
      | .ok bytes => (.ok (bytes, o), ids)

/-- The preferences that follow from the payload of the other side's hello. -/
def negotiate (o : Opening) (payload : Bytes) : Except Error Preferences := do
  let hello ← (Node.decode? payload).mapError fun e =>
    Error.handshake (.malformedHello (Error.ofPayload e).message)
  let (received, handshake) := o.handshake.receiveHello hello
  discard (received.mapError .handshake)
  handshake.establish.1.mapError .handshake

/-- Establishes the session when the payload of the other side's hello is there. -/
def establish (o : Opening) (payload : Bytes) (ids : σ) : Except Error Session × σ :=
  let session := do
    Session.start (← o.negotiate payload) o.lease o.reader o.config
  match session with
  | .ok s => (.ok s, ids)
  | .error e => (.error e, o.abandon source ids)

end Opening

end Netconf
