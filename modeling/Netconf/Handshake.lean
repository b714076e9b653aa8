import Netconf.Framing.Wire
import Netconf.Hello
import Netconf.Operation

/-!
# Handshake

The exchange of hellos, seen from one side. It goes from the own hello over the other side's to the
preferences of the session, each of which a stage holds as far as it is known by then. A step that
fails ends the handshake, unless the session is already established.
-/

namespace Netconf

/-- The side of a session. A server knows the number of the session. -/
inductive Role where
  | client
  | server (sessionId : Nat)
  deriving DecidableEq, Repr

/-- The session number in the own hello. -/
def Role.announced : Role → Option Nat
  | client => none
  | server sessionId => some sessionId

/-- What the two sides agreed on. -/
structure Preferences where
  localHello : Node
  remoteHello : Node
  /-- All that the other side offered. -/
  remoteCapabilities : CapabilitySet
  /-- What both sides offered, as it was offered here. -/
  capabilities : CapabilitySet
  /-- The framing after the hellos. -/
  framing : Framing.Mode
  sessionId : Nat
  /-- The operation that goes over to EXI, if both sides know it. -/
  exiStart : Option Node

/-- How far a handshake is. -/
inductive Stage where
  | idle
  | helloSent (hello : Node)
  | negotiated (preferences : Preferences)
  | established
  | failed

/-- The name of a stage. -/
def Stage.name : Stage → String
  | idle => "Idle"
  | helloSent _ => "HelloSent"
  | negotiated _ => "Negotiated"
  | established => "Established"
  | failed => "Failed"

/-- A handshake from one side. -/
structure Handshake where
  role : Role
  /-- What this side offers. -/
  offered : CapabilitySet
  stage : Stage

namespace Handshake

/-- A handshake that has not begun. -/
def new (role : Role) (offered : CapabilitySet) : Handshake :=
  ⟨role, offered, .idle⟩

/-- The number of the session: a client takes it from the server's hello, and in a client's hello
there may be none. -/
def agreedId : Role → Option Nat → Except HandshakeError Nat
  | .client, some id => .ok id
  | .client, none => .error .missingSessionId
  | .server _, some _ => .error .unexpectedSessionId
  | .server id, none => .ok id

/-- The preferences that follow from the two hellos. -/
def negotiate (role : Role) (offered : CapabilitySet) (localHello remoteHello : Node) :
    Except HandshakeError Preferences := do
  let remote ← Hello.ofNode remoteHello
  let sessionId ← agreedId role remote.sessionId
  let common := offered.intersect remote.capabilities
  if common.isEmpty then
    .error .emptyIntersection
  else if !common.contains Capability.base10 && !common.contains Capability.base11 then
    .error .missingBaseCapability
  else
    let chunked := common.contains Capability.base11
    return {
      localHello := localHello
      remoteHello := remoteHello
      remoteCapabilities := remote.capabilities
      capabilities := common
      framing := if chunked then .chunked else .endOfMessage
      sessionId := sessionId
      exiStart :=
        if chunked && common.contains Capability.exi then some Operation.startExi else none
    }

/-- Gives up the handshake. An established session is not touched. -/
def abort (h : Handshake) : Handshake :=
  match h.stage with
  | .established => h
  | _ => { h with stage := .failed }

/-- The own hello, with which the handshake begins. -/
def start (h : Handshake) : Except HandshakeError Node × Handshake :=
  match h.stage with
  | .idle =>
    let hello := Hello.toNode ⟨h.offered, h.role.announced⟩
    (.ok hello, { h with stage := .helloSent hello })
  | _ => (.error (.invalidState "start requires Idle"), h.abort)

/-- Takes in the hello of the other side. -/
def receiveHello (h : Handshake) (remote : Node) : Except HandshakeError Preferences × Handshake :=
  match h.stage with
  | .helloSent hello =>
    match negotiate h.role h.offered hello remote with
    | .ok preferences => (.ok preferences, { h with stage := .negotiated preferences })
    | .error e => (.error e, h.abort)
  | _ => (.error (.invalidState "receive_hello requires HelloSent"), h.abort)

/-- Hands out the preferences, with which the handshake is over. -/
def establish (h : Handshake) : Except HandshakeError Preferences × Handshake :=
  match h.stage with
  | .negotiated preferences => (.ok preferences, { h with stage := .established })
  | _ => (.error (.invalidState "establish requires Negotiated"), h.abort)

end Handshake

end Netconf
