import Netconf.Capability
import Netconf.Message
import Netconf.Text.Number

/-!
# Hello messages

What the two sides say to each other first: the capabilities they offer, and from the server the
number of the session.
-/

namespace Netconf

/-- What goes wrong before a session is established. -/
inductive HandshakeError where
  | malformedHello (reason : String)
  | noCapabilities
  | missingBaseCapability
  | emptyIntersection
  | missingSessionId
  | unexpectedSessionId
  | sessionIdsExhausted
  /-- A step was taken out of turn. -/
  | invalidState (requirement : String)
  | connectionClosed
  deriving DecidableEq, Repr

/-- The wording of a handshake error. -/
def HandshakeError.message : HandshakeError → String
  | malformedHello reason => "malformed hello: " ++ reason
  | noCapabilities => "hello carries no capabilities"
  | missingBaseCapability => "no common base capability"
  | emptyIntersection => "no common capabilities"
  | missingSessionId => "missing or invalid session-id in server hello"
  | unexpectedSessionId => "unexpected session-id in client hello"
  | sessionIdsExhausted => "session id space exhausted"
  | invalidState requirement => "invalid negotiator state: " ++ requirement
  | connectionClosed => "connection closed during hello exchange"

/-- The content of a hello. -/
structure Hello where
  capabilities : CapabilitySet
  /-- The number of the session, given by servers. -/
  sessionId : Option Nat
  deriving Repr

namespace Hello

/-- The message of a hello. -/
def toNode (h : Hello) : Node :=
  .ofChildren ⟨baseUri, "hello"⟩ []
    (.ofChildren ⟨baseUri, "capabilities"⟩ []
        (h.capabilities.items.map fun c => .ofText ⟨baseUri, "capability"⟩ c.uri) ::
      (h.sessionId.map fun id => Node.ofText ⟨baseUri, "session-id"⟩ (toString id)).toList)

/-- The capabilities in an element that lists them. Blank entries do not count. -/
def listed (capabilities : Node) : CapabilitySet :=
  .ofUris ((capabilities.childrenNamed "capability").filterMap (·.text))

/-- The session number that a text gives: a positive number of 32 bits. -/
def sessionIdOf? (text : String) : Option Nat :=
  (Text.number? UInt32.size (Text.trim text)).filter (0 < ·)

/-- The session number of a hello. One that is there has to be valid. -/
def sessionIdIn (hello : Node) : Except HandshakeError (Option Nat) :=
  match hello.child? "session-id" with
  | none => .ok none
  | some node =>
    match node.text.bind sessionIdOf? with
    | some id => .ok (some id)
    | none => .error .missingSessionId

/-- The content of a hello message. -/
def ofNode (n : Node) : Except HandshakeError Hello :=
  if n.messageKind ≠ .hello then
    .error (.malformedHello ("expected <hello>, got <" ++ n.localName ++ ">"))
  else
    match n.child? "capabilities" with
    | none => .error (.malformedHello "missing <capabilities> element")
    | some node =>
      let capabilities := listed node
      if capabilities.isEmpty then .error .noCapabilities
      else (sessionIdIn n).map fun id => ⟨capabilities, id⟩

end Hello

end Netconf
