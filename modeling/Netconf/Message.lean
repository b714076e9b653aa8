import Netconf.Tree.Node

/-!
# Messages

What a top-level node is for, told by its name, and the envelope of a request.
-/

namespace Netconf

/-- The namespace of the protocol's own elements. -/
def baseUri : String :=
  "urn:ietf:params:xml:ns:netconf:base:1.0"

/-- The namespace of notifications. -/
def notificationUri : String :=
  "urn:ietf:params:xml:ns:netconf:notification:1.0"

/-- The namespace of the EXI capability. -/
def exiUri : String :=
  "urn:ietf:params:xml:ns:netconf:exi:1.0"

/-- What a message is for. -/
inductive MessageKind where
  | hello
  | rpc
  | rpcReply
  | notification
  | other
  deriving DecidableEq, Repr

/-- What comes of asking for the next message. -/
inductive Received where
  | message (node : Node)
  /-- None is there, and none will come. -/
  | ended
  /-- None is there yet. -/
  | pending

namespace Node

/-- Whether a node is named so, in the given namespace or in none. -/
def isNamed (n : Node) (uri localName : String) : Bool :=
  n.localName == localName && (n.uri == "" || n.uri == uri)

/-- What a message is for. -/
def messageKind (n : Node) : MessageKind :=
  if n.isNamed baseUri "hello" then .hello
  else if n.isNamed baseUri "rpc" then .rpc
  else if n.isNamed baseUri "rpc-reply" then .rpcReply
  else if n.isNamed notificationUri "notification" then .notification
  else .other

/-- The `message-id` of a message. -/
def messageId? (n : Node) : Option String :=
  n.attribute? "message-id"

/-- The request with the given `message-id` for an operation. -/
def rpc (messageId : String) (operation : Node) : Node :=
  container ⟨baseUri, "rpc"⟩ [⟨.unqualified "message-id", messageId⟩] [operation]

end Node

end Netconf
