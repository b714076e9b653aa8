import Netconf.Error
import Netconf.Operation

/-!
# Replies

Reading a reply for what it says, and building the replies to a request.
-/

namespace Netconf

/-- How serious a reported error is. -/
inductive Severity where
  | error
  | warning
  deriving DecidableEq, Repr

/-- The name of a severity. -/
def Severity.name : Severity → String
  | error => "error"
  | warning => "warning"

/-- An error that a reply reports. -/
structure RpcError where
  /-- The layer it comes from. -/
  layer : String
  tag : String
  severity : Severity
  appTag : Option String
  path : Option String
  message : Option String
  deriving DecidableEq, Repr

namespace RpcError

/-- The element of an error. -/
def toNode (e : RpcError) : Node :=
  let optional (name : String) (text : Option String) : List Node :=
    (text.map (Operation.textElement name)).toList
  Operation.element "rpc-error" <|
    [Operation.textElement "error-type" e.layer, Operation.textElement "error-tag" e.tag,
      Operation.textElement "error-severity" e.severity.name] ++
    optional "error-app-tag" e.appTag ++ optional "error-path" e.path ++
    optional "error-message" e.message

/-- The text in the first child of that name, without blank ends. -/
def field? (n : Node) (name : String) : Option String :=
  ((n.child? name).bind (·.text)).map Text.trim

/-- The error that an element reports. What it does not call a warning is an error. -/
def ofNode (n : Node) : RpcError where
  layer := (field? n "error-type").getD ""
  tag := (field? n "error-tag").getD ""
  severity := if field? n "error-severity" = some "warning" then .warning else .error
  appTag := field? n "error-app-tag"
  path := field? n "error-path"
  message := field? n "error-message"

/-- The wording of a reported error. -/
def display (e : RpcError) : String :=
  e.layer ++ " error " ++ e.tag ++
    match e.message with
    | some message => ": " ++ message
    | none => ""

end RpcError

/-- A reply. -/
structure Reply where
  node : Node

namespace Reply

/-- A message as a reply, if it is one. -/
def ofNode (n : Node) : Except Error Reply :=
  if n.messageKind = .rpcReply then .ok ⟨n⟩
  else .error (.protocol ("expected <rpc-reply>, got <" ++ n.localName ++ ">"))

/-- The `message-id` of the reply. -/
def messageId? (r : Reply) : Option String :=
  r.node.messageId?

/-- Whether the reply says that all is well. -/
def isOk (r : Reply) : Bool :=
  (r.node.child? "ok").isSome

/-- The element with the data that was asked for. -/
def data? (r : Reply) : Option Node :=
  r.node.child? "data"

/-- The errors that the reply reports, warnings among them. -/
def errors (r : Reply) : List RpcError :=
  (r.node.childrenNamed "rpc-error").map .ofNode

/-- Whether one of the errors is more than a warning. -/
def hasErrors (r : Reply) : Bool :=
  r.errors.any (·.severity == .error)

/-- The reply to a request with the given content, or one that says that all is well if there is
none. It has the attributes of the request. -/
def build (request : Node) (content : List Node) : Node :=
  .ofChildren ⟨baseUri, "rpc-reply"⟩ request.attributes
    (if content.isEmpty then [Operation.element "ok" []] else content)

/-- The reply with the data that was asked for. -/
def buildData (request : Node) (data : List Node) : Node :=
  build request [Operation.element "data" data]

/-- The reply that reports the given errors. -/
def buildErrors (request : Node) (errors : List RpcError) : Node :=
  build request (errors.map (·.toNode))

end Reply

end Netconf
