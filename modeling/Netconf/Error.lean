import Netconf.Framing.Violation
import Netconf.Hello
import Netconf.Text.Quoted
import Netconf.Tree.Written

/-!
# Errors

All that can go wrong in a session, the reasons for which a session ends, and which error is such
a reason.
-/

namespace Netconf

/-- What is wrong with a subtree filter. -/
inductive FilterError where
  /-- A name, shown with its namespace, is no qualified name. -/
  | illFormedName (name : String)
  /-- The root, shown by its qualified name, has text. -/
  | textOnFilterRoot (name : String)
  deriving DecidableEq, Repr

/-- The wording of a filter error. -/
def FilterError.message : FilterError → String
  | illFormedName name => "ill-formed qualified name " ++ Text.quoted name
  | textOnFilterRoot name => "filter root " ++ name ++ " must not carry text"

/-- Why a session ended. -/
inductive Cause where
  | peerClosed
  | localClose
  | framing (reason : String)
  | correlation (reason : String)
  | transport (reason : String)
  deriving DecidableEq, Repr

/-- The wording of a cause. -/
def Cause.message : Cause → String
  | peerClosed => "connection closed by peer"
  | localClose => "session closed locally"
  | framing reason => "framing error: " ++ reason
  | correlation reason => "correlation error: " ++ reason
  | transport reason => "I/O error: " ++ reason

/-- A cause as its constructor with the quoted reason. -/
def Cause.debug : Cause → String
  | peerClosed => "PeerClosed"
  | localClose => "LocalClose"
  | framing reason => "Framing(" ++ Text.quoted reason ++ ")"
  | correlation reason => "Correlation(" ++ Text.quoted reason ++ ")"
  | transport reason => "Io(" ++ Text.quoted reason ++ ")"

/-- What can go wrong in a session. -/
inductive Error where
  | transport (reason : String)
  | payload (reason : String)
  | framing (error : Framing.FramingError)
  | shape (error : ShapeError)
  | handshake (error : HandshakeError)
  | filter (error : FilterError)
  | json (reason : String)
  | sessionTerminated (cause : Cause)
  /-- A reply does not belong to the request in flight. -/
  | correlation (expected : String) (received : Option String)
  /-- The request was cancelled before it was sent. -/
  | cancelled
  | connectionClosed
  | backpressureTimeout
  | queueFull
  | protocol (reason : String)
  deriving DecidableEq, Repr

namespace Error

/-- The wording of an error. -/
def message : Error → String
  | transport reason => "I/O error: " ++ reason
  | payload reason => "Payload parse error: " ++ reason
  | framing error => error.message
  | shape error => error.message
  | handshake error => error.message
  | filter error => error.message
  | json reason => "JSON error: " ++ reason
  | sessionTerminated cause => "Session terminated: " ++ cause.message
  | correlation expected received =>
    "Reply message-id " ++ Text.quotedOption received ++ " does not match in-flight request " ++
      Text.quoted expected
  | cancelled => "Request cancelled before transmission"
  | connectionClosed => "Connection closed"
  | backpressureTimeout => "Backpressure timeout"
  | queueFull => "Write queue full"
  | protocol reason => "Protocol error: " ++ reason

/-- Whether the session cannot go on after the error. -/
def isFatal : Error → Bool
  | transport _ | framing _ | handshake _ | correlation _ _ | connectionClosed => true
  | _ => false

/-- The cause with which a session ends because of the error. -/
def cause (e : Error) : Cause :=
  match e with
  | framing error => .framing error.message
  | correlation _ _ => .correlation e.message
  | sessionTerminated cause => cause
  | connectionClosed => .peerClosed
  | _ => .transport e.message

/-- A payload error as an error of the session. -/
def ofPayload : PayloadError → Error
  | .shape error => .shape error
  | e => .payload e.message

end Error

end Netconf
