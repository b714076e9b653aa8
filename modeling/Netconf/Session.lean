import Netconf.Correlator
import Netconf.Framing.Reader
import Netconf.Handshake
import Netconf.Outbound
import Netconf.Queue
import Netconf.Reply
import Netconf.SessionId

/-!
# Sessions

An established session. Its reader takes messages from the transport and routes each one: replies to
the requests they belong to, all others to the application. The session ends with the first of: the
end of the stream, a read error, a violation of the framing, a reply that does not fit, a failure of
the writer, the application dropping the session.
-/

namespace Netconf

/-- What is known of the end of a session. -/
inductive Watch where
  /-- The reader is at work. -/
  | reading
  /-- The reader has ended with a cause, which nobody has asked for yet. -/
  | ended (cause : Cause)
  | told
  deriving DecidableEq, Repr

/-- An established session. -/
structure Session where
  preferences : Preferences
  /-- The number that a server gives back at the end. A client has none. -/
  lease : Option Nat
  reader : Framing.Reader
  correlator : Correlator
  outbound : Outbound
  /-- Messages for the application. -/
  inbound : Queue Node
  watch : Watch

namespace Session

/-- The session that follows from a handshake. What was read beyond the hello is read in the framing
agreed on. -/
def start (preferences : Preferences) (lease : Option Nat) (reader : Framing.Reader)
    (config : Config) : Except Error Session := do
  let reader ← (reader.setMode preferences.framing).mapError .framing
  return {
    preferences := preferences
    lease := lease
    reader := reader
    correlator := .new
    outbound := .new preferences.framing config
    inbound := .empty
    watch := .reading
  }

/-- Whether the session was begun by this side. -/
def isClient (s : Session) : Bool :=
  s.lease.isNone

/-- Whether the session has ended. -/
def isTerminated (s : Session) : Bool :=
  s.correlator.terminated.isSome

/-! ## Inbound messages -/

/-- Ends the session at the reader. -/
def finish (s : Session) (cause : Cause) : Session :=
  { s with correlator := s.correlator.terminate cause, watch := .ended cause }

/-- Routes a message. -/
def route (s : Session) (message : Node) : Session :=
  match s.correlator.onReply Outbound.transmit message s.outbound with
  | (.ok .delivered, correlator, outbound) =>
    { s with correlator := correlator, outbound := outbound }
  | (.ok (.unsolicited message), correlator, outbound) =>
    { s with
      correlator := correlator
      outbound := outbound
      inbound := s.inbound.push message }
  | (.error e, correlator, outbound) =>
    { s with correlator := correlator, outbound := outbound }.finish e.cause

/-- Takes in a payload. One that is no node is passed over. -/
def receive (s : Session) (payload : Bytes) : Session :=
  match Node.decode? payload with
  | .ok message => s.route message
  | .error _ => s

/-- The error that stands for a failure to read. -/
def readFailure : Framing.ReadError → Error
  | .framing e => .framing e
  | .transport reason => .transport reason

/-- Receiving a message does not touch the reader. -/
theorem reader_receive (s : Session) (payload : Bytes) : (s.receive payload).reader = s.reader := by
  unfold receive route
  split
  · split <;> rfl
  · rfl

/-- Takes in what the reader, which now stands as given, has come to. -/
def heed (s : Session) (reader : Framing.Reader) (reading : Framing.Reading) : Session :=
  let s := { s with reader := reader }
  match reading with
  | .message payload => s.receive payload
  | .ended => s.finish .peerClosed
  | .failed e => s.finish (readFailure e).cause
  | .waiting => s

/-- Asks the reader for a message and takes it in; the answers of the transport that were not used
are left. -/
def readOne (s : Session) (reads : List Framing.Read) : Session × List Framing.Read :=
  let (reading, reader, rest) := s.reader.next reads
  (s.heed reader reading, rest)

/-- Takes in messages as long as the session goes on and the transport answers. -/
def readAll (s : Session) (reads : List Framing.Read) : Session × List Framing.Read :=
  if s.watch = .reading then
    match h : s.reader.next reads with
    | (.message payload, reader, rest) =>
      have : ((s.heed reader (.message payload)).reader).backlog rest <
          s.reader.backlog reads := by
        simp only [heed, reader_receive]
        exact Framing.Reader.backlog_lt_of_next h
      readAll (s.heed reader (.message payload)) rest
    | (reading, reader, rest) => (s.heed reader reading, rest)
  else (s, reads)
termination_by s.reader.backlog reads

/-- The reader learns of a failure of the writer. -/
def notice (s : Session) : Session :=
  match s.watch, s.outbound.failure? with
  | .reading, some e => s.finish e.cause
  | _, _ => s

/-! ## The application -/

/-- Submits an operation; the index of the request comes with the session. -/
def submit (s : Session) (operation : Node) : Nat × Session :=
  let (index, correlator, outbound) := s.correlator.submit Outbound.transmit operation s.outbound
  (index, { s with correlator := correlator, outbound := outbound })

/-- The next message that is no reply to a request. After the end of the session those that came
before it are still there. -/
def nextMessage (s : Session) : Received × Session :=
  match s.inbound.pop? with
  | some (message, inbound) => (.message message, { s with inbound := inbound })
  | none => (if s.watch = .reading then .pending else .ended, s)

/-- Sends a message that is no request, as far as that goes without waiting. -/
def send (s : Session) (message : Node) : Outbound.Sender × Session :=
  match s.correlator.terminated with
  | some cause => (.done (.error (.sessionTerminated cause)), s)
  | none =>
    match s.outbound.frame message with
    | .error e => (.done (.error e), s)
    | .ok framed =>
      let (sender, outbound) := s.outbound.send framed
      (sender, { s with outbound := outbound })

/-- Why the session ended, if it did. -/
def awaitEnd (s : Session) : Option Cause × Session :=
  match s.watch with
  | .reading => (none, s)
  | .ended cause => (some cause, { s with watch := .told })
  | .told => (some (s.correlator.terminated.getD .localClose), s)

/-- The application gives up the session. Its requests fail, its number is free again, and the
writer ends when all is written. -/
def drop {σ : Type} (source : IdSource σ) (s : Session) (ids : σ) : Session × σ :=
  let ids := match s.lease with
    | some id => source.release id ids
    | none => ids
  ({ s with
    lease := none
    correlator := s.correlator.terminate .localClose
    outbound := s.outbound.release
    watch := .told }, ids)

/-- Whether a client that closes the session has to ask for that before. -/
def asksToClose (s : Session) : Bool :=
  s.isClient && !s.isTerminated

/-- What the answer to a request to close the session means. -/
def closeResult (answer : Except Error Node) : Except Error Unit := do
  let reply ← Reply.ofNode (← answer)
  if reply.hasErrors then
    match reply.errors with
    | [] => return ()
    | e :: _ => .error (.protocol ("close-session refused: " ++ e.display))

/-- The name of a framing. -/
def framingName : Framing.Mode → String
  | .endOfMessage => "EndOfMessage"
  | .chunked => "Chunked"

/-- The session as a diagnostic shows it. -/
def debug (s : Session) : String :=
  "Session \x7b session_id: " ++ toString s.preferences.sessionId ++ ", framing: " ++
    framingName s.preferences.framing ++ ", correlator: " ++ s.correlator.debug ++ " \x7d"

end Session

end Netconf
