import Netconf.Error
import Netconf.Message

/-!
# Pairing requests with replies

Requests are numbered and queued in the order of submission, and handed to the transmitter one at a
time: the next one goes out when the reply to the one in flight has come. A request can be cancelled
as long as it is queued. A reply with another number than that of the request in flight ends the
session, and with it all requests.
-/

namespace Netconf

/-- How far a request got. -/
inductive RequestStatus where
  | queued
  | sent
  | cancelled
  deriving DecidableEq, Repr

/-- The name of a status. -/
def RequestStatus.name : RequestStatus → String
  | queued => "Queued"
  | sent => "Sent"
  | cancelled => "Cancelled"

/-- What has become of the answer to a request. -/
inductive Answer where
  /-- It is still to come. -/
  | due
  | given (result : Except Error Node)
  /-- It will never come. -/
  | withheld

/-- A request as its submitter sees it. -/
structure Request where
  status : RequestStatus
  answer : Answer
  /-- Whether the submitter still waits: it has neither taken the answer nor given up. -/
  held : Bool

/-- A request in the queue. -/
structure Waiting where
  /-- Its index among the requests. -/
  index : Nat
  rpc : Node

/-- Where an inbound message belongs. -/
inductive Routing where
  /-- It was the reply to the request in flight. -/
  | delivered
  /-- It is no reply to a request. -/
  | unsolicited (message : Node)

/-- What a request comes to when its submitter asks for the answer. -/
inductive Polled where
  | pending
  | resolved (result : Except Error Node)

/-- State of pairing requests with replies. -/
structure Correlator where
  /-- All requests in the order of submission. -/
  requests : Array Request
  queue : List Waiting
  /-- Index of the request that waits for its reply. -/
  inFlight : Option Nat
  /-- Why no more requests are taken. -/
  terminated : Option Cause

namespace Correlator

/-- A correlator without requests. -/
def new : Correlator :=
  ⟨#[], [], none, none⟩

/-- The number of a request as a `message-id`; they count from one. -/
def messageId (index : Nat) : String :=
  toString (index + 1)

/-! ## Single requests -/

/-- The request with the given index, if its submitter still waits. -/
def held? (c : Correlator) (index : Nat) : Option Request :=
  c.requests[index]?.filter (·.held)

/-- Changes one request. -/
def update (c : Correlator) (index : Nat) (f : Request → Request) : Correlator :=
  { c with requests := c.requests.modify index f }

/-- Gives a request another status. -/
def mark (c : Correlator) (index : Nat) (status : RequestStatus) : Correlator :=
  c.update index fun r => { r with status := status }

/-- Decides the result of a request. -/
def resolve (c : Correlator) (index : Nat) (result : Except Error Node) : Correlator :=
  c.update index fun r => { r with answer := .given result }

/-- Gives up a request without a result. -/
def withhold (c : Correlator) (index : Nat) : Correlator :=
  c.update index fun r => { r with answer := .withheld }

/-- Whether a request was not cancelled before it was sent. -/
def isQueued (c : Correlator) (index : Nat) : Bool :=
  c.requests[index]?.any (·.status == .queued)

/-! ## Termination -/

/-- Fails the request in flight and all that are queued, and takes no more. -/
def failAll (c : Correlator) (cause : Cause) : Correlator :=
  let failed := c.inFlight.toList ++ c.queue.map (·.index)
  { failed.foldl (fun c index => c.resolve index (.error (.sessionTerminated cause))) c with
    queue := []
    inFlight := none
    terminated := some cause }

/-- Ends all requests, unless they were ended before. -/
def terminate (c : Correlator) (cause : Cause) : Correlator :=
  if c.terminated.isSome then c else c.failAll cause

/-! ## Submission and transmission

The transmitter takes a request or refuses it; its state is carried along. -/

section

variable {τ : Type} (transmit : Node → τ → Except Error Unit × τ)

/-- Hands the first live request of the queue to the transmitter. One that is refused is failed
with the error, and if that is fatal, so are all others with its cause. -/
def advance (c : Correlator) (t : τ) : List Waiting → Correlator × τ
  | [] => ({ c with queue := [] }, t)
  | w :: rest =>
    if c.isQueued w.index then
      let c := c.mark w.index .sent
      match transmit w.rpc t with
      | (.ok _, t) => ({ c with queue := rest, inFlight := some w.index }, t)
      | (.error e, t) =>
        let c := c.resolve w.index (.error e)
        if e.isFatal then ({ c with queue := rest }.failAll e.cause, t) else advance c t rest
    else advance (c.withhold w.index) t rest

/-- Hands over the next request, if none is in flight and there is no termination. -/
def pump (c : Correlator) (t : τ) : Correlator × τ :=
  if c.inFlight.isNone && c.terminated.isNone then c.advance transmit t c.queue else (c, t)

/-- Submits an operation; the index of the request comes with the new state. -/
def submit (c : Correlator) (operation : Node) (t : τ) : Nat × Correlator × τ :=
  let index := c.requests.size
  match c.terminated with
  | some cause =>
    let request : Request := ⟨.sent, .given (.error (.sessionTerminated cause)), true⟩
    (index, { c with requests := c.requests.push request }, t)
  | none =>
    let request : Request := ⟨.queued, .due, true⟩
    let waiting : Waiting := ⟨index, .rpc (messageId index) operation⟩
    let c := { c with requests := c.requests.push request, queue := c.queue ++ [waiting] }
    (index, c.pump transmit t)

/-- Takes in an inbound message. A reply to the request in flight makes way for the next one. -/
def onReply (c : Correlator) (message : Node) (t : τ) : Except Error Routing × Correlator × τ :=
  if message.messageKind ≠ .rpcReply then (.ok (.unsolicited message), c, t)
  else
    match c.inFlight with
    | none => (.ok (.unsolicited message), c, t)
    | some index =>
      if message.messageId? = some (messageId index) then
        let c := { c.resolve index (.ok message) with inFlight := none }
        (.ok .delivered, c.pump transmit t)
      else
        let e := Error.correlation (messageId index) message.messageId?
        (.error e, c.failAll e.cause, t)

end

/-! ## The submitter's side -/

/-- Cancels a request if it is still queued; false otherwise. -/
def cancel (c : Correlator) (index : Nat) : Bool × Correlator :=
  if c.isQueued index then (true, c.mark index .cancelled) else (false, c)

/-- Asks for the answer to a request. -/
def poll (c : Correlator) (index : Nat) : Option Polled :=
  (c.held? index).map fun r =>
    if r.status = .cancelled then .resolved (.error .cancelled)
    else
      match r.answer with
      | .due => .pending
      | .given result => .resolved result
      | .withheld => .resolved (.error .connectionClosed)

/-- Asks for the answer to a request and takes it if it is there. -/
def take (c : Correlator) (index : Nat) : Option Polled × Correlator :=
  match c.poll index with
  | some (.resolved result) =>
    (some (.resolved result), c.update index fun r => { r with held := false })
  | polled => (polled, c)

/-- Gives up waiting for a request, which is cancelled if it is still queued. -/
def forget (c : Correlator) (index : Nat) : Correlator :=
  (c.cancel index).2.update index fun r => { r with held := false }

/-! ## Views -/

/-- Number of the requests that wait for an answer, without those cancelled. -/
def pending (c : Correlator) : Nat :=
  (c.queue.filter fun w => c.isQueued w.index).length + c.inFlight.toList.length

/-- The `message-id` of the request in flight. -/
def inFlightId? (c : Correlator) : Option String :=
  c.inFlight.map messageId

/-- The correlator as a diagnostic shows it. -/
def debug (c : Correlator) : String :=
  let cause := match c.terminated with
    | none => "None"
    | some cause => "Some(" ++ cause.debug ++ ")"
  "Correlator \x7b queued: " ++ toString c.queue.length ++
    ", in_flight: " ++ Text.quotedOption c.inFlightId? ++ ", terminated: " ++ cause ++ " \x7d"

end Correlator

end Netconf
