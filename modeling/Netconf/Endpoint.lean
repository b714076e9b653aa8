import Netconf.Opening
import Netconf.Transport

/-!
# Sessions on a transport in memory

A session, its transport and the source of its number, run as one: after every step of the
application or the peer, reader and writer go on until there is nothing left to do.
-/

namespace Netconf

/-- How the application holds a session. -/
inductive Tenure where
  | held
  /-- It waits for the answer to its request to close the session. -/
  | asking (index : Nat)
  /-- It has given up the session and waits for the writer. -/
  | draining (result : Except Error Unit)
  /-- The session is closed, and the result is there. -/
  | closed (result : Except Error Unit)
  | gone

/-- Whether the session has not been given up. -/
def Tenure.isAlive : Tenure → Bool
  | held | asking _ => true
  | _ => false

/-- A session on a transport in memory. -/
structure Endpoint (σ : Type) where
  session : Session
  transport : Transport
  /-- The greatest number of bytes that are read at once. -/
  readSize : Nat
  tenure : Tenure
  /-- Where the session's number came from. -/
  ids : σ
  /-- The requests whose answers the application keeps an eye on, by their indices. -/
  futures : List Nat

/-- What opening a session on a transport comes to. -/
structure Opened (σ : Type) where
  /-- The session, an error, or none of them as long as the other side's hello is missing. -/
  result : Except Error (Option Session)
  transport : Transport
  ids : σ

/-- A step of the peer. -/
inductive PeerStep where
  /-- It sends bytes. -/
  | deliver (bytes : Bytes)
  /-- It ends its stream. -/
  | finish
  /-- Reading its stream fails after the bytes that were sent. -/
  | breakReads (reason : String)
  /-- Writing fails from now on. -/
  | breakWrites (fault : WriteFault)
  /-- It takes bytes until there are no more. -/
  | collect
  /-- It takes at most `n` of the bytes that are there. -/
  | collectSome (n : Nat)

/-- What the application does with a request that it has submitted. -/
inductive FutureStep where
  /-- Asks for the answer. -/
  | poll
  | cancel
  | status
  /-- Gives up waiting. -/
  | forget

/-- What the application does with the session. -/
inductive SessionStep where
  | submit (operation : Node)
  /-- Submits an operation and asks for the answer; in between the peer sends bytes. -/
  | call (operation : Node) (bytes : Bytes)
  | nextMessage
  | send (message : Node)
  | awaitEnd
  | info
  | debug
  | drop
  | close

/-- A step of the application or of the peer. -/
inductive Step where
  | peer (step : PeerStep)
  | future (index : Nat) (step : FutureStep)
  | session (step : SessionStep)
  /-- Asks what closing the session has come to. -/
  | closeResult

/-- What a step answers. -/
inductive Outcome where
  | done
  | failed (error : Error)
  /-- There is no answer yet. -/
  | pending
  /-- It takes room in the channel to go on. -/
  | blocked
  /-- There is nothing to ask any more. -/
  | gone
  /-- The session has been given up. -/
  | noSession
  | submitted (messageId : String) (status : RequestStatus)
  | replied (reply : Node)
  | flag (value : Bool)
  | status (value : RequestStatus)
  | answered (reply : Reply)
  | message (node : Option Node)
  | cause (value : Cause)
  | info (sessionId : Nat) (framing : Framing.Mode)
  | text (value : String)

namespace Endpoint

variable {σ : Type} (source : IdSource σ)

/-! ## Opening -/

/-- Establishes a session on a transport, as far as that goes without more bytes from the peer. -/
def establish (side : Side) (config : Config) (offered : CapabilitySet) (t : Transport) (ids : σ) :
    Opened σ :=
  match Opening.begin source side config offered ids with
  | (.error e, ids) => ⟨.error e, t, ids⟩
  | (.ok (hello, o), ids) =>
    let failed (e : Error) (t : Transport) : Opened σ :=
      ⟨.error e, t.shutDown, o.abandon source ids⟩
    let slices := Outbound.remainingSlices 0 [hello]
    match Outbound.writeAndFlush Transport.write Transport.flush slices t with
    | (.failed _ reason, t) => failed (.transport reason) t
    | (.blocked _, t) => ⟨.ok none, t, ids⟩
    | (.complete, t) =>
      match o.reader.next (t.reads config.readBufferSize) with
      | (.waiting, _, rest) => ⟨.ok none, t.unread rest, ids⟩
      | (.ended, _, rest) => failed (.handshake .connectionClosed) (t.unread rest)
      | (.failed e, _, rest) => failed (Session.readFailure e) (t.unread rest)
      | (.message payload, reader, rest) =>
        match { o with reader := reader }.establish source payload ids with
        | (.ok s, ids) => ⟨.ok (some s), t.unread rest, ids⟩
        | (.error e, ids) => ⟨.error e, (t.unread rest).shutDown, ids⟩

/-! ## Running -/

/-- The reader goes on, unless it has come to its end. -/
def read (e : Endpoint σ) : Endpoint σ :=
  if e.tenure.isAlive && e.session.watch == .reading then
    let (session, rest) := e.session.readAll (e.transport.reads e.readSize)
    { e with session := session, transport := e.transport.unread rest }
  else e

/-- The writer goes on, and ends when there is nothing more to expect. -/
def write (e : Endpoint σ) : Endpoint σ :=
  let (outbound, transport) := e.session.outbound.run Transport.write Transport.flush e.transport
  if outbound.isDrained then
    { e with
      session := { e.session with outbound := { outbound with writer := .finished } }
      transport := transport.shutDown }
  else { e with session := { e.session with outbound := outbound }, transport := transport }

/-- The reader learns of a failure of the writer. -/
def notice (e : Endpoint σ) : Endpoint σ :=
  if e.tenure.isAlive then { e with session := e.session.notice } else e

/-- The application gives up the session. -/
def giveUp (tenure : Tenure) (e : Endpoint σ) : Endpoint σ :=
  let (session, ids) := e.session.drop source e.ids
  { e with session := session, ids := ids, tenure := tenure }

/-- An application that asked to close the session goes on when the answer is there. -/
def closeOn (e : Endpoint σ) : Endpoint σ :=
  match e.tenure with
  | .asking index =>
    match e.session.correlator.take index with
    | (some (.resolved answer), correlator) =>
      let e := { e with session := { e.session with correlator := correlator } }
      e.giveUp source (.draining (Session.closeResult answer))
    | _ => e
  | _ => e

/-- An application that waits for the writer goes on when the writer has ended. -/
def closeUp (e : Endpoint σ) : Endpoint σ :=
  match e.tenure with
  | .draining result =>
    if e.session.outbound.writer = .running then e else { e with tenure := .closed result }
  | _ => e

/-- Everything goes on until there is nothing left to do: what was read may have to be written, a
failure to write ends the session, its end answers a request to close it, and then the writer can
come to its end. -/
def settle (e : Endpoint σ) : Endpoint σ :=
  (e.read.write.notice.closeOn source).write.closeUp

/-- The peer takes bytes until there are no more. Every round but the last one takes some, so there
are not more rounds than bytes. -/
def collectAll (rounds : Nat) (e : Endpoint σ) : Bytes × Endpoint σ :=
  match rounds with
  | 0 => ([], e)
  | rounds + 1 =>
    match e.transport.takeAll with
    | ([], _) => ([], e)
    | (taken, transport) =>
      let (rest, e) := collectAll rounds ({ e with transport := transport }.settle source)
      (taken ++ rest, e)

/-- The endpoint of a session that was established. From now on the transport may limit the bytes
that the peer has not taken; it has taken the hello. -/
def ofOpened? (o : Opened σ) (config : Config) (limit : Option Nat) : Option (Endpoint σ) :=
  match o.result with
  | .ok (some s) =>
    some (settle source {
      session := s
      transport := { o.transport with outbound := .empty, room := limit }
      readSize := config.readBufferSize
      tenure := .held
      ids := o.ids
      futures := []
    })
  | _ => none

/-- The number of bytes that the peer can still get. -/
def unsent (e : Endpoint σ) : Nat :=
  let o := e.session.outbound
  e.transport.outbound.toList.length + (o.unwritten ++ o.channel).flatten.length

/-! ## Steps -/

/-- A step of the peer, with the bytes that it takes. -/
def peerStep (e : Endpoint σ) (step : PeerStep) : Bytes × Endpoint σ :=
  match step with
  | .deliver bytes => ([], { e with transport := e.transport.deliver bytes })
  | .finish => ([], { e with transport := { e.transport with ended := true } })
  | .breakReads reason =>
    ([], { e with transport := { e.transport with readFault := some reason } })
  | .breakWrites fault =>
    ([], { e with transport := { e.transport with writeFault := some fault } })
  | .collect => e.collectAll source (e.unsent + 1)
  | .collectSome n =>
    let (taken, transport) := e.transport.take n
    (taken, { e with transport := transport })

/-- The endpoint with another state of the requests. -/
def withCorrelator (e : Endpoint σ) (c : Correlator) : Endpoint σ :=
  { e with session := { e.session with correlator := c } }

/-- A step with one of the requests, which need not be there any more. -/
def futureStep (e : Endpoint σ) (index : Nat) (step : FutureStep) : Outcome × Endpoint σ :=
  let c := e.session.correlator
  match e.futures[index]? with
  | none => (.gone, e)
  | some request =>
    match step, c.held? request with
    | .forget, held => (.flag held.isSome, e.withCorrelator (c.forget request))
    | _, none => (.gone, e)
    | .poll, some _ =>
      match c.take request with
      | (some (.resolved (.ok reply)), c) => (.replied reply, e.withCorrelator c)
      | (some (.resolved (.error error)), c) => (.failed error, e.withCorrelator c)
      | (_, c) => (.pending, e.withCorrelator c)
    | .cancel, some _ =>
      let (cancelled, c) := c.cancel request
      (.flag cancelled, e.withCorrelator c)
    | .status, some request => (.status request.status, e)

/-- Submits an operation and takes the answer if it is there when everything has gone on. -/
def call (e : Endpoint σ) (operation : Node) (bytes : Bytes) : Outcome × Endpoint σ :=
  let (request, session) := e.session.submit operation
  let transport := e.transport.deliver bytes
  let e := { e with session := session, transport := transport }.settle source
  match e.session.correlator.take request with
  | (some (.resolved answer), c) =>
    match answer.bind Reply.ofNode with
    | .ok reply => (.answered reply, e.withCorrelator c)
    | .error error => (.failed error, e.withCorrelator c)
  | (_, c) => (.pending, e.withCorrelator (c.forget request))

/-- A step with a session that is held. -/
def sessionStep (e : Endpoint σ) (step : SessionStep) : Outcome × Endpoint σ :=
  let s := e.session
  match step with
  | .submit operation =>
    let (request, s) := s.submit operation
    let status := (s.correlator.requests[request]?.map (·.status)).getD .queued
    (.submitted (Correlator.messageId request) status,
      { e with session := s, futures := e.futures ++ [request] })
  | .call operation bytes => e.call source operation bytes
  | .nextMessage =>
    match s.nextMessage with
    | (.message node, s) => (.message (some node), { e with session := s })
    | (.ended, s) => (.message none, { e with session := s })
    | (.pending, s) => (.pending, { e with session := s })
  | .send message =>
    match s.send message with
    | (.done (.ok _), s) => (.done, { e with session := s })
    | (.done (.error error), s) => (.failed error, { e with session := s })
    | (.checking _, s) => (.failed .backpressureTimeout, { e with session := s })
    | (.counted _, s) => (.blocked, { e with session := s })
  | .awaitEnd =>
    match s.awaitEnd with
    | (some cause, s) => (.cause cause, { e with session := s })
    | (none, s) => (.pending, { e with session := s })
  | .info => (.info s.preferences.sessionId s.preferences.framing, e)
  | .debug => (.text s.debug, e)
  | .drop => (.done, e.giveUp source .gone)
  | .close =>
    if s.asksToClose then
      let (request, s) := s.submit Operation.closeSession
      (.done, { e with session := s, tenure := .asking request })
    else (.done, e.giveUp source (.draining (.ok ())))

/-- Asks what closing the session has come to. The result is given once. -/
def closeResult (e : Endpoint σ) : Outcome × Endpoint σ :=
  match e.tenure with
  | .held | .gone => (.gone, e)
  | .asking _ | .draining _ => (.pending, e)
  | .closed (.ok _) => (.done, { e with tenure := .gone })
  | .closed (.error error) => (.failed error, { e with tenure := .gone })

/-- One step, after which everything goes on. The peer takes all bytes at once unless the transport
limits them. -/
def step (e : Endpoint σ) (step : Step) : Outcome × Bytes × Endpoint σ :=
  let (outcome, taken, e) := match step with
    | .peer step =>
      let (taken, e) := e.peerStep source step
      (Outcome.done, taken, e)
    | .future index step =>
      let (outcome, e) := e.futureStep index step
      (outcome, [], e)
    | .session step =>
      match e.tenure with
      | .held =>
        let (outcome, e) := e.sessionStep source step
        (outcome, [], e)
      | _ => (Outcome.noSession, [], e)
    | .closeResult =>
      let (outcome, e) := e.closeResult
      (outcome, [], e)
  let e := e.settle source
  match e.transport.room with
  | some _ => (outcome, taken, e)
  | none =>
    let (rest, transport) := e.transport.takeAll
    (outcome, taken ++ rest, { e with transport := transport })

end Endpoint

end Netconf
