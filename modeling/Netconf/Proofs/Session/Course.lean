import Netconf.Proofs.Correlator.Transmitter
import Netconf.Proofs.Outbound.Carrying
import Netconf.Session

/-!
# Courses of sessions

A course is an established session together with all that came of it: what was seen of its requests,
how far its senders got, which messages have entered the channel, which bytes the transport has
taken, and which messages the application. The application, the reader, the writer and the transport
may do anything in any order. What is seen of the requests are the events of some moves, so all that
is kept by moves is kept by sessions.
-/

namespace Netconf

namespace Session

/-- What can happen to an established session. -/
inductive Act where
  | submit (operation : Node)
  | cancel (index : Nat)
  /-- Gives up waiting for an answer. -/
  | forget (index : Nat)
  /-- Asks for an answer. -/
  | take (index : Nat)
  /-- Begins to send a message that is no request. -/
  | send (message : Node)
  /-- A sender goes on. -/
  | proceed (sender : Nat)
  | nextMessage
  /-- The reader is asked for a message, and the transport answers so. -/
  | read (reads : List Framing.Read)
  /-- The writer takes the next batch, if it is done with the one before. -/
  | fetch
  /-- The writer writes, and the transport answers so. -/
  | write (planned : List Written)
  /-- The transport is flushed, which fails for a reason or does not. The writer has that done when
  its batch is written. -/
  | flush (failure : Option String)
  /-- The reader learns of a failure of the writer. -/
  | notice
  /-- The application asks why the session has ended. -/
  | awaitEnd

/-- The transport does not fail in the act. -/
def Act.Reliable : Act → Prop
  | .write planned => Sink.Reliable planned
  | .flush failure => failure = none
  | _ => True

/-! ## What is seen of requests -/

/-- What is seen of a submission: the call, and what is handed over in it. -/
def submission (s : Session) (operation : Node) : List Event :=
  let (index, _, _, handed) :=
    s.correlator.submit (Correlator.recording Outbound.transmit) operation (s.outbound, [])
  .submitted index operation :: handed

/-- What is seen of a message that is routed. -/
def routing (s : Session) (message : Node) : List Event :=
  let (result, _, _, handed) :=
    s.correlator.onReply (Correlator.recording Outbound.transmit) message (s.outbound, [])
  .routed message result :: handed ++
    match result with
    | .ok _ => []
    | .error e => [.terminated e.cause]

/-- What is seen when the reader has come to something. -/
def heeding (s : Session) : Framing.Reading → List Event
  | .message payload =>
    match Node.decode? payload with
    | .ok message => s.routing message
    | .error _ => []
  | .ended => [.terminated .peerClosed]
  | .failed e => [.terminated (readFailure e).cause]
  | .waiting => []

/-- What is seen when the reader learns of a failure of the writer. -/
def noticing (s : Session) : List Event :=
  match s.watch, s.outbound.failure? with
  | .reading, some e => [.terminated e.cause]
  | _, _ => []

/-! ## Routing -/

section

open Correlator

variable {s : Session} {message : Node} {i : Nat}

/-- A message that is no reply, or for which no request waits, is passed on to the application. -/
lemma route_of_unsolicited
    (other : message.messageKind ≠ .rpcReply ∨ s.correlator.inFlight = none) :
    s.route message = { s with inbound := s.inbound.push message } := by
  rw [route, onReply_of_unsolicited Outbound.transmit s.outbound other]

/-- The reply to the request in flight is its answer, and the next request is handed over. -/
lemma route_of_match (kind : message.messageKind = .rpcReply)
    (fl : s.correlator.inFlight = some i) (num : message.messageId? = some (messageId i)) :
    let pumped := { s.correlator.resolve i (.ok message) with
      inFlight := none }.pump Outbound.transmit s.outbound
    s.route message = { s with correlator := pumped.1, outbound := pumped.2 } := by
  rw [route, onReply_of_match Outbound.transmit s.outbound kind fl num]

/-- A reply that is not to the request in flight ends the session. -/
lemma route_of_mismatch (kind : message.messageKind = .rpcReply)
    (fl : s.correlator.inFlight = some i) (num : message.messageId? ≠ some (messageId i)) :
    let cause := (Error.correlation (messageId i) message.messageId?).cause
    s.route message = { s with correlator := s.correlator.failAll cause }.finish cause := by
  rw [route, onReply_of_mismatch Outbound.transmit s.outbound kind fl num]

end

end Session

/-- An established session with all that came of it. -/
structure Course where
  session : Session
  /-- What was seen of its requests. -/
  trace : List Event
  /-- The messages that were begun to send, and how far they got. -/
  senders : List (Node × Outbound.Sender)
  /-- The messages that have entered the channel. -/
  posted : List Node
  /-- The bytes that the transport has taken. -/
  written : Bytes
  /-- The messages that the application has taken. -/
  taken : List Node

namespace Course

open Correlator Session

/-- A session that has just been established, after some bytes were written. -/
def start (s : Session) (written : Bytes) : Course :=
  ⟨s, [], [], [], written, []⟩

/-- The session goes on, and the events are seen. -/
def note (c : Course) (s : Session) (events : List Event) : Course :=
  { c with
    session := s
    trace := c.trace ++ events
    posted := c.posted ++ events.filterMap Event.transmission? }

/-- The session with another state of the requests. -/
def withCorrelator (c : Course) (correlator : Correlator) : Session :=
  { c.session with correlator := correlator }

/-- The session with another state of the messages on their way out. -/
def withOutbound (c : Course) (outbound : Outbound) : Course :=
  { c with session := { c.session with outbound := outbound } }

/-- The message, if it has entered the channel. -/
def entered (message : Node) : Outbound.Sender → List Node
  | .done (.ok _) => [message]
  | _ => []

/-- A message is begun to send. -/
def send (c : Course) (message : Node) : Course :=
  let (sender, s) := c.session.send message
  { c with
    session := s
    senders := c.senders ++ [(message, sender)]
    posted := c.posted ++ entered message sender }

/-- A sender goes on, unless it is done. -/
def proceed (c : Course) (k : Nat) : Course :=
  match c.senders[k]? with
  | none => c
  | some (_, .done _) => c
  | some (message, sender) =>
    let (sender, outbound) := c.session.outbound.move sender
    { c.withOutbound outbound with
      senders := c.senders.set k (message, sender)
      posted := c.posted ++ entered message sender }

/-- The application asks for a message. -/
def nextMessage (c : Course) : Course :=
  match c.session.nextMessage with
  | (.message message, s) => { c with session := s, taken := c.taken ++ [message] }
  | (_, s) => { c with session := s }

/-- The reader is asked for a message, as long as it is at work; the answers of the transport that
were not used are left. -/
def read (c : Course) (reads : List Framing.Read) : Course × List Framing.Read :=
  if c.session.watch = .reading then
    let (reading, _, _) := c.session.reader.next reads
    let (s, rest) := c.session.readOne reads
    (c.note s (c.session.heeding reading), rest)
  else (c, reads)

/-- The writer writes as much of its batch as the transport takes. -/
def write (c : Course) (planned : List Written) : Course :=
  let (outbound, sink) := c.session.outbound.writeOut Sink.write ⟨planned, c.written⟩
  { c.withOutbound outbound with written := sink.taken }

/-- What has come of the session after one more act. -/
def step (c : Course) : Act → Course
  | .submit operation => c.note (c.session.submit operation).2 (c.session.submission operation)
  | .cancel index =>
    let (done, correlator) := c.session.correlator.cancel index
    c.note (c.withCorrelator correlator) [.cancelled index done]
  | .forget index =>
    c.note (c.withCorrelator (c.session.correlator.forget index))
      [.forgot index (c.session.correlator.cancel index).1]
  | .take index =>
    let (polled, correlator) := c.session.correlator.take index
    c.note (c.withCorrelator correlator) [.took index polled]
  | .send message => c.send message
  | .proceed k => c.proceed k
  | .nextMessage => c.nextMessage
  | .read reads => (c.read reads).1
  | .fetch =>
    if c.session.outbound.batch = [] then c.withOutbound c.session.outbound.takeBatch else c
  | .write planned => c.write planned
  | .flush failure => c.withOutbound (c.session.outbound.flushed failure)
  | .notice => c.note c.session.notice c.session.noticing
  | .awaitEnd => { c with session := c.session.awaitEnd.2 }

/-- What has come of the session after some more acts. -/
def run (c : Course) (acts : List Act) : Course :=
  acts.foldl step c

/-! ## Moves -/

section

variable {c : Course} {s : Session}

/-- What is seen of a submission are the events of some moves. -/
lemma moves_submission (s : Session) (operation : Node) :
    Moves s.correlator (s.submission operation) (s.submit operation).2.correlator := by
  obtain ⟨es, eq, mvs⟩ :=
    submit_recording Outbound.transmit s.correlator operation s.outbound
  simp only [submission, eq]
  exact mvs

/-- What is seen of a message that is routed are the events of some moves. -/
lemma moves_routing (s : Session) (message : Node) :
    Moves s.correlator (s.routing message) (s.route message).correlator := by
  obtain ⟨es, eq, mvs⟩ := onReply_recording Outbound.transmit s.correlator message s.outbound
  simp only [routing, route, eq]
  match result : s.correlator.onReply Outbound.transmit message s.outbound with
  | (.ok .delivered, correlator, outbound) =>
    rw [result] at mvs
    rw [List.append_nil]
    exact mvs
  | (.ok (.unsolicited _), correlator, outbound) =>
    rw [result] at mvs
    rw [List.append_nil]
    exact mvs
  | (.error e, correlator, outbound) =>
    rw [result] at mvs
    exact mvs.trans (.single .terminate)

/-- What is seen when the reader has come to something are the events of some moves. -/
lemma moves_heeding (s : Session) (reader : Framing.Reader) (reading : Framing.Reading) :
    Moves s.correlator (s.heeding reading) (s.heed reader reading).correlator := by
  cases reading with
  | message payload =>
    simp only [heeding, heed, receive]
    cases Node.decode? payload with
    | ok message => exact moves_routing { s with reader := reader } message
    | error => exact .refl
  | ended => exact .single .terminate
  | failed => exact .single .terminate
  | waiting => exact .refl

/-- What is seen when the reader learns of a failure of the writer are the events of some moves. -/
lemma moves_noticing (s : Session) :
    Moves s.correlator s.noticing s.notice.correlator := by
  rw [noticing, notice]
  cases s.watch with
  | reading =>
    cases s.outbound.failure? with
    | none => exact .refl
    | some e => exact .single .terminate
  | ended => exact .refl
  | told => exact .refl

/-- Sending a message that is no request leaves the requests as they are. -/
lemma correlator_send (s : Session) (message : Node) :
    (s.send message).2.correlator = s.correlator := by
  unfold Session.send
  split
  · rfl
  · split <;> rfl

/-- Asking for a message leaves the requests as they are. -/
lemma correlator_nextMessage (s : Session) : s.nextMessage.2.correlator = s.correlator := by
  unfold Session.nextMessage
  split <;> rfl

/-- Asking why the session has ended leaves the requests as they are. -/
lemma correlator_awaitEnd (s : Session) : s.awaitEnd.2.correlator = s.correlator := by
  unfold Session.awaitEnd
  split <;> rfl

/-- What is seen of an act are the events of some moves. -/
lemma step_moves (c : Course) (act : Act) :
    ∃ es, (c.step act).trace = c.trace ++ es ∧
      Moves c.session.correlator es (c.step act).session.correlator := by
  have quiet {d : Course} (trace : d.trace = c.trace)
      (same : d.session.correlator = c.session.correlator) :
      ∃ es, d.trace = c.trace ++ es ∧ Moves c.session.correlator es d.session.correlator :=
    ⟨[], by simp [trace], same ▸ .refl⟩
  cases act with
  | submit operation => exact ⟨_, rfl, moves_submission c.session operation⟩
  | cancel index => exact ⟨_, rfl, .single .cancel⟩
  | forget index => exact ⟨_, rfl, .single .forget⟩
  | take index => exact ⟨_, rfl, .single .take⟩
  | send message => exact quiet rfl (correlator_send c.session message)
  | proceed k =>
    rw [step, proceed]
    split <;> exact quiet rfl rfl
  | nextMessage =>
    rw [step, nextMessage]
    have same := correlator_nextMessage c.session
    split <;> next eq => rw [eq] at same; exact quiet rfl same
  | read reads =>
    rw [step, read]
    split
    · exact ⟨_, rfl, moves_heeding c.session _ _⟩
    · exact quiet rfl rfl
  | fetch =>
    rw [step]
    split <;> exact quiet rfl rfl
  | write => exact quiet rfl rfl
  | flush => exact quiet rfl rfl
  | notice => exact ⟨_, rfl, moves_noticing c.session⟩
  | awaitEnd => exact quiet rfl (correlator_awaitEnd c.session)

/-- What is seen of some acts are the events of some moves. -/
lemma run_moves (c : Course) (acts : List Act) :
    ∃ es, (c.run acts).trace = c.trace ++ es ∧
      Moves c.session.correlator es (c.run acts).session.correlator := by
  induction acts generalizing c with
  | nil => exact ⟨[], by simp [run], .refl⟩
  | cons act rest ih =>
    obtain ⟨es, eq, mvs⟩ := c.step_moves act
    obtain ⟨fs, eq', mvs'⟩ := ih (c.step act)
    refine ⟨es ++ fs, ?_, mvs.trans mvs'⟩
    rw [← List.append_assoc, ← eq]
    exact eq'

end

end Course

end Netconf
