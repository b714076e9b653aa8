import Netconf.Proofs.Outbound.Saying
import Netconf.Proofs.Session.Turn

/-!
# Sessions at work

As long as its transport does not fail and the other side says nothing wrong, a session is at work
(`Course.Works`): its reader and its writer have not come to an end, and the bytes that it has
written, together with those on their way, are its hello and the messages that have entered its
channel. All that the application does keeps it at work (`Works.step`), and so does every message
that is no reply, or the reply to the request in flight (`Works.read`).
-/

namespace Netconf

open Framing

/-! ## Replies and other messages -/

namespace Node

/-- The replies among the messages. -/
def replies (ns : List Node) : List Node :=
  ns.filter (·.messageKind = .rpcReply)

/-- The messages among them that are no replies. -/
def others (ns : List Node) : List Node :=
  ns.filter (·.messageKind ≠ .rpcReply)

variable {ns ms : List Node} {n : Node}

/-- The replies of two lists are those of the first and then those of the second. -/
lemma replies_append : replies (ns ++ ms) = replies ns ++ replies ms :=
  List.filter_append ns ms

/-- The other messages of two lists are those of the first and then those of the second. -/
lemma others_append : others (ns ++ ms) = others ns ++ others ms :=
  List.filter_append ns ms

/-- A single reply is among the replies. -/
lemma replies_of_reply (kind : n.messageKind = .rpcReply) : replies [n] = [n] := by
  simp [replies, kind]

/-- A single message that is no reply is not among the replies. -/
lemma replies_of_other (kind : n.messageKind ≠ .rpcReply) : replies [n] = [] := by
  simp [replies, kind]

/-- A single reply is not among the other messages. -/
lemma others_of_reply (kind : n.messageKind = .rpcReply) : others [n] = [] := by
  simp [others, kind]

/-- A single message that is no reply is among the other messages. -/
lemma others_of_other (kind : n.messageKind ≠ .rpcReply) : others [n] = [n] := by
  simp [others, kind]

end Node

/-! ## Senders -/

/-- The sender has the framed message on its way, or has sent it. -/
inductive Outbound.Sender.Sends (framed : Bytes) : Outbound.Sender → Prop where
  | checking : Sends framed (.checking framed)
  | counted : Sends framed (.counted framed)
  | sent : Sends framed (.done (.ok ()))

namespace Outbound.Carries

open Sender

variable {mode : Mode} {size : Nat} {total written : Bytes} {o o' : Outbound} {hello : Node}
  {posted : List Node} {sender : Sender}

/-- Requests that are handed over are on their way as far as they were accepted. -/
lemma handed (ca : Carries mode size (said mode size hello posted) o written) {es : List Event}
    (handed : Correlator.Handed Outbound.transmit o es o') :
    Carries mode size (said mode size hello (posted ++ es.filterMap Event.transmission?)) o'
      written := by
  induction handed generalizing posted with
  | nil => simpa using ca
  | @cons o _ _ rpc outcome es eq _ ih =>
    rcases ca.transmit rpc with ⟨taken, ca⟩ | ⟨full, same⟩
    · rw [eq] at taken ca
      obtain rfl : outcome = .ok () := taken
      have one : [rpc].flatMap (Node.wire mode size) = rpc.wire mode size :=
        List.flatMap_singleton _ _
      rw [← one, ← said_append] at ca
      have shown : Event.transmission? (.handed rpc (.ok ())) = .some rpc := rfl
      rw [List.filterMap_cons_some shown, ← List.singleton_append, ← List.append_assoc]
      exact ih ca
    · rw [eq] at full same
      obtain rfl : outcome = .error .queueFull := full
      obtain rfl := same
      have hidden : Event.transmission? (.handed rpc (.error .queueFull)) = none := rfl
      rw [List.filterMap_cons_none hidden]
      exact ih ca

/-- A sender that goes on puts its message behind all others, or goes on waiting. -/
lemma move (ca : Carries mode size (said mode size hello posted) o written) (message : Node)
    (se : Sends (message.wire mode size) sender) (waits : ∀ result, sender ≠ .done result) :
    Sends (message.wire mode size) (o.move sender).1 ∧
      Carries mode size (said mode size hello (posted ++ Course.entered message (o.move sender).1))
        (o.move sender).2 written := by
  have result := o.moved sender
  generalize o.move sender = after at result ⊢
  cases result with
  | stays =>
    refine ⟨se, ?_⟩
    cases se with
    | checking => simpa [Course.entered] using ca
    | counted => simpa [Course.entered] using ca
    | sent => exact absurd rfl (waits _)
  | counts =>
    cases se
    exact ⟨.counted, by simpa [Course.entered] using ca.count⟩
  | enters =>
    cases se
    refine ⟨.sent, ?_⟩
    rw [said_append, Course.entered, List.flatMap_singleton]
    exact ca.put _
  | gives closed => exact absurd ca.running closed
  | returns closed => exact absurd ca.running closed

/-- A sender that begins is not done at once, as its message is counted first. -/
lemma waits_checking (ca : Carries mode size total o written) (framed : Bytes) :
    ∀ result, (o.move (.checking framed)).1 ≠ .done result := by
  have result := o.moved (.checking framed)
  generalize o.move (.checking framed) = after at result ⊢
  cases result with
  | stays => exact nofun
  | counts => exact nofun
  | gives closed => exact absurd ca.running closed

/-- The message of a sender that waits has not entered the channel. -/
lemma entered_of_waits {message : Node} (waits : ∀ result, sender ≠ .done result) :
    Course.entered message sender = [] := by
  cases sender with
  | done result => exact absurd rfl (waits result)
  | _ => rfl

/-- A message that is sent enters the channel behind all others, or its sender waits. -/
lemma send (ca : Carries mode size (said mode size hello posted) o written) (message : Node) :
    let after := o.send (message.wire mode size)
    Sends (message.wire mode size) after.1 ∧
      Carries mode size (said mode size hello (posted ++ Course.entered message after.1)) after.2
        written := by
  have waits := ca.waits_checking (message.wire mode size)
  obtain ⟨se, ca⟩ := ca.move message .checking nofun
  rw [entered_of_waits waits, List.append_nil] at ca
  exact ca.move message se waits

end Outbound.Carries

/-! ## What is seen of messages that come in -/

namespace Session

open Correlator

variable {s : Session} {message : Node} {i : Nat}

/-- Of a message for which no request waits it is seen that it was unsolicited. -/
lemma routing_of_unsolicited
    (other : message.messageKind ≠ .rpcReply ∨ s.correlator.inFlight = none) :
    s.routing message = [.routed message (.ok (.unsolicited message))] := by
  simp only [routing, onReply_of_unsolicited _ _ other]
  rfl

/-- Of the reply to the request in flight it is seen that it was delivered, and what is handed over
next. -/
lemma routing_of_match (kind : message.messageKind = .rpcReply)
    (fl : s.correlator.inFlight = some i) (num : message.messageId? = some (messageId i)) :
    s.routing message = .routed message (.ok .delivered) ::
      ({ s.correlator.resolve i (.ok message) with inFlight := none }.pump
        (recording Outbound.transmit) (s.outbound, [])).2.2 := by
  simp only [routing, onReply_of_match _ _ kind fl num]
  exact List.append_nil _

/-- No reply is delivered by handing requests over. -/
lemma deliveries_of_handed {o o' : Outbound} {es : List Event}
    (handed : Handed Outbound.transmit o es o') : es.filterMap Event.delivery? = [] := by
  rw [List.filterMap_eq_nil_iff]
  intro e mem
  obtain ⟨rpc, outcome, rfl, -⟩ := handed.outcome (Q := fun _ => True) (fun _ _ => trivial) e mem
  rfl

end Session

/-! ## Courses -/

namespace Course

open Correlator Session Outbound.Sender

/-- The session is at work, with the reader as it is given. -/
structure Works (mode : Mode) (size : Nat) (hello : Node) (reader : Reader) (passed : List Node)
    (c : Course) : Prop where
  carries : Outbound.Carries mode size (said mode size hello c.posted) c.session.outbound c.written
  watch : c.session.watch = .reading
  going : c.session.correlator.terminated = none
  senders : ∀ e ∈ c.senders, Sends (e.1.wire mode size) e.2
  reader : c.session.reader = reader
  /-- The messages that were passed on to the application. -/
  passed : c.taken ++ c.session.inbound.toList = passed

namespace Works

variable {mode : Mode} {size : Nat} {hello : Node} {reader : Reader} {passed : List Node}
  {c : Course}

/-- Where the messages on their way out are not touched, nothing is put on its way. -/
lemma note (wo : c.Works mode size hello reader passed) {s : Session} {es : List Event}
    (none : es.filterMap Event.transmission? = []) (outbound : s.outbound = c.session.outbound)
    (inbound : s.inbound = c.session.inbound) (watch : s.watch = .reading)
    (going : s.correlator.terminated = .none) (same : s.reader = c.session.reader) :
    (c.note s es).Works mode size hello reader passed where
  carries := by
    rw [Course.note, none, List.append_nil, outbound]
    exact wo.carries
  watch := watch
  going := going
  senders := wo.senders
  reader := same.trans wo.reader
  passed := by
    rw [Course.note, inbound]
    exact wo.passed

/-- A session stays at work when what is on its way makes up the same messages. -/
lemma withOutbound (wo : c.Works mode size hello reader passed) {o : Outbound} {written : Bytes}
    (ca : Outbound.Carries mode size (said mode size hello c.posted) o written) :
    { c.withOutbound o with written := written }.Works mode size hello reader passed :=
  ⟨ca, wo.watch, wo.going, wo.senders, wo.reader, wo.passed⟩

/-- A session stays at work when a request is submitted. -/
lemma submit (wo : c.Works mode size hello reader passed) (operation : Node) :
    (c.step (.submit operation)).Works mode size hello reader passed where
  carries := by
    have ca := wo.carries.handed
      (handed_submit Outbound.transmit c.session.correlator operation c.session.outbound)
    exact ca
  watch := wo.watch
  going := by
    cases turn_submit c.session operation with
    | beside be =>
      rcases be.terminated with same | ⟨-, -, closed⟩
      · exact same.trans wo.going
      · exact absurd wo.carries.running closed
    | ends _ ended => exact absurd (ended.symm.trans wo.watch) nofun
    | tells _ told => exact absurd (told.symm.trans wo.watch) nofun
  senders := wo.senders
  reader := wo.reader
  passed := wo.passed

/-- A session stays at work when a message is sent. -/
lemma send (wo : c.Works mode size hello reader passed) (message : Node) :
    (c.step (.send message)).Works mode size hello reader passed := by
  obtain ⟨se, ca⟩ := wo.carries.send message
  have sent : c.session.send message =
      ((c.session.outbound.send (message.wire mode size)).1,
        { c.session with outbound := (c.session.outbound.send (message.wire mode size)).2 }) := by
    rw [Session.send, wo.going, wo.carries.frame]
  simp only [step, Course.send, sent]
  refine ⟨ca, wo.watch, wo.going, ?_, wo.reader, wo.passed⟩
  exact List.forall_mem_append.mpr ⟨wo.senders, List.forall_mem_singleton.mpr se⟩

/-- A session stays at work when a sender goes on. -/
lemma proceed (wo : c.Works mode size hello reader passed) (k : Nat) :
    (c.step (.proceed k)).Works mode size hello reader passed := by
  rw [step, Course.proceed]
  split
  · exact wo
  · exact wo
  · next message sender waits at_k =>
    obtain ⟨se, ca⟩ := wo.carries.move message (wo.senders _ (List.mem_of_getElem? at_k)) waits
    refine ⟨ca, wo.watch, wo.going, ?_, wo.reader, wo.passed⟩
    intro e mem
    rcases List.mem_or_eq_of_mem_set mem with old | rfl
    · exact wo.senders e old
    · exact se

/-- A session stays at work when its application asks for a message. -/
lemma nextMessage (wo : c.Works mode size hello reader passed) :
    (c.step .nextMessage).Works mode size hello reader passed := by
  rw [step, Course.nextMessage, Session.nextMessage]
  cases front : c.session.inbound.pop? with
  | none =>
    simp only [wo.watch, if_true]
    exact wo
  | some next =>
    obtain ⟨message, inbound⟩ := next
    refine ⟨wo.carries, wo.watch, wo.going, wo.senders, wo.reader, ?_⟩
    rw [← wo.passed, Queue.toList_of_pop? front, List.append_assoc]
    rfl

/-- A session at work has no failure of its writer to notice. -/
lemma notice (wo : c.Works mode size hello reader passed) :
    (c.step .notice).Works mode size hello reader passed := by
  have whole : c.session.outbound.failure? = none := by
    rw [Outbound.failure?, wo.carries.running]
  have same : c.session.notice = c.session := by
    rw [Session.notice, whole]
    split
    · next none => cases none
    · rfl
  have none : c.session.noticing = [] := by
    rw [noticing, whole]
    split
    · next none => cases none
    · rfl
  rw [step, same, none]
  exact wo.note rfl rfl rfl wo.watch wo.going rfl

/-- A session at work has no end to tell of. -/
lemma awaitEnd (wo : c.Works mode size hello reader passed) :
    (c.step .awaitEnd).Works mode size hello reader passed := by
  have same : c.session.awaitEnd.2 = c.session := by
    rw [Session.awaitEnd, wo.watch]
  rw [step, same]
  exact wo

/-- Whatever happens beside the reader, a session stays at work. -/
lemma step (wo : c.Works mode size hello reader passed) {act : Act}
    (other : ∀ reads, act ≠ .read reads)
    (reliable : act.Reliable) :
    (c.step act).Works mode size hello reader passed := by
  cases act with
  | submit operation => exact wo.submit operation
  | cancel index =>
    exact wo.note rfl rfl rfl wo.watch (aside_cancel.terminated.trans wo.going) rfl
  | forget index =>
    exact wo.note rfl rfl rfl wo.watch (aside_forget.terminated.trans wo.going) rfl
  | take index =>
    exact wo.note rfl rfl rfl wo.watch (aside_take.terminated.trans wo.going) rfl
  | send message => exact wo.send message
  | proceed k => exact wo.proceed k
  | nextMessage => exact wo.nextMessage
  | read reads => exact absurd rfl (other reads)
  | fetch =>
    rw [Course.step]
    split
    · next done => exact wo.withOutbound (wo.carries.takeBatch done)
    · exact wo
  | write planned => exact wo.withOutbound (wo.carries.writeOut reliable)
  | flush failure =>
    cases reliable
    exact wo.withOutbound wo.carries.flushed
  | notice => exact wo.notice
  | awaitEnd => exact wo.awaitEnd

/-! ## Reading -/

variable {reads left : List Read} {r : Reader}

/-- A session at work heeds what its reader comes to. -/
lemma read_eq (wo : c.Works mode size hello reader passed) {reading : Reading}
    (next : reader.next reads = (reading, r, left)) :
    c.read reads = (c.note (c.session.heed r reading) (c.session.heeding reading), left) := by
  rw [← wo.reader] at next
  rw [Course.read, if_pos wo.watch]
  simp only [Session.readOne, next]

/-- While no message is complete, a session waits for more bytes. -/
lemma wait (wo : c.Works mode size hello reader passed)
    (next : reader.next reads = (.waiting, r, left)) :
    ∃ c', c.read reads = (c', left) ∧ c'.Works mode size hello r passed ∧ c'.trace = c.trace := by
  refine ⟨_, wo.read_eq next, ?_, List.append_nil _⟩
  refine ⟨?_, wo.watch, wo.going, wo.senders, rfl, wo.passed⟩
  simpa [Course.note, heed, heeding] using wo.carries

/-- A message that is no reply is passed on. -/
lemma note_other (wo : c.Works mode size hello reader passed) {message : Node} (r : Reader)
    (kind : message.messageKind ≠ .rpcReply) :
    (c.note ({ c.session with reader := r }.route message) (c.session.routing message)).Works
      mode size hello r (passed ++ [message]) := by
  rw [route_of_unsolicited (.inl kind), routing_of_unsolicited (.inl kind)]
  refine ⟨?_, wo.watch, wo.going, wo.senders, rfl, ?_⟩
  · change Outbound.Carries mode size (said mode size hello (c.posted ++ [])) _ _
    rw [List.append_nil]
    exact wo.carries
  · rw [← wo.passed, List.append_assoc]
    exact congrArg (c.taken ++ ·) (Queue.toList_push c.session.inbound message)

/-- The reply to the request in flight is delivered, and the next request handed over. -/
lemma note_reply (wo : c.Works mode size hello reader passed) {message : Node} {i : Nat}
    (r : Reader) (kind : message.messageKind = .rpcReply)
    (fl : c.session.correlator.inFlight = some i) (num : message.messageId? = some (messageId i)) :
    (c.note ({ c.session with reader := r }.route message) (c.session.routing message)).Works
      mode size hello r passed := by
  have handed := handed_onReply Outbound.transmit c.session.correlator message c.session.outbound
  have pumped := terminated_pump
    { c.session.correlator.resolve i (.ok message) with inFlight := none } c.session.outbound
  rw [onReply_of_match _ _ kind fl num, onReply_of_match _ _ kind fl num] at handed
  have ca := wo.carries.handed handed
  rw [route_of_match (s := { c.session with reader := r }) kind fl num,
    routing_of_match kind fl num]
  refine ⟨ca, wo.watch, ?_, wo.senders, rfl, wo.passed⟩
  rcases pumped with same | ⟨-, closed⟩
  · exact same.trans wo.going
  · exact absurd wo.carries.running closed

/-- A message that is no reply is passed on, and the reply to the request in flight is delivered. -/
lemma read (wo : c.Works mode size hello reader passed) {payload : Bytes} {message : Node}
    (next : reader.next reads = (.message payload, r, left))
    (decoded : Node.decode? payload = .ok message)
    (expected : message.messageKind = .rpcReply → ∃ i, c.session.correlator.inFlight = some i ∧
      message.messageId? = some (messageId i)) :
    ∃ c' es, c.read reads = (c', left) ∧
      c'.Works mode size hello r (passed ++ Node.others [message]) ∧ c'.trace = c.trace ++ es ∧
      es.filterMap Event.delivery? = Node.replies [message] := by
  have heeds : c.session.heed r (.message payload) =
      { c.session with reader := r }.route message := by
    rw [heed, receive, decoded]
  have shows : c.session.heeding (.message payload) = c.session.routing message := by
    rw [heeding, decoded]
  refine ⟨_, _, wo.read_eq next, ?_, rfl, ?_⟩
  · rw [heeds, shows]
    by_cases kind : message.messageKind = .rpcReply
    · obtain ⟨i, fl, num⟩ := expected kind
      rw [Node.others_of_reply kind, List.append_nil]
      exact wo.note_reply r kind fl num
    · rw [Node.others_of_other kind]
      exact wo.note_other r kind
  · rw [shows]
    by_cases kind : message.messageKind = .rpcReply
    · obtain ⟨i, fl, num⟩ := expected kind
      have handed :=
        handed_onReply Outbound.transmit c.session.correlator message c.session.outbound
      rw [onReply_of_match _ _ kind fl num] at handed
      have shown : Event.delivery? (.routed message (.ok .delivered)) = some message := rfl
      rw [routing_of_match kind fl num, Node.replies_of_reply kind,
        List.filterMap_cons_some shown, deliveries_of_handed handed]
    · rw [routing_of_unsolicited (.inl kind), Node.replies_of_other kind]
      rfl

end Works

end Course

end Netconf
