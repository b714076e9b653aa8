import Netconf.Proofs.Correlator.Trace
import Netconf.Proofs.Session.Course

/-!
# What an act does about the end of a session

All that an act can do about the end of a session is one of three things (`Session.Turn`): the
reader comes to its end, the application is told of that, or something happens beside the reader, by
which requests may find that the writer does not run any more. What is seen of requests comes from
that act (`Event.Shows`).
-/

namespace Netconf

/-! ## Requests -/

/-- The event can be seen of the act: only a submission submits, and messages come in only where
the reader is asked. A request that the transmitter refuses is refused for want of room or at a
closed channel. -/
inductive Event.Shows (act : Session.Act) : Event → Prop where
  | submitted {index operation} :
    act = .submit operation →
    Shows act (.submitted index operation)
  | cancelled {index done} :
    Shows act (.cancelled index done)
  | forgot {index done} :
    Shows act (.forgot index done)
  | took {index polled} :
    Shows act (.took index polled)
  | routed {reads message result} :
    act = .read reads →
    Shows act (.routed message result)
  | terminated {cause} :
    Shows act (.terminated cause)
  | accepted {rpc} :
    Shows act (.handed rpc (.ok ()))
  | refused {rpc error} :
    error = .queueFull ∨ error = .connectionClosed →
    Shows act (.handed rpc (.error error))

/-- Replies are delivered only where the reader is asked. -/
lemma Event.Shows.delivery? {act : Session.Act} {e : Event} (shows : e.Shows act)
    (other : ∀ reads, act ≠ .read reads) : e.delivery? = none := by
  cases shows with
  | routed read => exact absurd read (other _)
  | _ => rfl

/-- A request that the transmitter refuses is refused for want of room or at a closed channel. -/
def Event.Plain (e : Event) : Prop :=
  ∀ rpc error, e = .handed rpc (.error error) → error = .queueFull ∨ error = .connectionClosed

/-- What is seen of an act is plain. -/
lemma Event.Shows.plain {act : Session.Act} {e : Event} (shows : e.Shows act) : e.Plain := by
  rintro rpc error rfl
  cases shows with
  | refused plain => exact plain

namespace Correlator

/-- Handing requests over ends the session only at a closed channel. -/
lemma terminated_advance (c : Correlator) (o : Outbound) (ws : List Waiting) :
    (c.advance Outbound.transmit o ws).1.terminated = c.terminated ∨
      (c.advance Outbound.transmit o ws).1.terminated = some .peerClosed ∧
        o.writer ≠ .running := by
  induction ws generalizing c o with
  | nil => exact .inl rfl
  | cons w rest ih =>
    rw [advance]
    split
    · have result := Outbound.transmission o w.rpc
      generalize Outbound.transmit w.rpc o = after at result ⊢
      cases result with
      | taken => exact .inl rfl
      | full => exact ih _ o
      | closed closed => exact .inr ⟨rfl, closed⟩
    · exact ih _ o

/-- Handing over waiting requests ends the session only at a closed channel. -/
lemma terminated_pump (c : Correlator) (o : Outbound) :
    (c.pump Outbound.transmit o).1.terminated = c.terminated ∨
      (c.pump Outbound.transmit o).1.terminated = some .peerClosed ∧ o.writer ≠ .running := by
  rw [pump]
  split
  · exact terminated_advance c o c.queue
  · exact .inl rfl

/-- The first cause for which requests are terminated stays. -/
lemma terminated_terminate (c : Correlator) (cause : Cause) :
    (c.terminate cause).terminated = some (c.terminated.getD cause) := by
  rcases terminate_cases (c := c) cause with ⟨op, eq⟩ | ⟨term, eq⟩
  · rw [eq, op]
    rfl
  · obtain ⟨first, term⟩ := Option.isSome_iff_exists.mp term
    rw [eq, term]
    rfl

end Correlator

/-! ## One session -/

namespace Session

open Correlator

variable {s s' : Session}

/-- What happens beside the reader. Requests end by it only at a writer that does not run. -/
structure Beside (s s' : Session) : Prop where
  watch : s'.watch = s.watch
  writer : s'.outbound.writer = s.outbound.writer ∨ ∃ e, s'.outbound.writer = .failed e
  terminated : s'.correlator.terminated = s.correlator.terminated ∨
    s.correlator.terminated = none ∧ s'.correlator.terminated = some .peerClosed ∧
      s.outbound.writer ≠ .running

/-- All that can happen to a session, as far as its end is concerned. -/
inductive Turn (s s' : Session) : Prop where
  | beside :
    Beside s s' → Turn s s'
  /-- The reader comes to its end. -/
  | ends {cause} :
    s.watch = .reading → s'.watch = .ended cause → s'.outbound.writer = s.outbound.writer →
    s'.correlator.terminated = some (s.correlator.terminated.getD cause) → Turn s s'
  /-- The application is told the cause to which the reader came. -/
  | tells {cause} :
    s.watch = .ended cause → s'.watch = .told → s'.outbound.writer = s.outbound.writer →
    s'.correlator.terminated = s.correlator.terminated → Turn s s'

/-! ## What each operation does -/

/-- An act that leaves the reader's end, the writer and the requests' end alone is a turn. -/
lemma Turn.quiet (watch : s'.watch = s.watch) (writer : s'.outbound.writer = s.outbound.writer)
    (terminated : s'.correlator.terminated = s.correlator.terminated) : Turn s s' :=
  .beside ⟨watch, .inl writer, .inl terminated⟩

/-- The end of the reader is a turn. -/
lemma Turn.finish (reading : s.watch = .reading) (cause : Cause) : Turn s (s.finish cause) :=
  .ends reading rfl rfl (terminated_terminate s.correlator cause)

/-- Handing a message over leaves the writer as it is. -/
lemma writer_transmit (n : Node) (o : Outbound) : (Outbound.transmit n o).2.writer = o.writer := by
  have result := Outbound.transmission o n
  generalize Outbound.transmit n o = after at result ⊢
  cases result <;> rfl

/-- Handing messages over does not touch the writer. -/
lemma writer_of_handed {o o' : Outbound} {es : List Event}
    (handed : Handed Outbound.transmit o es o') : o'.writer = o.writer :=
  handed.invariant (P := fun x => x.writer = o.writer)
    (fun {n x} now => (writer_transmit n x).trans now) rfl

/-- A move of a sender leaves the writer as it is. -/
lemma writer_move (o : Outbound) (sender : Outbound.Sender) :
    (o.move sender).2.writer = o.writer := by
  have result := o.moved sender
  generalize o.move sender = after at result ⊢
  cases result <;> rfl

/-- A session that has just been established goes on, and has no requests. -/
lemma started {preferences : Preferences} {lease : Option Nat} {reader : Framing.Reader}
    {config : Config} (established : start preferences lease reader config = .ok s) :
    s.watch = .reading ∧ s.correlator = .new ∧ s.outbound.writer = .running := by
  rw [start] at established
  cases mode : reader.setMode preferences.framing with
  | ok =>
    rw [mode] at established
    cases established
    exact ⟨rfl, rfl, rfl⟩
  | error =>
    rw [mode] at established
    cases established

/-- A submission is a turn. -/
lemma turn_submit (s : Session) (operation : Node) : Turn s (s.submit operation).2 := by
  refine .beside ⟨rfl, .inl ?_, ?_⟩
  · exact writer_of_handed (handed_submit Outbound.transmit s.correlator operation s.outbound)
  · cases term : s.correlator.terminated with
    | some cause =>
      rw [submit, submit_of_terminated Outbound.transmit operation s.outbound term]
      exact .inl term
    | none =>
      rw [submit, submit_of_open Outbound.transmit operation s.outbound term]
      have pumped := terminated_pump (s.correlator.enqueue operation) s.outbound
      exact pumped.imp (·.trans term) fun closed => ⟨rfl, closed⟩

/-- Routing a message is a turn. -/
lemma turn_route (ch : Coherent s.correlator) (reading : s.watch = .reading) (message : Node) :
    Turn s (s.route message) := by
  cases s.correlator.reception message with
  | unsolicited other =>
    rw [route_of_unsolicited other]
    exact .quiet rfl rfl rfl
  | @expected i kind fl num =>
    have op := ch.open_of_inFlight fl
    have pumped := terminated_pump
      { s.correlator.resolve i (.ok message) with inFlight := none } s.outbound
    have handed := handed_onReply Outbound.transmit s.correlator message s.outbound
    rw [onReply_of_match Outbound.transmit s.outbound kind fl num] at handed
    rw [route_of_match kind fl num]
    exact .beside ⟨rfl, .inl (writer_of_handed handed), pumped.imp id fun closed => ⟨op, closed⟩⟩
  | unexpected kind fl num =>
    rw [route_of_mismatch kind fl num]
    refine .ends reading rfl rfl ?_
    rw [ch.open_of_inFlight fl]
    rfl

/-- Heeding what the reader has come to is a turn. -/
lemma turn_heed (ch : Coherent s.correlator) (watch : s.watch = .reading)
    (reader : Framing.Reader) (reading : Framing.Reading) : Turn s (s.heed reader reading) := by
  cases reading with
  | message payload =>
    rw [heed, receive]
    split
    · next message _ =>
      -- Where the reader stands makes no difference to the end.
      cases @turn_route { s with reader := reader } ch watch message with
      | beside be => exact .beside ⟨be.watch, be.writer, be.terminated⟩
      | ends watch ended writer term => exact .ends watch ended writer term
      | tells ended => cases watch.symm.trans ended
    · exact .quiet rfl rfl rfl
  | ended => exact .ends watch rfl rfl (terminated_terminate s.correlator _)
  | failed => exact .ends watch rfl rfl (terminated_terminate s.correlator _)
  | waiting => exact .quiet rfl rfl rfl

/-- Learning of a failure of the writer is a turn. -/
lemma turn_notice (s : Session) : Turn s s.notice := by
  rw [notice]
  split
  · next reading _ => exact .finish reading _
  · exact .quiet rfl rfl rfl

/-- Asking why the session has ended is a turn. -/
lemma turn_awaitEnd (s : Session) : Turn s s.awaitEnd.2 := by
  unfold awaitEnd
  split
  · exact .quiet rfl rfl rfl
  · next ended => exact .tells ended rfl rfl rfl
  · exact .quiet rfl rfl rfl

/-- Sending a message is a turn. -/
lemma turn_send (s : Session) (message : Node) : Turn s (s.send message).2 := by
  unfold send
  split
  · exact .quiet rfl rfl rfl
  · split
    · exact .quiet rfl rfl rfl
    · next framed _ =>
      exact .quiet rfl ((writer_move _ _).trans (writer_move s.outbound (.checking framed))) rfl

/-- Asking for a message is a turn. -/
lemma turn_nextMessage (s : Session) : Turn s s.nextMessage.2 := by
  unfold nextMessage
  split <;> exact .quiet rfl rfl rfl

end Session

namespace Course

open Correlator Session

variable {c : Course}

/-- Every act is a turn. -/
lemma turn_step (ch : Coherent c.session.correlator) (act : Act) :
    Turn c.session (c.step act).session := by
  cases act with
  | submit operation => exact turn_submit c.session operation
  | cancel index => exact .quiet rfl rfl aside_cancel.terminated
  | forget index => exact .quiet rfl rfl aside_forget.terminated
  | take index => exact .quiet rfl rfl aside_take.terminated
  | send message => exact turn_send c.session message
  | proceed k =>
    rw [step, proceed]
    split
    · exact .quiet rfl rfl rfl
    · exact .quiet rfl rfl rfl
    · exact .quiet rfl (writer_move c.session.outbound _) rfl
  | nextMessage =>
    have turn := turn_nextMessage c.session
    rw [step, nextMessage]
    split <;> next eq => rw [eq] at turn; exact turn
  | read reads =>
    rw [step, read]
    split
    · next reading => exact turn_heed ch reading _ _
    · exact .quiet rfl rfl rfl
  | fetch =>
    rw [step]
    split <;> exact .quiet rfl rfl rfl
  | write planned =>
    -- Writing does not touch the requests, and at most ends the writer.
    refine .beside ⟨rfl, ?_, .inl rfl⟩
    change (c.session.outbound.writeOut Sink.write ⟨planned, c.written⟩).1.writer = _ ∨
      ∃ e, (c.session.outbound.writeOut Sink.write ⟨planned, c.written⟩).1.writer = _
    rw [Outbound.writeOut]
    split
    · exact .inl rfl
    · exact .inl rfl
    · exact .inr ⟨_, rfl⟩
  | flush failure =>
    refine .beside ⟨rfl, ?_, .inl rfl⟩
    change (c.session.outbound.flushed failure).writer = _ ∨
      ∃ e, (c.session.outbound.flushed failure).writer = _
    rw [Outbound.flushed]
    split
    · cases failure with
      | none => exact .inl rfl
      | some => exact .inr ⟨_, rfl⟩
    · exact .inl rfl
  | notice => exact turn_notice c.session
  | awaitEnd => exact turn_awaitEnd c.session

/-! ## What is seen of requests -/

variable {act : Act}

/-- What is handed over can be seen of any act. -/
lemma shows_of_handed {o o' : Outbound} {es : List Event}
    (handed : Handed Outbound.transmit o es o') : ∀ e ∈ es, e.Shows act := by
  intro e mem
  have answers (rpc : Node) (o : Outbound) : ∀ error, (Outbound.transmit rpc o).1 = .error error →
      error = .queueFull ∨ error = .connectionClosed := by
    have result := o.transmission rpc
    generalize Outbound.transmit rpc o = after at result ⊢
    cases result with
    | taken => exact nofun
    | full => exact fun _ eq => .inl (Except.error.inj eq).symm
    | closed => exact fun _ eq => .inr (Except.error.inj eq).symm
  obtain ⟨rpc, outcome, rfl, plain⟩ := handed.outcome
    (Q := fun outcome => ∀ error, outcome = .error error →
      error = .queueFull ∨ error = .connectionClosed) answers e mem
  cases outcome with
  | ok => exact .accepted
  | error error => exact .refused (plain error rfl)

/-- What is seen of a submission can be seen of the act. -/
lemma shows_submission (s : Session) (operation : Node) :
    ∀ e ∈ s.submission operation, e.Shows (.submit operation) := by
  refine List.forall_mem_cons.mpr ⟨.submitted rfl, ?_⟩
  exact shows_of_handed (handed_submit Outbound.transmit s.correlator operation s.outbound)

/-- What is seen of a message that is routed can be seen of reading. -/
lemma shows_routing (s : Session) (message : Node) (reads : List Framing.Read) :
    ∀ e ∈ s.routing message, e.Shows (.read reads) := by
  refine List.forall_mem_append.mpr ⟨List.forall_mem_cons.mpr ⟨.routed rfl, ?_⟩, ?_⟩
  · exact shows_of_handed (handed_onReply Outbound.transmit s.correlator message s.outbound)
  · split
    · exact List.forall_mem_nil _
    · exact List.forall_mem_singleton.mpr .terminated

/-- What is seen when the reader has come to something can be seen of reading. -/
lemma shows_heeding (s : Session) (reading : Framing.Reading) (reads : List Framing.Read) :
    ∀ e ∈ s.heeding reading, e.Shows (.read reads) := by
  cases reading with
  | message payload =>
    rw [heeding]
    split
    · exact shows_routing s _ reads
    · exact List.forall_mem_nil _
  | ended => exact List.forall_mem_singleton.mpr .terminated
  | failed => exact List.forall_mem_singleton.mpr .terminated
  | waiting => exact List.forall_mem_nil _

/-- What is seen when the reader learns of a failure can be seen of any act. -/
lemma shows_noticing (s : Session) : ∀ e ∈ s.noticing, e.Shows act := by
  rw [noticing]
  split
  · exact List.forall_mem_singleton.mpr .terminated
  · exact List.forall_mem_nil _

/-- What is seen newly is seen of the act. -/
lemma shows_step (c : Course) (act : Act) :
    ∃ es, (c.step act).trace = c.trace ++ es ∧ ∀ e ∈ es, e.Shows act := by
  have quiet {d : Course} (same : d.trace = c.trace) :
      ∃ es, d.trace = c.trace ++ es ∧ ∀ e ∈ es, e.Shows act :=
    ⟨[], same.trans (List.append_nil _).symm, List.forall_mem_nil _⟩
  cases act with
  | submit operation => exact ⟨_, rfl, shows_submission c.session operation⟩
  | cancel index => exact ⟨_, rfl, List.forall_mem_singleton.mpr .cancelled⟩
  | forget index => exact ⟨_, rfl, List.forall_mem_singleton.mpr .forgot⟩
  | take index => exact ⟨_, rfl, List.forall_mem_singleton.mpr .took⟩
  | proceed k =>
    rw [step, proceed]
    split <;> exact quiet rfl
  | nextMessage =>
    rw [step, nextMessage]
    split <;> exact quiet rfl
  | read reads =>
    rw [step, read]
    split
    · exact ⟨_, rfl, shows_heeding c.session _ reads⟩
    · exact quiet rfl
  | fetch =>
    rw [step]
    split <;> exact quiet rfl
  | notice => exact ⟨_, rfl, shows_noticing c.session⟩
  | send => exact quiet rfl
  | write => exact quiet rfl
  | flush => exact quiet rfl
  | awaitEnd => exact quiet rfl

/-- All that is seen stays plain in every act. -/
lemma plain_step {c : Course} (plain : ∀ e ∈ c.trace, e.Plain) (act : Act) :
    ∀ e ∈ (c.step act).trace, e.Plain := by
  obtain ⟨es, eq, shows⟩ := c.shows_step act
  rw [eq]
  exact List.forall_mem_append.mpr ⟨plain, fun e mem => (shows e mem).plain⟩

end Course

end Netconf
