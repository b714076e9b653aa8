import Netconf.Proofs.Session.Sound

/-!
# Links are faithful

What a client and a server can rely on that are linked with each other, whatever happens at which
time (`Link.run_faithful`).
-/

namespace Netconf

open Correlator Framing Node

/-! ## What can be relied on -/

/-- Nothing has gone wrong on this side: it has understood all that it read, each reply was the one
that it waited for, and all that was sent is on its way. -/
inductive Party.Whole {σ : Type} : Party σ → Prop where
  | opening {o ids unwritten written} : Whole (opening o ids unwritten written)
  | awaiting {o ids written} : Whole (awaiting o ids written)
  | running {c} :
    c.session.watch = .reading → c.session.correlator.terminated = none →
    c.session.reader.ended = false → c.session.outbound.writer = .running →
    (∀ e ∈ c.senders, ∀ error, e.2 ≠ .done (.error error)) →
    Whole (running c)

/-- Nothing has gone wrong with a party that keeps to the other. -/
lemma Party.Keeps.whole {σ : Type} {t u : Terms} {first : Delimited} {bytes : Bytes}
    {heard : List Node} {p : Party σ} (keeps : p.Keeps t u first bytes heard) : p.Whole := by
  cases keeps with
  | opening => exact .opening
  | awaiting => exact .awaiting
  | running wo _ going =>
    refine .running wo.watch wo.going (wo.reader ▸ going) wo.carries.running ?_
    intro e mem error done
    have sends := wo.senders e mem
    rw [done] at sends
    cases sends

namespace Link

variable {σ : Type}

/-- The reply was built for the request by the server's application, as its answer to it. -/
inductive Replied (l : Link σ) (i : Nat) (reply : Node) : Prop where
  | intro {s place k operation response} :
    .submitted i operation ∈ l.client.trace → l.server = .running s →
    s.taken[place]? = some (.rpc (messageId i) operation) → (place, k) ∈ l.answered →
    s.senders[k]? = some (reply, .done (.ok ())) →
    reply = Response.build (.rpc (messageId i) operation) response →
    Replied l i reply

/-- Both parties are at work, and all that they posted has come to the other's application. -/
inductive Complete (l : Link σ) : Prop where
  | intro {c s} :
    l.client = .running c → l.server = .running s →
    s.taken ++ s.session.inbound.toList = c.trace.filterMap Event.transmission? →
    c.taken ++ c.session.inbound.toList = Node.others s.posted →
    c.trace.filterMap Event.delivery? = Node.replies s.posted →
    Complete l

/-- What a client and a server can rely on. -/
structure Faithful (l : Link σ) : Prop where
  client : l.client.Whole
  server : l.server.Whole
  /-- The server's application has taken the first of the requests that the client transmitted. -/
  taken : l.server.taken <+: l.client.trace.filterMap Event.transmission?
  /-- Those are requests that the client's application submitted, each of them once. -/
  ordered : (l.client.trace.filterMap Event.transmission?).Sublist
    (l.client.trace.filterMap Event.submission?)
  numbered : ∃ indices : List Nat, indices.Pairwise (· < ·) ∧
    (l.client.trace.filterMap Event.transmission?).map messageId? =
      indices.map fun i => some (messageId i)
  wrapped {rpc} : rpc ∈ l.server.taken →
    ∃ i operation, rpc = .rpc (messageId i) operation ∧ .submitted i operation ∈ l.client.trace
  /-- A request is answered with the reply that the server's application built for it. -/
  replied {c i reply} : l.client = .running c →
    c.session.correlator.poll i = some (.resolved (.ok reply)) → l.Replied i reply
  /-- It is refused only for want of room, or because it was cancelled. -/
  refused {c i e} : l.client = .running c →
    c.session.correlator.poll i = some (.resolved (.error e)) →
    e = .queueFull ∨ e = .cancelled ∧ ∃ x ∈ c.trace, x.cancels i = true
  /-- The client's application has taken the first of the other messages that the server posted. -/
  others : l.client.taken <+: Node.others l.server.posted
  /-- All that the server posted was sent by its application. -/
  posted {n} : n ∈ l.server.posted →
    ∃ s, ∃ k : Nat, l.server = .running s ∧ s.senders[k]? = some (n, .done (.ok ()))
  /-- When nothing is on its way any more, all has arrived. -/
  complete : l.Quiet → l.Complete

namespace Sound

variable {t u : Terms} {meets : t.Meets u} {meets' : u.Meets t} {l : Link σ}
  {heard heard' : List Node} (so : l.Sound meets meets' heard heard')

include so

/-- What the client has posted are the requests that were seen to be transmitted. -/
lemma posted_eq : l.client.posted = l.client.trace.filterMap Event.transmission? := by
  cases run : l.client with
  | running c => exact (so.client_running run).1.posted
  | _ => rfl

/-- A request is answered with a reply that the server's application built for it. -/
lemma replied_of_poll {c : Course} {i : Nat} {reply : Node} (run : l.client = .running c)
    (told : c.session.correlator.poll i = some (.resolved (.ok reply))) : l.Replied i reply := by
  obtain ⟨asks, mvs, delivered, -⟩ := so.client_running run
  obtain ⟨r, hr, _, dec⟩ := (mvs.coherent .new).poll_iff.mp told
  cases dec with
  | given _ given =>
    obtain ⟨mem, num⟩ := mvs.delivered_of_answer (answer?_eq_some.mpr ⟨r, hr, given⟩)
    rw [delivered] at mem
    obtain ⟨place, at_place⟩ := List.mem_iff_getElem?.mp (so.replies_prefix.subset mem)
    obtain ⟨s, request, response, k, run', taken, posted, rfl, answered, done⟩ :=
      so.replied at_place
    rw [run] at posted
    obtain ⟨j, operation, rfl, seen⟩ := asks.request_of_mem mvs (List.mem_of_getElem? posted)
    rw [response.messageId?_build, messageId?_rpc, Option.some.injEq, messageId_inj] at num
    subst num
    have seen : .submitted j operation ∈ l.client.trace := by
      rw [run]
      exact seen
    exact .intro seen run' taken answered done rfl

/-- A request fails for want of room, or because it was cancelled. -/
lemma refused_of_poll {c : Course} {i : Nat} {e : Error} (run : l.client = .running c)
    (told : c.session.correlator.poll i = some (.resolved (.error e))) :
    e = .queueFull ∨ e = .cancelled ∧ ∃ x ∈ c.trace, x.cancels i = true := by
  obtain ⟨asks, mvs, -, going⟩ := so.client_running run
  obtain ⟨r, hr, _, dec⟩ := (mvs.coherent .new).poll_iff.mp told
  cases dec with
  | cancelled st => exact .inr ⟨rfl, mvs.cancelled_iff.mp (status?_eq_some.mpr ⟨r, hr, st⟩)⟩
  | given _ given =>
    exact .inl (mvs.queueFull_of_answer asks.plain going (answer?_eq_some.mpr ⟨r, hr, given⟩))

/-- The server's application has taken the first of the requests that the client has posted. -/
lemma taken_prefix : l.server.taken <+: l.client.posted := by
  cases run : l.server with
  | running s => exact (so.server_running run).2.trans so.server.told
  | _ => exact List.nil_prefix

/-- The client's application has taken the first of the other messages that the server has posted.
-/
lemma others_prefix : l.client.taken <+: Node.others l.server.posted := by
  cases run : l.client with
  | running c =>
    obtain ⟨rest, eq⟩ := so.client.told
    rw [← eq, others_append, ← so.client_passed run, List.append_assoc]
    exact List.prefix_append _ _
  | _ => exact List.nil_prefix

/-- When nothing is on its way any more, each party has heard all that the other has posted. -/
lemma complete (quiet : l.Quiet) : l.Complete := by
  obtain ⟨⟨c, run⟩, all⟩ := so.client.all meets meets' so.server.keeps so.server_kept quiet.server
    quiet.clientRead quiet.clientWaits
  obtain ⟨⟨s, run'⟩, all'⟩ := so.server.all meets' meets so.client.keeps so.client_kept quiet.client
    quiet.serverRead quiet.serverWaits
  refine .intro run run' ?_ ?_ ?_
  · rw [so.server_passed run', all', so.posted_eq, run]
    rfl
  · rw [so.client_passed run, all, run']
    rfl
  · obtain ⟨-, -, delivered, -⟩ := so.client_running run
    rw [delivered, all, run']
    rfl

/-- The requests that the client has posted, as those who submitted them know them. -/
lemma requests : l.client.posted.Sublist (l.client.trace.filterMap Event.submission?) ∧
    (∃ indices : List Nat, indices.Pairwise (· < ·) ∧
      l.client.posted.map messageId? = indices.map fun i => some (messageId i)) ∧
    ∀ rpc ∈ l.client.posted, ∃ i operation,
      rpc = .rpc (messageId i) operation ∧ .submitted i operation ∈ l.client.trace := by
  cases run : l.client with
  | running c =>
    obtain ⟨asks, mvs, -, -⟩ := so.client_running run
    exact ⟨asks.sublist mvs, asks.numbered mvs, fun rpc mem => asks.request_of_mem mvs mem⟩
  | _ => exact ⟨.slnil, ⟨[], .nil, rfl⟩, List.forall_mem_nil _⟩

/-- A sound link is faithful. -/
lemma faithful : l.Faithful := by
  obtain ⟨ordered, numbered, wrapped⟩ := so.requests
  have taken := so.taken_prefix
  rw [so.posted_eq] at ordered numbered wrapped taken
  exact
    { client := so.client.keeps.whole
      server := so.server.keeps.whole
      taken := taken
      ordered := ordered
      numbered := numbered
      wrapped := fun mem => wrapped _ (taken.subset mem)
      replied := so.replied_of_poll
      refused := so.refused_of_poll
      others := so.others_prefix
      posted := so.server_sent
      complete := so.complete }

end Sound

/-- Whatever a client and a server do that suit each other, and in whatever pieces bytes arrive,
nothing goes wrong on either side, the server's application takes just the requests that the client
transmits, and the client's application is answered with the replies to its requests. -/
theorem run_faithful (source : IdSource σ) {client server : Offer} {ids ids' : σ} {id : Nat}
    (suits : client.Suits server) (suits' : server.Suits client)
    (leased : source.allocate ids = (some id, ids')) (pos : 0 < id) (lt : id < UInt32.size)
    {acts : List Act} (proper : ∀ a ∈ acts, a.Proper) :
    ((start source client server ids).run source acts).Faithful := by
  obtain ⟨t, u, meets, meets', sound⟩ := sound_start source suits suits' leased pos lt
  obtain ⟨heard, heard', sound⟩ := sound_run source proper sound
  exact sound.faithful

/-- A request is sent and answered, and a notification goes before the reply. -/
def exchange : List Act :=
  [.client (.write [.accepted 5, .accepted 1000]), .client (.flush none),
    .server (.write [.accepted 1000]), .server (.flush none),
    .toClient 3, .toClient 1000, .toServer 1000,
    .client (.submit (Operation.element "get" [])), .client .fetch,
    .client (.write [.accepted 1000]), .client (.flush none), .toServer 1000, .server .nextMessage,
    .server (.send (Node.empty ⟨notificationUri, "notification"⟩)), .reply 0 (.data []),
    .server .fetch, .server (.write [.accepted 1000]), .server (.flush none), .toClient 1000,
    .toClient 0, .client .nextMessage, .client (.take 0)]

/-- A client and a server with the default offer can rely on all this in the exchange. -/
theorem run_faithful_exchange :
    let offer : Offer := ⟨.default, Opening.defaultCapabilities⟩
    let ids : IdPlan := ⟨[some 7], []⟩
    offer.Suits offer ∧ IdPlan.source.allocate ids = (some 7, ⟨[], []⟩) ∧ 0 < 7 ∧ 7 < UInt32.size ∧
      (∀ a ∈ exchange, a.Proper) ∧
      ((start IdPlan.source offer offer ids).run IdPlan.source exchange).Faithful := by
  intro offer ids
  have suits : offer.Suits offer :=
    { valid := rfl
      top := by decide
      sound := CapabilitySet.sound_ofUris _
      chars := by decide +kernel
      shares := ⟨Capability.base11, by decide, by decide +kernel, by decide +kernel⟩
      fits := by decide }
  have reliable (n : Nat) : Sink.Reliable [.accepted (n + 1)] :=
    List.forall_mem_singleton.mpr (.inr ⟨n, rfl⟩)
  have element {name : QName} (isName : Xml.IsName name.localName.toList)
      (uri : Xml.IsDeclarable name.uri) : (Node.empty name).Everywhere Node.Kept :=
    Node.kept_element isName uri (List.forall_mem_nil _)
  have proper : ∀ a ∈ exchange, a.Proper := by
    simp only [exchange, List.forall_mem_cons]
    exact ⟨.client (.goes (.write (List.forall_mem_cons.mpr ⟨.inr ⟨4, rfl⟩, reliable 999⟩))),
      .client (.goes .flush), .server (.goes (.write (reliable 999))), .server (.goes .flush),
      .toClient, .toClient, .toServer,
      .client (.submit (element (by decide) isDeclarable_baseUri)), .client (.goes .fetch),
      .client (.goes (.write (reliable 999))), .client (.goes .flush), .toServer,
      .server (.goes .nextMessage),
      .server (.send (element (by decide) isDeclarable_notificationUri) (by decide)),
      .reply (.data (List.forall_mem_nil _)), .server (.goes .fetch),
      .server (.goes (.write (reliable 999))), .server (.goes .flush), .toClient, .toClient,
      .client (.goes .nextMessage), .client .take, List.forall_mem_nil _⟩
  have leased : IdPlan.source.allocate ids = (some 7, ⟨[], []⟩) := rfl
  exact ⟨suits, leased, by decide, by decide, proper,
    run_faithful IdPlan.source suits suits leased (by decide) (by decide) proper⟩

end Link

end Netconf
