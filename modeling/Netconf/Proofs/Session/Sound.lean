import Netconf.Proofs.Session.Conversation

/-!
# Links stay sound

What is kept whatever happens to a client and a server that suit each other (`Link.Sound`): each
party follows the other, the client posts the requests that are submitted to it, one at a time, and
the server posts the replies to them in their order. Therefore a reply that comes to the client is
that to the request in flight, and nothing goes wrong on either side.
-/

namespace Netconf

open Correlator Framing Node

/-! ## Parties with their applications -/

namespace Party

variable {σ : Type}

/-- The party asks, if it is at work. -/
inductive Asks : Party σ → Prop where
  | opening {o ids unwritten written} : Asks (opening o ids unwritten written)
  | awaiting {o ids written} : Asks (awaiting o ids written)
  | running {c} :
    c.Asks →
    Asks (running c)

/-- The party has answered the requests, if it is at work, and none before. -/
inductive Answers (answered : List (Nat × Nat)) : Party σ → Prop where
  | opening {o ids unwritten written} :
    answered = [] →
    Answers answered (opening o ids unwritten written)
  | awaiting {o ids written} :
    answered = [] →
    Answers answered (awaiting o ids written)
  | running {c} :
    c.Answers answered →
    Answers answered (running c)

variable {p p' : Party σ} {a : Session.Act} {answered : List (Nat × Nat)}

/-- A client that goes on goes on asking. -/
lemma Goes.asks (goes : Goes a p p') (asks : p.Asks) (send : ∀ message, a ≠ .send message)
    (kept : ∀ operation, a = .submit operation → operation.Everywhere Kept) : p'.Asks := by
  cases goes with
  | opening => exact .opening
  | greets => exact .awaiting
  | awaiting => exact .awaiting
  | @starts _ _ written s => exact .running (.start s written)
  | running =>
    cases asks with
    | running asks => exact .running (asks.step send kept)

/-- A party answers as it did, if that is so while it is at work. -/
lemma Goes.answers (goes : Goes a p p') (answers : p.Answers answered)
    (step : ∀ c, p = .running c → c.Answers answered → (c.step a).Answers answered) :
    p'.Answers answered := by
  cases goes with
  | opening =>
    cases answers with
    | opening none => exact .opening none
  | greets =>
    cases answers with
    | opening none => exact .awaiting none
  | awaiting =>
    cases answers with
    | awaiting none => exact .awaiting none
  | @starts _ _ written s =>
    cases answers with
    | awaiting none =>
      subst none
      exact .running (.start s written)
  | @running c =>
    cases answers with
    | running answers => exact .running (step c rfl answers)

end Party

namespace Link

variable {σ : Type}

/-! ## What is kept -/

/-- Each party follows the other; the client posts its requests, and the server answers them in
their order. -/
structure Sound {t u : Terms} (meets : t.Meets u) (meets' : u.Meets t) (l : Link σ)
    (heard heard' : List Node) : Prop where
  client : l.client.Follows t u (u.hello.delimited (Terms.kept_hello meets')) l.server l.clientRead
    heard
  server : l.server.Follows u t (t.hello.delimited (Terms.kept_hello meets)) l.client l.serverRead
    heard'
  asks : l.client.Asks
  answers : l.server.Answers l.answered

namespace Sound

variable {t u : Terms} {meets : t.Meets u} {meets' : u.Meets t} {l : Link σ}
  {heard heard' : List Node} (so : l.Sound meets meets' heard heard')

include so

/-! ## What the client posts -/

/-- A client at work has asked, and been answered with the replies that it has heard. -/
lemma client_running {c : Course} (run : l.client = .running c) :
    c.Asks ∧ Moves .new c.trace c.session.correlator ∧
      c.trace.filterMap Event.delivery? = replies heard ∧
      c.session.correlator.terminated = none := by
  have asks := so.asks
  have keeps := so.client.keeps
  rw [run] at asks keeps
  cases asks with
  | running asks =>
    cases keeps with
    | running wo _ _ mvs delivered => exact ⟨asks, mvs, delivered, wo.going⟩

/-- The client's application gets the messages heard that are no replies. -/
lemma client_passed {c : Course} (run : l.client = .running c) :
    c.taken ++ c.session.inbound.toList = others heard := by
  have keeps := so.client.keeps
  rw [run] at keeps
  cases keeps with
  | running wo => exact wo.passed

/-- All that the client posts can stand in a document. -/
lemma client_kept : ∀ n ∈ l.client.posted, n.Everywhere Kept := by
  cases run : l.client with
  | running c =>
    obtain ⟨asks, mvs, -, -⟩ := so.client_running run
    exact asks.kept_posted mvs
  | _ => exact List.forall_mem_nil _

/-- The client posts no replies. -/
lemma client_kind {rpc : Node} (mem : rpc ∈ l.client.posted) : rpc.messageKind ≠ .rpcReply := by
  cases run : l.client with
  | running c =>
    obtain ⟨asks, mvs, -, -⟩ := so.client_running run
    rw [run] at mem
    exact asks.kind_of_mem mvs mem
  | _ =>
    rw [run] at mem
    cases mem

/-- At most one request of the client has not been answered. -/
lemma length_posted : l.client.posted.length ≤ (replies heard).length + 1 := by
  cases run : l.client with
  | running c =>
    obtain ⟨asks, mvs, delivered, -⟩ := so.client_running run
    have most := mvs.balance.most
    rwa [← asks.posted, delivered] at most
  | _ => exact Nat.zero_le _

/-! ## What the server posts -/

/-- All that the server has heard are requests. -/
lemma others_heard : others heard' = heard' := by
  rw [others, List.filter_eq_self]
  exact fun n mem => decide_eq_true (so.client_kind (so.server.told.subset mem))

/-- The server's application gets all that was heard. -/
lemma server_passed {c : Course} (run : l.server = .running c) :
    c.taken ++ c.session.inbound.toList = heard' := by
  have keeps := so.server.keeps
  rw [run] at keeps
  cases keeps with
  | running wo => exact wo.passed.trans so.others_heard

/-- A server at work has answered, and its application has taken the first of what was heard. -/
lemma server_running {c : Course} (run : l.server = .running c) :
    c.Answers l.answered ∧ c.taken <+: heard' := by
  have answers := so.answers
  rw [run] at answers
  cases answers with
  | running answers => exact ⟨answers, _, so.server_passed run⟩

/-- All that the server posts are messages of senders that are done. -/
lemma server_sent {n : Node} (mem : n ∈ l.server.posted) :
    ∃ c, ∃ k : Nat, l.server = .running c ∧ c.senders[k]? = some (n, .done (.ok ())) := by
  cases run : l.server with
  | running c =>
    obtain ⟨answers, -⟩ := so.server_running run
    rw [run] at mem
    obtain ⟨k, done⟩ := answers.sent n mem
    exact ⟨c, k, rfl, done⟩
  | _ =>
    rw [run] at mem
    cases mem

/-- All that the server posts can stand in a document. -/
lemma server_kept : ∀ n ∈ l.server.posted, n.Everywhere Kept := by
  intro n mem
  obtain ⟨c, k, run, done⟩ := so.server_sent mem
  exact (so.server_running run).1.kept _ (List.mem_of_getElem? done)

/-- The replies that the client has heard are the first of those that the server has posted. -/
lemma replies_prefix : replies heard <+: replies l.server.posted := by
  obtain ⟨rest, eq⟩ := so.client.told
  rw [← eq, replies_append]
  exact List.prefix_append _ _

/-- The server's application has taken at most one request to which no reply has gone out. -/
lemma few {c : Course} (run : l.server = .running c) :
    c.taken.length ≤ (replies c.posted).length + 1 := by
  obtain ⟨-, taken⟩ := so.server_running run
  have posted := (taken.trans so.server.told).length_le
  have answered := so.replies_prefix.length_le
  rw [run] at answered
  exact posted.trans (so.length_posted.trans (Nat.add_le_add_right answered 1))

/-- The replies that go out are built for the requests, one after the other. -/
lemma replied {n : Nat} {reply : Node} (at_n : (replies l.server.posted)[n]? = some reply) :
    ∃ c request response k, l.server = .running c ∧ c.taken[n]? = some request ∧
      l.client.posted[n]? = some request ∧ reply = Response.build request response ∧
      (n, k) ∈ l.answered ∧ c.senders[k]? = some (reply, .done (.ok ())) := by
  cases run : l.server with
  | running c =>
    obtain ⟨answers, taken⟩ := so.server_running run
    rw [run] at at_n
    obtain ⟨k, mem, done⟩ := answers.replied at_n
    obtain ⟨request, response, sender, at_place, at_k⟩ := answers.built mem
    obtain ⟨rfl, -⟩ := Prod.mk.inj (Option.some.inj (done.symm.trans at_k))
    obtain ⟨rest, eq⟩ := taken.trans so.server.told
    refine ⟨c, request, response, k, rfl, at_place, ?_, rfl, mem, done⟩
    rw [← eq, List.getElem?_append_left (List.getElem?_eq_some_iff.mp at_place).1]
    exact at_place
  | _ =>
    rw [run] at at_n
    cases at_n

/-- A reply that comes to the client has the number of the request in flight. -/
lemma expected {c : Course} {m : Node} (run : l.client = .running c)
    (told : heard ++ [m] <+: l.server.posted) (kind : m.messageKind = .rpcReply) :
    ∃ i, c.session.correlator.inFlight = some i ∧ m.messageId? = some (messageId i) := by
  obtain ⟨rest, eq⟩ := told
  have at_next : (replies l.server.posted)[(replies heard).length]? = some m := by
    rw [← eq, replies_append, replies_append, replies_of_reply kind, List.append_assoc,
      List.getElem?_append_right (Nat.le_refl _), Nat.sub_self]
    rfl
  obtain ⟨-, request, response, -, -, -, at_place, rfl, -, -⟩ := so.replied at_next
  obtain ⟨asks, mvs, delivered, going⟩ := so.client_running run
  have most := so.length_posted
  rw [run, Party.posted] at at_place most
  -- The reply is to the last request of the client, as that is the only one not answered yet.
  have last : c.posted.length = (replies heard).length + 1 :=
    Nat.le_antisymm most (List.getElem?_eq_some_iff.mp at_place).1
  have current := mvs.balance.current going
  rw [← asks.posted, delivered, last] at current
  cases fl : c.session.correlator.inFlight with
  | none =>
    rw [fl] at current
    exact absurd current (Nat.succ_ne_self _)
  | some i =>
    obtain ⟨before, rpc, posted, num⟩ := mvs.last_transmission fl
    rw [← asks.posted] at posted
    rw [posted, List.length_append, List.length_singleton, Nat.add_right_cancel_iff] at last
    rw [posted, ← last] at at_place
    obtain rfl : rpc = request := Option.some.inj (List.getElem?_concat_length.symm.trans at_place)
    exact ⟨i, rfl, (response.messageId?_build rpc).trans num⟩

/-! ## What happens -/

variable {act : Session.Act}

/-- A link stays sound in every act of the client. -/
lemma act_client (of : act.OfClient) :
    { l with client := l.client.act act }.Sound meets meets' heard heard' := by
  obtain ⟨-, goes⟩ := so.client.keeps.act of.other of.reliable
  have written := goes.written so.client.keeps of.reliable
  exact ⟨so.client.act of.other of.reliable, so.server.other written goes.posted,
    goes.asks so.asks of.send of.kept, so.answers⟩

/-- The server goes on, and then it answers as it did, or one request more. -/
lemma server_goes {answered : List (Nat × Nat)} (other : ∀ reads, act ≠ .read reads)
    (reliable : act.Reliable)
    (answers : (l.server.act act).Answers answered) :
    { l with
      server := l.server.act act
      answered := answered }.Sound meets meets' heard heard' := by
  obtain ⟨-, goes⟩ := so.server.keeps.act other reliable
  have written := goes.written so.server.keeps reliable
  exact ⟨so.client.other written goes.posted, so.server.act other reliable, so.asks, answers⟩

/-- A link stays sound in every act of the server. -/
lemma act_server (of : act.OfServer) :
    { l with server := l.server.act act }.Sound meets meets' heard heard' := by
  obtain ⟨keeps, goes⟩ := so.server.keeps.act of.other of.reliable
  refine so.server_goes of.other of.reliable (goes.answers so.answers fun c run answers => ?_)
  have before := so.server.keeps
  rw [run] at before keeps
  cases before with
  | running wo =>
    cases keeps with
    | running _ _ _ mvs => exact answers.serve (so.few run) wo of mvs

/-- A link stays sound when the server's application answers a request. -/
lemma act_reply {place : Nat} {response : Response} (xml : response.IsXml) :
    (l.reply place response).Sound meets meets' heard heard' := by
  rw [reply]
  split
  · next c run =>
    split
    · next request at_place =>
      split
      · exact so
      · next fresh =>
        obtain ⟨answers, taken⟩ := so.server_running run
        have mem := (taken.trans so.server.told).subset (List.mem_of_getElem? at_place)
        have kept := Response.kept_build (so.client_kept request mem) xml
        have keeps := so.server.keeps
        rw [run] at keeps
        cases keeps with
        | running wo =>
          have sound := @server_goes _ _ _ _ _ _ _ _ so (.send (response.build request))
            (l.answered ++ [(place, c.senders.length)]) nofun trivial ?_
          · rw [run] at sound
            exact sound
          · rw [run]
            exact .running (answers.respond (so.few run) wo at_place fresh kept)
    · exact so
  · exact so

/-- The client reads on. -/
lemma act_toClient (source : IdSource σ) (n : Nat) :
    ∃ heard, (l.act source (.toClient n)).Sound meets meets' heard heard' := by
  obtain ⟨⟨heard, follows⟩, goes⟩ := so.client.arrives source meets meets' so.server.keeps
    so.server_kept (fun c m run told kind => so.expected run told kind) n
  have written := goes.written so.client.keeps trivial
  exact ⟨heard, follows, so.server.other written goes.posted, goes.asks so.asks nofun nofun,
    so.answers⟩

/-- The server reads on. -/
lemma act_toServer (source : IdSource σ) (n : Nat) :
    ∃ heard', (l.act source (.toServer n)).Sound meets meets' heard heard' := by
  obtain ⟨⟨heard', follows⟩, goes⟩ := so.server.arrives source meets' meets so.client.keeps
    so.client_kept (fun c m run told kind => absurd kind (so.client_kind (told.subset (by simp)))) n
  have written := goes.written so.server.keeps trivial
  refine ⟨heard', so.client.other written goes.posted, follows, so.asks, ?_⟩
  refine goes.answers so.answers fun c run answers => answers.step ?_ nofun nofun nofun
  have keeps := follows.keeps
  rw [run, Party.read] at keeps
  cases keeps with
  | running _ _ _ mvs => exact mvs

/-- Whatever the parties may do, the link stays sound. -/
lemma step (source : IdSource σ) {a : Link.Act} (proper : a.Proper) :
    ∃ heard heard', (l.act source a).Sound meets meets' heard heard' := by
  cases proper with
  | client of => exact ⟨_, _, so.act_client of⟩
  | server of => exact ⟨_, _, so.act_server of⟩
  | toClient =>
    obtain ⟨heard, sound⟩ := so.act_toClient source _
    exact ⟨_, _, sound⟩
  | toServer =>
    obtain ⟨heard', sound⟩ := so.act_toServer source _
    exact ⟨_, _, sound⟩
  | reply xml => exact ⟨_, _, so.act_reply xml⟩

end Sound

/-! ## Runs -/

/-- Whatever happens one after the other, the link stays sound. -/
lemma sound_run (source : IdSource σ) {t u : Terms} {meets : t.Meets u} {meets' : u.Meets t}
    {acts : List Act} (proper : ∀ a ∈ acts, a.Proper) {l : Link σ} {heard heard' : List Node}
    (so : l.Sound meets meets' heard heard') :
    ∃ heard heard', (l.run source acts).Sound meets meets' heard heard' := by
  induction acts generalizing l heard heard' with
  | nil => exact ⟨heard, heard', so⟩
  | cons a rest ih =>
    rw [List.forall_mem_cons] at proper
    obtain ⟨heard, heard', sound⟩ := so.step source proper.1
    exact ih proper.2 sound

section

variable (source : IdSource σ) {client server : Offer} {ids ids' : σ} {id : Nat}

/-- The link is sound when the parties begin. -/
lemma sound_start (suits : client.Suits server) (suits' : server.Suits client)
    (leased : source.allocate ids = (some id, ids')) (pos : 0 < id) (lt : id < UInt32.size) :
    ∃ (t u : Terms) (meets : t.Meets u) (meets' : u.Meets t),
      (start source client server ids).Sound meets meets' [] [] := by
  let t : Terms := ⟨client, none⟩
  let u : Terms := ⟨server, some id⟩
  have meets : t.Meets u := ⟨suits, nofun, id, rfl⟩
  have meets' : u.Meets t := by
    refine ⟨suits', fun i mem => ?_, id, rfl⟩
    obtain rfl : id = i := Option.some.inj mem
    exact ⟨pos, lt⟩
  have leased' : Opening.leaseFor source .server ids = (.ok (some id), ids') := by
    rw [Opening.leaseFor, leased]
  obtain ⟨o, _, unwritten, begun, keeps⟩ := @Party.keeps_begin σ t u
    (u.hello.delimited (Terms.kept_hello meets')) source .client ids ids meets rfl
  obtain ⟨o', _, unwritten', begun', keeps'⟩ := @Party.keeps_begin σ u t
    (t.hello.delimited (Terms.kept_hello meets)) source .server ids ids' meets' leased'
  refine ⟨t, u, meets, meets', ?_⟩
  rw [start, show client = t.toOffer from rfl, begun, show server = u.toOffer from rfl, begun']
  exact ⟨⟨keeps, Nat.zero_le _, List.prefix_rfl⟩, ⟨keeps', Nat.zero_le _, List.prefix_rfl⟩,
    .opening, .opening rfl⟩

end

end Link

end Netconf
