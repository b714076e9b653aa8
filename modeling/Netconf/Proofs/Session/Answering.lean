import Netconf.Proofs.Session.Asking
import Netconf.Proofs.Session.Link
import Netconf.Proofs.Session.Working

/-!
# Sessions that answer

A session whose application submits nothing, and sends replies to requests that it has taken, one to
each. If it never has more than one request that is not answered, its replies go out in the order of
the requests (`Course.Answers`).
-/

namespace Netconf

open Node

namespace Course

open Correlator Session

variable {c : Course} {act : Act} {message reply : Node} {sender : Outbound.Sender} {k place : Nat}

/-! ## Senders one by one -/

/-- What has entered the channel is the message of a sender that is done. -/
lemma entered_cases (mem : reply ∈ entered message sender) :
    reply = message ∧ sender = .done (.ok ()) := by
  unfold entered at mem
  split at mem
  · exact ⟨List.mem_singleton.mp mem, rfl⟩
  · cases mem

/-- What a sender comes to that may go on. -/
inductive Proceeds (c : Course) (k : Nat) : Course → Prop where
  | stays : Proceeds c k c
  | moves {message sender sender' o} :
    c.senders[k]? = some (message, sender) → (∀ result, sender ≠ .done result) →
    Proceeds c k { c.withOutbound o with
      senders := c.senders.set k (message, sender')
      posted := c.posted ++ entered message sender' }

/-- A sender goes on, and the others stay as they are. -/
lemma proceeds (c : Course) (k : Nat) : c.Proceeds k (c.proceed k) := by
  rw [proceed]
  split
  · exact .stays
  · exact .stays
  · next waits at_k => exact .moves at_k waits

/-- A message begins to be sent. -/
def queue (c : Course) (message : Node) (framed : Bytes) : Course :=
  { c with senders := c.senders ++ [(message, .checking framed)] }

/-- A message that is sent begins to be sent, and then its sender goes on. -/
lemma send_proceeds (going : c.session.correlator.terminated = none) {framed : Bytes}
    (frame : c.session.outbound.frame message = .ok framed) :
    (c.queue message framed).Proceeds c.senders.length (c.send message) := by
  have at_last : (c.queue message framed).senders[c.senders.length]? =
      some (message, .checking framed) := by
    simp [queue]
  have moves := @Proceeds.moves _ _ _ _ (c.session.outbound.send framed).1
    (c.session.outbound.send framed).2 at_last nofun
  have set (sender : Outbound.Sender) :
      (c.queue message framed).senders.set c.senders.length (message, sender) =
        c.senders ++ [(message, sender)] := by
    simp [queue]
  have sent : c.session.send message =
      ((c.session.outbound.send framed).1,
        { c.session with outbound := (c.session.outbound.send framed).2 }) := by
    rw [Session.send, going, frame]
  rw [set] at moves
  rw [send, sent]
  exact moves

/-! ## Senders of answers -/

/-- The answered requests are given by their places among the requests taken, each with the place of
the sender of its reply. The replies that have gone out are those to the first requests. -/
structure Answers (answered : List (Nat × Nat)) (c : Course) : Prop where
  quiet : c.trace.filterMap Event.submission? = []
  kept : ∀ e ∈ c.senders, e.1.Everywhere Node.Kept
  sent : ∀ n ∈ c.posted, ∃ k : Nat, c.senders[k]? = some (n, .done (.ok ()))
  once : (answered.map Prod.fst).Nodup
  built {place k : Nat} : (place, k) ∈ answered → ∃ request response sender,
    c.taken[place]? = some request ∧ c.senders[k]? = some (Response.build request response, sender)
  owned {k : Nat} {message : Node} {sender : Outbound.Sender} :
    c.senders[k]? = some (message, sender) → message.messageKind = .rpcReply →
    ∃ place, (place, k) ∈ answered
  replied {n : Nat} {reply : Node} : (replies c.posted)[n]? = some reply →
    ∃ k : Nat, (n, k) ∈ answered ∧ c.senders[k]? = some (reply, .done (.ok ()))

namespace Answers

variable {answered : List (Nat × Nat)} {c' : Course}

/-- A session that has just been established has answered nothing. -/
lemma start (s : Session) (written : Bytes) : (Course.start s written).Answers [] where
  quiet := rfl
  kept := List.forall_mem_nil _
  sent := List.forall_mem_nil _
  once := List.nodup_nil
  built := nofun
  owned := nofun
  replied := nofun

/-- Only requests are answered that were taken. -/
lemma place_lt (an : c.Answers answered) (mem : (place, k) ∈ answered) :
    place < c.taken.length := by
  obtain ⟨request, response, sender, at_place, -⟩ := an.built mem
  exact (List.getElem?_eq_some_iff.mp at_place).1

/-- The reply that is on its way is the next one. -/
lemma next (an : c.Answers answered) (few : c.taken.length ≤ (replies c.posted).length + 1)
    (mem : (place, k) ∈ answered) (waits : ∀ reply, c.senders[k]? ≠ some (reply, .done (.ok ()))) :
    place = (replies c.posted).length := by
  have lt := an.place_lt mem
  by_contra ne
  -- The replies to the requests before have gone out, and each request is answered once.
  obtain ⟨reply, at_place⟩ : ∃ reply, (replies c.posted)[place]? = some reply :=
    ⟨_, List.getElem?_eq_getElem (by omega)⟩
  obtain ⟨k', mem', done⟩ := an.replied at_place
  obtain rfl : k = k' := by
    have same := List.inj_on_of_nodup_map an.once mem mem' rfl
    exact congrArg Prod.snd same
  exact waits reply done

/-- Where a sender goes on, what is done stays as it is. -/
lemma proceeds (an : c.Answers answered) (few : c.taken.length ≤ (replies c.posted).length + 1)
    (pr : c.Proceeds k c') : c'.Answers answered := by
  cases pr with
  | stays => exact an
  | @moves message sender sender' o at_k waits =>
    have lt := (List.getElem?_eq_some_iff.mp at_k).1
    -- A sender that goes on has not ended well, so those that have are others.
    have apart {j : Nat} {m : Node} (done : c.senders[j]? = some (m, .done (.ok ()))) : k ≠ j := by
      rintro rfl
      rw [at_k] at done
      cases done
      exact waits _ rfl
    have stay {j : Nat} {m : Node} (done : c.senders[j]? = some (m, .done (.ok ()))) :
        (c.senders.set k (message, sender'))[j]? = some (m, .done (.ok ())) := by
      rw [List.getElem?_set_ne (apart done)]
      exact done
    refine ⟨an.quiet, ?_, ?_, an.once, ?_, ?_, ?_⟩
    · intro e mem
      rcases List.mem_or_eq_of_mem_set mem with old | rfl
      · exact an.kept e old
      · exact an.kept (message, sender) (List.mem_of_getElem? at_k)
    · intro n mem
      rcases List.mem_append.mp mem with old | new
      · obtain ⟨j, done⟩ := an.sent n old
        exact ⟨j, stay done⟩
      · obtain ⟨rfl, rfl⟩ := entered_cases new
        exact ⟨k, List.getElem?_set_self lt⟩
    · intro place j mem
      obtain ⟨request, response, before, at_place, at_j⟩ := an.built mem
      by_cases same : k = j
      · subst same
        obtain ⟨rfl, -⟩ := Prod.mk.inj (Option.some.inj (at_k.symm.trans at_j))
        exact ⟨request, response, sender', at_place, List.getElem?_set_self lt⟩
      · exact ⟨request, response, before, at_place, (List.getElem?_set_ne same).trans at_j⟩
    · intro j m after at_j kind
      by_cases same : k = j
      · subst same
        rw [List.getElem?_set_self lt] at at_j
        cases at_j
        exact an.owned at_k kind
      · rw [List.getElem?_set_ne same] at at_j
        exact an.owned at_j kind
    · intro n reply at_n
      rw [replies_append] at at_n
      rcases Nat.lt_or_ge n (replies c.posted).length with old | new
      · rw [List.getElem?_append_left old] at at_n
        obtain ⟨j, mem, done⟩ := an.replied at_n
        exact ⟨j, mem, stay done⟩
      · -- The reply has just gone out, so it is that of the sender that went on.
        rw [List.getElem?_append_right new] at at_n
        obtain ⟨mem, kind⟩ := List.mem_filter.mp (List.mem_of_getElem? at_n)
        obtain ⟨rfl, rfl⟩ := entered_cases mem
        have kind := of_decide_eq_true kind
        obtain ⟨place, owner⟩ := an.owned at_k kind
        rw [entered, replies_of_reply kind] at at_n
        have first := (List.getElem?_eq_some_iff.mp at_n).1
        rw [List.length_singleton] at first
        obtain rfl : place = n := by
          have next := an.next few owner fun m done => apart done rfl
          omega
        exact ⟨k, owner, List.getElem?_set_self lt⟩

/-- A message begins to be sent that is no reply, or one to a request that is not answered yet. -/
lemma queue (an : c.Answers answered) (kept : message.Everywhere Node.Kept) (framed : Bytes)
    {owners : List (Nat × Nat)} (once : ((answered ++ owners).map Prod.fst).Nodup)
    (built : ∀ place k, (place, k) ∈ owners → k = c.senders.length ∧ ∃ request response,
      c.taken[place]? = some request ∧ message = Response.build request response)
    (owned : message.messageKind = .rpcReply → ∃ place, (place, c.senders.length) ∈ owners) :
    (c.queue message framed).Answers (answered ++ owners) := by
  -- The new sender is the last one, so those before it keep their places.
  have stay {j : Nat} {e : Node × Outbound.Sender} (at_j : c.senders[j]? = some e) :
      (c.senders ++ [(message, .checking framed)])[j]? = some e := by
    rw [List.getElem?_append_left (List.getElem?_eq_some_iff.mp at_j).1]
    exact at_j
  refine ⟨an.quiet, ?_, ?_, once, ?_, ?_, ?_⟩
  · exact List.forall_mem_append.mpr ⟨an.kept, List.forall_mem_singleton.mpr kept⟩
  · intro n mem
    obtain ⟨j, done⟩ := an.sent n mem
    exact ⟨j, stay done⟩
  · intro place j mem
    rcases List.mem_append.mp mem with old | new
    · obtain ⟨request, response, sender, at_place, at_j⟩ := an.built old
      exact ⟨request, response, sender, at_place, stay at_j⟩
    · obtain ⟨rfl, request, response, at_place, rfl⟩ := built place j new
      exact ⟨request, response, _, at_place, List.getElem?_concat_length⟩
  · intro j m sender at_j kind
    rcases Nat.lt_or_ge j c.senders.length with old | new
    · obtain ⟨place, mem⟩ := an.owned ((List.getElem?_append_left old).symm.trans at_j) kind
      exact ⟨place, List.mem_append_left _ mem⟩
    · have lt := (List.getElem?_eq_some_iff.mp at_j).1
      obtain rfl : j = c.senders.length := by
        rw [Course.queue, List.length_append, List.length_singleton] at lt
        omega
      obtain ⟨rfl, -⟩ := Prod.mk.inj (Option.some.inj
        ((List.getElem?_concat_length).symm.trans at_j))
      obtain ⟨place, mem⟩ := owned kind
      exact ⟨place, List.mem_append_right _ mem⟩
  · intro n reply at_n
    obtain ⟨j, mem, done⟩ := an.replied at_n
    exact ⟨j, List.mem_append_left _ mem, stay done⟩

end Answers

/-- What the application has taken it keeps. -/
lemma taken_step (c : Course) (act : Act) : c.taken <+: (c.step act).taken := by
  cases act with
  | proceed k =>
    rw [step, proceed]
    split <;> exact List.prefix_rfl
  | nextMessage =>
    rw [step, nextMessage]
    split
    · exact List.prefix_append _ _
    · exact List.prefix_rfl
  | read reads =>
    rw [step, read]
    split <;> exact List.prefix_rfl
  | fetch =>
    rw [step]
    split <;> exact List.prefix_rfl
  | _ => exact List.prefix_rfl

namespace Answers

variable {answered : List (Nat × Nat)}

/-- Where nothing is submitted and no sender goes on, nothing is put on its way. -/
lemma step (an : c.Answers answered)
    (mvs : Moves .new (c.step act).trace (c.step act).session.correlator)
    (submit : ∀ operation, act ≠ .submit operation) (send : ∀ message, act ≠ .send message)
    (proceed : ∀ k, act ≠ .proceed k) : (c.step act).Answers answered := by
  obtain ⟨es, trace, posted, senders, shows⟩ := c.posted_step send proceed
  have none : es.filterMap Event.submission? = [] := by
    rw [List.eq_nil_iff_forall_not_mem]
    intro rpc mem
    obtain ⟨-, operation, -, eq⟩ := submission_of_shows shows mem
    exact submit operation eq
  have quiet : (c.step act).trace.filterMap Event.submission? = [] := by
    rw [trace, List.filterMap_append, an.quiet, none, List.nil_append]
  -- Where nothing was submitted, no request has been handed to the outbound side.
  have nothing := mvs.transmissions_of_quiet quiet
  rw [trace, List.filterMap_append, List.append_eq_nil_iff] at nothing
  rw [nothing.2, List.append_nil] at posted
  obtain ⟨more, taken⟩ := c.taken_step act
  refine ⟨quiet, ?_, ?_, an.once, ?_, ?_, ?_⟩
  · rw [senders]
    exact an.kept
  · rw [posted, senders]
    exact an.sent
  · intro place k mem
    obtain ⟨request, response, sender, at_place, at_k⟩ := an.built mem
    rw [senders, ← taken, List.getElem?_append_left (an.place_lt mem)]
    exact ⟨request, response, sender, at_place, at_k⟩
  · rw [senders]
    exact an.owned
  · rw [posted, senders]
    exact an.replied

section

open Framing

variable {mode : Mode} {size : Nat} {hello request : Node} {reader : Reader} {passed : List Node}
  (an : c.Answers answered) (few : c.taken.length ≤ (replies c.posted).length + 1)
  (wo : c.Works mode size hello reader passed)

include an few wo

/-- A message that is no reply answers nothing. -/
lemma notify (kept : message.Everywhere Node.Kept) (kind : message.messageKind ≠ .rpcReply) :
    (c.send message).Answers answered := by
  have queued := an.queue kept (message.wire mode size) (by simpa using an.once)
    (fun _ _ mem => absurd mem List.not_mem_nil) fun is_reply => absurd is_reply kind
  rw [List.append_nil] at queued
  exact queued.proceeds few (send_proceeds wo.going (wo.carries.frame message))

/-- A request that is not answered yet is answered. -/
lemma respond (at_place : c.taken[place]? = some request) (fresh : place ∉ answered.map Prod.fst)
    {response : Response} (kept : (response.build request).Everywhere Node.Kept) :
    (c.send (response.build request)).Answers (answered ++ [(place, c.senders.length)]) := by
  have once : ((answered ++ [(place, c.senders.length)]).map Prod.fst).Nodup := by
    rw [List.map_append, List.map_singleton, List.nodup_append]
    refine ⟨an.once, List.nodup_singleton _, ?_⟩
    rintro x mem y new rfl
    rw [List.mem_singleton.mp new] at mem
    exact fresh mem
  have queued := an.queue kept ((response.build request).wire mode size) once
    (fun place k mem => ?_) fun _ => ⟨place, List.mem_singleton_self _⟩
  · exact queued.proceeds few (send_proceeds wo.going (wo.carries.frame _))
  · obtain ⟨rfl, rfl⟩ := Prod.mk.inj (List.mem_singleton.mp mem)
    exact ⟨rfl, request, response, at_place, rfl⟩

/-- Whatever a server does, it sends no other replies. -/
lemma serve (of : act.OfServer)
    (mvs : Moves .new (c.step act).trace (c.step act).session.correlator) :
    (c.step act).Answers answered := by
  cases of with
  | send kept kind => exact an.notify few wo kept kind
  | @proceed k => exact an.proceeds few (c.proceeds k)
  | goes goes => cases goes <;> exact an.step mvs nofun nofun nofun

end

end Answers

end Course

end Netconf
