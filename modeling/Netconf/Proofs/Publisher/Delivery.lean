import Mathlib.Data.List.Induction
import Mathlib.Data.List.Nodup
import Netconf.Proofs.Publisher.Subscription

/-!
# Notifications reach their subscribers

A publisher under any sequence of calls, with all that was received of it. The filters of accepted
subscriptions are valid, so no publication fails, and what a subscription receives are the
notifications due to it, in order and each once.
-/

namespace Netconf.Publisher

/-! ## Operations -/

section

variable {p : Publisher} {filter : Option Node} {n : Node}

/-- A subscription with a valid filter, or without one, is accepted with the next number and an
empty mailbox. -/
lemma subscribe_of_accepts (ok : accepts filter = true) :
    p.subscribe filter = .ok (p.mailboxes.size + 1,
      ⟨p.subscribers ++ [⟨p.mailboxes.size + 1, filter⟩], p.mailboxes.push ⟨.empty, true⟩⟩) := by
  cases filter with
  | none => rfl
  | some f =>
    have ok : (Filter.validate f).isOk = true := ok
    cases valid : Filter.validate f with
    | error e => simp [valid, Except.isOk, Except.toBool] at ok
    | ok => simp only [subscribe, valid, bind, Except.bind, pure, Except.pure]

/-- A subscription with an invalid filter is refused with what is wrong about it. -/
lemma subscribe_of_error {f : Node} {e : FilterError} (invalid : Filter.validate f = .error e) :
    p.subscribe (some f) = .error e := by
  simp only [subscribe, invalid, bind, Except.bind]

/-- A filter that is not accepted is refused. -/
lemma subscribe_of_not_accepts (bad : accepts filter = false) :
    ∃ e, p.subscribe filter = .error e := by
  cases filter with
  | none => cases bad
  | some f =>
    have bad : (Filter.validate f).isOk = false := bad
    cases valid : Filter.validate f with
    | error e => exact ⟨e, subscribe_of_error valid⟩
    | ok => simp [valid, Except.isOk, Except.toBool] at bad

/-- Whether the subscriber of an accepted subscription gets a notification is no error. -/
lemma wants_subscriber {s : Subscription} (ok : accepts s.filter = true) :
    s.subscriber.wants n = .ok (s.wants n) := by
  unfold Subscriber.wants Subscription.wants Subscription.subscriber
  cases filter : s.filter with
  | none => rfl
  | some f =>
    rw [filter] at ok
    have ok : (Filter.validate f).isOk = true := ok
    cases valid : Filter.validate f with
    | error e => simp [valid, Except.isOk, Except.toBool] at ok
    | ok => simp [Filter.selects, valid, Except.map, Except.toOption]

/-- A notification goes to the subscribers whose subscriptions want it. -/
lemma targets_subscribers {subs : List Subscription} (ok : ∀ s ∈ subs, accepts s.filter = true) :
    targets n (subs.map (·.subscriber)) = .ok ((subs.filter (·.wants n)).map (·.id)) := by
  induction subs with
  | nil => rfl
  | cons s rest ih =>
    have first := wants_subscriber (n := n) (ok s List.mem_cons_self)
    have others := ih fun s mem => ok s (List.mem_cons_of_mem _ mem)
    rw [List.map_cons, targets, first, others, List.filter_cons]
    cases s.wants n <;> rfl

/-- What is delivered is put once into the mailbox of each subscription that it goes to. -/
lemma getElem?_deliver {subs : List Subscription} (distinct : (subs.map (·.index)).Nodup)
    (mailboxes : Array Mailbox) (k : Nat) :
    (deliver n (subs.map (·.id)) mailboxes)[k]? =
      mailboxes[k]?.map fun m => if k ∈ subs.map (·.index) then m.put n else m := by
  induction subs generalizing mailboxes with
  | nil => simp [deliver]
  | cons s rest ih =>
    obtain ⟨fresh, distinct⟩ := List.nodup_cons.mp distinct
    have first : deliver n ((s :: rest).map (·.id)) mailboxes =
        deliver n (rest.map (·.id)) (mailboxes.modify s.index (·.put n)) := rfl
    rw [first, ih distinct, Array.getElem?_modify]
    by_cases eq : s.index = k
    · subst eq
      rw [if_pos rfl, Option.map_map]
      simp [fresh, Function.comp_def]
    · simp [eq, Ne.symm eq]

/-- Delivering a notification leaves as many mailboxes. -/
@[simp]
lemma size_deliver (ids : List Nat) (mailboxes : Array Mailbox) :
    (deliver n ids mailboxes).size = mailboxes.size := by
  induction ids generalizing mailboxes with
  | nil => rfl
  | cons id rest ih => exact (ih _).trans (Array.size_modify ..)

end

/-! ## Runs -/

/-- A publisher with what was received of it: who got what, in order. -/
structure Publication where
  publisher : Publisher
  received : List (Nat × Node)

namespace Publication

def start : Publication :=
  ⟨.empty, []⟩

def step (x : Publication) : Call → Publication
  | .subscribe filter =>
    match x.publisher.subscribe filter with
    | .ok (_, p) => { x with publisher := p }
    | .error _ => x
  | .unsubscribe id => { x with publisher := (x.publisher.unsubscribe id).2 }
  | .publish n => { x with publisher := (x.publisher.publish n).2 }
  | .drop k => { x with publisher := (x.publisher.drop k).2 }
  | .receive k =>
    match x.publisher.receive k with
    | (some (.message n), p) => ⟨p, x.received ++ [(k, n)]⟩
    | (_, p) => { x with publisher := p }

def run (calls : List Call) : Publication :=
  calls.foldl step start

/-- What a subscription has received. -/
def receivedBy (x : Publication) (k : Nat) : List Node :=
  (x.received.filter (·.1 == k)).map (·.2)

/-- A subscription is served: it has received the first of what is due, and the rest is in its
mailbox unless it was dropped. -/
structure Serves (x : Publication) (s : Subscription) : Prop where
  mailbox : ∃ m, x.publisher.mailboxes[s.index]? = some m ∧ m.held = !s.isDropped ∧
    (s.isDropped = false → x.receivedBy s.index ++ m.waiting.toList = s.due)
  inOrder : x.receivedBy s.index <+: s.due

/-- The publisher is as the subscriptions make it. -/
structure Keeps (x : Publication) (subs : List Subscription) : Prop where
  subscribers : x.publisher.subscribers = (subs.filter (·.isRegistered)).map (·.subscriber)
  size : x.publisher.mailboxes.size = subs.length
  serves : ∀ s ∈ subs, x.Serves s
  received : ∀ e ∈ x.received, e.1 < subs.length

section

variable {x y : Publication} {subs : List Subscription} {s : Subscription} {c : Call} {n : Node}

/-- What a subscription that is served finds of its mailbox. -/
inductive Box (x : Publication) (s : Subscription) : Prop where
  | dropped : s.isDropped = true → x.publisher.mailbox? s.index = none → Box x s
  | held {m : Mailbox} :
    s.isDropped = false → x.publisher.mailboxes[s.index]? = some m → m.held = true →
    x.publisher.mailbox? s.index = some m →
    x.receivedBy s.index ++ m.waiting.toList = s.due → Box x s

/-- A subscription that is served finds its mailbox, or none if it was dropped. -/
lemma Serves.box (served : x.Serves s) : x.Box s := by
  obtain ⟨m, found, held, rest⟩ := served.mailbox
  cases dropped : s.isDropped with
  | true =>
    rw [dropped] at held
    exact .dropped dropped (by simp [Publisher.mailbox?, found, held])
  | false =>
    rw [dropped] at held
    exact .held dropped found held (by simp [Publisher.mailbox?, found, held]) (rest dropped)

/-- The subscriber of a subscription that is served is held until that is dropped. -/
lemma Serves.isHeld (served : x.Serves s) :
    x.publisher.isHeld s.subscriber = !s.isDropped := by
  change (x.publisher.mailbox? s.index).isSome = _
  cases served.box with
  | dropped dropped none =>
    rw [none, dropped]
    rfl
  | held dropped _ _ some _ =>
    rw [some, dropped]
    rfl

/-- A call that does not concern a subscription leaves it served. -/
lemma Serves.idle (served : x.Serves s)
    (mailbox : y.publisher.mailboxes[s.index]? = x.publisher.mailboxes[s.index]?)
    (received : y.receivedBy s.index = x.receivedBy s.index)
    (stays : c.drops s.index = false) (silent : c.notification? = none) :
    y.Serves (s.after c) := by
  have due : (s.after c).due = s.due := by
    rw [Subscription.due_after, silent]
    simp
  have dropped : (s.after c).isDropped = s.isDropped := by
    rw [Subscription.isDropped_after, stays, Bool.or_false]
  refine ⟨?_, ?_⟩
  · rw [due, dropped, Subscription.index_after, mailbox, received]
    exact served.mailbox
  · rw [due, Subscription.index_after, received]
    exact served.inOrder

/-- What one more reception brings is received by the subscription that asked. -/
lemma receivedBy_append (k j : Nat) (p : Publisher) :
    (Publication.mk p (x.received ++ [(k, n)])).receivedBy j =
      x.receivedBy j ++ if k = j then [n] else [] := by
  by_cases eq : k = j <;> simp [receivedBy, eq]

/-- A subscription stays served by a publication that goes to just the live ones that want it. -/
lemma Serves.publish (served : x.Serves s) {live : List Subscription}
    (distinct : (live.map (·.index)).Nodup)
    (gets : s.index ∈ live.map (·.index) ↔ s.isLive = true ∧ s.wants n = true)
    (mailboxes : y.publisher.mailboxes = deliver n (live.map (·.id)) x.publisher.mailboxes)
    (received : y.received = x.received) : y.Serves (s.after (.publish n)) := by
  have got : y.receivedBy s.index = x.receivedBy s.index := by
    rw [receivedBy, received, receivedBy]
  have due : (s.after (.publish n)).due =
      s.due ++ if s.isLive = true ∧ s.wants n = true then [n] else [] := by
    rw [Subscription.due_after]
    cases s.isLive <;> cases wants : s.wants n <;> simp [Call.notification?, wants]
  obtain ⟨m, found, held, rest⟩ := served.mailbox
  refine ⟨⟨if s.index ∈ live.map (·.index) then m.put n else m, ?_, ?_, ?_⟩, ?_⟩
  · rw [Subscription.index_after, mailboxes, getElem?_deliver distinct, found]
    rfl
  · rw [Subscription.isDropped_after, apply_ite Mailbox.held]
    simp [Mailbox.put, held, Call.drops]
  · rw [Subscription.isDropped_after, Subscription.index_after, due, got]
    intro stays
    have all := rest (by simpa [Call.drops] using stays)
    simp only [gets]
    split
    · rw [Mailbox.put, Queue.toList_push, ← List.append_assoc, all]
    · rw [all, List.append_nil]
  · rw [due, Subscription.index_after, got]
    exact served.inOrder.trans (List.prefix_append _ _)

/-- A subscription stays served when any one is dropped. -/
lemma Serves.drop (served : x.Serves s) (k : Nat) :
    (x.step (.drop k)).Serves (s.after (.drop k)) := by
  by_cases eq : k = s.index
  · subst eq
    have due : (s.after (.drop s.index)).due = s.due := by
      simp [Subscription.due_after, Call.notification?]
    have dropped : (s.after (.drop s.index)).isDropped = true := by
      simp [Subscription.isDropped_after, Call.drops]
    refine ⟨?_, by rw [due]; exact served.inOrder⟩
    rw [dropped, Subscription.index_after]
    cases served.box with
    | dropped was none =>
      obtain ⟨m, found, held, -⟩ := served.mailbox
      refine ⟨m, ?_, by rw [held, was], Bool.noConfusion⟩
      simp only [step, Publisher.drop, none, found]
    | @held m _ found _ some _ =>
      refine ⟨⟨.empty, false⟩, ?_, rfl, Bool.noConfusion⟩
      have bound := (Array.getElem?_eq_some_iff.mp found).1
      simp [step, Publisher.drop, some, bound]
  · refine served.idle ?_ rfl (by simpa [Call.drops] using eq) rfl
    simp only [step, Publisher.drop]
    split
    · exact Array.getElem?_setIfInBounds_ne eq
    · rfl

/-- What comes of asking a subscription for its next notification. -/
inductive Asked (x : Publication) (k : Nat) : Prop where
  | gone :
    x.publisher.mailbox? k = none → (x.publisher.receive k).1 = none →
    x.step (.receive k) = x → Asked x k
  | taken {m : Mailbox} {n : Node} {waiting : Queue Node} :
    x.publisher.mailbox? k = some m → m.waiting.toList = n :: waiting.toList →
    (x.publisher.receive k).1 = some (.message n) →
    x.step (.receive k) =
      ⟨{ x.publisher with
        mailboxes := x.publisher.mailboxes.setIfInBounds k { m with waiting := waiting } },
        x.received ++ [(k, n)]⟩ → Asked x k
  | waits {m : Mailbox} :
    x.publisher.mailbox? k = some m → m.waiting.toList = [] →
    (x.publisher.receive k).1 =
      some (if x.publisher.isRegistered (k + 1) then .pending else .ended) →
    x.step (.receive k) = x → Asked x k

/-- Asking a subscription gives the next in its mailbox, finds that empty, or finds none. -/
lemma asked (x : Publication) (k : Nat) : x.Asked k := by
  cases box : x.publisher.mailbox? k with
  | none =>
    have eq : x.publisher.receive k = (none, x.publisher) := by simp only [Publisher.receive, box]
    exact .gone box (by rw [eq]) (by simp only [step, eq])
  | some m =>
    cases pop : m.waiting.pop? with
    | none =>
      have eq : x.publisher.receive k =
          (some (if x.publisher.isRegistered (k + 1) then .pending else .ended), x.publisher) := by
        simp only [Publisher.receive, box, pop]
      refine .waits box (Queue.pop?_eq_none_iff.mp pop) (by rw [eq]) ?_
      cases registered : x.publisher.isRegistered (k + 1) <;> simp [step, eq, registered]
    | some taken =>
      obtain ⟨n, waiting⟩ := taken
      refine .taken box (Queue.toList_of_pop? pop) ?_ ?_ <;>
        simp only [step, Publisher.receive, box, pop]

/-- A subscription stays served when any one is asked. -/
lemma Serves.receive (served : x.Serves s) (k : Nat) :
    (x.step (.receive k)).Serves (s.after (.receive k)) := by
  cases asked x k with
  | gone _ _ same => exact served.idle (by rw [same]) (by rw [same]) rfl rfl
  | waits _ _ _ same => exact served.idle (by rw [same]) (by rw [same]) rfl rfl
  | @taken m n waiting box moves _ next =>
    have got := receivedBy_append (x := x) (n := n) k s.index
    by_cases eq : k = s.index
    · subst eq
      cases served.box with
      | dropped _ none => rw [none] at box; cases box
      | @held m' stays found reach some rest =>
        obtain rfl : m' = m := Option.some.inj (some.symm.trans box)
        have due : (s.after (.receive s.index)).due = s.due := by
          simp [Subscription.due_after, Call.notification?]
        have dropped : (s.after (.receive s.index)).isDropped = false := by
          simp [Subscription.isDropped_after, Call.drops, stays]
        -- What was received before, this notification, and what waits behind it are all due.
        have all : x.receivedBy s.index ++ [n] ++ waiting.toList = s.due := by
          rw [List.append_assoc, List.singleton_append, ← moves, rest]
        have bound := (Array.getElem?_eq_some_iff.mp found).1
        rw [next]
        refine ⟨⟨{ m' with waiting := waiting }, ?_, ?_, ?_⟩, ?_⟩
        · simp [bound]
        · rw [dropped]
          exact reach
        · rw [Subscription.index_after, got, if_pos rfl, due]
          exact fun _ => all
        · rw [Subscription.index_after, got, if_pos rfl, due, ← all]
          exact List.prefix_append _ _
    · refine served.idle ?_ ?_ rfl rfl
      · rw [next]
        exact Array.getElem?_setIfInBounds_ne eq
      · rw [next, got, if_neg eq, List.append_nil]

end

section

variable {x : Publication} {calls : List Call} {subs : List Subscription}

/-- The subscribers that stay registered when one more call is made. -/
lemma registered_after (subs : List Subscription) (c : Call) :
    ((subs.map (·.after c)).filter (·.isRegistered)).map (·.subscriber) =
      ((subs.filter (·.isRegistered)).filter fun s =>
        !c.unsubscribes s.id && !(s.isDropped && c.notification?.isSome)).map (·.subscriber) := by
  rw [List.filter_map, List.map_map, List.filter_filter]
  congr 2
  funext s
  simp only [Function.comp_apply, Subscription.isRegistered_after]
  ac_rfl

/-- A call that neither publishes nor unsubscribes leaves the same subscribers registered. -/
lemma registered_idle (subs : List Subscription) {c : Call}
    (stays : ∀ id, c.unsubscribes id = false) (silent : c.notification? = none) :
    ((subs.map (·.after c)).filter (·.isRegistered)).map (·.subscriber) =
      (subs.filter (·.isRegistered)).map (·.subscriber) := by
  rw [registered_after]
  simp [stays, silent]

/-- The subscribers that are held are those of the live subscriptions. -/
lemma Keeps.live (keeps : x.Keeps subs) :
    x.publisher.subscribers.filter x.publisher.isHeld =
      (subs.filter (·.isLive)).map (·.subscriber) := by
  rw [keeps.subscribers, List.filter_map, List.filter_filter]
  congr 1
  refine List.filter_congr fun s mem => ?_
  rw [Function.comp_apply, (keeps.serves s mem).isHeld, Subscription.isLive_eq, Bool.and_comm]

/-- A publication is delivered to the live subscriptions that want it, and leaves just the live ones
registered. -/
lemma Keeps.publish_eq (keeps : x.Keeps (subscriptions calls)) (n : Node) :
    x.publisher.publish n =
      (.ok ((subscriptions calls).filter fun s => s.wants n && s.isLive).length,
        ⟨((subscriptions calls).filter (·.isLive)).map (·.subscriber),
          deliver n (((subscriptions calls).filter fun s => s.wants n && s.isLive).map (·.id))
            x.publisher.mailboxes⟩) := by
  have ok : ∀ s ∈ (subscriptions calls).filter (·.isLive), accepts s.filter = true :=
    fun s mem => accepts_of_mem_subscriptionsFrom (List.mem_filter.mp mem).1
  simp only [publish, keeps.live, targets_subscribers ok, List.filter_filter, List.length_map]

/-- No two subscriptions have one index. -/
lemma distinct_subscriptions (calls : List Call) :
    ((subscriptions calls).map (·.index)).Nodup := by
  rw [index_subscriptions]
  exact List.nodup_range

/-- Each subscription has an index below their number. -/
lemma index_lt_of_mem {s : Subscription} (mem : s ∈ subscriptions calls) :
    s.index < (subscriptions calls).length := by
  have mem := List.mem_map_of_mem (f := (·.index)) mem
  rwa [index_subscriptions, List.mem_range] at mem

/-- A subscription that is new has an empty mailbox, and nothing is due to it. -/
lemma Keeps.serves_new (keeps : x.Keeps subs) (filter : Option Node)
    {y : Publication} (received : y.received = x.received)
    (mailboxes : y.publisher.mailboxes = x.publisher.mailboxes.push ⟨.empty, true⟩) :
    y.Serves ⟨subs.length, filter, []⟩ := by
  have nothing : y.receivedBy subs.length = [] := by
    rw [receivedBy, received, List.map_eq_nil_iff, List.filter_eq_nil_iff]
    intro e mem
    simpa using (keeps.received e mem).ne
  refine ⟨⟨⟨.empty, true⟩, ?_, rfl, fun _ => ?_⟩, ?_⟩
  · rw [mailboxes, ← keeps.size, Array.getElem?_push_size]
  · rw [nothing]
    rfl
  · rw [nothing]
    exact List.nil_prefix

/-- The publisher is as the subscriptions make it after one more attempt to subscribe. -/
lemma Keeps.subscribe (keeps : x.Keeps (subscriptions calls)) (filter : Option Node) :
    (x.step (.subscribe filter)).Keeps (subscriptions (calls ++ [.subscribe filter])) := by
  rw [subscriptions_append, accepted]
  have idle := registered_idle (subscriptions calls) (c := .subscribe filter) (fun _ => rfl) rfl
  cases ok : accepts filter with
  | false =>
    obtain ⟨e, refused⟩ := subscribe_of_not_accepts ok (p := x.publisher)
    have same : x.step (.subscribe filter) = x := by simp only [Publication.step, refused]
    rw [same, if_neg Bool.noConfusion, List.append_nil]
    refine ⟨keeps.subscribers.trans idle.symm, ?_, ?_, ?_⟩
    · rw [List.length_map, keeps.size]
    · exact List.forall_mem_map.mpr fun s mem => (keeps.serves s mem).idle rfl rfl rfl rfl
    · rw [List.length_map]
      exact keeps.received
  | true =>
    have next : x.step (.subscribe filter) =
        { x with
          publisher :=
            ⟨x.publisher.subscribers ++ [⟨x.publisher.mailboxes.size + 1, filter⟩],
              x.publisher.mailboxes.push ⟨.empty, true⟩⟩ } := by
      simp only [Publication.step, subscribe_of_accepts ok]
    rw [next, if_pos rfl]
    refine ⟨?_, ?_, ?_, ?_⟩
    · rw [List.filter_append, List.map_append, idle, keeps.size, ← keeps.subscribers]
      rfl
    · simp [keeps.size]
    · refine List.forall_mem_append.mpr ⟨List.forall_mem_map.mpr fun s mem => ?_, ?_⟩
      · -- The new mailbox is the last one, so those before it are as they were.
        refine (keeps.serves s mem).idle ?_ rfl rfl rfl
        have lt := index_lt_of_mem mem
        rw [← keeps.size] at lt
        exact (Array.getElem?_push_lt lt).trans (Array.getElem?_eq_getElem lt).symm
      · exact List.forall_mem_singleton.mpr (keeps.serves_new filter rfl rfl)
    · intro e mem
      have lt := keeps.received e mem
      simp
      omega

/-- A call that no subscription comes from keeps the publisher as it has to be if it does so with
each part. -/
lemma Keeps.of_parts {y : Publication} {c : Call} (none : ∀ k, accepted k c = [])
    (subscribers : y.publisher.subscribers =
      (((subscriptions calls).map (·.after c)).filter (·.isRegistered)).map (·.subscriber))
    (size : y.publisher.mailboxes.size = (subscriptions calls).length)
    (serves : ∀ s ∈ subscriptions calls, y.Serves (s.after c))
    (received : ∀ e ∈ y.received, e.1 < (subscriptions calls).length) :
    y.Keeps (subscriptions (calls ++ [c])) := by
  rw [subscriptions_append, none, List.append_nil]
  refine ⟨subscribers, ?_, List.forall_mem_map.mpr serves, ?_⟩
  · rw [List.length_map, size]
  · rwa [List.length_map]

/-- The publisher is as the subscriptions make it after a subscriber was removed. -/
lemma Keeps.unsubscribe (keeps : x.Keeps (subscriptions calls)) (id : Nat) :
    (x.step (.unsubscribe id)).Keeps (subscriptions (calls ++ [.unsubscribe id])) := by
  refine .of_parts (fun _ => rfl) ?_ keeps.size ?_ keeps.received
  · rw [registered_after]
    simp only [Publication.step, Publisher.unsubscribe, keeps.subscribers, List.filter_map]
    congr 2
    funext s
    simp [Call.unsubscribes, Call.notification?, Subscription.subscriber, bne, eq_comm]
  · exact fun s mem => (keeps.serves s mem).idle rfl rfl rfl rfl

/-- The publisher is as the subscriptions make it after a publication. -/
lemma Keeps.publish (keeps : x.Keeps (subscriptions calls)) (n : Node) :
    (x.step (.publish n)).Keeps (subscriptions (calls ++ [.publish n])) := by
  have next : (x.step (.publish n)).publisher = (x.publisher.publish n).2 := rfl
  rw [keeps.publish_eq] at next
  refine .of_parts (fun _ => rfl) ?_ ?_ (fun s mem => ?_) keeps.received
  · rw [next, registered_after, List.filter_filter]
    dsimp only
    congr 2
    funext s
    rw [Subscription.isLive_eq, Bool.and_comm]
    simp [Call.unsubscribes, Call.notification?]
  · rw [next, size_deliver, keeps.size]
  · refine (keeps.serves s mem).publish ?_ ?_ (congrArg Publisher.mailboxes next) rfl
    · exact (distinct_subscriptions calls).sublist (List.filter_sublist.map _)
    · rw [List.mem_map]
      constructor
      · -- No two subscriptions share an index, so it is this one that the notification goes to.
        rintro ⟨s', mem', eq⟩
        obtain ⟨mem', gets⟩ := List.mem_filter.mp mem'
        obtain rfl := List.inj_on_of_nodup_map (distinct_subscriptions calls) mem' mem eq
        exact (Bool.and_eq_true_iff.mp gets).symm
      · rintro ⟨live, wants⟩
        exact ⟨s, List.mem_filter.mpr ⟨mem, by rw [live, wants]; rfl⟩, rfl⟩

/-- The publisher is as the subscriptions make it after a subscription was dropped. -/
lemma Keeps.drop (keeps : x.Keeps (subscriptions calls)) (k : Nat) :
    (x.step (.drop k)).Keeps (subscriptions (calls ++ [.drop k])) := by
  have idle := registered_idle (subscriptions calls) (c := .drop k) (fun _ => rfl) rfl
  refine .of_parts (fun _ => rfl) ?_ ?_ (fun s mem => (keeps.serves s mem).drop k) keeps.received
  · rw [idle, ← keeps.subscribers]
    simp only [Publication.step, Publisher.drop]
    split <;> rfl
  · rw [← keeps.size]
    simp only [Publication.step, Publisher.drop]
    split
    · exact Array.size_setIfInBounds
    · rfl

/-- The publisher is as the subscriptions make it after a subscription was asked. -/
lemma Keeps.receive (keeps : x.Keeps (subscriptions calls)) (k : Nat) :
    (x.step (.receive k)).Keeps (subscriptions (calls ++ [.receive k])) := by
  have idle := registered_idle (subscriptions calls) (c := .receive k) (fun _ => rfl) rfl
  have serves s (mem : s ∈ subscriptions calls) := (keeps.serves s mem).receive k
  cases asked x k with
  | gone _ _ same | waits _ _ _ same =>
    refine .of_parts (fun _ => rfl) ?_ ?_ serves ?_ <;> rw [same]
    · rw [idle, keeps.subscribers]
    · exact keeps.size
    · exact keeps.received
  | taken box _ _ next =>
    refine .of_parts (fun _ => rfl) ?_ ?_ serves ?_ <;> rw [next]
    · rw [idle, ← keeps.subscribers]
    · rw [Array.size_setIfInBounds, keeps.size]
    · refine List.forall_mem_append.mpr ⟨keeps.received, List.forall_mem_singleton.mpr ?_⟩
      have found := (Option.filter_eq_some_iff.mp box).1
      rw [← keeps.size]
      exact (Array.getElem?_eq_some_iff.mp found).1

/-- The publisher is as the subscriptions make it after any call. -/
lemma Keeps.step (keeps : x.Keeps (subscriptions calls)) (c : Call) :
    (x.step c).Keeps (subscriptions (calls ++ [c])) := by
  cases c with
  | subscribe filter => exact keeps.subscribe filter
  | unsubscribe id => exact keeps.unsubscribe id
  | publish n => exact keeps.publish n
  | drop k => exact keeps.drop k
  | receive k => exact keeps.receive k

/-- The publisher is as the subscriptions make it after any calls. -/
lemma keeps_run (calls : List Call) : (run calls).Keeps (subscriptions calls) := by
  induction calls using List.reverseRecOn with
  | nil => exact ⟨rfl, rfl, List.forall_mem_nil _, List.forall_mem_nil _⟩
  | append_singleton calls c ih =>
    have next : run (calls ++ [c]) = (run calls).step c := List.foldl_append
    rw [next]
    exact ih.step c

/-! ## Answers -/

/-- A subscriber is registered just when its subscription is neither unsubscribed nor removed. -/
lemma Keeps.isRegistered_iff (keeps : x.Keeps subs) {id : Nat} :
    x.publisher.isRegistered id = true ↔ ∃ s ∈ subs, s.id = id ∧ s.isRegistered = true := by
  rw [Publisher.isRegistered, keeps.subscribers, List.any_map, List.any_filter, List.any_eq_true]
  simp only [Function.comp_apply, Subscription.subscriber, Bool.and_eq_true, beq_iff_eq]
  exact exists_congr fun s => and_congr_right fun _ => and_comm

/-- As long as a subscription is not dropped, its subscriber is registered until unsubscribed. -/
lemma Keeps.isRegistered_of_held (keeps : x.Keeps (subscriptions calls)) {s : Subscription}
    (mem : s ∈ subscriptions calls) (held : s.isDropped = false) :
    x.publisher.isRegistered s.id = !s.isUnsubscribed := by
  have own : s.isRegistered = !s.isUnsubscribed := by
    simp [Subscription.isRegistered, Subscription.isRemoved_of_not_isDropped held]
  rw [← own, Bool.eq_iff_iff, keeps.isRegistered_iff]
  constructor
  · rintro ⟨s', mem', eq, registered⟩
    obtain rfl := List.inj_on_of_nodup_map (distinct_subscriptions calls) mem' mem
      (Nat.succ.inj eq)
    exact registered
  · exact fun registered => ⟨s, mem, rfl, registered⟩

/-- A subscription that is not dropped receives the next notification that is due to it. -/
lemma Keeps.receive_eq (keeps : x.Keeps (subscriptions calls)) {s : Subscription}
    (mem : s ∈ subscriptions calls) (held : s.isDropped = false) :
    (x.publisher.receive s.index).1 = some
      (match s.due[(x.receivedBy s.index).length]? with
      | some n => .message n
      | none => if s.isUnsubscribed then .ended else .pending) := by
  cases (keeps.serves s mem).box with
  | dropped dropped => rw [held] at dropped; cases dropped
  | @held m _ _ _ reach all =>
    cases asked x s.index with
    | gone none => rw [none] at reach; cases reach
    | taken box moves answer =>
      obtain rfl := Option.some.inj (reach.symm.trans box)
      rw [answer, ← all, moves, List.getElem?_append_right (Nat.le_refl _), Nat.sub_self,
        List.getElem?_cons_zero]
    | waits box nothing answer =>
      obtain rfl := Option.some.inj (reach.symm.trans box)
      have registered := keeps.isRegistered_of_held mem held
      rw [Subscription.id] at registered
      rw [answer, registered, ← all, nothing, List.append_nil, List.getElem?_length]
      cases s.isUnsubscribed <;> rfl

/-- Nothing was received by anyone who is no subscription. -/
lemma Keeps.receivedBy_eq_nil (keeps : x.Keeps (subscriptions calls)) {k : Nat}
    (other : ∀ s ∈ subscriptions calls, s.index ≠ k) : x.receivedBy k = [] := by
  rw [receivedBy, List.map_eq_nil_iff, List.filter_eq_nil_iff]
  intro e mem eq
  have lt := keeps.received e mem
  rw [beq_iff_eq.mp eq, ← List.mem_range, ← index_subscriptions] at lt
  obtain ⟨s, mem, eq⟩ := List.mem_map.mp lt
  exact other s mem eq

/-- A publisher answers as the subscriptions it accepted tell. -/
structure Answers (x : Publication) (subs : List Subscription) : Prop where
  /-- A publication does not fail. It reaches the live subscriptions that want the notification,
  and leaves just the live ones registered. -/
  publish : ∀ n, ∃ p,
    x.publisher.publish n = (.ok (subs.filter fun s => s.wants n && s.isLive).length, p) ∧
      p.subscribers = (subs.filter (·.isLive)).map (·.subscriber)
  accept : ∀ filter, accepts filter = true →
    ∃ p, x.publisher.subscribe filter = .ok (subs.length + 1, p)
  /-- An invalid filter is refused, and nothing changes. -/
  refuse : ∀ f e, Filter.validate f = .error e →
    x.publisher.subscribe (some f) = .error e ∧ x.step (.subscribe (some f)) = x
  registered : x.publisher.subscribers = (subs.filter (·.isRegistered)).map (·.subscriber)
  unsubscribe : ∀ id, (x.publisher.unsubscribe id).1 = true ↔
    ∃ s ∈ subs, s.id = id ∧ s.isRegistered = true
  /-- What was received is the first of what is due. -/
  inOrder : ∀ s ∈ subs, x.receivedBy s.index <+: s.due
  others : ∀ k, (∀ s ∈ subs, s.index ≠ k) → x.receivedBy k = []
  /-- The next to be received is the next that is due. When there is none, the end has come for a
  subscription that is unsubscribed. -/
  receive : ∀ s ∈ subs, s.isDropped = false →
    (x.publisher.receive s.index).1 = some
      (match s.due[(x.receivedBy s.index).length]? with
      | some n => .message n
      | none => if s.isUnsubscribed then .ended else .pending)

/-- Whatever is asked of a publisher, it answers as the subscriptions tell: each receives, in order
and once, what it wants of all that is published while it is live. -/
theorem run_answers (calls : List Call) : (run calls).Answers (subscriptions calls) := by
  have keeps := keeps_run calls
  refine ⟨fun n => ?_, fun filter ok => ?_, fun f e invalid => ?_, keeps.subscribers,
    fun id => ?_, fun s mem => (keeps.serves s mem).inOrder,
    fun k other => keeps.receivedBy_eq_nil other, fun s mem held => keeps.receive_eq mem held⟩
  · rw [keeps.publish_eq n]
    exact ⟨_, rfl, rfl⟩
  · rw [subscribe_of_accepts ok, keeps.size]
    exact ⟨_, rfl⟩
  · have refused := subscribe_of_error (p := (run calls).publisher) invalid
    exact ⟨refused, by simp only [Publication.step, refused]⟩
  · exact keeps.isRegistered_iff

end

end Publication

end Netconf.Publisher
