import Mathlib.Data.List.TakeWhile
import Mathlib.Tactic.Lemma
import Netconf.Publisher

/-!
# Subscriptions told by what was asked

What a publisher owes to a subscription follows from the calls alone: from those that came since it
was accepted, it can be told whether it was dropped or unsubscribed, whether its subscriber is still
registered, and which notifications are due to it. This is said here without the publisher's state.
-/

namespace Netconf.Publisher

/-- What is asked of a publisher. Subscriptions are counted from zero, their numbers from one. -/
inductive Call where
  | subscribe (filter : Option Node)
  | unsubscribe (id : Nat)
  | publish (notification : Node)
  | drop (k : Nat)
  /-- Asks a subscription for its next notification. -/
  | receive (k : Nat)

namespace Call

/-- Whether the call drops the subscription with the given index. -/
def drops (k : Nat) : Call → Bool
  | drop j => j == k
  | _ => false

/-- Whether the call removes the subscriber with the given number. -/
def unsubscribes (id : Nat) : Call → Bool
  | unsubscribe i => i == id
  | _ => false

/-- The notification that the call publishes. -/
def notification? : Call → Option Node
  | publish notification => some notification
  | _ => none

/-- A call that drops a subscription publishes nothing. -/
lemma notification?_of_drops {c : Call} {k : Nat} (drops : c.drops k = true) :
    c.notification? = none := by
  cases c with
  | drop => rfl
  | _ => cases drops

/-- A call that removes a subscriber publishes nothing. -/
lemma notification?_of_unsubscribes {c : Call} {id : Nat} (gone : c.unsubscribes id = true) :
    c.notification? = none := by
  cases c with
  | unsubscribe => rfl
  | _ => cases gone

end Call

/-- Whether a subscription with this filter, or without one, is accepted. -/
def accepts (filter : Option Node) : Bool :=
  filter.all fun f => (Filter.validate f).isOk

/-- A subscription that was accepted. -/
structure Subscription where
  /-- How many were accepted before it. -/
  index : Nat
  filter : Option Node
  /-- What was asked since. -/
  since : List Call

namespace Subscription

def id (s : Subscription) : Nat :=
  s.index + 1

/-- The subscriber under whom the subscription is registered. -/
def subscriber (s : Subscription) : Subscriber :=
  ⟨s.id, s.filter⟩

def isDropped (s : Subscription) : Bool :=
  s.since.any (·.drops s.index)

def isUnsubscribed (s : Subscription) : Bool :=
  s.since.any (·.unsubscribes s.id)

/-- Whether the call neither drops the subscription nor removes its subscriber. -/
def outlives (s : Subscription) (c : Call) : Bool :=
  !c.drops s.index && !c.unsubscribes s.id

def isLive (s : Subscription) : Bool :=
  s.since.all s.outlives

/-- Whether there was a publication after it was dropped. -/
def isRemoved (s : Subscription) : Bool :=
  (s.since.dropWhile (!·.drops s.index)).any (·.notification?.isSome)

/-- Whether its subscriber was neither unsubscribed nor removed. -/
def isRegistered (s : Subscription) : Bool :=
  !s.isUnsubscribed && !s.isRemoved

/-- Whether it has no filter, or one that selects something in the notification. -/
def wants (s : Subscription) (notification : Node) : Bool :=
  s.filter.all fun f => (Filter.selects notification f).toOption == some true

/-- The notifications that it wants of those published while it was live. -/
def due (s : Subscription) : List Node :=
  ((s.since.takeWhile s.outlives).filterMap (·.notification?)).filter s.wants

def after (s : Subscription) (c : Call) : Subscription :=
  { s with since := s.since ++ [c] }

end Subscription

/-- The subscriptions that the calls come to, if `k` were accepted before. -/
def subscriptionsFrom (k : Nat) : List Call → List Subscription
  | [] => []
  | .subscribe filter :: rest =>
    if accepts filter then ⟨k, filter, rest⟩ :: subscriptionsFrom (k + 1) rest
    else subscriptionsFrom k rest
  | _ :: rest => subscriptionsFrom k rest

/-- The subscriptions that were accepted, in order. -/
def subscriptions (calls : List Call) : List Subscription :=
  subscriptionsFrom 0 calls

/-- The subscription that a call brings, if `k` were accepted before. -/
def accepted (k : Nat) : Call → List Subscription
  | .subscribe filter => if accepts filter then [⟨k, filter, []⟩] else []
  | _ => []

/-- One more call is made to the subscriptions there are, and may bring one more. -/
lemma subscriptionsFrom_append (calls : List Call) (c : Call) (k : Nat) :
    subscriptionsFrom k (calls ++ [c]) =
      (subscriptionsFrom k calls).map (·.after c) ++
        accepted (k + (subscriptionsFrom k calls).length) c := by
  induction calls generalizing k with
  | nil =>
    cases c with
    | subscribe filter => simp only [List.nil_append, subscriptionsFrom, accepted]; rfl
    | _ => rfl
  | cons d rest ih =>
    cases d with
    | subscribe filter =>
      simp only [List.cons_append, subscriptionsFrom]
      split
      · rw [ih, List.length_cons, List.map_cons, List.cons_append, Nat.add_right_comm]
        rfl
      · exact ih k
    | _ => exact ih k

/-- After one more call there are the subscriptions from before and the one that it brings. -/
lemma subscriptions_append (calls : List Call) (c : Call) :
    subscriptions (calls ++ [c]) =
      (subscriptions calls).map (·.after c) ++ accepted (subscriptions calls).length c := by
  have eq := subscriptionsFrom_append calls c 0
  rwa [Nat.zero_add] at eq

/-- Subscriptions are counted from the number of those accepted before. -/
lemma index_subscriptionsFrom (calls : List Call) (k : Nat) :
    (subscriptionsFrom k calls).map (·.index) =
      List.range' k (subscriptionsFrom k calls).length := by
  induction calls generalizing k with
  | nil => rfl
  | cons d rest ih =>
    cases d with
    | subscribe filter =>
      simp only [subscriptionsFrom]
      split
      · rw [List.map_cons, ih, List.length_cons, List.range'_succ]
      · exact ih k
    | _ => exact ih k

/-- Subscriptions are counted from zero. -/
lemma index_subscriptions (calls : List Call) :
    (subscriptions calls).map (·.index) = List.range (subscriptions calls).length := by
  rw [List.range_eq_range']
  exact index_subscriptionsFrom calls 0

/-- A subscription was accepted with its filter. -/
lemma accepts_of_mem_subscriptionsFrom {calls : List Call} {k : Nat} {s : Subscription}
    (mem : s ∈ subscriptionsFrom k calls) : accepts s.filter = true := by
  induction calls generalizing k with
  | nil => cases mem
  | cons d rest ih =>
    cases d with
    | subscribe filter =>
      simp only [subscriptionsFrom] at mem
      split at mem
      · next ok =>
        rcases List.mem_cons.mp mem with rfl | mem
        · exact ok
        · exact ih mem
      · exact ih mem
    | _ => exact ih mem

namespace Subscription

variable {s : Subscription} {c : Call} {n : Node}

/-! ## One more call -/

/-- A call leaves a subscription its index. -/
@[simp]
lemma index_after : (s.after c).index = s.index := rfl

/-- A subscription is dropped after a call if it was before or the call drops it. -/
@[simp]
lemma isDropped_after : (s.after c).isDropped = (s.isDropped || c.drops s.index) := by
  simp [isDropped, after]

/-- A subscription is unsubscribed after a call if it was before or the call unsubscribes it. -/
@[simp]
lemma isUnsubscribed_after :
    (s.after c).isUnsubscribed = (s.isUnsubscribed || c.unsubscribes s.id) := by
  simp [isUnsubscribed, after, id]

/-- A subscription is live if it is neither dropped nor unsubscribed. -/
lemma isLive_eq_not : s.isLive = (!s.isDropped && !s.isUnsubscribed) := by
  rw [Bool.eq_iff_iff]
  simp [isLive, outlives, isDropped, isUnsubscribed, forall_and]

/-- A subscription is not dropped if nothing was asked from such a call on. -/
lemma isDropped_eq_false_iff :
    s.isDropped = false ↔ s.since.dropWhile (!·.drops s.index) = [] := by
  simp [isDropped, List.dropWhile_eq_nil_iff]

/-- A subscription is removed after a call if it was before, or if it was dropped and the call
publishes. -/
@[simp]
lemma isRemoved_after :
    (s.after c).isRemoved = (s.isRemoved || s.isDropped && c.notification?.isSome) := by
  unfold isRemoved
  simp only [after, List.dropWhile_append]
  cases dropped : s.isDropped with
  | false =>
    have none := isDropped_eq_false_iff.mp dropped
    cases drops : c.drops s.index with
    | false => simp [none, drops]
    | true => simp [none, drops, Call.notification?_of_drops drops]
  | true =>
    have some : s.since.dropWhile (!·.drops s.index) ≠ [] := by
      rw [ne_eq, ← isDropped_eq_false_iff, dropped]
      exact Bool.noConfusion
    simp [some]

/-- A subscription is not removed before it is dropped. -/
lemma isRemoved_of_not_isDropped (dropped : s.isDropped = false) : s.isRemoved = false := by
  rw [isRemoved, isDropped_eq_false_iff.mp dropped]
  rfl

/-- A subscriber is live if it is registered and its subscription was not dropped. -/
lemma isLive_eq : s.isLive = (s.isRegistered && !s.isDropped) := by
  cases dropped : s.isDropped with
  | false =>
    simp [isLive_eq_not, isRegistered, dropped, isRemoved_of_not_isDropped dropped]
  | true => simp [isLive_eq_not, dropped]

/-- A subscriber stays registered unless the call unsubscribes it, or publishes after its
subscription was dropped. -/
@[simp]
lemma isRegistered_after :
    (s.after c).isRegistered =
      (s.isRegistered && !c.unsubscribes s.id && !(s.isDropped && c.notification?.isSome)) := by
  simp only [isRegistered, isUnsubscribed_after, isRemoved_after, Bool.not_or]
  ac_rfl

/-- A call makes due what it publishes to a live subscription that wants it. -/
lemma due_after :
    (s.after c).due =
      if s.isLive then s.due ++ c.notification?.toList.filter s.wants else s.due := by
  have notified : ([c].takeWhile s.outlives).filterMap (·.notification?) =
      c.notification?.toList := by
    cases drops : c.drops s.index with
    | true => simp [outlives, drops, Call.notification?_of_drops drops]
    | false =>
      cases gone : c.unsubscribes s.id with
      | true => simp [outlives, gone, Call.notification?_of_unsubscribes gone]
      | false => cases h : c.notification? <;> simp [outlives, drops, gone, h]
  change (((s.since ++ [c]).takeWhile s.outlives).filterMap _).filter s.wants = _
  split
  · next live =>
    have all := List.all_eq_true.mp live
    rw [List.takeWhile_append_of_pos all, List.filterMap_append, notified, List.filter_append, due,
      List.takeWhile_eq_self_iff.mpr all]
  · next live =>
    -- It has not lived through all calls before, so it does not come to the last one.
    have some : s.since.takeWhile s.outlives ≠ s.since := fun all =>
      live (List.all_eq_true.mpr (List.takeWhile_eq_self_iff.mp all))
    rw [List.takeWhile_append, if_neg, due]
    exact fun length => some ((List.takeWhile_prefix _).eq_of_length length)

end Subscription

end Netconf.Publisher
