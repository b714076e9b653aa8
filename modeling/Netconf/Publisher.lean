import Netconf.Filter
import Netconf.Queue

/-!
# Publishing notifications

Notifications go to the subscribers whose filter selects something in them. A subscription has a
mailbox, from which its holder takes the notifications in order. A subscriber is registered until
it is unsubscribed; one whose subscription was dropped is noticed by the next publication.
-/

namespace Netconf

/-- Someone who is registered for notifications; without a filter, for all of them. -/
structure Subscriber where
  id : Nat
  filter : Option Node

/-- The notifications of one subscription. -/
structure Mailbox where
  /-- Those delivered and not taken. -/
  waiting : Queue Node
  /-- Whether the subscription was not dropped. -/
  held : Bool

/-- A publisher. The subscriber with the number `k + 1` has the mailbox with the index `k`. -/
structure Publisher where
  /-- Those registered, in the order of their subscriptions. -/
  subscribers : List Subscriber
  mailboxes : Array Mailbox

/-- Whether a subscriber gets a notification. -/
def Subscriber.wants (s : Subscriber) (notification : Node) : Except FilterError Bool :=
  match s.filter with
  | none => .ok true
  | some filter => Filter.selects notification filter

/-- The mailbox with one more notification. -/
def Mailbox.put (m : Mailbox) (notification : Node) : Mailbox :=
  { m with waiting := m.waiting.push notification }

namespace Publisher

/-- A publisher without subscribers. -/
def empty : Publisher :=
  ⟨[], #[]⟩

/-- Number of registered subscribers. -/
def size (p : Publisher) : Nat :=
  p.subscribers.length

/-- The publisher as a diagnostic shows it. -/
def debug (p : Publisher) : String :=
  "NotificationPublisher \x7b subscribers: " ++ toString p.size ++ " \x7d"

/-- The mailbox of a subscription that was not dropped. -/
def mailbox? (p : Publisher) (k : Nat) : Option Mailbox :=
  p.mailboxes[k]?.filter (·.held)

/-- Whether a subscriber's subscription was not dropped. -/
def isHeld (p : Publisher) (s : Subscriber) : Bool :=
  (p.mailbox? (s.id - 1)).isSome

/-- Whether a number is that of a registered subscriber. -/
def isRegistered (p : Publisher) (id : Nat) : Bool :=
  p.subscribers.any (·.id == id)

/-- Registers a subscriber with a valid filter, or without one, under the next number. -/
def subscribe (p : Publisher) (filter : Option Node) : Except FilterError (Nat × Publisher) := do
  match filter with
  | none => pure ()
  | some filter => Filter.validate filter
  let id := p.mailboxes.size + 1
  return (id, ⟨p.subscribers ++ [⟨id, filter⟩], p.mailboxes.push ⟨.empty, true⟩⟩)

/-- Removes a subscriber; false if it is not registered. -/
def unsubscribe (p : Publisher) (id : Nat) : Bool × Publisher :=
  (p.isRegistered id, { p with subscribers := p.subscribers.filter (·.id != id) })

/-- The numbers of the subscribers that get a notification. -/
def targets (notification : Node) : List Subscriber → Except FilterError (List Nat)
  | [] => .ok []
  | s :: rest => do
    let wanted ← s.wants notification
    let ids ← targets notification rest
    return if wanted then s.id :: ids else ids

/-- Puts a notification into the mailboxes of the given numbers. -/
def deliver (notification : Node) (ids : List Nat) (mailboxes : Array Mailbox) : Array Mailbox :=
  ids.foldl (fun mailboxes id => mailboxes.modify (id - 1) (·.put notification)) mailboxes

/-- Delivers a notification and counts who got it. Subscribers whose subscription was dropped are
removed before. -/
def publish (p : Publisher) (notification : Node) : Except FilterError Nat × Publisher :=
  let kept := p.subscribers.filter p.isHeld
  match targets notification kept with
  | .ok ids => (.ok ids.length, ⟨kept, deliver notification ids p.mailboxes⟩)
  | .error e => (.error e, { p with subscribers := kept })

/-- Drops a subscription; false if it was dropped before. -/
def drop (p : Publisher) (k : Nat) : Bool × Publisher :=
  match p.mailbox? k with
  | some _ => (true, { p with mailboxes := p.mailboxes.setIfInBounds k ⟨.empty, false⟩ })
  | none => (false, p)

/-- Asks a subscription for the next notification; none if it was dropped. -/
def receive (p : Publisher) (k : Nat) : Option Received × Publisher :=
  match p.mailbox? k with
  | none => (none, p)
  | some m =>
    match m.waiting.pop? with
    | some (n, waiting) =>
      let mailboxes := p.mailboxes.setIfInBounds k { m with waiting := waiting }
      (some (.message n), { p with mailboxes := mailboxes })
    | none => (some (if p.isRegistered (k + 1) then .pending else .ended), p)

end Publisher

end Netconf
