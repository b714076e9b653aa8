import Std.Data.TreeSet.Lemmas

/-!
# Session numbers

A server numbers its sessions so that no two open ones share a number. A lease is a number in use;
giving up the lease gives back the number.
-/

namespace Netconf

/-- Where session numbers come from. -/
structure IdSource (σ : Type) where
  /-- A number that is free, if there is one. -/
  allocate : σ → Option Nat × σ
  /-- Gives a number back. -/
  release : Nat → σ → σ

/-- Counts up from one, goes back to one after the greatest number of 32 bits, and passes over the
numbers in use. -/
structure Allocator where
  /-- Where the search for the next number begins. -/
  upcoming : Nat
  /-- Numbers in use. -/
  used : Std.TreeSet Nat

namespace Allocator

/-- The greatest session number. -/
def maxId : Nat :=
  UInt32.size - 1

/-- An allocator with all numbers free. -/
def new : Allocator :=
  ⟨1, ∅⟩

/-- The number after `n` in the circle of session numbers. -/
def following (n : Nat) : Nat :=
  if n < maxId then n + 1 else 1

/-- The first number, from `n` on, that is not in use. Among more numbers than are in use one is
free, so `tries` need not be greater than that. -/
def firstFree (used : Std.TreeSet Nat) : (tries : Nat) → (n : Nat) → Nat
  | 0, n => n
  | tries + 1, n => if n ∈ used then firstFree used tries (following n) else n

/-- A number that is not in use, from now on in use. -/
def allocate (a : Allocator) : Option Nat × Allocator :=
  if maxId ≤ a.used.size then (none, a)
  else
    let id := firstFree a.used a.used.size a.upcoming
    (some id, ⟨following id, a.used.insert id⟩)

/-- Gives a number back; one that is not in use is not there to give back. -/
def release (id : Nat) (a : Allocator) : Allocator :=
  { a with used := a.used.erase id }

/-- The allocator as a source of numbers. -/
def source : IdSource Allocator :=
  ⟨allocate, release⟩

end Allocator

/-- Numbers given out by plan, and those given back so far. -/
structure IdPlan where
  /-- What the coming requests get. -/
  planned : List (Option Nat)
  /-- Numbers given back, the first one first. -/
  released : List Nat
  deriving DecidableEq, Repr

namespace IdPlan

/-- The plan as a source of numbers. It is exhausted when it has been used up. -/
def source : IdSource IdPlan where
  allocate p :=
    match p.planned with
    | [] => (none, p)
    | id :: rest => (id, { p with planned := rest })
  release id p := { p with released := p.released ++ [id] }

end IdPlan

/-- A source of numbers with the leases taken from it, in the order in which they were taken. A
lease that was given up is none. -/
structure Leases (σ : Type) where
  state : σ
  leases : List (Option Nat)

namespace Leases

variable {σ : Type}

/-- Takes a lease. -/
def acquire (source : IdSource σ) (l : Leases σ) : Option Nat × Leases σ :=
  match source.allocate l.state with
  | (some id, state) => (some id, ⟨state, l.leases ++ [some id]⟩)
  | (none, state) => (none, { l with state := state })

/-- Gives up the lease with the given index; false if it is not held. -/
def drop (source : IdSource σ) (k : Nat) (l : Leases σ) : Bool × Leases σ :=
  match l.leases[k]? with
  | some (some id) => (true, ⟨source.release id l.state, l.leases.set k none⟩)
  | _ => (false, l)

/-- Asks for a number without a lease. -/
def allocate (source : IdSource σ) (l : Leases σ) : Option Nat × Leases σ :=
  let (id, state) := source.allocate l.state
  (id, { l with state := state })

/-- Gives back a number without a lease. -/
def release (source : IdSource σ) (id : Nat) (l : Leases σ) : Leases σ :=
  { l with state := source.release id l.state }

end Leases

end Netconf
