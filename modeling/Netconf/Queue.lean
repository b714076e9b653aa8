/-!
# Queues

What joins a queue leaves it after all that joined before. A queue stands for the list of what is
in it, the next one to leave first.
-/

namespace Netconf

/-- A queue. -/
structure Queue (α : Type) where
  /-- Those next to leave, in order. -/
  front : List α
  /-- Those behind them, the last one first. -/
  back : List α
  deriving DecidableEq, Repr, Inhabited

namespace Queue

variable {α : Type}

/-- The queue with nothing in it. -/
def empty : Queue α :=
  ⟨[], []⟩

/-- The queue of the given elements, the first one to leave first. -/
def ofList (as : List α) : Queue α :=
  ⟨as, []⟩

/-- What is in a queue, the next one to leave first. -/
def toList (q : Queue α) : List α :=
  q.front ++ q.back.reverse

/-- The queue that `a` has joined. -/
def push (q : Queue α) (a : α) : Queue α :=
  { q with back := a :: q.back }

/-- The queue that all of `as` have joined, one after the other. -/
def pushAll (q : Queue α) (as : List α) : Queue α :=
  { q with back := as.reverseAux q.back }

/-- The first `n` to leave, and the queue without them. -/
def popMany (n : Nat) (q : Queue α) : List α × Queue α :=
  if (q.front.take n).length = n then (q.front.take n, { q with front := q.front.drop n })
  else (q.toList.take n, ⟨q.toList.drop n, []⟩)

/-- The one to leave and the queue without it; none if the queue is empty. -/
def pop? (q : Queue α) : Option (α × Queue α) :=
  match q.front with
  | a :: front => some (a, ⟨front, q.back⟩)
  | [] =>
    match q.back.reverse with
    | a :: front => some (a, ⟨front, []⟩)
    | [] => none

/-- There is nothing in the empty queue. -/
@[simp]
theorem toList_empty : (empty : Queue α).toList = [] := rfl

/-- The queue made of a list holds the list. -/
@[simp]
theorem toList_ofList (as : List α) : (ofList as).toList = as := by
  simp [toList, ofList]

/-- Who joins a queue stands behind all others. -/
@[simp]
theorem toList_push (q : Queue α) (a : α) : (q.push a).toList = q.toList ++ [a] := by
  simp [toList, push]

/-- Those who join a queue one after the other stand behind all others in their order. -/
@[simp]
theorem toList_pushAll (q : Queue α) (as : List α) :
    (q.pushAll as).toList = q.toList ++ as := by
  simp [toList, pushAll, List.reverseAux_eq]

/-- The ones to leave are those who have stood longest. -/
@[simp]
theorem popMany_fst (n : Nat) (q : Queue α) : (q.popMany n).1 = q.toList.take n := by
  unfold popMany
  split
  · next h =>
    rw [List.length_take] at h
    rw [toList, List.take_append_of_le_length (by omega)]
  · rfl

/-- The ones who have stood longest are gone when they have left. -/
@[simp]
theorem toList_popMany (n : Nat) (q : Queue α) :
    (q.popMany n).2.toList = q.toList.drop n := by
  unfold popMany
  split
  · next h =>
    rw [List.length_take] at h
    simp only [toList]
    rw [List.drop_append_of_le_length (by omega)]
  · simp [toList]

/-- None can leave just when there is nobody in the queue. -/
theorem pop?_eq_none_iff {q : Queue α} : q.pop? = none ↔ q.toList = [] := by
  obtain ⟨front, back⟩ := q
  cases front with
  | nil =>
    cases h : back.reverse <;> simp [pop?, toList, h]
  | cons a front => simp [pop?, toList]

/-- The one to leave has stood in front of those who stay. -/
theorem toList_of_pop? {q q' : Queue α} {a : α} (h : q.pop? = some (a, q')) :
    q.toList = a :: q'.toList := by
  obtain ⟨front, back⟩ := q
  cases front with
  | nil =>
    cases hback : back.reverse with
    | nil => simp [pop?, hback] at h
    | cons b front =>
      simp only [pop?, hback, Option.some.injEq, Prod.mk.injEq] at h
      obtain ⟨rfl, rfl⟩ := h
      simp [toList, hback]
  | cons b front =>
    simp only [pop?, Option.some.injEq, Prod.mk.injEq] at h
    obtain ⟨rfl, rfl⟩ := h
    simp [toList]

end Queue

end Netconf
