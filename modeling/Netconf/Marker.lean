/-!
# Leftmost occurrence of a marker

Where a fixed sequence of symbols first occurs in a list, and the list cut in two there.
-/

namespace Netconf.Marker

variable {α : Type} [BEq α]

/-- The position of the leftmost occurrence of `marker`, counted from `start`. -/
def findFrom (marker : List α) (start : Nat) : List α → Option Nat
  | [] => if marker.isPrefixOf [] then some start else none
  | a :: rest =>
    if marker.isPrefixOf (a :: rest) then some start else findFrom marker (start + 1) rest

/-- The position of the leftmost occurrence of `marker`. -/
def find? (marker list : List α) : Option Nat :=
  findFrom marker 0 list

/-- What stands before the leftmost occurrence of `marker`, and what follows it. -/
def cut? (marker list : List α) : Option (List α × List α) :=
  (find? marker list).map fun i => (list.take i, list.drop (i + marker.length))

/-- Looking from a place on finds the marker where looking from the front does, counted from that
place. -/
theorem findFrom_eq_map (marker : List α) (start : Nat) (list : List α) :
    findFrom marker start list = (find? marker list).map (· + start) := by
  induction list generalizing start with
  | nil =>
    simp only [find?, findFrom]
    split <;> simp
  | cons a rest ih =>
    simp only [find?, findFrom]
    split
    · simp
    · rw [ih (start + 1), ih (0 + 1)]
      cases find? marker rest <;> simp [Nat.add_comm, Nat.add_left_comm]

/-- The marker is at the front, or where it is in what follows. -/
theorem find?_cons (marker : List α) (a : α) (rest : List α) :
    find? marker (a :: rest) =
      if marker.isPrefixOf (a :: rest) then some 0 else (find? marker rest).map (· + 1) := by
  rw [find?, findFrom]
  split
  · rfl
  · exact findFrom_eq_map marker 1 rest

/-- A list with the marker in front is at least as long as the marker. -/
theorem length_le_of_isPrefixOf {marker list : List α} (h : marker.isPrefixOf list = true) :
    marker.length ≤ list.length := by
  induction marker generalizing list with
  | nil => simp
  | cons m marker ih =>
    cases list with
    | nil => simp [List.isPrefixOf] at h
    | cons a list =>
      simp only [List.isPrefixOf, Bool.and_eq_true] at h
      simpa using ih h.2

/-- The marker lies within the list in which it is found. -/
theorem length_le_of_find? {marker list : List α} {i : Nat} (h : find? marker list = some i) :
    i + marker.length ≤ list.length := by
  induction list generalizing i with
  | nil =>
    simp only [find?, findFrom] at h
    split at h
    · next hm =>
      have := length_le_of_isPrefixOf hm
      simp only [Option.some.injEq, List.length_nil] at h this ⊢
      omega
    · contradiction
  | cons a rest ih =>
    rw [find?_cons] at h
    split at h
    · next hm =>
      simp only [Option.some.injEq] at h
      subst h
      simpa using length_le_of_isPrefixOf hm
    · simp only [Option.map_eq_some_iff] at h
      obtain ⟨j, hj, rfl⟩ := h
      have := ih hj
      simp only [List.length_cons]
      omega

/-- The marker and what stands on both sides of it make up the list. -/
theorem length_of_cut? {marker list before after : List α}
    (h : cut? marker list = some (before, after)) :
    before.length + marker.length + after.length = list.length := by
  simp only [cut?, Option.map_eq_some_iff, Prod.mk.injEq] at h
  obtain ⟨i, hi, rfl, rfl⟩ := h
  have := length_le_of_find? hi
  simp only [List.length_take, List.length_drop]
  omega

end Netconf.Marker
