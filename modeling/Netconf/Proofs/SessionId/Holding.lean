import Netconf.Proofs.SessionId.Allocation

/-!
# Numbers that are held

The account of an allocator is balanced if no number is given twice without being returned in
between, and none is returned that was not given. It stays so as long as each number in use is held
by somebody, who is the only one to return it (`Holds`).
-/

namespace Netconf

/-- What may come next in an account: a number is given that is free, or one is returned that is
outstanding. -/
def Entry.Fits (entries : List Entry) : Entry → Prop
  | .answered none => True
  | .answered (some id) => ¬Outstanding entries id
  | .released id => Outstanding entries id

/-- Each entry fits what was before it. -/
def Balanced (entries : List Entry) : Prop :=
  ∀ before e since, entries = before ++ e :: since → e.Fits before

/-- An account stays balanced with one more entry that fits. -/
lemma Balanced.concat {entries : List Entry} {e : Entry} (balanced : Balanced entries)
    (fits : e.Fits entries) : Balanced (entries ++ [e]) := by
  intro before x since eq
  rcases append_concat_cases eq with ⟨rfl, rfl, -⟩ | ⟨since, -, rfl⟩
  · exact fits
  · exact balanced _ _ _ rfl

namespace Ledger

/-- The numbers in use are held, each by somebody else, and the account is balanced. -/
structure Holds (l : Ledger) (numbers : List Nat) : Prop where
  sound : l.Sound
  distinct : numbers.Nodup
  held : ∀ id, Outstanding l.entries id ↔ id ∈ numbers
  balanced : Balanced l.entries
  /-- A number was given as often as it was returned, and once more if it is held. -/
  counted : ∀ id, l.entries.count (.answered (some id)) =
    l.entries.count (.released id) + numbers.count id

section

variable {l l' : Ledger} {numbers rest : List Nat} {id : Nat}

/-- Nobody holds a number of a new allocator. -/
lemma holds_new : new.Holds [] where
  sound := sound_new
  distinct := .nil
  held id := by
    refine iff_of_false ?_ List.not_mem_nil
    rintro ⟨before, since, eq, -⟩
    cases before <;> cases eq
  balanced before e since eq := by cases before <;> cases eq
  counted _ := rfl

/-- A request that is answered with none leaves the numbers held as they are. -/
lemma Holds.exhausted (holds : l.Holds numbers) (none : source.allocate l = (none, l')) :
    l'.Holds numbers := by
  obtain ⟨answered, sound⟩ := holds.sound.allocate
  rw [none] at answered sound
  cases answered with
  | full =>
    exact {
      sound := sound
      distinct := holds.distinct
      held := fun id => by simp [outstanding_concat, holds.held]
      balanced := holds.balanced.concat trivial
      counted := fun id => by simp [holds.counted] }

/-- A number that is given is held with the others. -/
lemma Holds.given (holds : l.Holds numbers) (given : source.allocate l = (some id, l')) :
    l'.Holds (numbers ++ [id]) := by
  obtain ⟨answered, sound⟩ := holds.sound.allocate
  rw [given] at answered sound
  cases answered with
  | given _ _ _ free =>
    have fresh : id ∉ numbers := mt (holds.held id).mpr free
    exact {
      sound := sound
      distinct := List.nodup_append_comm.mp (List.nodup_cons.mpr ⟨fresh, holds.distinct⟩)
      held := fun id' => by
        rw [outstanding_concat, holds.held, List.mem_append, List.mem_singleton, or_comm]
        simp [eq_comm]
      balanced := holds.balanced.concat free
      counted := fun id' => by
        simp only [List.count_append, holds.counted]
        simp [List.count_singleton, Nat.add_assoc] }

/-- A number that is returned is held no more, and the others are. -/
lemma Holds.release (holds : l.Holds numbers) (perm : numbers.Perm (id :: rest)) :
    (source.release id l).Holds rest := by
  obtain ⟨fresh, distinct⟩ := List.nodup_cons.mp (perm.nodup_iff.mp holds.distinct)
  exact {
    sound := holds.sound.release id
    distinct := distinct
    held := fun id' => by
      simp only [source, outstanding_concat, holds.held, perm.mem_iff, List.mem_cons]
      grind
    balanced := holds.balanced.concat ((holds.held id).mpr (perm.mem_iff.mpr List.mem_cons_self))
    counted := fun id' => by
      have counted := holds.counted id'
      rw [perm.count_eq, List.count_cons] at counted
      simp only [source, List.count_append, counted]
      grind }

end

end Ledger

end Netconf
