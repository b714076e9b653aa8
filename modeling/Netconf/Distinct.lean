import Std.Data.TreeSet.Lemmas

/-!
# Repeated elements

The first element of a list that repeats one before it. There is none exactly if the elements are
pairwise distinct.
-/

namespace Netconf

variable {α : Type} [Ord α]

/-- The first element of a list that is in `seen` or repeats one before it. -/
def repeatedAfter? (seen : Std.TreeSet α) : List α → Option α
  | [] => none
  | a :: rest => if seen.contains a then some a else repeatedAfter? (seen.insert a) rest

/-- The first element of a list that repeats one before it. -/
def repeated? (list : List α) : Option α :=
  repeatedAfter? ∅ list

/-- The check finds nothing just when the values are distinct and none of them was seen before. -/
theorem repeatedAfter?_eq_none_iff [Std.TransOrd α] [Std.LawfulEqOrd α] {seen : Std.TreeSet α}
    {list : List α} :
    repeatedAfter? seen list = none ↔ list.Nodup ∧ ∀ a ∈ list, a ∉ seen := by
  induction list generalizing seen with
  | nil => simp [repeatedAfter?]
  | cons a rest ih =>
    rw [repeatedAfter?]
    split
    · next h =>
      have := Std.TreeSet.contains_iff_mem.1 h
      simp [this]
    · next h =>
      simp only [ih, List.nodup_cons, List.mem_cons, Std.TreeSet.mem_insert,
        Std.LawfulEqCmp.compare_eq_iff_eq]
      constructor
      · rintro ⟨hrest, hseen⟩
        refine ⟨⟨fun ha => hseen a ha (.inl rfl), hrest⟩, ?_⟩
        rintro b (rfl | hb)
        · exact fun hmem => h (Std.TreeSet.contains_iff_mem.2 hmem)
        · exact fun hmem => hseen b hb (.inr hmem)
      · rintro ⟨⟨ha, hrest⟩, hseen⟩
        refine ⟨hrest, fun b hb => ?_⟩
        rintro (rfl | hmem)
        · exact ha hb
        · exact hseen b (.inr hb) hmem

/-- No value is found to be repeated just when the values are distinct. -/
theorem repeated?_eq_none_iff [Std.TransOrd α] [Std.LawfulEqOrd α] {list : List α} :
    repeated? list = none ↔ list.Nodup := by
  simp [repeated?, repeatedAfter?_eq_none_iff]

end Netconf
