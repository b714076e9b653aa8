import Mathlib.Data.List.TakeWhile
import Mathlib.Tactic.Lemma
import Netconf.Text.Blank
import Netconf.Text.Number

/-!
# Numbers in texts

Which texts are read as a number: digits after an optional plus sign, whatever zeros stand in front
(`number?_eq_some_iff`). And which texts have nothing but blank characters (`trim_eq_empty_iff`).
-/

namespace Netconf.Text

/-- The number that decimal digits write. -/
def valueOf (ds : List Char) : Nat :=
  ds.foldl (fun n c => n * 10 + (c.toNat - 48)) 0

/-- Characters that write a number: at least one digit, after one plus sign or none. -/
inductive Numeral : List Char → Nat → Prop where
  | plain {ds} :
    ds ≠ [] → (∀ c ∈ ds, c.isDigit = true) →
    Numeral ds (valueOf ds)
  | signed {ds} :
    ds ≠ [] → (∀ c ∈ ds, c.isDigit = true) →
    Numeral ('+' :: ds) (valueOf ds)

/-! ## Digits -/

/-- A number that stays below the bound with one more digit. -/
def pushDigit (bound n : Nat) (c : Char) : Option Nat := do
  let n := n * 10 + (← digit? c)
  if n < bound then some n else none

/-- A digit is read if it is one and the number stays below the bound with it. -/
lemma pushDigit_eq_some_iff {bound n m : Nat} {c : Char} :
    pushDigit bound n c = some m ↔
      c.isDigit = true ∧ n * 10 + (c.toNat - 48) = m ∧ m < bound := by
  rw [pushDigit, digit?]
  cases c.isDigit with
  | false => exact iff_of_false nofun fun all => nomatch all.1
  | true =>
    simp only [if_true, Option.bind_eq_bind, Option.bind_some, true_and]
    split
    · next small =>
      rw [Option.some.injEq]
      exact ⟨fun eq => ⟨eq, eq ▸ small⟩, fun both => both.1⟩
    · next great => exact iff_of_false nofun fun both => great (both.1 ▸ both.2)

/-- A number does not get smaller with further digits. -/
lemma le_foldl_digits (ds : List Char) (n : Nat) :
    n ≤ ds.foldl (fun n c => n * 10 + (c.toNat - 48)) n := by
  induction ds generalizing n with
  | nil => exact Nat.le_refl n
  | cons c ds ih => exact Nat.le_trans (by omega) (ih (n * 10 + (c.toNat - 48)))

/-- If the first digits go beyond the bound, the whole number does so too. -/
lemma foldlM_pushDigit {bound n m : Nat} (lt : n < bound) (ds : List Char) :
    ds.foldlM (pushDigit bound) n = some m ↔
      (∀ c ∈ ds, c.isDigit = true) ∧ ds.foldl (fun n c => n * 10 + (c.toNat - 48)) n = m ∧
        m < bound := by
  induction ds generalizing n with
  | nil =>
    constructor
    · intro eq
      cases eq
      exact ⟨List.forall_mem_nil _, rfl, lt⟩
    · rintro ⟨-, rfl, -⟩
      rfl
  | cons c ds ih =>
    rw [List.foldlM_cons, List.forall_mem_cons, List.foldl_cons]
    constructor
    · intro eq
      obtain ⟨k, here, later⟩ := Option.bind_eq_some_iff.mp eq
      obtain ⟨digit, rfl, small⟩ := pushDigit_eq_some_iff.mp here
      obtain ⟨digits, eq, lt⟩ := (ih small).mp later
      exact ⟨⟨digit, digits⟩, eq, lt⟩
    · rintro ⟨⟨digit, digits⟩, eq, lt⟩
      have small : n * 10 + (c.toNat - 48) < bound := by
        have := le_foldl_digits ds (n * 10 + (c.toNat - 48))
        omega
      refine Option.bind_eq_some_iff.mpr ⟨_, pushDigit_eq_some_iff.mpr ⟨digit, rfl, small⟩, ?_⟩
      exact (ih small).mpr ⟨digits, eq, lt⟩

/-- Digits are read as the number that they write if this is below the bound. -/
lemma digits?_eq_some_iff {bound n : Nat} (pos : 0 < bound) {ds : List Char} :
    digits? 10 bound digit? ds = some n ↔
      ds ≠ [] ∧ (∀ c ∈ ds, c.isDigit = true) ∧ valueOf ds = n ∧ n < bound := by
  cases ds with
  | nil => exact iff_of_false nofun fun all => all.1 rfl
  | cons c ds =>
    have read := @foldlM_pushDigit bound 0 n pos (c :: ds)
    exact read.trans (and_iff_right (List.cons_ne_nil c ds)).symm

/-- A text is read as a number if it writes one that is below the bound. -/
lemma number?_eq_some_iff {bound n : Nat} (pos : 0 < bound) {s : String} :
    number? bound s = some n ↔ Numeral s.toList n ∧ n < bound := by
  rw [number?]
  split
  · next ds eq =>
    rw [digits?_eq_some_iff pos, eq]
    constructor
    · rintro ⟨some, digits, rfl, lt⟩
      exact ⟨.signed some digits, lt⟩
    · rintro ⟨numeral, lt⟩
      cases numeral with
      | plain _ digits => exact absurd (digits '+' List.mem_cons_self) (by decide)
      | signed some digits => exact ⟨some, digits, rfl, lt⟩
  · next other =>
    rw [digits?_eq_some_iff pos]
    constructor
    · rintro ⟨some, digits, rfl, lt⟩
      exact ⟨.plain some digits, lt⟩
    · rintro ⟨numeral, lt⟩
      generalize s.toList = cs at numeral other
      cases numeral with
      | plain some digits => exact ⟨some, digits, rfl, lt⟩
      | signed => exact absurd rfl (other _)

/-! ## Numbers as they are written -/

/-- A number is written as its decimal digits. -/
lemma toList_toString (n : Nat) : (toString n).toList = Nat.toDigits 10 n := by
  rw [Nat.toString_eq_repr, Nat.toList_repr]

/-- A number is written with digits only. -/
lemma isDigit_of_mem_toString {n : Nat} {c : Char} (mem : c ∈ (toString n).toList) :
    c.isDigit = true := by
  rw [toList_toString] at mem
  exact Nat.isDigit_of_mem_toDigits (by decide) (by decide) mem

/-- Every number is written with some digit. -/
lemma toString_ne_empty (n : Nat) : toString n ≠ "" := by
  rw [Ne, ← String.toList_eq_nil_iff, toList_toString]
  exact Nat.toDigits_ne_nil

/-- A written number writes itself. -/
lemma valueOf_toString (n : Nat) : valueOf (toString n).toList = n := by
  have value := Nat.ofDigitChars_ten_toDigits (n := n)
  rw [Nat.ofDigitChars_eq_foldl] at value
  simp only [Nat.mul_comm 10] at value
  rw [toList_toString]
  exact value

/-- A number of several digits does not begin with a zero. -/
lemma toString_ne_zero_cons (n : Nat) (c : Char) (cs : List Char) :
    (toString n).toList ≠ '0' :: c :: cs := by
  rw [toList_toString]
  induction n using Nat.strongRecOn generalizing c cs with
  | ind n ih =>
    rw [Nat.toDigits_eq_if (by decide)]
    split
    · exact fun eq => List.cons_ne_nil _ _ (List.cons.inj eq).2.symm
    · intro eq
      -- The digits of the tens are the same but for the last one, and so there is one of them.
      rcases List.append_eq_cons_iff.mp eq with ⟨none, -⟩ | ⟨front, tens, rest⟩
      · exact Nat.toDigits_ne_nil none
      · cases front with
        | nil =>
          have value := valueOf_toString (n / 10)
          rw [toList_toString, tens] at value
          change 0 = n / 10 at value
          omega
        | cons d front => exact ih (n / 10) (by omega) d front tens

/-- A number below the bound is read back from its text. -/
lemma number?_toString {n bound : Nat} (lt : n < bound) :
    number? bound (toString n) = some n := by
  refine (number?_eq_some_iff (Nat.zero_lt_of_lt lt)).mpr ⟨?_, lt⟩
  have nonempty : (toString n).toList ≠ [] :=
    fun none => toString_ne_empty n (String.toList_eq_nil_iff.mp none)
  have numeral := Numeral.plain nonempty fun _ => isDigit_of_mem_toString
  rwa [valueOf_toString] at numeral

/-! ## Blank texts -/

/-- Nothing is left of a text that is trimmed if and only if all of it is blank. -/
lemma trimChars_eq_nil_iff {cs : List Char} : trimChars cs = [] ↔ ∀ c ∈ cs, isBlank c = true := by
  rw [trimChars, List.reverse_eq_nil_iff, List.dropWhile_eq_nil_iff]
  simp only [List.mem_reverse]
  constructor
  · intro blank
    rw [← List.dropWhile_eq_nil_iff]
    cases left : cs.dropWhile isBlank with
    | nil => rfl
    | cons c rest =>
      -- What is left after the blank characters begins with one that is not blank.
      have first := List.head?_dropWhile_not isBlank cs
      rw [left] at first blank
      have solid : isBlank c = false := first
      exact absurd (solid.symm.trans (blank c List.mem_cons_self)) Bool.false_ne_true
  · intro blank c mem
    exact blank c ((List.dropWhile_sublist isBlank).mem mem)

/-- A text is empty when it is trimmed if and only if it is blank. -/
lemma trim_eq_empty_iff {s : String} : trim s = "" ↔ allBlank s = true := by
  rw [trim, allBlank, List.all_eq_true, ← trimChars_eq_nil_iff, ← String.toList_eq_nil_iff,
    String.toList_ofList]

end Netconf.Text
