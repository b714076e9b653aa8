import Mathlib.Tactic.Lemma
import Netconf.Json
import Netconf.Proofs.Text.Number

/-!
# The grammar of JSON

How objects and arrays of natural numbers are written in JSON. Each relation is between a text that
begins with what it is about, what that stands for, and the rest of the text behind it. The readers
of the parts take just what the grammar allows.
-/

namespace Netconf.Json

/-! ## Blank characters -/

/-- A character that may stand between the parts of a text. -/
def IsBlank (c : Char) : Prop :=
  c = ' ' ∨ c = '\n' ∨ c = '\t' ∨ c = '\r'

instance (c : Char) : Decidable (IsBlank c) :=
  inferInstanceAs (Decidable (_ ∨ _))

/-- Blank characters before the rest. -/
inductive Spaced : List Char → List Char → Prop where
  | here {rest} :
    Spaced rest rest
  | blank {c text rest} :
    IsBlank c →
    Spaced text rest →
    Spaced (c :: text) rest

/-! ## Strings -/

/-- A number in four hexadecimal digits. -/
inductive Quad : List Char → Nat → List Char → Prop where
  | digits {a b c d : Char} {x y z w : Nat} {rest} :
    Text.hexDigit? a = some x → Text.hexDigit? b = some y →
    Text.hexDigit? c = some z → Text.hexDigit? d = some w →
    Quad (a :: b :: c :: d :: rest) (((x * 16 + y) * 16 + z) * 16 + w) rest

/-- The character beyond 16 bits that two units write. -/
def paired (high low : Nat) : Char :=
  .ofNat (0x10000 + (high - 0xd800) * 0x400 + (low - 0xdc00))

/-- A character by what follows the backslash of an escape. -/
inductive Escaped : List Char → Char → List Char → Prop where
  | itself {c rest} :
    c = '\x22' ∨ c = '\\' ∨ c = '/' →
    Escaped (c :: rest) c rest
  | backspace {rest} :
    Escaped ('b' :: rest) '\x08' rest
  | formFeed {rest} :
    Escaped ('f' :: rest) '\x0c' rest
  | lineFeed {rest} :
    Escaped ('n' :: rest) '\n' rest
  | carriageReturn {rest} :
    Escaped ('r' :: rest) '\r' rest
  | tab {rest} :
    Escaped ('t' :: rest) '\t' rest
  | unit {text n rest} :
    Quad text n rest → n < 0xd800 ∨ 0xdfff < n →
    Escaped ('u' :: text) (.ofNat n) rest
  | pair {text high more low rest} :
    Quad text high ('\\' :: 'u' :: more) → 0xd800 ≤ high ∧ high ≤ 0xdbff →
    Quad more low rest → 0xdc00 ≤ low ∧ low ≤ 0xdfff →
    Escaped ('u' :: text) (paired high low) rest

/-- A character that stands for itself in a string. -/
def IsPlain (c : Char) : Prop :=
  c ≠ '\x22' ∧ c ≠ '\\' ∧ 0x20 ≤ c.toNat

instance (c : Char) : Decidable (IsPlain c) :=
  inferInstanceAs (Decidable (_ ∧ _))

/-- The characters of a string up to its closing quote. -/
inductive Spelled : List Char → List Char → List Char → Prop where
  | done {rest} :
    Spelled ('\x22' :: rest) [] rest
  | plain {c text cs rest} :
    IsPlain c →
    Spelled text cs rest →
    Spelled (c :: text) (c :: cs) rest
  | escaped {text c more cs rest} :
    Escaped text c more →
    Spelled more cs rest →
    Spelled ('\\' :: text) (c :: cs) rest

/-! ## Numbers, objects and arrays -/

/-- A natural number in digits, of which the first is no zero unless it is the only one. -/
inductive Numeral : List Char → Nat → List Char → Prop where
  | zero {rest} :
    Numeral ('0' :: rest) 0 rest
  | positive {d ds rest} :
    d ≠ '0' → (∀ c ∈ d :: ds, c.isDigit = true) →
    Numeral (d :: ds ++ rest) (Text.valueOf (d :: ds)) rest

/-- A natural number behind blank characters. -/
inductive Item : List Char → Nat → List Char → Prop where
  | spaced {text digits n rest} :
    Spaced text digits →
    Numeral digits n rest →
    Item text n rest

/-- A name in quotes, a colon and a natural number. -/
inductive Member : List Char → String × Nat → List Char → Prop where
  | named {text quoted name behind value n rest} :
    Spaced text ('\x22' :: quoted) →
    Spelled quoted name.toList behind →
    Spaced behind (':' :: value) →
    Item value n rest →
    Member text (name, n) rest

section

variable {α : Type} (part : List Char → α → List Char → Prop)

/-- Parts with commas between them, of which there is at least one. -/
inductive Listed : List Char → List α → List Char → Prop where
  | last {text a behind rest} :
    part text a behind →
    Spaced behind rest →
    Listed text [a] rest
  | more {text a behind next as rest} :
    part text a behind →
    Spaced behind (',' :: next) →
    Listed next as rest →
    Listed text (a :: as) rest

/-- Parts with commas between them, or none. -/
inductive Inside : List Char → List α → List Char → Prop where
  | none {text rest} :
    Spaced text rest →
    Inside text [] rest
  | some {text as rest} :
    Listed part text as rest →
    Inside text as rest

end

/-- What a text stands for: natural numbers by name, or one after the other. -/
inductive Document where
  | object (members : List (String × Nat))
  | array (values : List Nat)

/-- The names in a document with their values, of which an array has none. -/
def Document.named : Document → List (String × Nat)
  | .object members => members
  | .array _ => []

/-- The text is the document written in JSON. -/
inductive Document.Written : List Char → Document → Prop where
  | object {text inner members behind} :
    Spaced text ('\x7b' :: inner) →
    Inside Member inner members ('\x7d' :: behind) →
    Spaced behind [] →
    Written text (.object members)
  | array {text inner values behind} :
    Spaced text ('[' :: inner) →
    Inside Item inner values (']' :: behind) →
    Spaced behind [] →
    Written text (.array values)

/-! ## Reading blank characters -/

variable {c : Char} {text rest cs : List Char} {n : Nat}

/-- A blank character is skipped. -/
lemma skipBlank_blank (blank : IsBlank c) : skipBlank (c :: text) = skipBlank text := by
  rcases blank with rfl | rfl | rfl | rfl <;> rfl

/-- A character that is not blank is not skipped. -/
lemma skipBlank_solid (solid : ¬IsBlank c) : skipBlank (c :: text) = c :: text := by
  simp only [IsBlank, not_or] at solid
  obtain ⟨space, lf, tab, cr⟩ := solid
  simp [skipBlank, space, lf, tab, cr]

/-- Before and behind blank characters the same is left when those are skipped. -/
lemma Spaced.skipBlank_eq (spaced : Spaced text rest) : skipBlank text = skipBlank rest := by
  induction spaced with
  | here => rfl
  | blank blank _ ih => rw [skipBlank_blank blank, ih]

/-- What is skipped are blank characters. -/
lemma spaced_skipBlank (text : List Char) : Spaced text (skipBlank text) := by
  induction text with
  | nil => exact .here
  | cons c text ih =>
    by_cases blank : IsBlank c
    · rw [skipBlank_blank blank]
      exact .blank blank ih
    · rw [skipBlank_solid blank]
      exact .here

/-- Skipping blank characters comes to a solid one that is written behind them. -/
lemma skipBlank_eq_iff (solid : ¬IsBlank c) :
    skipBlank text = c :: rest ↔ Spaced text (c :: rest) := by
  constructor
  · intro eq
    exact eq ▸ spaced_skipBlank text
  · intro spaced
    rw [spaced.skipBlank_eq, skipBlank_solid solid]

/-- A text is at its end when there are only blank characters. -/
lemma finish_eq_ok_iff : finish text = .ok () ↔ Spaced text [] := by
  rw [finish]
  constructor
  · intro eq
    split at eq
    · next empty =>
      rw [List.isEmpty_iff] at empty
      exact empty ▸ spaced_skipBlank text
    · cases eq
  · intro spaced
    rw [spaced.skipBlank_eq]
    rfl

/-- A word is read where it is written. -/
lemma word_eq_ok_iff {ws : List Char} : word ws cs = .ok rest ↔ cs = ws ++ rest := by
  induction ws generalizing cs with
  | nil => rw [word, Except.ok.injEq, List.nil_append]
  | cons w ws ih =>
    cases cs with
    | nil =>
      constructor
      · intro read
        cases read
      · intro eq
        cases eq
    | cons c cs =>
      rw [word, List.cons_append, List.cons.injEq]
      split
      · next same => rw [ih, same, eq_self_iff_true, true_and]
      · next other =>
        constructor
        · intro read
          cases read
        · intro both
          exact absurd both.1.symm other

/-- A colon is read where it is written behind blank characters. -/
lemma colon_eq_ok_iff : colon text = .ok rest ↔ Spaced text (':' :: rest) := by
  rw [colon, word_eq_ok_iff]
  exact skipBlank_eq_iff (by decide)

/-! ## Reading strings -/

/-- A unit is read where four hexadecimal digits are written. -/
lemma hexUnit_eq_ok_iff : hexUnit text = .ok (n, rest) ↔ Quad text n rest := by
  constructor
  · intro eq
    unfold hexUnit at eq
    split at eq
    · split at eq
      · next first second third fourth =>
        cases eq
        exact .digits first second third fourth
      · cases eq
    · split at eq <;> cases eq
  · rintro ⟨first, second, third, fourth⟩
    simp only [hexUnit, first, second, third, fourth]

/-- A unit is a character, begins a pair, or is refused. -/
lemma escape_unit (text : List Char) :
    escape ('u' :: text) =
      match hexUnit text with
      | .error e => .error e
      | .ok (unit, rest) =>
        if 0xdc00 ≤ unit ∧ unit ≤ 0xdfff then .error .malformed
        else if 0xd800 ≤ unit ∧ unit ≤ 0xdbff then lowHalf unit rest
        else .ok (.ofNat unit, rest) :=
  rfl

/-- The low half of a pair is read where a unit of that kind is written in an escape. -/
lemma lowHalf_eq_ok_iff {high : Nat} :
    lowHalf high text = .ok (c, rest) ↔
      ∃ more low, text = '\\' :: 'u' :: more ∧ Quad more low rest ∧ (0xdc00 ≤ low ∧ low ≤ 0xdfff) ∧
        c = paired high low := by
  constructor
  · intro eq
    unfold lowHalf at eq
    split at eq
    · cases eq
    next sign =>
    split at eq
    · cases eq
    next unit =>
    split at eq
    · next within =>
      obtain ⟨char, rfl⟩ := Prod.mk.inj (Except.ok.inj eq)
      exact ⟨_, _, word_eq_ok_iff.mp sign, hexUnit_eq_ok_iff.mp unit, within, char.symm⟩
    · cases eq
  · rintro ⟨more, low, rfl, unit, within, char⟩
    have sign : word ['\\', 'u'] ('\\' :: 'u' :: more) = .ok more := word_eq_ok_iff.mpr rfl
    rw [char, lowHalf, sign]
    simp only [hexUnit_eq_ok_iff.mpr unit, within, and_self, if_true]
    rfl

/-- An escape is read where one is written. -/
lemma escape_eq_ok_iff : escape text = .ok (c, rest) ↔ Escaped text c rest := by
  constructor
  · intro eq
    unfold escape at eq
    split at eq
    · cases eq
    · split at eq
      · cases eq
      next unit =>
      have quad := hexUnit_eq_ok_iff.mp unit
      -- A unit of the low half may not come first, and one of the high half asks for a second.
      split at eq
      · cases eq
      next low =>
      split at eq
      · next high =>
        obtain ⟨more, low, rfl, quad', within, char⟩ := lowHalf_eq_ok_iff.mp eq
        exact char ▸ .pair quad high quad' within
      · next high =>
        cases eq
        exact .unit quad (by omega)
    · cases eq
      exact .backspace
    · cases eq
      exact .formFeed
    · cases eq
      exact .lineFeed
    · cases eq
      exact .carriageReturn
    · cases eq
      exact .tab
    · split at eq
      · next one =>
        cases eq
        exact .itself one
      · cases eq
  · intro escaped
    cases escaped with
    | itself one => rcases one with rfl | rfl | rfl <;> rfl
    | unit quad apart =>
      rw [escape_unit, hexUnit_eq_ok_iff.mpr quad]
      simp only
      rw [if_neg (by omega), if_neg (by omega)]
    | pair quad high quad' low =>
      rw [escape_unit, hexUnit_eq_ok_iff.mpr quad]
      simp only
      rw [if_neg (by omega), if_pos high]
      exact lowHalf_eq_ok_iff.mpr ⟨_, _, rfl, quad', low, rfl⟩
    | _ => rfl

/-- Plain characters up to a quote spell themselves. -/
lemma spelled_plain (plain : ∀ c ∈ cs, IsPlain c) :
    Spelled (cs ++ '\x22' :: rest) cs rest := by
  induction cs with
  | nil => exact .done
  | cons c cs ih =>
    rw [List.forall_mem_cons] at plain
    exact .plain plain.1 (ih plain.2)

/-- The characters that are read of a string are those spelled behind the ones read before. -/
lemma spelled_of_textFrom {done : List Char} (eq : textFrom done text = .ok (cs, rest)) :
    ∃ tail, cs = done.reverse ++ tail ∧ Spelled text tail rest := by
  fun_induction textFrom done text with
  | case1 => cases eq
  | case2 done rest =>
    cases eq
    exact ⟨[], (List.append_nil _).symm, .done⟩
  | case3 => cases eq
  | case4 done text c more read _ ih =>
    obtain ⟨tail, rfl, spelled⟩ := ih eq
    exact ⟨c :: tail, by simp, .escaped (escape_eq_ok_iff.mp read) spelled⟩
  | case5 => cases eq
  | case6 done c text quote backslash printable ih =>
    obtain ⟨tail, rfl, spelled⟩ := ih eq
    have plain : IsPlain c := ⟨quote, backslash, Nat.le_of_not_lt printable⟩
    exact ⟨c :: tail, by simp, .plain plain spelled⟩

/-- The characters that are spelled are read behind the ones read before. -/
lemma Spelled.textFrom_eq {tail : List Char} (spelled : Spelled text tail rest)
    (done : List Char) : textFrom done text = .ok (done.reverse ++ tail, rest) := by
  induction spelled generalizing done with
  | done => rw [textFrom, List.append_nil]
  | plain plain _ ih =>
    obtain ⟨quote, backslash, printable⟩ := plain
    rw [textFrom, if_neg (Nat.not_lt.mpr printable), ih]
    · simp
    · exact quote
    · exact backslash
  | escaped escaped _ ih =>
    have read := escape_eq_ok_iff.mpr escaped
    rw [textFrom]
    split
    · next failed => cases read.symm.trans failed
    · next again =>
      obtain ⟨rfl, rfl⟩ := Prod.mk.inj (Except.ok.inj (read.symm.trans again))
      simp [ih]

end Netconf.Json
