import Netconf.Proofs.Json.Grammar

/-!
# Reading numbers in JSON

A natural number is read just where its digits stand in their shortest form and are not followed by
what would make another number of them (`numeral_of_number`, `number_eq_ok_iff`). A number that is
written otherwise, with a sign, a fraction or an exponent, or in more than 64 bits, is never taken
for a natural one.
-/

namespace Netconf.Json

variable {c : Char} {ds text behind rest : List Char} {m n bound : Nat}

/-! ## Numerals -/

/-- What follows does not go on with a number. -/
def Stops (rest : List Char) : Prop :=
  ∀ c ∈ rest.head?, c.isDigit = false ∧ c ≠ '.' ∧ c ≠ 'e' ∧ c ≠ 'E'

/-- A number stops before a character that is no digit, no point and no `e`. -/
lemma stops_cons_iff :
    Stops (c :: rest) ↔ c.isDigit = false ∧ c ≠ '.' ∧ c ≠ 'e' ∧ c ≠ 'E' := by
  constructor
  · intro stops
    exact stops c rfl
  · rintro stop c ⟨⟩
    exact stop

/-- The digits of a number in their shortest form. -/
structure Shortest (ds : List Char) : Prop where
  digits : ∀ c ∈ ds, c.isDigit = true
  nonempty : ds ≠ []
  short : ∀ c tail, ds ≠ '0' :: c :: tail

/-- A numeral is written as the shortest digits of its value. -/
lemma numeral_iff :
    Numeral text n rest ↔ ∃ ds, Shortest ds ∧ text = ds ++ rest ∧ Text.valueOf ds = n := by
  constructor
  · intro numeral
    cases numeral with
    | zero =>
      exact ⟨['0'], ⟨List.forall_mem_singleton.mpr rfl, List.cons_ne_nil _ _, nofun⟩, rfl, rfl⟩
    | @positive d ds _ nonzero digits =>
      refine ⟨d :: ds, ⟨digits, List.cons_ne_nil _ _, ?_⟩, rfl, rfl⟩
      rintro c tail ⟨⟩
      exact nonzero rfl
  · rintro ⟨ds, ⟨digits, nonempty, short⟩, rfl, rfl⟩
    obtain ⟨d, ds, rfl⟩ := List.exists_cons_of_ne_nil nonempty
    by_cases nonzero : d = '0'
    · subst nonzero
      cases ds with
      | nil => exact .zero
      | cons c tail => exact absurd rfl (short c tail)
    · exact .positive nonzero digits

/-- The decimal digits of a number are a numeral of it. -/
lemma numeral_toString (n : Nat) (rest : List Char) :
    Numeral ((toString n).toList ++ rest) n rest := by
  refine numeral_iff.mpr ⟨_, ⟨fun _ => Text.isDigit_of_mem_toString, ?_, ?_⟩, rfl,
    Text.valueOf_toString n⟩
  · exact fun none => Text.toString_ne_empty n (String.toList_eq_nil_iff.mp none)
  · exact Text.toString_ne_zero_cons n

/-! ## Digits and what they come to -/

/-- The shortest digits are read up to where they stop. -/
lemma digits_append (short : Shortest ds) (stops : Stops rest) :
    digits (ds ++ rest) = .ok (ds, rest) := by
  have take : (ds ++ rest).takeWhile Char.isDigit = ds := by
    rw [List.takeWhile_append_of_pos short.digits]
    cases rest with
    | nil => simp
    | cons c rest => simp [(stops c rfl).1]
  have drop : (ds ++ rest).dropWhile Char.isDigit = rest := by
    rw [List.dropWhile_append_of_pos short.digits]
    cases rest with
    | nil => simp
    | cons c rest => simp [(stops c rfl).1]
  obtain ⟨d, ds, rfl⟩ := List.exists_cons_of_ne_nil short.nonempty
  rw [List.cons_append] at take drop
  rw [List.cons_append, digits, if_pos (short.digits d List.mem_cons_self), take, drop]

/-- What is read as digits are digits, and there are some. -/
lemma of_digits (read : digits text = .ok (ds, rest)) :
    text = ds ++ rest ∧ (∀ c ∈ ds, c.isDigit = true) ∧ ds ≠ [] := by
  cases text with
  | nil => cases read
  | cons d text =>
    rw [digits] at read
    split at read
    · next digit =>
      cases read
      refine ⟨List.takeWhile_append_dropWhile.symm, fun c mem => List.mem_takeWhile_imp mem, ?_⟩
      rw [List.takeWhile_cons_of_pos digit]
      exact List.cons_ne_nil _ _
    · cases read

/-- Digits are left out just if the number has more than 64 bits. -/
lemma absorb_eq_zero_iff (lt : n < UInt64.size) :
    absorb n ds = (m, 0) ↔
      ds.foldl (fun n c => n * 10 + (c.toNat - 48)) n = m ∧ m < UInt64.size := by
  induction ds generalizing n with
  | nil =>
    rw [absorb, Prod.mk.injEq]
    constructor
    · rintro ⟨rfl, -⟩
      exact ⟨rfl, lt⟩
    · rintro ⟨rfl, -⟩
      exact ⟨rfl, rfl⟩
  | cons d ds ih =>
    rw [absorb, List.foldl_cons]
    split
    · next small => exact ih small
    · next great =>
      have := Text.le_foldl_digits ds (n * 10 + (d.toNat - 48))
      refine iff_of_false nofun ?_
      rintro ⟨rfl, small⟩
      omega

/-! ## Numbers that are not natural -/

/-- Two steps that give a result each give one. -/
lemma of_bind_eq_ok {α β : Type} {x : Except Fault α} {f : α → Except Fault β} {b : β}
    (eq : x >>= f = .ok b) : ∃ a, x = .ok a ∧ f a = .ok b := by
  cases x with
  | error => cases eq
  | ok a => exact ⟨a, rfl, eq⟩

/-- A number with an exponent is not natural. -/
lemma scaled_ne_natural {significand : Nat} {exponent : Int} :
    scaled significand exponent text ≠ .ok (.natural n, rest) := by
  rw [scaled]
  split <;> nofun

/-- What is read with an exponent is not natural. -/
lemma exponentPart_ne_natural {significand : Nat} {shift : Int} :
    exponentPart significand shift text ≠ .ok (.natural n, rest) := by
  intro run
  unfold exponentPart at run
  obtain ⟨⟨ds, behind⟩, -, found⟩ := of_bind_eq_ok run
  dsimp only at found
  exact scaled_ne_natural found

/-- What is read behind a point is not natural. -/
lemma fraction_ne_natural {significand : Nat} {shift : Int} :
    fraction significand shift text ≠ .ok (.natural n, rest) := by
  intro run
  unfold fraction at run
  obtain ⟨⟨ds, behind⟩, -, found⟩ := of_bind_eq_ok run
  dsimp only at found
  split at found
  · exact exponentPart_ne_natural found
  · exact exponentPart_ne_natural found
  · exact scaled_ne_natural found

/-! ## Natural numbers -/

/-- What is read as a natural number is a numeral of at most 64 bits. -/
lemma numeral_of_number (run : number text = .ok (.natural n, rest)) :
    Numeral text n rest ∧ n < UInt64.size := by
  unfold number at run
  split at run
  next negative body sign =>
  obtain ⟨⟨ds, behind⟩, read, found⟩ := of_bind_eq_ok run
  obtain ⟨rfl, all, nonempty⟩ := of_digits read
  dsimp only at found
  split at found
  · cases found
  next short =>
  -- A fraction or an exponent makes no natural number.
  split at found
  · exact absurd found fraction_ne_natural
  · exact absurd found exponentPart_ne_natural
  · exact absurd found exponentPart_ne_natural
  split at found
  · next whole =>
    obtain ⟨positive, dropped⟩ := whole
    simp only [Except.ok.injEq, Prod.mk.injEq, Number.natural.injEq] at found
    obtain ⟨value, rfl⟩ := found
    obtain ⟨value, small⟩ := (absorb_eq_zero_iff (by decide)).mp (Prod.ext value dropped)
    refine ⟨numeral_iff.mpr ⟨ds, ⟨all, nonempty, short⟩, ?_, value⟩, small⟩
    split at sign
    · cases sign
      cases positive
    · cases sign
      rfl
  · exact absurd found scaled_ne_natural

/-- The digits of a number are read as a natural one if 64 bits hold it. -/
lemma number_eq_ok_iff (short : Shortest ds) (stops : Stops rest) :
    number (ds ++ rest) = .ok (.natural n, text) ↔
      Text.valueOf ds = n ∧ n < UInt64.size ∧ text = rest := by
  unfold number
  split
  next negative body sign =>
  -- Digits do not begin with a sign.
  have sign : negative = false ∧ body = ds ++ rest := by
    split at sign
    · next minus =>
      obtain ⟨d, ds, rfl⟩ := List.exists_cons_of_ne_nil short.nonempty
      cases minus
      exact absurd (short.digits '-' List.mem_cons_self) (by decide)
    · cases sign
      exact ⟨rfl, rfl⟩
  obtain ⟨rfl, rfl⟩ := sign
  have shape := short.short
  rw [digits_append short stops]
  simp only [bind, Except.bind]
  -- Nothing follows the digits that would make the number another one.
  split
  · exact absurd rfl (stops '.' rfl).2.1
  · exact absurd rfl (stops 'e' rfl).2.2.1
  · exact absurd rfl (stops 'E' rfl).2.2.2
  split
  · next whole =>
    obtain ⟨value, small⟩ := (absorb_eq_zero_iff (by decide)).mp (Prod.ext rfl whole.2)
    rw [← Text.valueOf] at value
    rw [value, Except.ok.injEq, Prod.mk.injEq, Number.natural.injEq]
    constructor
    · rintro ⟨rfl, rfl⟩
      exact ⟨rfl, small, rfl⟩
    · rintro ⟨rfl, -, rfl⟩
      exact ⟨rfl, rfl⟩
  · next large =>
    refine iff_of_false scaled_ne_natural ?_
    rintro ⟨value, small, -⟩
    exact large ⟨trivial, congrArg Prod.snd ((absorb_eq_zero_iff (by decide)).mpr ⟨value, small⟩)⟩

/-! ## Items -/

/-- A digit is not blank. -/
lemma not_isBlank_of_isDigit (digit : c.isDigit = true) : ¬IsBlank c := by
  rintro (rfl | rfl | rfl | rfl) <;> exact absurd digit (by decide)

/-- Behind blank characters there are the digits of the number. -/
lemma Item.skipBlank_eq (item : Item text n rest) :
    ∃ d ds, Shortest (d :: ds) ∧ skipBlank text = d :: (ds ++ rest) ∧
      Text.valueOf (d :: ds) = n := by
  obtain ⟨spaced, numeral⟩ := item
  obtain ⟨ds, short, rfl, value⟩ := numeral_iff.mp numeral
  obtain ⟨d, ds, rfl⟩ := List.exists_cons_of_ne_nil short.nonempty
  have solid := not_isBlank_of_isDigit (short.digits d List.mem_cons_self)
  exact ⟨d, ds, short, (skipBlank_eq_iff solid).mpr spaced, value⟩

/-- Skipping blank characters twice is skipping them once. -/
lemma skipBlank_skipBlank (text : List Char) : skipBlank (skipBlank text) = skipBlank text :=
  (spaced_skipBlank text).skipBlank_eq.symm

/-- A natural number is read behind blank characters as without them. -/
lemma natural_skipBlank (bound : Nat) (text : List Char) :
    natural bound (skipBlank text) = natural bound text := by
  rw [natural, natural, skipBlank_skipBlank]

/-- A number below a bound is read where one is written, and the rest is what is behind it. -/
lemma natural_eq_ok_iff (le : bound ≤ UInt64.size) (item : Item text n behind)
    (stops : Stops behind) :
    natural bound text = .ok (m, rest) ↔ n < bound ∧ m = n ∧ rest = behind := by
  obtain ⟨d, ds, short, eq, value⟩ := item.skipBlank_eq
  have read {k : Nat} {after : List Char} : number (d :: (ds ++ behind)) = .ok (.natural k, after) ↔
      Text.valueOf (d :: ds) = k ∧ k < UInt64.size ∧ after = behind :=
    number_eq_ok_iff short stops
  have digit : d.isDigit = true := short.digits d List.mem_cons_self
  rw [natural, eq]
  simp only [digit, or_true, if_true]
  split
  · next k after eq =>
    obtain ⟨rfl, -, rfl⟩ := read.mp eq
    rw [← value]
    split
    · next small => simp [small, eq_comm]
    · next large => exact iff_of_false nofun fun h => large h.1
  · next eq =>
    refine iff_of_false nofun ?_
    rintro ⟨small, -, -⟩
    cases eq.symm.trans (read.mpr ⟨value, Nat.lt_of_lt_of_le small le, rfl⟩)
  · next eq =>
    refine iff_of_false nofun ?_
    rintro ⟨small, -, -⟩
    cases eq.symm.trans (read.mpr ⟨value, Nat.lt_of_lt_of_le small le, rfl⟩)

/-- What is read as a natural number is an item below the bound. -/
lemma item_of_natural (run : natural bound text = .ok (n, rest)) :
    Item text n rest ∧ n < bound := by
  unfold natural at run
  split at run
  · cases run
  next d tail eq =>
  split at run
  · split at run
    · next read =>
      split at run
      · next small =>
        cases run
        exact ⟨.spaced (eq ▸ spaced_skipBlank text) (numeral_of_number read).1, small⟩
      · cases run
    · cases run
    · cases run
  · cases run

end Netconf.Json
