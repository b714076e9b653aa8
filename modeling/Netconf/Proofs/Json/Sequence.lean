import Netconf.Proofs.Json.Numeral

/-!
# Reading objects and arrays in JSON

The readers take the members of an object and the elements of an array one after the other, up to
the closing bracket. `Tail` tells what a text holds from such a place on; from the opening bracket
on it is what the grammar calls `Inside` (`inside_iff`).
-/

namespace Netconf.Json

/-- What stands before the next part: a comma, unless it is the first one. -/
inductive Lead : Bool → List Char → List Char → Prop where
  | first {text} :
    Lead true text text
  | later {text next} :
    Spaced text (',' :: next) →
    Lead false text next

section

variable {α : Type} (part : List Char → α → List Char → Prop) (close : Char)

/-- The parts up to a closing bracket, of which none was read yet if the first argument says so. -/
inductive Tail : Bool → List Char → List α → List Char → Prop where
  | closed {first text rest} :
    Spaced text (close :: rest) →
    Tail first text [] rest
  | part {first text next a behind as rest} :
    Lead first text next →
    part next a behind →
    Tail false behind as rest →
    Tail first text (a :: as) rest

end

variable {α : Type} {part : List Char → α → List Char → Prop} {close : Char}
variable {first : Bool} {text next behind rest name : List Char} {a : α} {as : List α} {n : Nat}

/-! ## The parts between brackets -/

/-- Listed parts are the first one and what comes up to the bracket. -/
lemma Listed.tail (listed : Listed part text as (close :: rest)) :
    ∃ a tail behind, as = a :: tail ∧ part text a behind ∧
      Tail part close false behind tail rest := by
  generalize eq : close :: rest = stop at listed
  induction listed with
  | last item spaced => exact ⟨_, _, _, rfl, item, .closed (eq ▸ spaced)⟩
  | more item comma _ ih =>
    obtain ⟨_, _, _, rfl, item', tail⟩ := ih eq
    exact ⟨_, _, _, rfl, item, .part (.later comma) item' tail⟩

/-- A part and what comes after it up to the bracket are listed. -/
lemma Tail.listed (tail : Tail part close false behind as rest) (item : part text a behind) :
    Listed part text (a :: as) (close :: rest) := by
  generalize eq : false = later at tail
  induction tail generalizing text a with
  | closed spaced => exact .last item spaced
  | part lead item' _ ih =>
    subst eq
    cases lead with
    | later comma => exact .more item comma (ih item' rfl)

/-- Between brackets there is what can be read from the opening one on. -/
lemma inside_iff : Inside part text as (close :: rest) ↔ Tail part close true text as rest := by
  constructor
  · intro inside
    cases inside with
    | none spaced => exact .closed spaced
    | some listed =>
      obtain ⟨_, _, _, rfl, item, tail⟩ := listed.tail
      exact .part .first item tail
  · intro tail
    cases tail with
    | closed spaced => exact .none spaced
    | part lead item tail =>
      cases lead
      exact .some (tail.listed item)

/-- Parts that are written one by one, with commas between them. -/
lemma listed_intercalate {β : Type} {write : β → List Char} {meaning : β → α} {bs : List β}
    (written : ∀ b rest, part (write b ++ rest) (meaning b) rest) (nonempty : bs ≠ []) :
    Listed part ([','].intercalate (bs.map write) ++ rest) (bs.map meaning) rest := by
  induction bs with
  | nil => exact absurd rfl nonempty
  | cons b bs ih =>
    cases bs with
    | nil =>
      rw [List.map_singleton, List.intercalate_singleton]
      exact .last (written b rest) .here
    | cons b' bs =>
      rw [List.map_cons, List.map_cons, List.intercalate_cons_cons, ← List.map_cons,
        List.append_assoc, List.append_assoc]
      exact .more (written b _) .here (ih (List.cons_ne_nil b' bs))

/-! ## What ends a number -/

/-- A number stops before blank characters if it stops behind them. -/
lemma Spaced.stops (spaced : Spaced text rest) (stops : Stops rest) : Stops text := by
  cases spaced with
  | here => exact stops
  | blank blank _ =>
    apply stops_cons_iff.mpr
    rcases blank with rfl | rfl | rfl | rfl <;> decide

/-- A number before a comma or a closing bracket is at its end. -/
lemma Tail.stops (tail : Tail part close false text as rest) (stops : Stops (close :: rest)) :
    Stops text := by
  cases tail with
  | closed spaced => exact spaced.stops stops
  | part lead _ _ =>
    cases lead with
    | later comma =>
      apply comma.stops
      exact stops_cons_iff.mpr (by decide)

/-! ## Reading up to the next name -/

/-- Reads a name from its opening quote on. -/
def quotedName (cs : List Char) : Except Fault (Next (List Char)) :=
  match cs with
  | [] => .error .truncated
  | '\x22' :: rest => (textFrom [] rest).map fun (name, rest) => .item name rest
  | _ => .error .malformed

/-- The next name is found behind blank characters, and behind a comma unless it is the first one.
-/
lemma nextName_eq (first : Bool) (text : List Char) :
    nextName first text =
      match skipBlank text with
      | [] => .error .truncated
      | '\x7d' :: rest => .ok (.closed rest)
      | c :: rest =>
        if first then quotedName (c :: rest)
        else if c = ',' then quotedName (skipBlank rest)
        else .error .malformed :=
  rfl

/-- A quote that opens a name is no closing bracket. -/
lemma quotedName_ne_closed : quotedName text ≠ .ok (.closed rest) := by
  unfold quotedName
  split
  · nofun
  · cases textFrom [] _ <;> nofun
  · nofun

/-- A name is read where it is spelled in quotes behind blank characters. -/
lemma quotedName_item_iff :
    quotedName (skipBlank text) = .ok (.item name rest) ↔
      ∃ quoted, Spaced text ('\x22' :: quoted) ∧ Spelled quoted name rest := by
  constructor
  · intro read
    unfold quotedName at read
    split at read
    · cases read
    · next quoted eq =>
      cases found : textFrom [] quoted with
      | error => cases found ▸ read
      | ok found' =>
        rw [found] at read
        cases read
        obtain ⟨tail, same, spelled⟩ := spelled_of_textFrom found
        exact ⟨quoted, eq ▸ spaced_skipBlank text, same ▸ spelled⟩
    · cases read
  · rintro ⟨quoted, opened, spelled⟩
    rw [(skipBlank_eq_iff (by decide)).mpr opened, quotedName, spelled.textFrom_eq]
    rfl

/-- The end of an object is read where a closing bracket is written behind blank characters. -/
lemma nextName_closed_iff :
    nextName first text = .ok (.closed rest) ↔ Spaced text ('\x7d' :: rest) := by
  rw [← skipBlank_eq_iff (by decide), nextName_eq]
  constructor
  · intro read
    split at read
    · cases read
    · next eq =>
      cases read
      exact eq
    · split at read
      · exact absurd read quotedName_ne_closed
      split at read
      · exact absurd read quotedName_ne_closed
      · cases read
  · intro eq
    rw [eq]
    rfl

/-- The next name is read where it is spelled behind what leads to it. -/
lemma nextName_item_iff :
    nextName first text = .ok (.item name rest) ↔
      ∃ next quoted, Lead first text next ∧ Spaced next ('\x22' :: quoted) ∧
        Spelled quoted name rest := by
  rw [nextName_eq]
  constructor
  · intro read
    split at read
    · cases read
    · cases read
    next c tail _ eq =>
    -- Nothing stands before the first name, and a comma before a later one.
    split at read
    · next none =>
      rw [← eq] at read
      obtain ⟨quoted, opened, spelled⟩ := quotedName_item_iff.mp read
      exact ⟨text, quoted, none ▸ .first, opened, spelled⟩
    split at read
    · next some comma =>
      obtain ⟨quoted, opened, spelled⟩ := quotedName_item_iff.mp read
      subst comma
      rw [Bool.not_eq_true] at some
      exact ⟨tail, quoted, some ▸ .later (eq ▸ spaced_skipBlank text), opened, spelled⟩
    · cases read
  · rintro ⟨next, quoted, lead, opened, spelled⟩
    have read := quotedName_item_iff.mpr ⟨quoted, opened, spelled⟩
    cases lead with
    | first =>
      rw [(skipBlank_eq_iff (by decide)).mpr opened] at read ⊢
      exact read
    | later comma =>
      rw [(skipBlank_eq_iff (by decide)).mpr comma]
      exact read

/-! ## Reading up to the next element -/

/-- The end of an array is read where a closing bracket is written behind blank characters. -/
lemma nextElement_closed_iff :
    nextElement first text = .ok (.closed rest) ↔ Spaced text (']' :: rest) := by
  rw [← skipBlank_eq_iff (by decide), nextElement]
  constructor
  · intro read
    split at read
    · cases read
    · next eq =>
      cases read
      exact eq
    · split at read
      · cases read
      split at read
      · split at read <;> cases read
      · cases read
  · intro eq
    rw [eq]
    rfl

/-- The next element is read behind what leads to it. -/
lemma lead_of_nextElement {u : Unit} (read : nextElement first text = .ok (.item u rest)) :
    ∃ next, Lead first text next ∧ skipBlank next = rest := by
  unfold nextElement at read
  split at read
  · cases read
  · cases read
  next eq =>
  split at read
  · next none =>
    cases read
    exact ⟨text, none ▸ .first, eq⟩
  split at read
  · next some comma =>
    subst comma
    rw [Bool.not_eq_true] at some
    have lead := some ▸ Lead.later (eq ▸ spaced_skipBlank text)
    split at read
    · cases read
    · cases read
    · cases read
      exact ⟨_, lead, rfl⟩
  · cases read

/-- An item behind what leads to it is come to as the next element. -/
lemma Lead.nextElement_eq (lead : Lead first text next) (item : Item next n behind) :
    nextElement first text = .ok (.item () (skipBlank next)) := by
  obtain ⟨d, ds, short, eq, -⟩ := item.skipBlank_eq
  have other : d ≠ ']' := by
    rintro rfl
    exact absurd (short.digits ']' List.mem_cons_self) (by decide)
  cases lead with
  | first => simp [nextElement, eq]
  | later comma =>
    have comma := (skipBlank_eq_iff (by decide)).mpr comma
    simp [nextElement, comma, eq, other]

/-- An array is closed where a closing bracket is written behind blank characters. -/
lemma closeArray_eq_ok_iff : closeArray text = .ok rest ↔ Spaced text (']' :: rest) := by
  rw [← skipBlank_eq_iff (by decide), closeArray]
  constructor
  · intro read
    split at read
    · cases read
    · next eq =>
      cases read
      exact eq
    · cases read
  · intro eq
    rw [eq]
    rfl

end Netconf.Json
