import Netconf.Proofs.Framing.Delimited
import Netconf.Xml.CharData
import Netconf.Xml.Token

/-!
# Resolving what was escaped

Escaping writes each character that has a meaning of its own as a reference, so resolving gives the
characters back (`resolveText?_escapeText`, `resolveValue?_escapeValue`), and no markup stands in
what is written (`lt_notMem_escapeText`, `gt_notMem_escapeText` and the like).
-/

namespace Netconf.Xml

/-! ## References -/

/-- What stands up to a semicolon after an ampersand is the reference that it names. -/
lemma piecesFrom_some {name body rest : List Char} {target : Char} (closed : ';' ∉ name)
    (eq : referenced? (body.reverse ++ name) = some target) :
    piecesFrom (some body) (name ++ ';' :: rest) =
      (piecesFrom none rest).map (.reference target :: ·) := by
  induction name generalizing body with
  | nil =>
    rw [List.append_nil] at eq
    rw [List.nil_append, piecesFrom, if_pos rfl, eq]
    cases piecesFrom none rest <;> rfl
  | cons c name ih =>
    rw [List.mem_cons, not_or] at closed
    rw [List.cons_append, piecesFrom, if_neg (Ne.symm closed.1)]
    exact ih closed.2 (by simpa using eq)

/-- A reference is one piece. -/
lemma piecesFrom_reference (name : List Char) {rest : List Char} {target : Char}
    (closed : ';' ∉ name) (eq : referenced? name = some target) :
    piecesFrom none ('&' :: (name ++ ';' :: rest)) =
      (piecesFrom none rest).map (.reference target :: ·) := by
  rw [piecesFrom, if_pos rfl]
  exact piecesFrom_some closed eq

/-! ## Characters -/

/-- The piece as which a character is written in character data. -/
def textPiece (c : Char) : Piece :=
  if c = '&' ∨ c = '<' ∨ c = '>' ∨ c = '\r' then .reference c else .literal c

/-- The piece as which a character is written in an attribute value. -/
def valuePiece (c : Char) : Piece :=
  if c = '\x22' ∨ c = '\n' ∨ c = '\t' then .reference c else textPiece c

/-- An escaped character of a text is one piece. -/
lemma piecesFrom_escapeTextChar (c : Char) (rest : List Char) :
    piecesFrom none (escapeTextChar c ++ rest) =
      (piecesFrom none rest).map (textPiece c :: ·) := by
  unfold escapeTextChar textPiece
  split
  · next eq =>
    subst eq
    exact piecesFrom_reference ['a', 'm', 'p'] (by decide) (by decide)
  split
  · next eq =>
    subst eq
    exact piecesFrom_reference ['l', 't'] (by decide) (by decide)
  split
  · next eq =>
    subst eq
    exact piecesFrom_reference ['g', 't'] (by decide) (by decide)
  split
  · next eq =>
    subst eq
    exact piecesFrom_reference ['#', '1', '3'] (by decide) (by decide)
  · next amp lt gt cr =>
    rw [if_neg (by simp [amp, lt, gt, cr]), List.singleton_append, piecesFrom, if_neg amp]

/-- An escaped character of a value is one piece. -/
lemma piecesFrom_escapeValueChar (c : Char) (rest : List Char) :
    piecesFrom none (escapeValueChar c ++ rest) =
      (piecesFrom none rest).map (valuePiece c :: ·) := by
  unfold escapeValueChar valuePiece
  split
  · next eq =>
    subst eq
    exact piecesFrom_reference ['q', 'u', 'o', 't'] (by decide) (by decide)
  split
  · next eq =>
    subst eq
    exact piecesFrom_reference ['#', '1', '0'] (by decide) (by decide)
  split
  · next eq =>
    subst eq
    exact piecesFrom_reference ['#', '9'] (by decide) (by decide)
  · next quote lf tab =>
    rw [if_neg (by simp [quote, lf, tab])]
    exact piecesFrom_escapeTextChar c rest

/-- Pieces that were written one after the other are read one after the other. -/
lemma pieces?_flatMap {escape : Char → List Char} {piece : Char → Piece}
    (one : ∀ c rest, piecesFrom none (escape c ++ rest) =
      (piecesFrom none rest).map (piece c :: ·)) (cs : List Char) :
    pieces? (cs.flatMap escape) = some (cs.map piece) := by
  rw [pieces?]
  induction cs with
  | nil => rfl
  | cons c cs ih =>
    rw [List.flatMap_cons, one, ih]
    rfl

/-! ## Texts and values -/

/-- A character other than a carriage return stays in character data as it is. -/
lemma joinText_literal {c : Char} {after : Bool} {rest : List Piece} (other : c ≠ '\r') :
    joinText after (.literal c :: rest) = c :: joinText false rest := by
  cases rest <;> simp [joinText, other]

/-- The piece of a character becomes the character in character data. -/
lemma joinText_textPiece (c : Char) (after : Bool) (rest : List Piece) :
    ∃ next, joinText after (textPiece c :: rest) = c :: joinText next rest := by
  rw [textPiece]
  split
  · exact ⟨true, by rw [joinText]⟩
  · next plain =>
    simp only [not_or] at plain
    exact ⟨false, joinText_literal plain.2.2.2⟩

/-- The pieces of characters become these in character data. -/
lemma joinText_map (cs : List Char) (after : Bool) : joinText after (cs.map textPiece) = cs := by
  induction cs generalizing after with
  | nil => rw [List.map_nil, joinText]
  | cons c cs ih =>
    obtain ⟨next, eq⟩ := joinText_textPiece c after (cs.map textPiece)
    rw [List.map_cons, eq, ih]

/-- The piece of a character becomes the character in a value. -/
lemma joinValue_valuePiece (c : Char) (rest : List Piece) :
    joinValue (valuePiece c :: rest) = c :: joinValue rest := by
  rw [valuePiece, textPiece]
  split
  · rw [joinValue]
  split
  · rw [joinValue]
  · next space plain =>
    simp only [not_or] at space plain
    cases rest <;> simp [joinValue, space, plain]

/-- Escaped character data stands for the characters that were escaped. -/
lemma resolveText?_escapeText (cs : List Char) : resolveText? (escapeText cs) = some cs := by
  rw [resolveText?, escapeText, pieces?_flatMap piecesFrom_escapeTextChar, Option.map_some,
    joinText_map]

/-- An escaped attribute value stands for the characters that were escaped. -/
lemma resolveValue?_escapeValue (cs : List Char) : resolveValue? (escapeValue cs) = some cs := by
  rw [resolveValue?, escapeValue, pieces?_flatMap piecesFrom_escapeValueChar, Option.map_some]
  congr 1
  induction cs with
  | nil => rfl
  | cons c cs ih => rw [List.map_cons, joinValue_valuePiece, ih]

/-! ## What is written -/

/-- The characters in which references are written. -/
def referenceChars : List Char :=
  ['&', '#', ';', '0', '1', '3', '9', 'a', 'g', 'l', 'm', 'o', 'p', 'q', 't', 'u']

/-- A character in which no reference is written differs from all in which they are. -/
lemma ne_of_mem_referenceChars {c : Char} (other : c ∉ referenceChars) :
    ∀ b ∈ referenceChars, b ≠ c :=
  fun _ mem => ne_of_mem_of_not_mem mem other

section

variable {P : Char → Prop} (fixed : ∀ b ∈ referenceChars, P b)

include fixed

/-- What holds of the characters of references holds of those in one. -/
lemma forall_of_subset {name : List Char} (sub : name ⊆ referenceChars) : ∀ b ∈ name, P b :=
  fun b mem => fixed b (sub mem)

/-- What holds of the characters of references and of a character that is no bracket of a tag holds
of the escaped character. -/
lemma forall_escapeTextChar {c : Char} (own : c ≠ '<' → c ≠ '>' → P c) :
    ∀ b ∈ escapeTextChar c, P b := by
  unfold escapeTextChar
  split
  · exact forall_of_subset fixed (by decide)
  split
  · exact forall_of_subset fixed (by decide)
  split
  · exact forall_of_subset fixed (by decide)
  split
  · exact forall_of_subset fixed (by decide)
  · next lt gt _ =>
    rw [List.forall_mem_singleton]
    exact own lt gt

/-- What holds of the characters of references, and of a character that is neither a bracket of a
tag nor a quote, holds of the escaped one in a value. -/
lemma forall_escapeValueChar {c : Char} (own : c ≠ '\x22' → c ≠ '<' → c ≠ '>' → P c) :
    ∀ b ∈ escapeValueChar c, P b := by
  unfold escapeValueChar
  split
  · exact forall_of_subset fixed (by decide)
  split
  · exact forall_of_subset fixed (by decide)
  split
  · exact forall_of_subset fixed (by decide)
  · next quote _ _ => exact forall_escapeTextChar fixed (own quote)

/-- What holds of the characters of references and of every character but `<` and `>` holds of
escaped character data. -/
lemma forall_escapeText {cs : List Char} (own : ∀ c ∈ cs, c ≠ '<' → c ≠ '>' → P c) :
    ∀ b ∈ escapeText cs, P b := by
  intro b mem
  obtain ⟨c, here, mem⟩ := List.mem_flatMap.mp mem
  exact forall_escapeTextChar fixed (own c here) b mem

/-- What holds of the characters of references and of every character but the quote, `<` and `>`
holds of escaped attribute values. -/
lemma forall_escapeValue {cs : List Char}
    (own : ∀ c ∈ cs, c ≠ '\x22' → c ≠ '<' → c ≠ '>' → P c) : ∀ b ∈ escapeValue cs, P b := by
  intro b mem
  obtain ⟨c, here, mem⟩ := List.mem_flatMap.mp mem
  exact forall_escapeValueChar fixed (own c here) b mem

end

section

variable (cs : List Char)

/-- Escaped character data begins no tag. -/
lemma lt_notMem_escapeText : '<' ∉ escapeText cs :=
  fun mem => forall_escapeText (P := (· ≠ '<')) (ne_of_mem_referenceChars (by decide))
    (fun _ _ lt _ => lt) _ mem rfl

/-- Escaped character data has no end of a tag in it. -/
lemma gt_notMem_escapeText : '>' ∉ escapeText cs :=
  fun mem => forall_escapeText (P := (· ≠ '>')) (ne_of_mem_referenceChars (by decide))
    (fun _ _ _ gt => gt) _ mem rfl

/-- An escaped value does not hold its quote. -/
lemma quote_notMem_escapeValue : '\x22' ∉ escapeValue cs :=
  fun mem => forall_escapeValue (P := (· ≠ '\x22')) (ne_of_mem_referenceChars (by decide))
    (fun _ _ q _ _ => q) _ mem rfl

/-- An escaped value begins no tag. -/
lemma lt_notMem_escapeValue : '<' ∉ escapeValue cs :=
  fun mem => forall_escapeValue (P := (· ≠ '<')) (ne_of_mem_referenceChars (by decide))
    (fun _ _ _ lt _ => lt) _ mem rfl

/-- An escaped value has no end of a tag in it. -/
lemma gt_notMem_escapeValue : '>' ∉ escapeValue cs :=
  fun mem => forall_escapeValue (P := (· ≠ '>')) (ne_of_mem_referenceChars (by decide))
    (fun _ _ _ _ gt => gt) _ mem rfl

end

/-- Escaped characters of a document are characters of a document. -/
lemma isXmlChar_escapeText {cs : List Char} (xml : ∀ c ∈ cs, isXmlChar c = true) :
    ∀ b ∈ escapeText cs, isXmlChar b = true :=
  forall_escapeText (List.all_eq_true.mp (by decide)) fun c mem _ _ => xml c mem

/-- An escaped value of a document's characters is of such characters. -/
lemma isXmlChar_escapeValue {cs : List Char} (xml : ∀ c ∈ cs, isXmlChar c = true) :
    ∀ b ∈ escapeValue cs, isXmlChar b = true :=
  forall_escapeValue (List.all_eq_true.mp (by decide)) fun c mem _ _ _ => xml c mem

/-- Escaped character data does not hold what ends a section. -/
lemma find?_escapeText (cs : List Char) : Marker.find? sectionEnd (escapeText cs) = none := by
  cases cut : Marker.cut? sectionEnd (escapeText cs) with
  | none => exact Option.map_eq_none_iff.mp cut
  | some parts =>
    obtain ⟨eq, -⟩ := Marker.of_cut? cut
    have mem : '>' ∈ escapeText cs := by
      rw [eq]
      exact List.mem_append_right _ (List.mem_append_left _ (by decide))
    exact absurd mem (gt_notMem_escapeText cs)

/-- Something is written for a text that is not empty. -/
lemma escapeText_ne_nil {cs : List Char} (nonempty : cs ≠ []) : escapeText cs ≠ [] := by
  intro eq
  have back := resolveText?_escapeText cs
  rw [eq] at back
  exact nonempty (Option.some.inj back).symm

end Netconf.Xml
