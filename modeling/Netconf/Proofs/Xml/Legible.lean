import Mathlib.Data.List.TakeWhile
import Mathlib.Tactic.Lemma
import Netconf.Xml.Token

/-!
# Reading tokens that were written

Tokens are legible if each of them has the characters that its place in a document allows, and text
comes before an end tag only. Legible tokens are read back from what they are written as
(`Legible.scan?_render`).
-/

namespace Netconf.Xml

section

variable {p : Char → Bool} {cs rest : List Char} {c : Char}

/-- What is taken up to a character that stops it is all that stands before. -/
lemma takeWhile_stop (all : ∀ c ∈ cs, p c = true) (stop : p c = false) :
    (cs ++ c :: rest).takeWhile p = cs := by
  rw [List.takeWhile_append_of_pos all, List.takeWhile_cons_of_neg (by simp [stop]),
    List.append_nil]

/-- What is left then begins with the character that stops it. -/
lemma dropWhile_stop (all : ∀ c ∈ cs, p c = true) (stop : p c = false) :
    (cs ++ c :: rest).dropWhile p = c :: rest := by
  rw [List.dropWhile_append_of_pos all, List.dropWhile_cons_of_neg (by simp [stop])]

end

/-! ## Names -/

/-- The characters of names are characters of documents. -/
lemma isXmlChar_of_isNameChar {c : Char} (name : isNameChar c = true) : isXmlChar c = true := by
  have valued (d : Char) : c = d ↔ c.toNat = d.toNat := ⟨congrArg _, Char.toNat_inj.mp⟩
  have bound : 0x20 ≤ c.toNat ∧ c.toNat ≠ 0xfffe ∧ c.toNat ≠ 0xffff := by
    simp only [isNameChar, isNameStart] at name
    delta Char.isAlpha Char.isUpper Char.isLower at name
    simp only [inRanges, nameStartRanges, nameRestRanges, Char.isDigit, List.any_cons,
      List.any_nil, Bool.or_eq_true, Bool.and_eq_true, Bool.or_false, decide_eq_true_eq, beq_iff_eq,
      ge_iff_le, UInt32.le_iff_toNat_le, Char.toNat_val, valued, Char.reduceToNat] at name
    omega
  simp [isXmlChar, Nat.not_lt.mpr bound.1, bound.2]

/-- The characters are a name without a colon. -/
structure IsName (cs : List Char) : Prop where
  begins : isNamePart cs = true
  chars : ∀ c ∈ cs, isNameChar c = true
  colon : ':' ∉ cs

instance (cs : List Char) : Decidable (IsName cs) :=
  decidable_of_iff (isNamePart cs = true ∧ cs.all isNameChar = true ∧ ':' ∉ cs)
    ⟨fun h => ⟨h.1, List.all_eq_true.mp h.2.1, h.2.2⟩,
      fun h => ⟨h.begins, List.all_eq_true.mpr h.chars, h.colon⟩⟩

/-- A name begins with a character that may begin names. -/
lemma IsName.eq_cons {cs : List Char} (name : IsName cs) :
    ∃ c rest, cs = c :: rest ∧ isNameStart c = true := by
  cases cs with
  | nil => exact absurd name.begins (by decide)
  | cons c rest => exact ⟨c, rest, rfl, name.begins⟩

/-- What begins with a name is no end of a tag, and nothing of it is skipped. -/
lemma skipSpaces_of_isNameStart {c : Char} {rest : List Char} (begins : isNameStart c = true) :
    skipSpaces (c :: rest) = c :: rest ∧ tagEnd? (c :: rest) = none := by
  constructor
  · rw [skipSpaces, List.dropWhile_cons_of_neg]
    intro space
    simp only [isSpace, Bool.or_eq_true, beq_iff_eq] at space
    rcases space with ((rfl | rfl) | rfl) | rfl <;> exact absurd begins (by decide)
  · unfold tagEnd?
    split
    · next eq =>
      cases eq
      exact absurd begins (by decide)
    · next eq =>
      cases eq
      exact absurd begins (by decide)
    · rfl

namespace TagName

/-- The parts of the name are names without a colon, of which the first may be missing. -/
structure Legible (n : TagName) : Prop where
  base : IsName n.base
  qualifier : n.qualifier = [] ∨ IsName n.qualifier

variable {n : TagName}

/-- A legible name is written in characters of names. -/
lemma Legible.chars (le : n.Legible) : ∀ c ∈ n.render, isNameChar c = true := by
  intro c mem
  rw [render] at mem
  split at mem
  · exact le.base.chars c mem
  · next qualified =>
    rw [List.mem_append, List.mem_cons] at mem
    rcases mem with mem | rfl | mem
    · exact (le.qualifier.resolve_left qualified).chars c mem
    · decide
    · exact le.base.chars c mem

/-- What is written for a name begins with a character that may begin names. -/
lemma Legible.eq_cons (le : n.Legible) :
    ∃ c rest, n.render = c :: rest ∧ isNameStart c = true := by
  rw [render]
  split
  · exact le.base.eq_cons
  · next qualified =>
    obtain ⟨c, rest, eq, begins⟩ := (le.qualifier.resolve_left qualified).eq_cons
    exact ⟨c, rest ++ ':' :: n.base, by rw [eq]; rfl, begins⟩

/-- A name without a prefix is read from its word. -/
lemma ofWord?_of_unqualified {base : List Char} (name : IsName base) :
    ofWord? base = some ⟨[], base⟩ := by
  have all : ∀ c ∈ base, (c != ':') = true := by
    intro c mem
    exact bne_iff_ne.mpr (ne_of_mem_of_not_mem mem name.colon)
  rw [ofWord?, List.takeWhile_eq_self_iff.mpr all, List.dropWhile_eq_nil_iff.mpr all]
  exact if_pos name.begins

/-- A name with a prefix is read from its word. -/
lemma ofWord?_of_qualified {qualifier base : List Char} (first : IsName qualifier)
    (second : IsName base) : ofWord? (qualifier ++ ':' :: base) = some ⟨qualifier, base⟩ := by
  have all : ∀ c ∈ qualifier, (c != ':') = true := by
    intro c mem
    exact bne_iff_ne.mpr (ne_of_mem_of_not_mem mem first.colon)
  rw [ofWord?, takeWhile_stop all rfl, dropWhile_stop all rfl]
  simp [first.begins, second.begins, second.colon]

/-- A legible name is read back from its word. -/
lemma Legible.ofWord?_render (le : n.Legible) : ofWord? n.render = some n := by
  obtain ⟨qualifier, base⟩ := n
  rw [render]
  split
  · next unqualified =>
    obtain rfl : qualifier = [] := unqualified
    exact ofWord?_of_unqualified le.base
  · next qualified => exact ofWord?_of_qualified (le.qualifier.resolve_left qualified) le.base

/-- A name is read up to the first character that may not stand in names. -/
lemma Legible.read?_render (le : n.Legible) {c : Char} {rest : List Char}
    (stop : isNameChar c = false) : read? (n.render ++ c :: rest) = some (n, c :: rest) := by
  rw [read?, takeWhile_stop le.chars stop, dropWhile_stop le.chars stop, le.ofWord?_render]
  rfl

end TagName

/-! ## Attributes -/

/-- The name is legible, and the value holds neither its quote nor the beginning of a tag. -/
structure RawAttribute.Legible (a : RawAttribute) : Prop where
  name : a.name.Legible
  chars : ∀ c ∈ a.value, isXmlChar c = true
  quote : '\x22' ∉ a.value
  markup : '<' ∉ a.value

/-- A quoted value is read up to its quote. -/
lemma readValue?_render {value rest : List Char} (quote : '\x22' ∉ value) (markup : '<' ∉ value) :
    readValue? ('\x22' :: (value ++ '\x22' :: rest)) = some (value, rest) := by
  have all : ∀ c ∈ value, (c != '\x22' && c != '<') = true := by
    intro c mem
    rw [Bool.and_eq_true, bne_iff_ne, bne_iff_ne]
    exact ⟨ne_of_mem_of_not_mem mem quote, ne_of_mem_of_not_mem mem markup⟩
  have stop : ('\x22' != '\x22' && '\x22' != '<') = false := rfl
  simp only [readValue?, true_or, if_true, takeWhile_stop all stop, dropWhile_stop all stop]

/-- A written attribute has a space, its name, and its value in quotes. -/
lemma RawAttribute.render_append (a : RawAttribute) (rest : List Char) :
    a.render ++ rest = ' ' :: (a.name.render ++ '=' :: '\x22' :: (a.value ++ '\x22' :: rest)) := by
  simp [render]

/-- A legible attribute is read back, whatever follows. -/
lemma RawAttribute.Legible.read?_render {a : RawAttribute} (le : a.Legible) (rest : List Char) :
    read? (a.name.render ++ '=' :: '\x22' :: (a.value ++ '\x22' :: rest)) = some (a, rest) := by
  have equals {s : List Char} : skipSpaces ('=' :: s) = '=' :: s := rfl
  have quote {s : List Char} : skipSpaces ('\x22' :: s) = '\x22' :: s := rfl
  rw [read?, le.name.read?_render (by decide)]
  simp only [equals, quote, readValue?_render le.quote le.markup, Option.map_some]

/-- The end of a start tag as it is written. -/
def tagEnd (closed : Bool) : List Char :=
  if closed then ['/', '>'] else ['>']

/-- Where a tag ends, there are no attributes. -/
lemma readAttributes?_tagEnd (closed : Bool) (rest : List Char) :
    readAttributes? (tagEnd closed ++ rest) = some ([], closed, rest) := by
  have ends : tagEnd? (skipSpaces (tagEnd closed ++ rest)) = some (closed, rest) := by
    cases closed <;> rfl
  rw [readAttributes?, ends]

/-- A legible attribute is read before those after it. -/
lemma readAttributes?_cons {a : RawAttribute} {as : List RawAttribute} {closed : Bool}
    {s rest : List Char} (le : a.Legible) (read : readAttributes? s = some (as, closed, rest)) :
    readAttributes? (a.render ++ s) = some (a :: as, closed, rest) := by
  obtain ⟨c, name, eq, begins⟩ := le.name.eq_cons
  have here := le.read?_render s
  rw [a.render_append]
  rw [eq, List.cons_append] at here ⊢
  generalize name ++ '=' :: '\x22' :: (a.value ++ '\x22' :: s) = t at here ⊢
  have skipped : skipSpaces (' ' :: c :: t) = c :: t := (skipSpaces_of_isNameStart begins).1
  have further : tagEnd? (skipSpaces (' ' :: c :: t)) = none := by
    rw [skipped]
    exact (skipSpaces_of_isNameStart begins).2
  rw [← skipped] at here
  rw [readAttributes?, further]
  simp only [isSpaced, isSpace, BEq.rfl, Bool.true_or, if_true]
  split
  · next a' rest' eq' =>
    rw [here] at eq'
    cases eq'
    rw [read]
    rfl
  · next eq' =>
    rw [here] at eq'
    cases eq'

/-- The attributes of a start tag are read up to its end. -/
lemma readAttributes?_render {as : List RawAttribute} (le : ∀ a ∈ as, a.Legible) (closed : Bool)
    (rest : List Char) :
    readAttributes? (as.flatMap RawAttribute.render ++ (tagEnd closed ++ rest)) =
      some (as, closed, rest) := by
  induction as with
  | nil => exact readAttributes?_tagEnd closed rest
  | cons a as ih =>
    rw [List.forall_mem_cons] at le
    rw [List.flatMap_cons, List.append_assoc]
    exact readAttributes?_cons le.1 (ih le.2)

/-! ## Tokens -/

/-- A start tag is written as its name, its attributes and its end. -/
lemma Token.render_start (name : TagName) (as : List RawAttribute) (closed : Bool) :
    (start name as closed).render =
      '<' :: (name.render ++ (as.flatMap RawAttribute.render ++ tagEnd closed)) := by
  change '<' :: name.render ++ as.flatMap RawAttribute.render ++ tagEnd closed = _
  simp only [List.cons_append, List.append_assoc]

/-- An end tag is written as its name between a slash and the end. -/
lemma Token.render_stop (name : TagName) :
    (stop name).render = '<' :: '/' :: (name.render ++ ['>']) :=
  rfl

/-- Text is written as it is. -/
lemma Token.render_text (raw : List Char) : (text raw).render = raw :=
  rfl

/-- After a tag begins, what is no comment, instruction or end tag is a start tag. -/
lemma Token.read?_markup {c : Char} {s : List Char} (bang : c ≠ '!') (query : c ≠ '?')
    (slash : c ≠ '/') :
    read? ('<' :: c :: s) =
      match TagName.read? (c :: s) with
      | some (name, s) =>
        (readAttributes? s).map fun (as, closed, rest) => (start name as closed, rest)
      | none => none := by
  unfold Token.read?
  -- The second character rules out all other ways in which a token can begin.
  split
  · next eq =>
    cases eq
    exact absurd rfl bang
  · next eq =>
    cases eq
    exact absurd rfl bang
  · next eq =>
    cases eq
    exact absurd rfl bang
  · next eq =>
    cases eq
    exact absurd rfl query
  · next eq =>
    cases eq
    exact absurd rfl slash
  · next eq =>
    cases eq
    rfl
  · next other eq =>
    cases eq
    exact absurd rfl other
  · next eq => cases eq

/-- What begins no tag is text up to the next tag, unless it holds what ends a section. -/
lemma Token.read?_data {c : Char} {s : List Char} (other : c ≠ '<') :
    read? (c :: s) =
      if (Marker.find? sectionEnd (c :: s.takeWhile (· != '<'))).isNone then
        some (text (c :: s.takeWhile (· != '<')), s.dropWhile (· != '<'))
      else none := by
  unfold Token.read?
  -- All other tokens begin as a tag does.
  split
  · next eq =>
    cases eq
    exact absurd rfl other
  · next eq =>
    cases eq
    exact absurd rfl other
  · next eq =>
    cases eq
    exact absurd rfl other
  · next eq =>
    cases eq
    exact absurd rfl other
  · next eq =>
    cases eq
    exact absurd rfl other
  · next eq =>
    cases eq
    exact absurd rfl other
  · next eq =>
    cases eq
    rfl
  · next eq => cases eq

/-- What follows the name in a start tag begins with a character that may not stand in names. -/
lemma tail_of_start (as : List RawAttribute) (closed : Bool) (rest : List Char) :
    ∃ c s, as.flatMap RawAttribute.render ++ (tagEnd closed ++ rest) = c :: s ∧
      isNameChar c = false := by
  cases as with
  | nil =>
    cases closed with
    | false => exact ⟨'>', rest, rfl, by decide⟩
    | true => exact ⟨'/', '>' :: rest, rfl, by decide⟩
  | cons a as =>
    rw [List.flatMap_cons, List.append_assoc, a.render_append]
    exact ⟨_, _, rfl, by decide⟩

/-- A legible start tag is read back, whatever follows. -/
lemma Token.read?_start {name : TagName} {as : List RawAttribute} (le : name.Legible)
    (les : ∀ a ∈ as, a.Legible) (closed : Bool) (rest : List Char) :
    read? ((start name as closed).render ++ rest) = some (start name as closed, rest) := by
  obtain ⟨c, s, tail, stop⟩ := tail_of_start as closed rest
  have attributes := readAttributes?_render les closed rest
  have read : TagName.read? (name.render ++ c :: s) = _ := le.read?_render stop
  rw [render_start, List.cons_append, List.append_assoc, List.append_assoc, tail]
  rw [tail] at attributes
  obtain ⟨b, t, eq, begins⟩ := le.eq_cons
  rw [eq, List.cons_append] at read ⊢
  -- The name does not begin like another token.
  have other {d : Char} (no : isNameStart d = false) : b ≠ d := by
    rintro rfl
    exact Bool.false_ne_true (no.symm.trans begins)
  rw [read?_markup (other (by decide)) (other (by decide)) (other (by decide)), read]
  simp only [attributes, Option.map_some]

/-- An end tag with a legible name is read back, whatever follows. -/
lemma Token.read?_stop {name : TagName} (le : name.Legible) (rest : List Char) :
    read? ((stop name).render ++ rest) = some (stop name, rest) := by
  have here : (stop name).render ++ rest = '<' :: '/' :: (name.render ++ '>' :: rest) := by
    simp only [render_stop, List.cons_append, List.append_assoc, List.nil_append]
  have read : TagName.read? (name.render ++ '>' :: rest) = _ := le.read?_render (by decide)
  have closes : skipSpaces ('>' :: rest) = '>' :: rest := rfl
  rw [here]
  simp only [Token.read?, read, closes]

/-- Text is read back up to the next tag. -/
lemma Token.read?_text {raw : List Char} (nonempty : raw ≠ []) (markup : '<' ∉ raw)
    (free : Marker.find? sectionEnd raw = none) (rest : List Char) :
    read? (raw ++ '<' :: rest) = some (text raw, '<' :: rest) := by
  cases raw with
  | nil => exact absurd rfl nonempty
  | cons c raw =>
    rw [List.mem_cons, not_or] at markup
    have all : ∀ c ∈ raw, (c != '<') = true := by
      intro b mem
      exact bne_iff_ne.mpr (ne_of_mem_of_not_mem mem markup.2)
    rw [List.cons_append, read?_data (Ne.symm markup.1), takeWhile_stop all rfl,
      dropWhile_stop all rfl, free]
    rfl

/-- Tokens with names and raw text that can be read back, and text before end tags only. -/
inductive Legible : List Token → Prop where
  | nil :
    Legible []
  | start {name as closed ts} :
    name.Legible →
    (∀ a ∈ as, a.Legible) →
    Legible ts →
    Legible (.start name as closed :: ts)
  | stop {name ts} :
    name.Legible →
    Legible ts →
    Legible (.stop name :: ts)
  | text {raw name ts} :
    raw ≠ [] →
    (∀ c ∈ raw, isXmlChar c = true) →
    '<' ∉ raw →
    Marker.find? sectionEnd raw = none →
    Legible (.stop name :: ts) →
    Legible (.text raw :: .stop name :: ts)

/-- A token that is read at the head is the first one of the input. -/
lemma scan?_of_read? {s rest : List Char} {t : Token} (read : Token.read? s = some (t, rest)) :
    scan? s = (scan? rest).map (t :: ·) := by
  cases s with
  | nil => cases read
  | cons c s =>
    rw [scan?]
    split
    · next eq =>
      rw [read] at eq
      cases eq
      rfl
    · next eq =>
      rw [read] at eq
      cases eq

/-- Legible tokens are read back from what they are written as. -/
lemma Legible.scan?_render {ts : List Token} (le : Legible ts) :
    scan? (ts.flatMap Token.render) = some ts := by
  induction le with
  | nil => rw [List.flatMap_nil, scan?]
  | start name as _ ih =>
    rw [List.flatMap_cons, scan?_of_read? (Token.read?_start name as _ _), ih]
    rfl
  | stop name _ ih =>
    rw [List.flatMap_cons, scan?_of_read? (Token.read?_stop name _), ih]
    rfl
  | @text raw name ts nonempty _ markup free _ ih =>
    rw [List.flatMap_cons, Token.render_stop] at ih
    rw [List.flatMap_cons, Token.render_text, List.flatMap_cons, Token.render_stop]
    rw [List.cons_append] at ih ⊢
    rw [scan?_of_read? (Token.read?_text nonempty markup free _), ih]
    rfl

/-! ## Documents -/

/-- A legible attribute is written in characters of documents. -/
lemma RawAttribute.Legible.isXmlChar_render {a : RawAttribute} (le : a.Legible) :
    ∀ c ∈ a.render, isXmlChar c = true := by
  have eq := a.render_append []
  rw [List.append_nil] at eq
  rw [eq]
  simp only [List.forall_mem_cons, List.forall_mem_append]
  exact ⟨by decide, fun c mem => isXmlChar_of_isNameChar (le.name.chars c mem), by decide,
    by decide, le.chars, by decide, by simp⟩

/-- A legible start tag is written in characters of documents. -/
lemma Token.isXmlChar_render_start {name : TagName} {as : List RawAttribute} (le : name.Legible)
    (les : ∀ a ∈ as, a.Legible) (closed : Bool) :
    ∀ c ∈ (start name as closed).render, isXmlChar c = true := by
  rw [render_start]
  simp only [List.forall_mem_cons, List.forall_mem_append]
  refine ⟨by decide, fun c mem => isXmlChar_of_isNameChar (le.chars c mem), ?_, ?_⟩
  · intro c mem
    obtain ⟨a, here, mem⟩ := List.mem_flatMap.mp mem
    exact (les a here).isXmlChar_render c mem
  · cases closed <;> exact List.all_eq_true.mp (by decide)

/-- Legible tokens are written in characters of documents. -/
lemma Legible.isXmlChar_render {ts : List Token} (le : Legible ts) :
    ∀ c ∈ ts.flatMap Token.render, isXmlChar c = true := by
  induction le with
  | nil => exact List.forall_mem_nil _
  | start name as _ ih =>
    rw [List.flatMap_cons, List.forall_mem_append]
    exact ⟨Token.isXmlChar_render_start name as _, ih⟩
  | stop name _ ih =>
    rw [List.flatMap_cons, List.forall_mem_append, Token.render_stop]
    simp only [List.forall_mem_cons, List.forall_mem_append]
    exact ⟨⟨by decide, by decide, fun c mem => isXmlChar_of_isNameChar (name.chars c mem),
      by decide, by simp⟩, ih⟩
  | text _ chars _ _ _ ih =>
    rw [List.flatMap_cons, List.forall_mem_append, Token.render_text]
    exact ⟨chars, ih⟩

/-- A document that begins with a tag has no declaration. -/
lemma afterDeclaration?_of_ne {c : Char} {s : List Char} (query : c ≠ '?') :
    afterDeclaration? ('<' :: c :: s) = some ('<' :: c :: s) := by
  unfold afterDeclaration?
  split
  · next eq =>
    cases eq
    exact absurd rfl query
  · rfl

/-- A document of legible tokens, of which the first is a start tag, is read back. -/
lemma Legible.tokens?_render {name : TagName} {as : List RawAttribute} {closed : Bool}
    {ts : List Token} (le : Legible (.start name as closed :: ts)) :
    tokens? ((Token.start name as closed :: ts).flatMap Token.render) =
      some (.start name as closed :: ts) := by
  have all := List.all_eq_true.mpr le.isXmlChar_render
  have scanned := le.scan?_render
  cases le with
  | start named _ _ =>
    obtain ⟨c, s, eq, begins⟩ := named.eq_cons
    have query : c ≠ '?' := by
      rintro rfl
      exact absurd begins (by decide)
    rw [List.flatMap_cons, Token.render_start, eq] at all scanned ⊢
    simp only [List.cons_append] at all scanned ⊢
    rw [tokens?.eq_def, if_pos all]
    change (afterDeclaration? ('<' :: c :: _)).bind scan? = _
    rw [afterDeclaration?_of_ne query, Option.bind_some, scanned]

end Netconf.Xml
