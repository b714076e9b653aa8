import Netconf.Marker
import Netconf.Xml.Char

/-!
# Tokens of a document

Tags, character data and asides in the order of the document, with names and raw text as they are
written. `Token.render` writes a token, `Token.read?` reads the one at the head of the input, and
`scan?` reads a whole document as far as its tokens go: whether tags match is not asked here.
-/

namespace Netconf.Xml

/-- A name as it is written: what stands before the colon, empty without one, and the rest. -/
structure TagName where
  qualifier : List Char
  base : List Char
  deriving DecidableEq, Repr, Inhabited

/-- An attribute as it is written, its value still raw. -/
structure RawAttribute where
  name : TagName
  value : List Char
  deriving DecidableEq, Repr, Inhabited

/-- A token of a document. -/
inductive Token where
  /-- A start tag; `closed` if the element ends with it. -/
  | start (name : TagName) (attributes : List RawAttribute) (closed : Bool)
  /-- An end tag. -/
  | stop (name : TagName)
  /-- Raw character data. -/
  | text (raw : List Char)
  /-- The content of a section without references. -/
  | cdata (content : List Char)
  /-- A comment or a processing instruction. -/
  | aside
  deriving DecidableEq, Repr

/-! ## Writing -/

/-- A name as it is written. -/
def TagName.render (n : TagName) : List Char :=
  if n.qualifier = [] then n.base else n.qualifier ++ ':' :: n.base

/-- An attribute as it is written, with the space before it. -/
def RawAttribute.render (a : RawAttribute) : List Char :=
  ' ' :: a.name.render ++ ['=', '\x22'] ++ a.value ++ ['\x22']

/-- A token as it is written. -/
def Token.render : Token → List Char
  | start name attributes closed =>
    '<' :: name.render ++ attributes.flatMap RawAttribute.render ++
      (if closed then ['/', '>'] else ['>'])
  | stop name => ['<', '/'] ++ name.render ++ ['>']
  | text raw => raw
  | cdata content => "<![CDATA[".toList ++ content ++ [']', ']', '>']
  | aside => "<!---->".toList

/-! ## Reading -/

/-- The input after the white space at its head. -/
def skipSpaces (s : List Char) : List Char :=
  s.dropWhile isSpace

/-- Skipping spaces does not add to the input. -/
theorem length_skipSpaces_le (s : List Char) : (skipSpaces s).length ≤ s.length :=
  (List.dropWhile_suffix isSpace).length_le

/-- Whether a part of a name is one: not empty, and begun by a character that may begin names. -/
def isNamePart : List Char → Bool
  | [] => false
  | c :: _ => isNameStart c

/-- The name written by a run of name characters: at most one colon, nothing or a name before it,
a name after it. -/
def TagName.ofWord? (word : List Char) : Option TagName :=
  let head := word.takeWhile (· != ':')
  match word.dropWhile (· != ':') with
  | [] => if isNamePart head then some ⟨[], head⟩ else none
  | _ :: base =>
    if (head.isEmpty || isNamePart head) && isNamePart base && !base.contains ':' then
      some ⟨head, base⟩
    else none

/-- The name at the head of the input. -/
def TagName.read? (s : List Char) : Option (TagName × List Char) :=
  (TagName.ofWord? (s.takeWhile isNameChar)).map (·, s.dropWhile isNameChar)

/-- Reading a name takes some of the input. -/
theorem TagName.length_of_read? {s rest : List Char} {n : TagName}
    (h : TagName.read? s = some (n, rest)) : rest.length < s.length := by
  simp only [TagName.read?, Option.map_eq_some_iff, Prod.mk.injEq] at h
  obtain ⟨m, hm, -, rfl⟩ := h
  cases s with
  | nil => simp [ofWord?, isNamePart] at hm
  | cons c s =>
    by_cases hc : isNameChar c
    · simp only [List.dropWhile_cons, hc, ↓reduceIte, List.length_cons]
      exact Nat.lt_succ_of_le (List.dropWhile_suffix _).length_le
    · simp [hc, ofWord?, isNamePart] at hm

/-- The quoted value at the head of the input; it holds neither its quote nor a `<`. -/
def readValue? : List Char → Option (List Char × List Char)
  | quote :: s =>
    if quote = '\x22' ∨ quote = '\x27' then
      match s.dropWhile fun c => c != quote && c != '<' with
      | c :: rest =>
        if c = quote then some (s.takeWhile fun c => c != quote && c != '<', rest) else none
      | [] => none
    else none
  | [] => none

/-- Reading a quoted value takes some of the input. -/
theorem length_of_readValue? {s value rest : List Char} (h : readValue? s = some (value, rest)) :
    rest.length < s.length := by
  cases s with
  | nil => simp [readValue?] at h
  | cons quote s =>
    simp only [readValue?] at h
    split at h
    · split at h
      · next c tail hd =>
        split at h
        · have := (s.dropWhile_suffix fun c => c != quote && c != '<').length_le
          rw [hd] at this
          simp only [Option.some.injEq, Prod.mk.injEq] at h
          obtain ⟨-, rfl⟩ := h
          simp only [List.length_cons] at this ⊢
          omega
        · simp at h
      · simp at h
    · simp at h

/-- The attribute at the head of the input. -/
def RawAttribute.read? (s : List Char) : Option (RawAttribute × List Char) :=
  match TagName.read? s with
  | none => none
  | some (name, s) =>
    match skipSpaces s with
    | '=' :: s => (readValue? (skipSpaces s)).map fun (value, rest) => (⟨name, value⟩, rest)
    | _ => none

/-- Reading an attribute takes some of the input. -/
theorem RawAttribute.length_of_read? {s rest : List Char} {a : RawAttribute}
    (h : RawAttribute.read? s = some (a, rest)) : rest.length < s.length := by
  simp only [RawAttribute.read?] at h
  split at h
  · simp at h
  · next name s' hn =>
    split at h
    · next s'' hs =>
      simp only [Option.map_eq_some_iff, Prod.mk.injEq] at h
      obtain ⟨⟨value, rest'⟩, hv, -, rfl⟩ := h
      have h₁ := TagName.length_of_read? hn
      have h₂ := length_skipSpaces_le s'
      have h₃ := length_skipSpaces_le s''
      have h₄ := length_of_readValue? hv
      rw [hs] at h₂
      simp only [List.length_cons] at h₂
      dsimp only
      omega
    · simp at h

/-- Whether white space stands at the head of the input. -/
def isSpaced : List Char → Bool
  | [] => false
  | c :: _ => isSpace c

/-- The end of a start tag at the head of the input, and whether it closes the element. -/
def tagEnd? : List Char → Option (Bool × List Char)
  | '/' :: '>' :: rest => some (true, rest)
  | '>' :: rest => some (false, rest)
  | _ => none

/-- Reading the end of a tag takes some of the input. -/
theorem length_of_tagEnd? {s rest : List Char} {closed : Bool}
    (h : tagEnd? s = some (closed, rest)) : rest.length < s.length := by
  unfold tagEnd? at h
  split at h
  · simp only [Option.some.injEq, Prod.mk.injEq] at h
    simp only [← h.2, List.length_cons]
    omega
  · simp only [Option.some.injEq, Prod.mk.injEq] at h
    simp only [← h.2, List.length_cons]
    omega
  · contradiction

/-- The attributes of a start tag and its end, which tells whether the element is closed. Each
attribute follows white space. -/
def readAttributes? (s : List Char) : Option (List RawAttribute × Bool × List Char) :=
  match tagEnd? (skipSpaces s) with
  | some (closed, rest) => some ([], closed, rest)
  | none =>
    if isSpaced s then
      match h : RawAttribute.read? (skipSpaces s) with
      | some (a, rest) =>
        have := RawAttribute.length_of_read? h
        have := length_skipSpaces_le s
        (readAttributes? rest).map fun (as, closed, rest) => (a :: as, closed, rest)
      | none => none
    else none
termination_by s.length

/-- Reading the attributes of a tag up to its end takes some of the input. -/
theorem length_of_readAttributes? {s rest : List Char} {as : List RawAttribute} {closed : Bool}
    (h : readAttributes? s = some (as, closed, rest)) : rest.length < s.length := by
  have hs := length_skipSpaces_le s
  unfold readAttributes? at h
  split at h
  · next hend =>
    have := length_of_tagEnd? hend
    simp only [Option.some.injEq, Prod.mk.injEq] at h
    obtain ⟨-, -, rfl⟩ := h
    omega
  · split at h
    · split at h
      · next a rest' hr =>
        simp only [Option.map_eq_some_iff, Prod.mk.injEq] at h
        obtain ⟨⟨as', closed', rest''⟩, h', -, -, rfl⟩ := h
        have h₁ := RawAttribute.length_of_read? hr
        have h₂ := length_of_readAttributes? h'
        dsimp only
        omega
      · simp at h
    · simp at h
termination_by s.length
decreasing_by omega

/-- What ends a section without references. Character data may not hold it. -/
def sectionEnd : List Char :=
  [']', ']', '>']

/-- The rest of the input after a comment of which the beginning was read. Two hyphens in a row
end it, and a `>` has to follow them. -/
def afterComment? (s : List Char) : Option (List Char) :=
  match Marker.cut? ['-', '-'] s with
  | some (_, '>' :: rest) => some rest
  | _ => none

/-- The rest of the input after a processing instruction of which the beginning was read. It needs
a name, which may not be `xml` before a space. -/
def afterInstruction? (s : List Char) : Option (List Char) :=
  if ['x', 'm', 'l', ' '].isPrefixOf s || !isNamePart (s.takeWhile isNameChar) then none
  else (Marker.cut? ['?', '>'] (s.dropWhile isNameChar)).map (·.2)

/-- The token at the head of the input. -/
def Token.read? : List Char → Option (Token × List Char)
  | '<' :: '!' :: '-' :: '-' :: s => (afterComment? s).map (aside, ·)
  | '<' :: '!' :: '[' :: 'C' :: 'D' :: 'A' :: 'T' :: 'A' :: '[' :: s =>
    (Marker.cut? sectionEnd s).map fun (content, rest) => (cdata content, rest)
  | '<' :: '!' :: _ => none
  | '<' :: '?' :: s => (afterInstruction? s).map (aside, ·)
  | '<' :: '/' :: s =>
    match TagName.read? s with
    | some (name, s) =>
      match skipSpaces s with
      | '>' :: rest => some (stop name, rest)
      | _ => none
    | none => none
  | '<' :: s =>
    match TagName.read? s with
    | some (name, s) =>
      (readAttributes? s).map fun (as, closed, rest) => (start name as closed, rest)
    | none => none
  | c :: s =>
    let raw := c :: s.takeWhile (· != '<')
    if (Marker.find? sectionEnd raw).isNone then some (text raw, s.dropWhile (· != '<')) else none
  | [] => none

/-- Reading a token takes some of the input. -/
theorem Token.length_of_read? {s rest : List Char} {t : Token}
    (h : Token.read? s = some (t, rest)) : rest.length < s.length := by
  unfold Token.read? at h
  -- One case for each way in which a token can begin.
  split at h
  · next s =>
    simp only [afterComment?, Option.map_eq_some_iff, Prod.mk.injEq] at h
    obtain ⟨r, hr, -, rfl⟩ := h
    split at hr
    · next hc =>
      have := Marker.length_of_cut? hc
      simp only [Option.some.injEq] at hr
      subst hr
      simp only [List.length_cons] at this ⊢
      omega
    · simp at hr
  · next s =>
    simp only [Option.map_eq_some_iff, Prod.mk.injEq] at h
    obtain ⟨⟨content, r⟩, hc, -, rfl⟩ := h
    have := Marker.length_of_cut? hc
    simp only [List.length_cons]
    omega
  · simp at h
  · next s =>
    simp only [afterInstruction?, Option.map_eq_some_iff, Prod.mk.injEq] at h
    obtain ⟨r, hr, -, rfl⟩ := h
    split at hr
    · simp at hr
    · simp only [Option.map_eq_some_iff] at hr
      obtain ⟨⟨before, r⟩, hc, rfl⟩ := hr
      have h₁ := Marker.length_of_cut? hc
      have h₂ := (s.dropWhile_suffix isNameChar).length_le
      simp only [List.length_cons]
      omega
  · next s =>
    split at h
    · next name s' hn =>
      split at h
      · next r hs =>
        simp only [Option.some.injEq, Prod.mk.injEq] at h
        obtain ⟨-, rfl⟩ := h
        have h₁ := TagName.length_of_read? hn
        have h₂ := length_skipSpaces_le s'
        rw [hs] at h₂
        simp only [List.length_cons] at h₂ ⊢
        omega
      · simp at h
    · simp at h
  · next s _ _ _ _ _ =>
    split at h
    · next name s' hn =>
      simp only [Option.map_eq_some_iff, Prod.mk.injEq] at h
      obtain ⟨⟨as, closed, r⟩, ha, -, rfl⟩ := h
      have h₁ := TagName.length_of_read? hn
      have h₂ := length_of_readAttributes? ha
      simp only [List.length_cons]
      omega
    · simp at h
  · next c s _ _ _ _ _ _ =>
    simp only [Option.ite_none_right_eq_some, Option.some.injEq, Prod.mk.injEq] at h
    obtain ⟨-, -, rfl⟩ := h
    have := (s.dropWhile_suffix (· != '<')).length_le
    simp only [List.length_cons]
    omega
  · simp at h

/-- The tokens that make up the input. -/
def scan? (s : List Char) : Option (List Token) :=
  match s with
  | [] => some []
  | c :: s =>
    match h : Token.read? (c :: s) with
    | some (t, rest) =>
      have := Token.length_of_read? h
      (scan? rest).map (t :: ·)
    | none => none
termination_by s.length
decreasing_by
  simp only [List.length_cons] at this ⊢
  omega

/-- The input after the value of the declaration that begins with the given word, and after the
white space or before the end of the declaration that has to follow it. -/
def afterSetting? (word s : List Char) : Option (List Char) :=
  if word.isPrefixOf s then
    match RawAttribute.read? s with
    | some (_, s) => if isSpaced s || ['?', '>'].isPrefixOf s then some (skipSpaces s) else none
    | none => none
  else none

/-- The input after the XML declaration, if it begins with one: the version, then optionally the
encoding, then optionally whether the document stands alone. -/
def afterDeclaration? : List Char → Option (List Char)
  | '<' :: '?' :: 'x' :: 'm' :: 'l' :: ' ' :: s => do
    let s ← afterSetting? "version".toList (skipSpaces s)
    let s ← if "encoding".toList.isPrefixOf s then afterSetting? "encoding".toList s else some s
    let s ←
      if "standalone".toList.isPrefixOf s then afterSetting? "standalone".toList s else some s
    match s with
    | '?' :: '>' :: rest => some rest
    | _ => none
  | s => some s

/-- The tokens of a document: its characters are those of XML, a byte order mark and a declaration
may come first. -/
def tokens? (document : List Char) : Option (List Token) :=
  if document.all isXmlChar then
    let s := match document with
      | '\ufeff' :: s => s
      | s => s
    (afterDeclaration? s).bind scan?
  else none

end Netconf.Xml
