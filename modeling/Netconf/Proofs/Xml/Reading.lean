import Netconf.Proofs.Framing.Delimited
import Netconf.Proofs.Xml.Legible
import Netconf.Xml.CharData

/-!
# What is read of a document

The tokens of a document have legible names, and their raw text is made of characters of the
document (`of_tokens?`). Resolving raw text gives characters that may stand in a document
(`isXmlChar_of_resolveText?`, `isXmlChar_of_resolveValue?`).
-/

namespace Netconf.Xml

/-! ## Names and attributes -/

/-- There is no colon before the first colon. -/
lemma colon_notMem_takeWhile (s : List Char) : ':' ∉ s.takeWhile (· != ':') := by
  intro mem
  exact absurd (List.mem_takeWhile_imp mem) (by decide)

namespace TagName

variable {n : TagName} {s rest : List Char}

/-- A name that is read from a word of name characters is legible. -/
lemma legible_of_ofWord? {word : List Char} (chars : ∀ c ∈ word, isNameChar c = true)
    (eq : ofWord? word = some n) : n.Legible := by
  have head : ∀ c ∈ word.takeWhile (· != ':'), isNameChar c = true :=
    fun c mem => chars c (List.takeWhile_subset _ mem)
  rw [ofWord?] at eq
  split at eq
  · obtain ⟨begins, same⟩ := Option.ite_none_right_eq_some.mp eq
    cases same
    exact ⟨⟨begins, head, colon_notMem_takeWhile word⟩, .inl rfl⟩
  · next colon base after =>
    obtain ⟨parts, same⟩ := Option.ite_none_right_eq_some.mp eq
    cases same
    simp only [Bool.and_eq_true, Bool.or_eq_true, List.isEmpty_iff, Bool.not_eq_true',
      List.contains_eq_mem, decide_eq_false_iff_not] at parts
    obtain ⟨⟨first, begins⟩, free⟩ := parts
    have tail : ∀ c ∈ base, isNameChar c = true := by
      intro c mem
      refine chars c (List.dropWhile_subset (· != ':') ?_)
      rw [after]
      exact List.mem_cons_of_mem _ mem
    exact ⟨⟨begins, tail, free⟩, first.imp_right fun begins =>
      ⟨begins, head, colon_notMem_takeWhile word⟩⟩

/-- A name that is read is legible. -/
lemma of_read? (eq : read? s = some (n, rest)) : n.Legible ∧ rest ⊆ s := by
  obtain ⟨m, word, same⟩ := Option.map_eq_some_iff.mp eq
  cases same
  exact ⟨legible_of_ofWord? (fun c mem => List.mem_takeWhile_imp mem) word, List.dropWhile_subset _⟩

end TagName

section

variable {s rest : List Char}

/-- What is left after white space is of the characters of the input. -/
lemma skipSpaces_subset (s : List Char) : skipSpaces s ⊆ s :=
  List.dropWhile_subset _

/-- A quoted value and what is left are of the characters of the input. -/
lemma of_readValue? {value : List Char} (eq : readValue? s = some (value, rest)) :
    value ⊆ s ∧ rest ⊆ s := by
  cases s with
  | nil => cases eq
  | cons quote s =>
    rw [readValue?] at eq
    obtain ⟨-, eq⟩ := Option.ite_none_right_eq_some.mp eq
    split at eq
    · next c tail after =>
      obtain ⟨-, same⟩ := Option.ite_none_right_eq_some.mp eq
      cases same
      have behind : rest ⊆ s := by
        refine List.Subset.trans (List.subset_cons_self c rest) ?_
        rw [← after]
        exact List.dropWhile_subset _
      exact ⟨List.subset_cons_of_subset _ (List.takeWhile_subset _),
        List.subset_cons_of_subset _ behind⟩
    · cases eq

/-- The attribute has a legible name, and its value is made of the given characters. -/
def RawAttribute.OutOf (a : RawAttribute) (s : List Char) : Prop :=
  a.name.Legible ∧ a.value ⊆ s

/-- An attribute made of some characters is made of any that include them. -/
lemma RawAttribute.OutOf.mono {a : RawAttribute} {t : List Char} (out : a.OutOf s) (sub : s ⊆ t) :
    a.OutOf t :=
  ⟨out.1, List.Subset.trans out.2 sub⟩

/-- An attribute that is read is made of the characters of the input. -/
lemma RawAttribute.of_read? {a : RawAttribute} (eq : read? s = some (a, rest)) :
    a.OutOf s ∧ rest ⊆ s := by
  rw [RawAttribute.read?] at eq
  split at eq
  · cases eq
  · next name s' named =>
    obtain ⟨legible, sub⟩ := TagName.of_read? named
    split at eq
    · next s'' equals =>
      obtain ⟨⟨value, rest'⟩, valued, same⟩ := Option.map_eq_some_iff.mp eq
      cases same
      obtain ⟨inside, behind⟩ := of_readValue? valued
      have further : skipSpaces s'' ⊆ s := by
        refine List.Subset.trans (skipSpaces_subset s'') ?_
        refine List.Subset.trans (List.subset_cons_self '=' s'') ?_
        rw [← equals]
        exact List.Subset.trans (skipSpaces_subset s') sub
      exact ⟨⟨legible, List.Subset.trans inside further⟩, List.Subset.trans behind further⟩
    · cases eq

/-- After the end of a tag what is left is of the characters of the input. -/
lemma of_tagEnd? {closed : Bool} (eq : tagEnd? s = some (closed, rest)) : rest ⊆ s := by
  unfold tagEnd? at eq
  split at eq
  · cases eq
    exact List.subset_cons_of_subset _ (List.subset_cons_self _ _)
  · cases eq
    exact List.subset_cons_self _ _
  · cases eq

/-- The attributes of a tag and what is left are made of the characters of the input. -/
lemma of_readAttributes? {s rest : List Char} {as : List RawAttribute} {closed : Bool}
    (eq : readAttributes? s = some (as, closed, rest)) : (∀ a ∈ as, a.OutOf s) ∧ rest ⊆ s := by
  rw [readAttributes?] at eq
  split at eq
  · next ends =>
    cases eq
    exact ⟨List.forall_mem_nil _, List.Subset.trans (of_tagEnd? ends) (skipSpaces_subset s)⟩
  · obtain ⟨-, eq⟩ := Option.ite_none_right_eq_some.mp eq
    split at eq
    · next a rest' read =>
      obtain ⟨⟨as', closed', rest''⟩, later, same⟩ := Option.map_eq_some_iff.mp eq
      cases same
      have shorter := RawAttribute.length_of_read? read
      have shortened := length_skipSpaces_le s
      obtain ⟨first, sub⟩ := RawAttribute.of_read? read
      obtain ⟨others, behind⟩ := of_readAttributes? later
      have sub := List.Subset.trans sub (skipSpaces_subset s)
      refine ⟨List.forall_mem_cons.mpr ⟨first.mono (skipSpaces_subset s), ?_⟩, ?_⟩
      · exact fun a mem => (others a mem).mono sub
      · exact List.Subset.trans behind sub
    · cases eq
termination_by s.length
decreasing_by omega

/-! ## Tokens -/

/-- The names in the token are legible, and its raw text is made of the given characters. -/
def Token.OutOf (s : List Char) : Token → Prop
  | start name as _ => name.Legible ∧ ∀ a ∈ as, a.OutOf s
  | stop name => name.Legible
  | text raw => raw ⊆ s
  | cdata content => content ⊆ s
  | aside => True

/-- A token made of some characters is made of any that include them. -/
lemma Token.OutOf.mono {t : Token} {s' : List Char} (out : t.OutOf s) (sub : s ⊆ s') :
    t.OutOf s' := by
  cases t with
  | start name as closed => exact ⟨out.1, fun a mem => (out.2 a mem).mono sub⟩
  | stop name => exact out
  | text raw => exact List.Subset.trans out sub
  | cdata content => exact List.Subset.trans out sub
  | aside => trivial

/-- What stands before a marker and what is left are of the characters of the input. -/
lemma of_cut? {marker before : List Char} (eq : Marker.cut? marker s = some (before, rest)) :
    before ⊆ s ∧ rest ⊆ s := by
  obtain ⟨rfl, -⟩ := Marker.of_cut? eq
  exact ⟨List.subset_append_left _ _,
    List.Subset.trans (List.subset_append_right _ _) (List.subset_append_right _ _)⟩

/-- After a comment what is left is of the characters of the input. -/
lemma of_afterComment? (eq : afterComment? s = some rest) : rest ⊆ s := by
  rw [afterComment?] at eq
  split at eq
  · next before rest' cut =>
    cases eq
    exact List.Subset.trans (List.subset_cons_self _ _) (of_cut? cut).2
  · cases eq

/-- After an instruction what is left is of the characters of the input. -/
lemma of_afterInstruction? (eq : afterInstruction? s = some rest) : rest ⊆ s := by
  rw [afterInstruction?] at eq
  obtain ⟨-, eq⟩ := Option.ite_none_left_eq_some.mp eq
  obtain ⟨⟨before, rest'⟩, cut, same⟩ := Option.map_eq_some_iff.mp eq
  cases same
  exact List.Subset.trans (of_cut? cut).2 (List.dropWhile_subset _)

/-- A token that is read is made of the characters of the input. -/
lemma Token.of_read? {t : Token} (eq : read? s = some (t, rest)) : t.OutOf s ∧ rest ⊆ s := by
  unfold Token.read? at eq
  -- One case for each way in which a token can begin.
  split at eq
  · next s =>
    obtain ⟨rest', after, same⟩ := Option.map_eq_some_iff.mp eq
    cases same
    exact ⟨trivial, List.Subset.trans (of_afterComment? after)
      (List.subset_append_right ['<', '!', '-', '-'] _)⟩
  · next s =>
    obtain ⟨⟨content, rest'⟩, cut, same⟩ := Option.map_eq_some_iff.mp eq
    cases same
    obtain ⟨inside, behind⟩ := of_cut? cut
    have sub := List.subset_append_right ['<', '!', '[', 'C', 'D', 'A', 'T', 'A', '['] s
    exact ⟨List.Subset.trans inside sub, List.Subset.trans behind sub⟩
  · cases eq
  · next s =>
    obtain ⟨rest', after, same⟩ := Option.map_eq_some_iff.mp eq
    cases same
    exact ⟨trivial, List.Subset.trans (of_afterInstruction? after)
      (List.subset_append_right ['<', '?'] _)⟩
  · next s =>
    split at eq
    · next name s' named =>
      obtain ⟨legible, sub⟩ := TagName.of_read? named
      split at eq
      · next rest' closes =>
        cases eq
        refine ⟨legible, List.Subset.trans (List.subset_cons_self '>' rest) ?_⟩
        rw [← closes]
        refine List.Subset.trans (skipSpaces_subset s') (List.Subset.trans sub ?_)
        exact List.subset_append_right ['<', '/'] _
      · cases eq
    · cases eq
  · next s _ _ _ _ _ =>
    split at eq
    · next name s' named =>
      obtain ⟨legible, sub⟩ := TagName.of_read? named
      obtain ⟨⟨as, closed, rest'⟩, attributes, same⟩ := Option.map_eq_some_iff.mp eq
      cases same
      obtain ⟨each, behind⟩ := of_readAttributes? attributes
      have sub := List.Subset.trans sub (List.subset_cons_self '<' s)
      exact ⟨⟨legible, fun a mem => (each a mem).mono sub⟩, List.Subset.trans behind sub⟩
    · cases eq
  · next c s _ _ _ _ _ _ =>
    obtain ⟨-, same⟩ := Option.ite_none_right_eq_some.mp eq
    cases same
    exact ⟨List.cons_subset_cons c (List.takeWhile_subset _),
      List.subset_cons_of_subset _ (List.dropWhile_subset _)⟩
  · cases eq

/-- All tokens of the input are made of its characters. -/
lemma of_scan? {s : List Char} {ts : List Token} (eq : scan? s = some ts) :
    ∀ t ∈ ts, t.OutOf s := by
  cases s with
  | nil =>
    rw [scan?] at eq
    cases eq
    exact List.forall_mem_nil _
  | cons c s =>
    rw [scan?] at eq
    split at eq
    · next t rest read =>
      obtain ⟨ts', later, rfl⟩ := Option.map_eq_some_iff.mp eq
      have shorter := Token.length_of_read? read
      obtain ⟨first, sub⟩ := Token.of_read? read
      exact List.forall_mem_cons.mpr ⟨first, fun t mem => (of_scan? later t mem).mono sub⟩
    · cases eq
termination_by s.length

/-! ## Documents -/

/-- After a setting of the declaration what is left is of the characters of the input. -/
lemma of_afterSetting? {word : List Char} (eq : afterSetting? word s = some rest) : rest ⊆ s := by
  rw [afterSetting?] at eq
  obtain ⟨-, eq⟩ := Option.ite_none_right_eq_some.mp eq
  split at eq
  · next a s' read =>
    obtain ⟨-, same⟩ := Option.ite_none_right_eq_some.mp eq
    cases same
    exact List.Subset.trans (skipSpaces_subset s') (RawAttribute.of_read? read).2
  · cases eq

-- The declaration has two settings that may be missing, and both are read in this way.
/-- After a setting that may be missing the declaration goes on in characters of the input. -/
lemma of_optional {word : List Char} {next : List Char → Option (List Char)}
    (eq : (if word.isPrefixOf s then (afterSetting? word s).bind next else next s) = some rest) :
    ∃ t, t ⊆ s ∧ next t = some rest := by
  split at eq
  · obtain ⟨t, set, eq⟩ := Option.bind_eq_some_iff.mp eq
    exact ⟨t, of_afterSetting? set, eq⟩
  · exact ⟨s, List.Subset.refl s, eq⟩

/-- After the declaration what is left is of the characters of the input. -/
lemma of_afterDeclaration? (eq : afterDeclaration? s = some rest) : rest ⊆ s := by
  unfold afterDeclaration? at eq
  split at eq
  · next s =>
    obtain ⟨first, version, eq⟩ := Option.bind_eq_some_iff.mp eq
    obtain ⟨second, encoding, eq⟩ := of_optional eq
    obtain ⟨third, alone, eq⟩ := of_optional eq
    have sub : third ⊆ s := by
      refine List.Subset.trans (List.Subset.trans alone encoding) ?_
      exact List.Subset.trans (of_afterSetting? version) (skipSpaces_subset s)
    dsimp only at eq
    split at eq
    · next rest' =>
      cases eq
      refine List.Subset.trans (List.subset_append_right ['?', '>'] _) (List.Subset.trans sub ?_)
      exact List.subset_append_right ['<', '?', 'x', 'm', 'l', ' '] _
    · cases eq
  · cases eq
    exact List.Subset.refl _

/-- The tokens of a document are made of its characters, and these are the ones of XML. -/
lemma of_tokens? {document : List Char} {ts : List Token} (eq : tokens? document = some ts) :
    (∀ c ∈ document, isXmlChar c = true) ∧ ∀ t ∈ ts, t.OutOf document := by
  unfold tokens? at eq
  obtain ⟨all, eq⟩ := Option.ite_none_right_eq_some.mp eq
  refine ⟨List.all_eq_true.mp all, ?_⟩
  obtain ⟨s, declared, scanned⟩ := Option.bind_eq_some_iff.mp eq
  have sub : s ⊆ document := by
    refine List.Subset.trans (of_afterDeclaration? declared) ?_
    split
    · exact List.subset_cons_self _ _
    · exact List.Subset.refl _
  exact fun t mem => (of_scan? scanned t mem).mono sub

end

/-! ## Character data -/

/-- The character that the piece stands for. -/
def Piece.char : Piece → Char
  | literal c => c
  | reference c => c

/-- A number is only that of a character that may stand in a document. -/
lemma isXmlChar_of_charOfNumber? {n : Nat} {c : Char} (eq : charOfNumber? n = some c) :
    isXmlChar c = true := by
  obtain ⟨xml, same⟩ := Option.ite_none_right_eq_some.mp eq
  cases same
  exact xml

/-- A reference is to a character that may stand in a document. -/
lemma isXmlChar_of_referenced? {name : List Char} {c : Char} (eq : referenced? name = some c) :
    isXmlChar c = true := by
  unfold referenced? at eq
  split at eq
  · obtain ⟨n, -, number⟩ := Option.bind_eq_some_iff.mp eq
    exact isXmlChar_of_charOfNumber? number
  · obtain ⟨n, -, number⟩ := Option.bind_eq_some_iff.mp eq
    exact isXmlChar_of_charOfNumber? number
  · split at eq
    all_goals cases eq
    all_goals decide

/-- The pieces of characters that may stand in a document stand for such characters. -/
lemma isXmlChar_of_piecesFrom {body : Option (List Char)} {raw : List Char} {pieces : List Piece}
    (chars : ∀ c ∈ raw, isXmlChar c = true) (eq : piecesFrom body raw = some pieces) :
    ∀ p ∈ pieces, isXmlChar p.char = true := by
  induction raw generalizing body pieces with
  | nil =>
    cases body with
    | none =>
      cases eq
      exact List.forall_mem_nil _
    | some body => cases eq
  | cons c raw ih =>
    rw [List.forall_mem_cons] at chars
    cases body with
    | none =>
      rw [piecesFrom] at eq
      split at eq
      · exact ih chars.2 eq
      · obtain ⟨later, read, rfl⟩ := Option.map_eq_some_iff.mp eq
        exact List.forall_mem_cons.mpr ⟨chars.1, ih chars.2 read⟩
    | some body =>
      rw [piecesFrom] at eq
      split at eq
      · obtain ⟨target, named, eq⟩ := Option.bind_eq_some_iff.mp eq
        obtain ⟨later, read, same⟩ := Option.bind_eq_some_iff.mp eq
        cases same
        exact List.forall_mem_cons.mpr ⟨isXmlChar_of_referenced? named, ih chars.2 read⟩
      · exact ih chars.2 eq

/-- Character data that is made of pieces for such characters stands for such characters. -/
lemma isXmlChar_joinText {pieces : List Piece} (chars : ∀ p ∈ pieces, isXmlChar p.char = true)
    (afterReference : Bool) : ∀ c ∈ joinText afterReference pieces, isXmlChar c = true := by
  fun_induction joinText afterReference pieces with
  | case1 => exact List.forall_mem_nil _
  | case2 afterReference c rest ih =>
    rw [List.forall_mem_cons] at chars
    exact List.forall_mem_cons.mpr ⟨chars.1, ih chars.2⟩
  | case3 afterReference =>
    rw [List.forall_mem_singleton]
    split <;> decide
  | case4 afterReference rest ih =>
    rw [List.forall_mem_cons, List.forall_mem_cons] at chars
    exact List.forall_mem_cons.mpr ⟨by decide, ih chars.2.2⟩
  | case5 afterReference c rest other ih =>
    rw [List.forall_mem_cons] at chars
    exact List.forall_mem_cons.mpr ⟨by decide, ih chars.2⟩
  | case6 afterReference c rest alone lineFeed other ih =>
    rw [List.forall_mem_cons] at chars
    exact List.forall_mem_cons.mpr ⟨chars.1, ih chars.2⟩

/-- An attribute value that is made of pieces for such characters stands for such characters. -/
lemma isXmlChar_joinValue {pieces : List Piece} (chars : ∀ p ∈ pieces, isXmlChar p.char = true) :
    ∀ c ∈ joinValue pieces, isXmlChar c = true := by
  fun_induction joinValue pieces with
  | case1 => exact List.forall_mem_nil _
  | case2 c rest ih =>
    rw [List.forall_mem_cons] at chars
    exact List.forall_mem_cons.mpr ⟨chars.1, ih chars.2⟩
  | case3 rest ih =>
    rw [List.forall_mem_cons, List.forall_mem_cons] at chars
    exact List.forall_mem_cons.mpr ⟨by decide, ih chars.2.2⟩
  | case4 c rest other ih =>
    rw [List.forall_mem_cons] at chars
    refine List.forall_mem_cons.mpr ⟨?_, ih chars.2⟩
    split
    · decide
    · exact chars.1

section

variable {raw cs : List Char}

/-- Character data stands for characters that may stand in a document. -/
lemma isXmlChar_of_resolveText? (chars : ∀ c ∈ raw, isXmlChar c = true)
    (eq : resolveText? raw = some cs) : ∀ c ∈ cs, isXmlChar c = true := by
  obtain ⟨pieces, read, rfl⟩ := Option.map_eq_some_iff.mp eq
  exact isXmlChar_joinText (isXmlChar_of_piecesFrom chars read) false

/-- The characters of a section without references may stand in a document if the raw ones may. -/
lemma isXmlChar_resolveSection (chars : ∀ c ∈ raw, isXmlChar c = true) :
    ∀ c ∈ resolveSection raw, isXmlChar c = true :=
  isXmlChar_joinText (List.forall_mem_map.mpr chars) false

/-- An attribute value stands for characters that may stand in a document. -/
lemma isXmlChar_of_resolveValue? (chars : ∀ c ∈ raw, isXmlChar c = true)
    (eq : resolveValue? raw = some cs) : ∀ c ∈ cs, isXmlChar c = true := by
  obtain ⟨pieces, read, rfl⟩ := Option.map_eq_some_iff.mp eq
  exact isXmlChar_joinValue (isXmlChar_of_piecesFrom chars read)

end

end Netconf.Xml
