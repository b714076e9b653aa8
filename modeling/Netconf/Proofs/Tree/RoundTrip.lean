import Netconf.Proofs.Text.Utf8
import Netconf.Proofs.Tree.Tag

/-!
# Reading nodes that were written

A tree of shaped and writable nodes comes back from its written form (`decode?_encode`). Its tokens
are legible, and following them from any place of a document leads to the end of an element that is
the node (`followed`), whatever namespaces are in scope there.
-/

namespace Netconf.Node

open Xml

/-- The node can be built from its parts, and a document can hold it. -/
def Kept (n : Node) : Prop :=
  n.IsShaped ∧ n.IsWritable

/-- A node that was built of parts that a document can hold is kept. -/
lemma kept_of_build {name : QName} {attributes : List Attribute} {text : String}
    {children : List Node} {n : Node} (eq : build name attributes text children = .ok n)
    (isName : IsName name.localName.toList) (uri : IsDeclarable name.uri)
    (writable : ∀ a ∈ attributes, a.IsWritable) (chars : IsXmlText text)
    (below : ∀ child ∈ children, child.Everywhere Kept) : n.Everywhere Kept := by
  obtain ⟨rfl, rfl, texts, rfl, shaped⟩ := of_build eq
  exact .intro ⟨shaped, isName, uri, writable, fun t mem => texts t mem ▸ chars⟩ below

section

variable {inherited : String} {name : QName} {attributes : List Attribute} {n : Node}
  {ns : List Node} {rest : List Token}

/-! ## Tokens -/

/-- Nodes in a row have tokens that are read back if those of each node are. -/
lemma legible_tokensAllOnto
    (each : ∀ n ∈ ns, ∀ {inherited rest}, Legible rest → Legible (tokensOnto inherited n rest))
    (le : Legible rest) : Legible (tokensAllOnto inherited ns rest) := by
  induction ns with
  | nil => exact le
  | cons n ns ih =>
    rw [List.forall_mem_cons] at each
    rw [tokensAllOnto]
    exact each.1 (ih each.2)

/-- The tokens of a node that a document can hold are read back, whatever follows. -/
lemma legible_tokensOnto (kept : n.Everywhere Kept) :
    ∀ {inherited rest}, Legible rest → Legible (tokensOnto inherited n rest) := by
  -- Trees are written from their end, so what follows the node is there before its own tokens.
  induction kept with
  | @intro n here _ ih =>
    intro inherited rest le
    obtain ⟨shaped, writable⟩ := here
    have tag := legible_bareTag writable.name
    have attributes : ∀ r ∈ tagAttributes inherited n.name n.attributes, r.Legible :=
      legible_tagAttributes writable.uri writable.attributes
    cases n with
    | leaf name _ text =>
      cases text with
      | none => exact .start tag attributes le
      | some text =>
        have nonempty : text.toList ≠ [] := by
          rw [Ne, String.toList_eq_nil_iff]
          rintro rfl
          exact shaped.text rfl
        have chars := isXmlChar_escapeText (writable.text text rfl)
        refine .start tag attributes (.text (escapeText_ne_nil nonempty) chars ?_ ?_ (.stop tag le))
        · exact lt_notMem_escapeText _
        · exact find?_escapeText _
    | container name _ children =>
      exact .start tag attributes (legible_tokensAllOnto ih (.stop tag le))

/-- A document that consists of the tokens of a node is read as these. -/
lemma tokens?_renderChars (kept : n.Everywhere Kept) :
    tokens? n.renderChars = some (tokens "" n) := by
  have le : Legible (tokens "" n) := legible_tokensOnto kept .nil
  have first : ∃ tag as closed rest, tokens "" n = .start tag as closed :: rest := by
    cases n with
    | leaf _ _ text => cases text <;> exact ⟨_, _, _, _, rfl⟩
    | container => exact ⟨_, _, _, _, rfl⟩
  obtain ⟨tag, as, closed, rest, eq⟩ := first
  rw [renderChars, eq]
  rw [eq] at le
  exact le.tokens?_render

end

/-! ## Elements -/

/-- An element can begin at this point of a document, in the scope and inside the elements given. -/
inductive Opens : Progress → Scope → List OpenElement → Prop where
  | before :
    Opens .before [] []
  | inside {inner outer} :
    Opens (.inside inner outer) inner.scope (inner :: outer)

/-- Where an element can begin, its start tag opens it, and closes it as well if it is an empty tag.
-/
lemma Opens.step {p : Progress} {scope : Scope} {outer : List OpenElement}
    (opens : Opens p scope outer) {tag : TagName} {as : List RawAttribute} {o : OpenElement}
    (eq : OpenElement.ofTag? scope tag as = some o) (closed : Bool) :
    p.step (.start tag as closed) =
      some (if closed then .close o.finish outer else .inside o outer) := by
  cases opens with
  | before => simp [Progress.step, eq]
  | inside => simp [Progress.step, eq]

/-- The element with several more pieces of content. -/
def addAll (o : OpenElement) (content : List Content) : OpenElement :=
  { o with content := content.reverse ++ o.content }

/-- The content is the nodes, one element after the other. -/
structure Holds (content : List Content) (ns : List Node) : Prop where
  nodes : ofContent? content = .ok ns
  text : contentText content = ""

/-- Following the tokens of the node from anywhere leads to the end of an element that is the
node. -/
def Followed (n : Node) : Prop :=
  ∀ {p : Progress} {scope : Scope} {outer : List OpenElement},
    Opens p scope outer →
    ∃ e, (tokens ((scope.find? []).getD "") n).foldlM Progress.step p = some (.close e outer) ∧
      ofElement? e = .ok n

section

variable {ns : List Node}

/-- No content is no nodes. -/
lemma Holds.nil : Holds [] [] :=
  ⟨by rw [ofContent?], rfl⟩

/-- The element of a node before content that is some nodes is the node before these. -/
lemma Holds.cons {e : Element} {n : Node} {content : List Content} (eq : ofElement? e = .ok n)
    (holds : Holds content ns) :
    Holds (.element e.name e.attributes e.content :: content) (n :: ns) where
  nodes := by
    rw [ofElement?] at eq
    rw [ofContent?, holds.nodes]
    cases inner : ofContent? e.content with
    | error =>
      rw [inner] at eq
      cases eq
    | ok children =>
      rw [inner] at eq
      change assemble e.name e.attributes (contentText e.content) children = _ at eq
      simp only [bind, Except.bind, eq]
      rfl
  text := holds.text

/-- Following the tokens of several nodes inside an element adds them to its content. -/
lemma foldlM_tokensAll (each : ∀ n ∈ ns, n.Followed) (o : OpenElement) (outer : List OpenElement) :
    ∃ content, (tokensAll ((o.scope.find? []).getD "") ns).foldlM Progress.step (.inside o outer) =
        some (.inside (addAll o content) outer) ∧ Holds content ns := by
  induction ns generalizing o with
  | nil => exact ⟨[], rfl, .nil⟩
  | cons n ns ih =>
    rw [List.forall_mem_cons] at each
    -- The scope of the open element stays the same, so the next node is written as the first was.
    obtain ⟨e, now, eq⟩ := each.1 (@Opens.inside o outer)
    obtain ⟨content, later, holds⟩ := ih each.2 (o.add (.element e.name e.attributes e.content))
    refine ⟨.element e.name e.attributes e.content :: content, ?_, .cons eq holds⟩
    rw [tokensAll_cons, List.foldlM_append, now]
    refine later.trans ?_
    simp [addAll, OpenElement.add]

end

/-! ## Nodes -/

section

variable {name : QName} {attributes : List Attribute} {children : List Node} {e : Element}

/-- The element has the name and the attributes of a node. -/
structure Heads (e : Element) (name : QName) (attributes : List Attribute) : Prop where
  named : nameOf e.name = name
  same : e.attributes.map attributeOf = attributes
  distinct : (attributes.map (·.name)).Nodup

/-- An element with the head of a leaf and without child elements is the leaf with its text. -/
lemma Heads.ofElement?_leaf (heads : Heads e name attributes)
    (nodes : ofContent? e.content = .ok []) :
    ofElement? e = .ok (leaf name attributes (leafText (contentText e.content))) := by
  obtain ⟨rfl, rfl, distinct⟩ := heads
  rw [ofElement?, nodes]
  change Except.mapError PayloadError.shape
    (build (nameOf e.name) (e.attributes.map attributeOf) (contentText e.content) []) = _
  rw [build_leaf distinct]
  rfl

/-- An element with the head of a container and the nodes of its children is the container. -/
lemma Heads.ofElement?_container (heads : Heads e name attributes) (nonempty : children ≠ [])
    (holds : Holds e.content children) :
    ofElement? e = .ok (container name attributes children) := by
  obtain ⟨rfl, rfl, distinct⟩ := heads
  have more : children.isEmpty = false := by simp [nonempty]
  have blank : Text.trim "" = "" := by decide
  rw [ofElement?, holds.nodes]
  change assemble e.name e.attributes (contentText e.content) children = _
  rw [assemble, holds.text, more, if_neg Bool.false_ne_true, if_pos blank]
  change Except.mapError PayloadError.shape
    (build (nameOf e.name) (e.attributes.map attributeOf) "" children) = _
  rw [build_container distinct nonempty]
  rfl

/-- An escaped text inside an element adds the text to it. -/
lemma step_text (o : OpenElement) (outer : List OpenElement) (text : String) :
    Progress.step (.inside o outer) (.text (escapeText text.toList)) =
      some (.inside (o.add (.text text)) outer) := by
  rw [Progress.step, resolveText?_escapeText, Option.map_some, String.ofList_toList]

/-- The end tag of an open element closes it. -/
lemma step_stop {o : OpenElement} {tag : TagName} (same : o.tag = tag)
    (outer : List OpenElement) :
    Progress.step (.inside o outer) (.stop tag) = some (.close o.finish outer) := by
  rw [Progress.step, if_pos same.symm]

/-- The start tag of a node opens an element with its name and attributes. -/
lemma Opens.start {p : Progress} {scope : Scope} {outer : List OpenElement}
    (opens : Opens p scope outer) (uri : IsDeclarable name.uri)
    (writable : ∀ a ∈ attributes, a.IsWritable) (distinct : (attributes.map (·.name)).Nodup) :
    ∃ o, (∀ closed, p.step (.start (bareTag name.localName)
          (tagAttributes ((scope.find? []).getD "") name attributes) closed) =
        some (if closed then .close o.finish outer else .inside o outer)) ∧
      o.tag = bareTag name.localName ∧ (o.scope.find? []).getD "" = name.uri ∧ o.content = [] ∧
      ∀ content, Heads { o.finish with content } name attributes := by
  obtain ⟨o, opened, tag, inside, named, same, empty⟩ :=
    ofTag?_tagAttributes rfl uri writable distinct
  exact ⟨o, opens.step opened, tag, inside, empty, fun _ => ⟨named, same, distinct⟩⟩

/-- The tokens of a leaf lead to the end of an element that is the leaf. -/
lemma followed_leaf {text : Option String} (kept : (leaf name attributes text).Kept) :
    (leaf name attributes text).Followed := by
  intro p scope outer opens
  obtain ⟨shaped, writable⟩ := kept
  obtain ⟨o, start, tag, -, empty, heads⟩ :=
    @Opens.start name attributes p scope outer opens writable.uri writable.attributes
      shaped.distinct
  cases text with
  | none =>
    refine ⟨{ o.finish with content := [] }, ?_, (heads []).ofElement?_leaf (by rw [ofContent?])⟩
    simp only [tokens, tokensOnto, List.foldlM_cons, List.foldlM_nil, start, if_true,
      Option.bind_eq_bind, Option.bind_some, Option.pure_def, OpenElement.finish, empty,
      List.reverse_nil]
  | some text =>
    have nonempty : text ≠ "" := by
      rintro rfl
      exact shaped.text rfl
    have finished : (o.add (.text text)).finish = { o.finish with content := [.text text] } := by
      simp only [OpenElement.finish, OpenElement.add, empty, List.reverse_singleton]
    have stop := step_stop (o := o.add (.text text)) tag outer
    rw [finished] at stop
    have eq := (heads [.text text]).ofElement?_leaf (by rw [ofContent?, ofContent?])
    refine ⟨{ o.finish with content := [.text text] }, ?_, eq.trans ?_⟩
    · simp only [tokens, tokensOnto, List.foldlM_cons, List.foldlM_nil, start, Bool.false_eq_true,
        if_false, Option.bind_eq_bind, Option.bind_some, step_text, stop, Option.pure_def]
    · have one : contentText [.text text] = text := by simp [contentText, textOf?]
      rw [one, leafText, if_neg nonempty]

/-- The tokens of a container lead to the end of an element that is the container if those of its
children do. -/
lemma followed_container (kept : (container name attributes children).Kept)
    (each : ∀ n ∈ children, n.Followed) : (container name attributes children).Followed := by
  intro p scope outer opens
  obtain ⟨shaped, writable⟩ := kept
  obtain ⟨o, start, tag, inside, empty, heads⟩ :=
    @Opens.start name attributes p scope outer opens writable.uri writable.attributes
      shaped.distinct
  obtain ⟨content, filled, holds⟩ := foldlM_tokensAll each o outer
  have finished : (addAll o content).finish = { o.finish with content } := by
    simp only [OpenElement.finish, addAll, empty, List.append_nil, List.reverse_reverse]
  have stop := step_stop (o := addAll o content) tag outer
  rw [finished] at stop
  rw [inside] at filled
  refine ⟨{ o.finish with content }, ?_,
    (heads content).ofElement?_container (shaped.children rfl) holds⟩
  rw [tokens_container, List.foldlM_cons, start false]
  simp only [Bool.false_eq_true, if_false, Option.bind_eq_bind, Option.bind_some,
    List.foldlM_append, filled, List.foldlM_cons, List.foldlM_nil, stop, Option.pure_def]

end

/-- Following the tokens of a node from anywhere leads to the end of an element that is the node. -/
lemma followed {n : Node} (kept : n.Everywhere Kept) : n.Followed := by
  induction kept with
  | @intro n here _ ih =>
    cases n with
    | leaf name attributes text => exact followed_leaf here
    | container name attributes children => exact followed_container here ih

/-- The written form of a node is read as the node. -/
lemma parseChars?_renderChars {n : Node} (kept : n.Everywhere Kept) :
    parseChars? n.renderChars = .ok n := by
  obtain ⟨e, eq, back⟩ := followed kept .before
  have tokens : (tokens "" n).foldlM Progress.step .before = some (.after e) := eq
  rw [parseChars?, Element.ofDocument?, tokens?_renderChars kept, Option.bind_some,
    Element.ofTokens?, tokens]
  exact back

/-- A node that a document can hold, and that can be built, comes back from its bytes. -/
lemma decode?_of_kept {n : Node} (kept : n.Everywhere Kept) : decode? n.encode = .ok n := by
  rw [decode?, encode, Utf8.decodeChars_encodeChars]
  exact parseChars?_renderChars kept

/-- A node that was built from its parts and that a document can hold comes back from its written
form. -/
theorem decode?_encode {n : Node} (shaped : n.WellShaped) (writable : n.Writable) :
    ∃ m, decode? n.encode = .ok m ∧ m = n ∧ (m == n) = true :=
  ⟨n, decode?_of_kept (shaped.and writable), rfl, same_refl n⟩

/-- A tree that needs every means of writing: a prefix, the prefix `xml`, a default namespace that
ends inside, references in values and text, and white space that is all the text of a leaf. -/
def manifold : Node :=
  .container ⟨"urn:example:a", "top"⟩
    [⟨⟨"urn:example:b", "kind"⟩, "\x22<\t&\n>"⟩, ⟨⟨xmlUri, "lang"⟩, "en"⟩]
    [.leaf ⟨"", "note"⟩ [] (some "]]>\r\n"), .leaf ⟨"urn:example:a", "blank"⟩ [] (some "  ")]

/-- The manifold tree comes back from its bytes. -/
theorem decode?_encode_manifold :
    manifold.WellShaped ∧ manifold.Writable ∧
      ∃ m, decode? manifold.encode = .ok m ∧ m = manifold ∧ (m == manifold) = true := by
  have shaped : manifold.WellShaped := by
    refine .intro (by decide) (List.forall_mem_cons.mpr ⟨?_, List.forall_mem_singleton.mpr ?_⟩)
    · exact .leaf (by decide)
    · exact .leaf (by decide)
  have writable : manifold.Writable := by
    refine .intro (by decide) (List.forall_mem_cons.mpr ⟨?_, List.forall_mem_singleton.mpr ?_⟩)
    · exact .leaf (by decide)
    · exact .leaf (by decide)
  exact ⟨shaped, writable, decode?_encode shaped writable⟩

end Netconf.Node
