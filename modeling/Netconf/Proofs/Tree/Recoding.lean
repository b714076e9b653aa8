import Netconf.Proofs.Tree.RoundTrip
import Netconf.Proofs.Xml.Reading

/-!
# Writing nodes that were read

Whatever a document says, the node that is read from it has a written form, and comes back from it
unchanged (`recode`). What carries this is that a document fits the tree: of the elements that are
open at any point of it the names, namespaces, attributes and content are such that a document can
hold them without prefixes (`Progress.Fit`).
-/

namespace Netconf.Xml

/-! ## Namespaces -/

section

variable {scope declared : Scope} {q : List Char} {uri : String}

/-- All namespaces in scope are such that a document may declare them. -/
def Scope.Declarable (scope : Scope) : Prop :=
  ∀ d ∈ scope, IsDeclarable d.2

/-- The empty namespace can be declared. -/
lemma isDeclarable_empty : IsDeclarable "" := by
  decide

/-- A namespace that is found in a declarable scope can be declared. -/
lemma Scope.Declarable.of_find? (ok : scope.Declarable) (found : scope.find? q = some uri) :
    IsDeclarable uri := by
  obtain ⟨before, after, rfl, -⟩ := List.lookup_eq_some_iff.mp found
  exact ok (q, uri) (List.mem_append_right _ List.mem_cons_self)

/-- A scope stays declarable with a namespace that can be declared. -/
lemma Scope.Declarable.cons (here : IsDeclarable uri) (ok : scope.Declarable) :
    Scope.Declarable ((q, uri) :: scope) :=
  List.forall_mem_cons.mpr ⟨here, ok⟩

/-- Inside an element a scope is declarable if the one around it and the declarations are. -/
lemma Scope.Declarable.enter (outer : scope.Declarable) (inner : declared.Declarable) :
    (scope.enter declared).Declarable := by
  cases declared with
  | nil => exact outer
  | cons d declared =>
    intro e mem
    rcases List.mem_append.mp mem with mem | mem
    · exact inner e mem
    · exact outer e (List.mem_filter.mp mem).1

end

/-- The declarations of a tag are such that a document may make them, and its attributes have names
that declare nothing. -/
structure Parted.Fit (p : Parted) : Prop where
  declared : p.declared.Declarable
  attributes : ∀ a ∈ p.attributes, IsName a.1.base ∧ a.1.base ≠ xmlnsWord ∧ IsXmlText a.2

/-- An attribute that is taken in is an allowed declaration or no declaration. -/
lemma Parted.Fit.add? {p p' : Parted} {tag : TagName} {value : String} (fit : p.Fit)
    (legible : tag.Legible) (chars : IsXmlText value) (eq : p.add? tag value = some p') :
    p'.Fit := by
  rw [Parted.add?] at eq
  split at eq
  · split at eq
    · cases eq
    next ne_xmlns =>
    split at eq
    · obtain ⟨-, same⟩ := Option.ite_none_right_eq_some.mp eq
      cases same
      exact fit
    · obtain ⟨other, same⟩ := Option.ite_none_left_eq_some.mp eq
      cases same
      rw [not_or] at other
      exact ⟨fit.declared.cons ⟨chars, other.1, ne_xmlns⟩, fit.attributes⟩
  · split at eq
    · obtain ⟨other, eq⟩ := Option.ite_none_left_eq_some.mp eq
      rw [not_or] at other
      split at eq
      · cases eq
        exact fit
      · cases eq
        exact ⟨fit.declared.cons ⟨chars, other.1, other.2⟩, fit.attributes⟩
    · next base =>
      cases eq
      exact ⟨fit.declared, List.forall_mem_cons.mpr ⟨⟨legible.base, base, chars⟩, fit.attributes⟩⟩

/-- A property that every step keeps holds at the end. -/
lemma of_foldlM {α β : Type} {P : β → Prop} {f : β → α → Option β} {as : List α} {b b' : β}
    (step : ∀ a ∈ as, ∀ {b b'}, P b → f b a = some b' → P b') (start : P b)
    (eq : as.foldlM f b = some b') : P b' := by
  induction as generalizing b with
  | nil =>
    cases eq
    exact start
  | cons a as ih =>
    rw [List.forall_mem_cons] at step
    rw [List.foldlM_cons] at eq
    obtain ⟨next, first, later⟩ := Option.bind_eq_some_iff.mp eq
    exact ih step.2 (step.1 start first) later

/-- What comes out of a list comes from one of its members. -/
lemma of_mapM {α β : Type} {f : α → Option β} {as : List α} {bs : List β}
    (eq : as.mapM f = some bs) : ∀ b ∈ bs, ∃ a ∈ as, f a = some b := by
  induction as generalizing bs with
  | nil =>
    cases eq
    exact List.forall_mem_nil _
  | cons a as ih =>
    rw [List.mapM_cons] at eq
    obtain ⟨b, first, eq⟩ := Option.bind_eq_some_iff.mp eq
    obtain ⟨bs', later, same⟩ := Option.bind_eq_some_iff.mp eq
    cases same
    refine List.forall_mem_cons.mpr ⟨⟨a, List.mem_cons_self, first⟩, fun b mem => ?_⟩
    obtain ⟨a', mem, eq⟩ := ih later b mem
    exact ⟨a', List.mem_cons_of_mem _ mem, eq⟩

section

variable {document : List Char}

/-- What the attributes in a start tag declare and name is such as a document may have. -/
lemma fit_of_ofRaw? (chars : ∀ c ∈ document, isXmlChar c = true) {as : List RawAttribute}
    {p : Parted} (out : ∀ a ∈ as, a.OutOf document) (eq : Parted.ofRaw? as = some p) : p.Fit := by
  have none : Parted.Fit ⟨[], []⟩ := ⟨List.forall_mem_nil _, List.forall_mem_nil _⟩
  refine of_foldlM ?_ none eq
  intro a mem p p' fit added
  obtain ⟨legible, sub⟩ := out a mem
  obtain ⟨value, resolved, added⟩ := Option.bind_eq_some_iff.mp added
  refine fit.add? legible ?_ added
  rw [IsXmlText, String.toList_ofList]
  exact isXmlChar_of_resolveValue? (fun c mem => chars c (sub mem)) resolved

/-! ## Elements -/

open Node (attributeOf nameOf)

/-- A document can hold an element with the name and the attributes. -/
structure Fits (name : ExpandedName) (attributes : List ExpandedAttribute) : Prop where
  isName : IsName name.localName.toList
  declarable : IsDeclarable (name.uri.getD "")
  writable : ∀ a ∈ attributes, (attributeOf a).IsWritable

/-- A document can hold the content. -/
inductive Content.Fit : Content → Prop where
  | element {name attributes content} :
    Fits name attributes →
    (∀ c ∈ content, Fit c) →
    Fit (.element name attributes content)
  | text {value} :
    IsXmlText value →
    Fit (.text value)

/-- A document can hold the element. -/
def Element.Fit (e : Element) : Prop :=
  Fits e.name e.attributes ∧ ∀ c ∈ e.content, c.Fit

/-- A document can hold the element as far as it was read. -/
structure OpenElement.Fit (o : OpenElement) : Prop where
  scope : o.scope.Declarable
  head : Fits o.name o.attributes
  content : ∀ c ∈ o.content, c.Fit

/-- An element that is at its end fits if it did while it was open. -/
lemma OpenElement.Fit.finish {o : OpenElement} (fit : o.Fit) : o.finish.Fit :=
  ⟨fit.head, fun c mem => fit.content c (List.mem_reverse.mp mem)⟩

/-- An open element that fits does so with content that fits. -/
lemma OpenElement.Fit.add {o : OpenElement} {c : Content} (fit : o.Fit) (ok : c.Fit) :
    (o.add c).Fit :=
  ⟨fit.scope, fit.head, List.forall_mem_cons.mpr ⟨ok, fit.content⟩⟩

/-- An element has the namespace of its prefix, which is never one of the two reserved ones. -/
lemma of_elementName? {scope : Scope} {tag : TagName} {name : ExpandedName}
    (ok : scope.Declarable) (legible : tag.Legible) (eq : scope.elementName? tag = some name) :
    IsName name.localName.toList ∧ IsDeclarable (name.uri.getD "") := by
  rw [Scope.elementName?] at eq
  split at eq
  · cases eq
    rw [String.toList_ofList]
    refine ⟨legible.base, ?_⟩
    change IsDeclarable ((scope.find? []).getD "")
    cases found : scope.find? [] with
    | none => exact isDeclarable_empty
    | some uri => exact ok.of_find? found
  · obtain ⟨-, eq⟩ := Option.ite_none_left_eq_some.mp eq
    obtain ⟨uri, found, rfl⟩ := Option.map_eq_some_iff.mp eq
    rw [String.toList_ofList]
    exact ⟨legible.base, ok.of_find? found⟩

/-- An attribute is in no namespace, in that of `xml`, or in one that was declared. -/
lemma of_attributeName? {scope : Scope} {tag : TagName} {name : ExpandedName}
    (ok : scope.Declarable) (eq : scope.attributeName? tag = some name) :
    name.localName = .ofList tag.base ∧ IsXmlText (name.uri.getD "") ∧
      name.uri.getD "" ≠ xmlnsUri := by
  rw [Scope.attributeName?] at eq
  split at eq
  · cases eq
    exact ⟨rfl, isDeclarable_empty.chars, isDeclarable_empty.ne_xmlns⟩
  split at eq
  · cases eq
    exact ⟨rfl, show IsXmlText xmlUri by decide, show xmlUri ≠ xmlnsUri by decide⟩
  · obtain ⟨uri, found, rfl⟩ := Option.map_eq_some_iff.mp eq
    have declared := ok.of_find? found
    exact ⟨rfl, declared.chars, declared.ne_xmlns⟩

/-- Attributes that are expanded in a declarable scope can be written. -/
lemma isWritable_of_expand? {scope : Scope} {attributes : List (TagName × String)}
    {as : List ExpandedAttribute} (ok : scope.Declarable)
    (each : ∀ a ∈ attributes, IsName a.1.base ∧ a.1.base ≠ xmlnsWord ∧ IsXmlText a.2)
    (eq : scope.expand? attributes = some as) : ∀ a ∈ as, (attributeOf a).IsWritable := by
  obtain ⟨as', named, eq⟩ := Option.bind_eq_some_iff.mp eq
  obtain ⟨-, same⟩ := Option.ite_none_right_eq_some.mp eq
  cases same
  intro a mem
  obtain ⟨⟨tag, value⟩, source, eq⟩ := of_mapM named a mem
  obtain ⟨name, expanded, rfl⟩ := Option.map_eq_some_iff.mp eq
  obtain ⟨isName, ne_xmlns, chars⟩ := each _ source
  obtain ⟨base, uri, uri_ne⟩ := of_attributeName? ok expanded
  have spelled : name.localName.toList = tag.base := by rw [base, String.toList_ofList]
  refine ⟨?_, ?_, uri, uri_ne, chars⟩
  · change IsName name.localName.toList
    rwa [spelled]
  · intro same
    exact ne_xmlns (spelled.symm.trans (congrArg String.toList same))

/-- A start tag of a document opens an element that fits. -/
lemma fit_of_ofTag? (chars : ∀ c ∈ document, isXmlChar c = true) {scope : Scope} {tag : TagName}
    {as : List RawAttribute} {closed : Bool} {o : OpenElement} (ok : scope.Declarable)
    (out : (Token.start tag as closed).OutOf document)
    (eq : OpenElement.ofTag? scope tag as = some o) : o.Fit := by
  obtain ⟨legible, each⟩ := out
  obtain ⟨parted, raw, eq⟩ := Option.bind_eq_some_iff.mp eq
  obtain ⟨name, named, eq⟩ := Option.bind_eq_some_iff.mp eq
  obtain ⟨attributes, expanded, same⟩ := Option.bind_eq_some_iff.mp eq
  cases same
  have fit := fit_of_ofRaw? chars each raw
  have inner := ok.enter fit.declared
  obtain ⟨isName, uri⟩ := of_elementName? inner legible named
  have writable := isWritable_of_expand? inner
    (fun a mem => fit.attributes a (List.mem_reverse.mp mem)) expanded
  exact ⟨inner, ⟨isName, uri, writable⟩, List.forall_mem_nil _⟩

/-! ## Documents -/

/-- A document can hold all that was read. -/
inductive Progress.Fit : Progress → Prop where
  | before :
    Fit .before
  | inside {inner outer} :
    inner.Fit →
    (∀ o ∈ outer, o.Fit) →
    Fit (.inside inner outer)
  | after {root} :
    root.Fit →
    Fit (.after root)

/-- An element that closes fits into those around it. -/
lemma Progress.Fit.close {e : Element} {outer : List OpenElement} (fit : e.Fit)
    (around : ∀ o ∈ outer, OpenElement.Fit o) : (Progress.close e outer).Fit := by
  cases outer with
  | nil => exact .after fit
  | cons o outer =>
    rw [List.forall_mem_cons] at around
    exact .inside (around.1.add (.element fit.1 fit.2)) around.2

/-- After a start tag its element is open or already part of the one around it. -/
lemma Progress.Fit.opened {o : OpenElement} {outer : List OpenElement} (fit : o.Fit)
    (around : ∀ o ∈ outer, OpenElement.Fit o) (closed : Bool) :
    (if closed then Progress.close o.finish outer else .inside o outer).Fit := by
  cases closed with
  | false => exact .inside fit around
  | true => exact .close fit.finish around

/-- A token keeps what was read such that a document can hold it. -/
lemma Progress.Fit.step (chars : ∀ c ∈ document, isXmlChar c = true) {p p' : Progress} {t : Token}
    (fit : p.Fit) (out : t.OutOf document) (eq : p.step t = some p') : p'.Fit := by
  -- One case for each token that may stand at this point.
  unfold Progress.step at eq
  split at eq
  · cases eq
    exact fit
  · next tag as closed =>
    obtain ⟨o, opened, same⟩ := Option.bind_eq_some_iff.mp eq
    cases same
    have ok := fit_of_ofTag? chars (List.forall_mem_nil _) out opened
    exact .opened ok (List.forall_mem_nil _) closed
  · next inner outer tag as closed =>
    obtain ⟨o, opened, same⟩ := Option.bind_eq_some_iff.mp eq
    cases same
    cases fit with
    | inside here around =>
      have ok := fit_of_ofTag? chars here.scope out opened
      exact .opened ok (List.forall_mem_cons.mpr ⟨here, around⟩) closed
  · obtain ⟨-, same⟩ := Option.ite_none_right_eq_some.mp eq
    cases same
    cases fit with
    | inside here around => exact .close here.finish around
  · obtain ⟨cs, resolved, rfl⟩ := Option.map_eq_some_iff.mp eq
    cases fit with
    | inside here around =>
      refine .inside (here.add (.text ?_)) around
      rw [IsXmlText, String.toList_ofList]
      exact isXmlChar_of_resolveText? (fun c mem => chars c (out mem)) resolved
  · cases eq
    cases fit with
    | inside here around =>
      refine .inside (here.add (.text ?_)) around
      rw [IsXmlText, String.toList_ofList]
      exact isXmlChar_resolveSection fun c mem => chars c (out mem)
  · obtain ⟨-, same⟩ := Option.ite_none_right_eq_some.mp eq
    cases same
    exact .before
  · obtain ⟨-, same⟩ := Option.ite_none_right_eq_some.mp eq
    cases same
    exact fit
  · cases eq

/-- The root element of a document fits. -/
lemma fit_of_ofDocument? {e : Element} (eq : Element.ofDocument? document = some e) : e.Fit := by
  obtain ⟨ts, read, eq⟩ := Option.bind_eq_some_iff.mp eq
  obtain ⟨chars, out⟩ := of_tokens? read
  rw [Element.ofTokens?] at eq
  split at eq
  · next root followed =>
    cases eq
    have fit : Progress.Fit (.after e) :=
      of_foldlM (fun t mem _ _ fit eq => fit.step chars (out t mem) eq) .before followed
    cases fit with
    | after fit => exact fit
  · cases eq

end

end Netconf.Xml

/-! ## Nodes -/

namespace Netconf.Node

open Xml

section

variable {name : ExpandedName} {attributes : List ExpandedAttribute} {content : List Content}
  {n : Node} {ns : List Node}

/-- The text in content that fits is of characters that a document can hold. -/
lemma isXmlText_contentText (fit : ∀ c ∈ content, c.Fit) : IsXmlText (contentText content) := by
  intro c mem
  rw [contentText, String.toList_join, List.mem_flatMap] at mem
  obtain ⟨text, mem, inside⟩ := mem
  obtain ⟨piece, mem, eq⟩ := List.mem_filterMap.mp mem
  cases fit piece mem with
  | element head below => cases eq
  | text ok =>
    cases eq
    exact ok c inside

/-- A result does not come from an error that is told otherwise. -/
lemma of_mapError {ε ε' α : Type} {x : Except ε α} {f : ε → ε'} {a : α}
    (eq : x.mapError f = .ok a) : x = .ok a := by
  cases x with
  | error e => cases eq
  | ok b =>
    cases eq
    rfl

/-- Two steps with a result have one each. -/
lemma of_bind {ε α β : Type} {x : Except ε α} {f : α → Except ε β} {b : β}
    (eq : x >>= f = .ok b) : ∃ a, x = .ok a ∧ f a = .ok b := by
  cases x with
  | error e => cases eq
  | ok a => exact ⟨a, rfl, eq⟩

/-- An element that fits and is put together of nodes that can be written can be written. -/
lemma kept_of_assemble {text : String} (head : Fits name attributes) (chars : IsXmlText text)
    (below : ∀ n ∈ ns, n.Everywhere Kept) (eq : assemble name attributes text ns = .ok n) :
    n.Everywhere Kept := by
  -- Beside child elements an element has white space only, and that is dropped.
  have built : ∃ text', IsXmlText text' ∧
      build (nameOf name) (attributes.map attributeOf) text' ns = .ok n := by
    rw [assemble] at eq
    split at eq
    · next none =>
      obtain rfl := List.isEmpty_iff.mp none
      exact ⟨text, chars, of_mapError eq⟩
    split at eq
    · exact ⟨"", List.forall_mem_nil _, of_mapError eq⟩
    · cases eq
  obtain ⟨text', chars, built⟩ := built
  exact kept_of_build built head.isName head.declarable (List.forall_mem_map.mpr head.writable)
    chars below

/-- The nodes in content that fits can be written. -/
lemma kept_of_ofContent? (fit : ∀ c ∈ content, c.Fit) (eq : ofContent? content = .ok ns) :
    ∀ n ∈ ns, n.Everywhere Kept := by
  fun_induction ofContent? content generalizing ns with
  | case1 =>
    cases eq
    exact List.forall_mem_nil _
  | case2 value rest ih =>
    rw [List.forall_mem_cons] at fit
    exact ih fit.2 eq
  | case3 name attributes content rest inner later =>
    rw [List.forall_mem_cons] at fit
    obtain ⟨children, read, eq⟩ := of_bind eq
    obtain ⟨n, made, eq⟩ := of_bind eq
    obtain ⟨ns', others, same⟩ := of_bind eq
    cases same
    cases fit.1 with
    | element head below =>
      have here := kept_of_assemble head (isXmlText_contentText below) (inner below read) made
      exact List.forall_mem_cons.mpr ⟨here, later fit.2 others⟩

/-- The node of an element that fits can be written. -/
lemma kept_of_ofElement? {e : Element} (fit : e.Fit) (eq : ofElement? e = .ok n) :
    n.Everywhere Kept := by
  obtain ⟨children, read, made⟩ := of_bind eq
  exact kept_of_assemble fit.1 (isXmlText_contentText fit.2) (kept_of_ofContent? fit.2 read) made

/-- A node that was read can be written. -/
lemma kept_of_decode? {payload : Bytes} (eq : decode? payload = .ok n) : n.Everywhere Kept := by
  rw [decode?] at eq
  split at eq
  · next document decoded =>
    rw [parseChars?] at eq
    split at eq
    · next e read => exact kept_of_ofElement? (fit_of_ofDocument? read) eq
    · cases eq
  · cases eq

/-- Whatever payload a node was read from, writing the node and reading it again gives the same
node. -/
theorem recode {payload : Bytes} (eq : decode? payload = .ok n) :
    ∃ m, decode? n.encode = .ok m ∧ m = n ∧ (m == n) = true :=
  ⟨n, decode?_of_kept (kept_of_decode? eq), rfl, same_refl n⟩

/-- A document with prefixes, a default namespace that ends inside, references, a section without
references, a comment, and white space beside child elements. -/
def received : String :=
  "<p:a xmlns:p='urn:x' xmlns='urn:y' p:k='1&#9;2\n'><!-- --><b>&lt;<![CDATA[]>&]]></b> " ++
    "<c xmlns='' xml:lang='en'/></p:a>"

/-- The node that is read from it. -/
def receivedNode : Node :=
  .container ⟨"urn:x", "a"⟩ [⟨⟨"urn:x", "k"⟩, "1\t2 "⟩]
    [.leaf ⟨"urn:y", "b"⟩ [] (some "<]>&"), .leaf ⟨"", "c"⟩ [⟨⟨xmlUri, "lang"⟩, "en"⟩] none]

/-- The example document gives the node, which is written and read as itself. -/
theorem recode_received :
    decode? (Utf8.encode received) = .ok receivedNode ∧
      ∃ m, decode? receivedNode.encode = .ok m ∧ m = receivedNode ∧ (m == receivedNode) = true := by
  have tokens : tokens? received.toList = some
      [.start ⟨['p'], ['a']⟩ [⟨⟨xmlnsWord, ['p']⟩, ['u', 'r', 'n', ':', 'x']⟩,
          ⟨⟨[], xmlnsWord⟩, ['u', 'r', 'n', ':', 'y']⟩,
          ⟨⟨['p'], ['k']⟩, ['1', '&', '#', '9', ';', '2', '\n']⟩] false,
        .aside, .start ⟨[], ['b']⟩ [] false, .text ['&', 'l', 't', ';'], .cdata [']', '>', '&'],
        .stop ⟨[], ['b']⟩, .text [' '],
        .start ⟨[], ['c']⟩ [⟨⟨[], xmlnsWord⟩, []⟩, ⟨⟨xmlWord, ['l', 'a', 'n', 'g']⟩, ['e', 'n']⟩]
          true,
        .stop ⟨['p'], ['a']⟩] := by
    decide +kernel
  have root : Element.ofDocument? received.toList = some
      ⟨⟨some "urn:x", "a"⟩, [⟨⟨some "urn:x", "k"⟩, "1\t2 "⟩],
        [.element ⟨some "urn:y", "b"⟩ [] [.text "<", .text "]>&"], .text " ",
          .element ⟨some "", "c"⟩ [⟨⟨some xmlUri, "lang"⟩, "en"⟩] []]⟩ := by
    rw [Element.ofDocument?, tokens]
    rfl
  have eq : decode? (Utf8.encode received) = .ok receivedNode := by
    rw [decode?, Utf8.encode, Utf8.decodeChars_encodeChars]
    change parseChars? received.toList = _
    rw [parseChars?, root]
    change ofElement? _ = _
    rw [ofElement?]
    simp only [ofContent?]
    rfl
  exact ⟨eq, recode eq⟩

end

end Netconf.Node
