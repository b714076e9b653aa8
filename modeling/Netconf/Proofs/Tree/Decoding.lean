import Netconf.Error
import Netconf.Proofs.Text.Number
import Netconf.Proofs.Tree.Equivalence
import Netconf.Proofs.Xml.Elements

/-!
# Documents as nodes

A document stands for a node unless one of its elements is at fault (`Node.Fault`): it mixes child
elements with characters that are not blank, or two of its attributes come to have the same name.
The second happens only where a prefix is declared to stand for the empty namespace, since an
attribute in that is told apart from one in no namespace in documents and not in nodes. How a
document spells what it says makes no difference (`Node.decode?_reads`).
-/

namespace Netconf

/-- The first element that repeats one has it before it. -/
lemma of_repeatedAfter? {α : Type} [Ord α] [Std.TransOrd α] [Std.LawfulEqOrd α]
    {seen : Std.TreeSet α} {list : List α} {a : α} (eq : repeatedAfter? seen list = some a) :
    ∃ before after, list = before ++ a :: after ∧ (a ∈ seen ∨ a ∈ before) := by
  induction list generalizing seen with
  | nil => cases eq
  | cons b rest ih =>
    rw [repeatedAfter?] at eq
    split at eq
    · next mem =>
      cases eq
      exact ⟨[], rest, rfl, .inl (Std.TreeSet.contains_iff_mem.mp mem)⟩
    · obtain ⟨before, after, rfl, mem⟩ := ih eq
      refine ⟨b :: before, after, rfl, ?_⟩
      rw [Std.TreeSet.mem_insert, Std.LawfulEqCmp.compare_eq_iff_eq] at mem
      rw [List.mem_cons, or_left_comm, ← or_assoc, eq_comm]
      exact mem

/-- The element that is found to be repeated has itself before it. -/
lemma of_repeated? {α : Type} [Ord α] [Std.TransOrd α] [Std.LawfulEqOrd α] {list : List α} {a : α}
    (eq : repeated? list = some a) : ∃ before after, list = before ++ a :: after ∧ a ∈ before := by
  obtain ⟨before, after, split, mem⟩ := of_repeatedAfter? eq
  exact ⟨before, after, split, mem.resolve_left Std.TreeSet.not_mem_emptyc⟩

open Xml

namespace Xml

/-- The namespace and the local name, where having no namespace is having the empty one. -/
def ExpandedName.full (name : ExpandedName) : String × String :=
  (name.uri.getD "", name.localName)

/-- The characters of a piece of content that is text. -/
def Content.chars : Content → List Char
  | .text value => value.toList
  | .element .. => []

namespace Element

/-- The characters that stand directly in an element. -/
def chars (e : Element) : List Char :=
  e.content.flatMap Content.chars

/-- The element has a child element and, directly in it, a character that is not blank. -/
structure Mixed (e : Element) : Prop where
  children : e.children ≠ []
  solid : ∃ c ∈ e.chars, Text.isBlank c = false

/-- Of two attributes with the local name one is in no namespace and one in the empty one. -/
structure Clashes (e : Element) (localName : String) : Prop where
  bare : ⟨none, localName⟩ ∈ e.attributes.map (·.name)
  empty : ⟨some "", localName⟩ ∈ e.attributes.map (·.name)

/-- The character data of an element, where blank characters beside child elements do not count. -/
def data (e : Element) : List Char :=
  if e.children.isEmpty then e.chars else e.chars.filter (!Text.isBlank ·)

/-- The attributes by their names in full, with their values. -/
def assigned (e : Element) : List ((String × String) × String) :=
  e.attributes.map fun a => (a.name.full, a.value)

/-- The elements have the same name, the same attributes up to order, and the same character data,
and so have their children one by one. -/
inductive Agrees : Element → Element → Prop where
  | intro {e e' : Element} :
    e.name.full = e'.name.full →
    e.assigned.Perm e'.assigned →
    e.data = e'.data →
    List.Forall₂ Agrees e.children e'.children →
    Agrees e e'

variable {e e' : Element}

/-- An element is mixed if it has child elements and character data that counts beside them. -/
lemma mixed_iff : e.Mixed ↔ e.children ≠ [] ∧ e.data ≠ [] := by
  constructor
  · rintro ⟨children, c, mem, solid⟩
    refine ⟨children, ?_⟩
    rw [data, if_neg (by simpa using children)]
    refine List.ne_nil_of_mem (List.mem_filter.mpr ⟨mem, ?_⟩)
    rw [solid]
    rfl
  · rintro ⟨children, ne⟩
    rw [data, if_neg (by simpa using children)] at ne
    obtain ⟨c, mem⟩ := List.exists_mem_of_ne_nil _ ne
    obtain ⟨mem, solid⟩ := List.mem_filter.mp mem
    exact ⟨children, c, mem, by simpa using solid⟩

/-- An element that agrees with a mixed one is mixed. -/
lemma Agrees.mixed_iff (agrees : e.Agrees e') : e.Mixed ↔ e'.Mixed := by
  obtain ⟨-, -, data, children⟩ := agrees
  have bare : e.children = [] ↔ e'.children = [] := by
    rw [← List.length_eq_zero_iff, children.length_eq, List.length_eq_zero_iff]
  rw [Element.mixed_iff, Element.mixed_iff, data, Ne, Ne, bare]

/-- The root element of the document that the payload is. -/
def ofPayload? (payload : Bytes) : Option Element :=
  match Utf8.decodeChars payload with
  | .ok document => ofDocument? document
  | .error _ => none

end Element

end Xml

/-! ## Outcomes -/

/-- Both come to a result, and these are related, or both fail. -/
inductive Concurs {ε α β : Type} (R : α → β → Prop) : Except ε α → Except ε β → Prop where
  | ok {a b} :
    R a b →
    Concurs R (.ok a) (.ok b)
  | error {e e'} :
    Concurs R (.error e) (.error e')

namespace Concurs

variable {ε α β γ δ : Type} {R : α → β → Prop} {S : γ → δ → Prop}

/-- Steps that concur one after the other concur together. -/
lemma bind {x : Except ε α} {y : Except ε β} {f : α → Except ε γ} {g : β → Except ε δ}
    (first : Concurs R x y) (next : ∀ {a b}, R a b → Concurs S (f a) (g b)) :
    Concurs S (x >>= f) (y >>= g) := by
  cases first with
  | ok rel => exact next rel
  | error => exact .error

/-- Lists whose elements concur one by one concur. -/
lemma mapM {as : List α} {bs : List β} {f : α → Except ε γ} {g : β → Except ε δ}
    (each : List.Forall₂ (fun a b => Concurs S (f a) (g b)) as bs) :
    Concurs (List.Forall₂ S) (as.mapM f) (bs.mapM g) := by
  induction each with
  | nil => exact .ok .nil
  | cons here _ ih =>
    rw [List.mapM_cons, List.mapM_cons]
    exact here.bind fun rel => ih.bind fun later => .ok (.cons rel later)

end Concurs

/-- Going over a list fails with the error of one of its elements. -/
lemma exists_of_mapM_error {ε α β : Type} {f : α → Except ε β} {as : List α} {e : ε}
    (eq : as.mapM f = .error e) : ∃ a ∈ as, f a = .error e := by
  induction as with
  | nil => cases eq
  | cons a as ih =>
    rw [List.mapM_cons] at eq
    cases here : f a with
    | error e' =>
      rw [here] at eq
      cases eq
      exact ⟨a, List.mem_cons_self, here⟩
    | ok b =>
      rw [here] at eq
      cases later : as.mapM f with
      | error e' =>
        rw [later] at eq
        cases eq
        obtain ⟨a', mem, fails⟩ := ih later
        exact ⟨a', List.mem_cons_of_mem _ mem, fails⟩
      | ok bs =>
        rw [later] at eq
        cases eq

/-- Going over a list gives the results of its elements one by one. -/
lemma forall₂_of_mapM_ok {ε α β : Type} {f : α → Except ε β} {as : List α} {bs : List β}
    (eq : as.mapM f = .ok bs) : List.Forall₂ (fun a b => f a = .ok b) as bs := by
  induction as generalizing bs with
  | nil =>
    cases eq
    exact .nil
  | cons a as ih =>
    rw [List.mapM_cons] at eq
    obtain ⟨b, here, eq⟩ := Node.of_bind eq
    obtain ⟨bs', later, same⟩ := Node.of_bind eq
    cases same
    exact .cons here (ih later)

/-- Each element of a list that is gone over without an error has a result. -/
lemma exists_of_mapM_ok {ε α β : Type} {f : α → Except ε β} {as : List α} {bs : List β}
    (eq : as.mapM f = .ok bs) : ∀ a ∈ as, ∃ b, f a = .ok b :=
  ((List.forall₂_and_left _ _).mp ((forall₂_of_mapM_ok eq).imp fun _ b same => ⟨⟨b, same⟩, same⟩)).1

namespace Node

/-! ## Elements as nodes -/

/-- The text between the tags of an element is made of the characters in its content. -/
lemma toList_contentText (content : List Content) :
    (contentText content).toList = content.flatMap Content.chars := by
  rw [contentText, String.toList_join]
  induction content with
  | nil => rfl
  | cons c content ih =>
    cases c with
    | text value =>
      have first : textOf? (.text value) = some value := rfl
      rw [List.filterMap_cons_some first, List.flatMap_cons, List.flatMap_cons, ih]
      rfl
    | element name attributes inner =>
      have first : textOf? (.element name attributes inner) = none := rfl
      rw [List.filterMap_cons_none first, List.flatMap_cons, ih]
      rfl

/-- The nodes in the content of an element are those of its child elements. -/
lemma ofContent?_eq (content : List Content) :
    ofContent? content = (content.filterMap Content.element?).mapM ofElement? := by
  induction content with
  | nil =>
    rw [ofContent?]
    rfl
  | cons c content ih =>
    cases c with
    | text value =>
      rw [ofContent?, ih]
      rfl
    | element name attributes inner =>
      have first : (Content.element name attributes inner).element? =
          some ⟨name, attributes, inner⟩ := rfl
      rw [ofContent?, ih, List.filterMap_cons_some first, List.mapM_cons, ofElement?]
      simp only [bind_assoc]

/-- An element is put together of the nodes of its child elements. -/
lemma ofElement?_eq (e : Element) :
    ofElement? e =
      e.children.mapM ofElement? >>= assemble e.name e.attributes (contentText e.content) := by
  rw [ofElement?, ofContent?_eq]
  rfl

variable {e : Element} {ns : List Node} {err : PayloadError}

/-- A mixed element is refused with an error that tells its name. -/
lemma assemble_of_mixed (mixed : e.Mixed) (some : ns ≠ []) :
    assemble e.name e.attributes (contentText e.content) ns =
      .error (.mixedContent e.name.localName) := by
  obtain ⟨c, mem, solid⟩ := mixed.solid
  have ne : Text.trim (contentText e.content) ≠ "" := by
    rw [Ne, Text.trim_eq_empty_iff, Text.allBlank, toList_contentText, List.all_eq_true]
    intro blank
    exact Bool.false_ne_true (solid.symm.trans (blank c mem))
  rw [assemble, if_neg (by simpa using some), if_neg ne]

/-- An element that is not mixed is built with its text or with its children. -/
lemma assemble_of_not_mixed (pure : ¬e.Mixed) (same : ns = [] ↔ e.children = []) :
    assemble e.name e.attributes (contentText e.content) ns =
      (build (nameOf e.name) (e.attributes.map attributeOf)
        (if ns.isEmpty then contentText e.content else "") ns).mapError .shape := by
  rw [assemble]
  split
  · next none =>
    obtain rfl := List.isEmpty_iff.mp none
    rfl
  · next some =>
    have blank : Text.trim (contentText e.content) = "" := by
      rw [Text.trim_eq_empty_iff, Text.allBlank, toList_contentText, List.all_eq_true]
      intro c mem
      by_contra solid
      refine pure ⟨fun none => some ?_, c, mem, by simpa using solid⟩
      rw [same.mpr none]
      rfl
    rw [if_pos blank]
    rfl

/-- The node of an element that is not at fault, given the nodes of its children. -/
def nodeOf (e : Element) (ns : List Node) : Node :=
  if ns = [] then
    leaf (nameOf e.name) (e.attributes.map attributeOf) (leafText (contentText e.content))
  else
    container (nameOf e.name) (e.attributes.map attributeOf) ns

/-- An element that is not mixed and whose attributes have different names is put together. -/
lemma assemble_of_nodup (pure : ¬e.Mixed) (same : ns = [] ↔ e.children = [])
    (distinct : ((e.attributes.map attributeOf).map (·.name)).Nodup) :
    assemble e.name e.attributes (contentText e.content) ns = .ok (nodeOf e ns) := by
  rw [assemble_of_not_mixed pure same, nodeOf]
  by_cases none : ns = []
  · rw [if_pos none, none]
    change (build _ _ (contentText e.content) []).mapError _ = _
    rw [build_leaf distinct]
    rfl
  · rw [if_neg (by simpa using none), if_neg none, build_container distinct none]
    rfl

/-- An element that is not mixed and on which a name of attributes repeats is refused with an error
that tells the name. -/
lemma assemble_of_repeated? (pure : ¬e.Mixed) (same : ns = [] ↔ e.children = []) {again : QName}
    (once : repeated? ((e.attributes.map attributeOf).map (·.name)) = some again) :
    assemble e.name e.attributes (contentText e.content) ns =
      .error (.shape (.duplicateAttribute e.name.localName again.localName)) := by
  rw [assemble_of_not_mixed pure same]
  unfold build
  rw [once]
  rfl

/-! ## Names of attributes -/

/-- The names of the attributes are those in the document, as names of nodes have them. -/
lemma name_attributeOf (attributes : List ExpandedAttribute) :
    (attributes.map attributeOf).map (·.name) = (attributes.map (·.name)).map nameOf := by
  rw [List.map_map, List.map_map]
  rfl

/-- Two expanded names that come to the same name differ in that one is in no namespace and the
other in the empty one. -/
lemma clash_of_nameOf_eq {x y : ExpandedName} (ne : x ≠ y) (eq : nameOf x = nameOf y) :
    x.localName = y.localName ∧
      (x.uri = none ∧ y.uri = some "" ∨ x.uri = some "" ∧ y.uri = none) := by
  obtain ⟨uri, localName⟩ := x
  obtain ⟨uri', localName'⟩ := y
  simp only [nameOf, QName.mk.injEq] at eq
  obtain ⟨uris, rfl⟩ := eq
  refine ⟨rfl, ?_⟩
  cases uri <;> cases uri' <;> simp_all

/-- A name of attributes that repeats only on the node is one on which the element clashes. -/
lemma clashes_of_repeated? (distinct : (e.attributes.map (·.name)).Nodup) {again : QName}
    (eq : repeated? ((e.attributes.map attributeOf).map (·.name)) = some again) :
    e.Clashes again.localName := by
  rw [name_attributeOf] at eq
  obtain ⟨before, after, split, mem⟩ := of_repeated? eq
  obtain ⟨xs, rest, parted, rfl, tail⟩ := List.map_eq_append_iff.mp split
  obtain ⟨y, ys, rfl, rfl, -⟩ := List.map_eq_cons_iff.mp tail
  obtain ⟨x, here, same⟩ := List.mem_map.mp mem
  rw [parted] at distinct
  have ne : x ≠ y := by
    rintro rfl
    exact (List.nodup_append.mp distinct).2.2 _ here _ List.mem_cons_self rfl
  have mem_x : x ∈ e.attributes.map (·.name) := by
    rw [parted]
    exact List.mem_append_left _ here
  have mem_y : y ∈ e.attributes.map (·.name) := by
    rw [parted]
    exact List.mem_append_right _ List.mem_cons_self
  obtain ⟨uri, localName⟩ := x
  obtain ⟨uri', localName'⟩ := y
  obtain ⟨rfl, ⟨rfl, rfl⟩ | ⟨rfl, rfl⟩⟩ := clash_of_nameOf_eq ne same
  · exact ⟨mem_x, mem_y⟩
  · exact ⟨mem_y, mem_x⟩

/-- An element whose attributes have different names on the node does not clash. -/
lemma not_clashes_of_nodup (distinct : ((e.attributes.map attributeOf).map (·.name)).Nodup)
    (localName : String) : ¬e.Clashes localName := by
  rintro ⟨bare, empty⟩
  rw [name_attributeOf] at distinct
  have same := List.inj_on_of_nodup_map distinct bare empty rfl
  cases same

/-! ## Faults -/

/-- The element is at fault, and the error tells it. -/
inductive Fault (e : Element) : PayloadError → Prop where
  | mixed :
    e.Mixed →
    Fault e (.mixedContent e.name.localName)
  | clash {localName : String} :
    e.Clashes localName →
    Fault e (.shape (.duplicateAttribute e.name.localName localName))

/-- There are as many nodes as elements that were read, none just where there are none. -/
lemma eq_nil_iff_of_mapM {es : List Element} (read : es.mapM ofElement? = .ok ns) :
    ns = [] ↔ es = [] := by
  have same := (forall₂_of_mapM_ok read).length_eq
  rw [← List.length_eq_zero_iff, ← same, List.length_eq_zero_iff]

/-- An element whose attributes have different names in the document, on every level, is refused for
one in it that is at fault. -/
lemma fault_of_error (distinct : e.Every fun _ attributes => (attributes.map (·.name)).Nodup)
    (eq : ofElement? e = .error err) : ∃ inner, inner.Within e ∧ Fault inner err := by
  induction e using Element.induction generalizing err with
  | step e ih =>
    rw [ofElement?_eq] at eq
    cases read : e.children.mapM ofElement? with
    | error err' =>
      rw [read] at eq
      cases eq
      obtain ⟨child, mem, fails⟩ := exists_of_mapM_error read
      obtain ⟨inner, within, fault⟩ := ih child mem (distinct.child mem) fails
      exact ⟨inner, .inside mem within, fault⟩
    | ok ns =>
      rw [read] at eq
      change assemble e.name e.attributes (contentText e.content) ns = .error err at eq
      have same := eq_nil_iff_of_mapM read
      -- The children are all read, so it is the element itself that is refused.
      refine ⟨e, .here, ?_⟩
      by_cases mixed : e.Mixed
      · rw [assemble_of_mixed mixed (mt same.mp mixed.children)] at eq
        cases eq
        exact .mixed mixed
      cases once : repeated? ((e.attributes.map attributeOf).map (·.name)) with
      | some again =>
        rw [assemble_of_repeated? mixed same once] at eq
        cases eq
        exact .clash (clashes_of_repeated? (distinct e .here) once)
      | none =>
        rw [assemble_of_nodup mixed same (repeated?_eq_none_iff.mp once)] at eq
        cases eq

/-- In an element that is accepted none is at fault. -/
lemma not_fault_of_ok {n : Node} {inner : Element} (eq : ofElement? e = .ok n)
    (within : inner.Within e) : ¬Fault inner err := by
  induction within generalizing n with
  | here =>
    rw [ofElement?_eq] at eq
    obtain ⟨ns, read, made⟩ := of_bind eq
    have same := eq_nil_iff_of_mapM read
    intro fault
    by_cases mixed : inner.Mixed
    · rw [assemble_of_mixed mixed (mt same.mp mixed.children)] at made
      cases made
    cases fault with
    | mixed here => exact mixed here
    | clash here =>
      rw [assemble_of_not_mixed mixed same] at made
      obtain ⟨-, attributes, -, -, shaped⟩ := of_build (of_mapError made)
      refine not_clashes_of_nodup ?_ _ here
      rw [← attributes]
      exact shaped.distinct
  | inside mem _ ih =>
    rw [ofElement?_eq] at eq
    obtain ⟨ns, read, -⟩ := of_bind eq
    obtain ⟨m, made⟩ := exists_of_mapM_ok read _ mem
    exact ih made

/-! ## Documents that agree -/

variable {e' : Element} {ns' : List Node}

/-- Names that agree in full are the same name on a node. -/
lemma nameOf_eq_of_full {x y : ExpandedName} (eq : x.full = y.full) : nameOf x = nameOf y := by
  obtain ⟨uri, localName⟩ := Prod.mk.inj eq
  rw [nameOf, nameOf, uri, localName]

/-- Elements that agree have the same attributes on their nodes, up to order. -/
lemma perm_of_agrees (agrees : e.Agrees e') :
    (e.attributes.map attributeOf).Perm (e'.attributes.map attributeOf) := by
  obtain ⟨-, perm, -, -⟩ := agrees
  have made (e : Element) : e.attributes.map attributeOf =
      e.assigned.map fun a => Attribute.mk ⟨a.1.1, a.1.2⟩ a.2 := by
    rw [Element.assigned, List.map_map]
    rfl
  rw [made, made]
  exact perm.map _

/-- Elements without child elements and with the same character data have the same text. -/
lemma contentText_eq (none : e.children = []) (none' : e'.children = [])
    (data : e.data = e'.data) : contentText e.content = contentText e'.content := by
  rw [← String.toList_inj, toList_contentText, toList_contentText]
  rwa [Element.data, Element.data, none, none'] at data

/-- The nodes of elements that agree are equal if those of their child elements are equal one by
one. -/
lemma nodeOf_beq (agrees : e.Agrees e') (same : ns = [] ↔ e.children = [])
    (same' : ns' = [] ↔ e'.children = []) (below : List.Forall₂ (· == ·) ns ns') :
    (nodeOf e ns == nodeOf e' ns') = true := by
  have attributes := sameAttributes_of_perm (perm_of_agrees agrees)
  obtain ⟨name, -, data, -⟩ := agrees
  rw [nodeOf, nodeOf, nameOf_eq_of_full name]
  cases below with
  | nil =>
    rw [contentText_eq (same.mp rfl) (same'.mp rfl) data]
    exact beq_iff.mpr ⟨rfl, attributes, .text _⟩
  | cons first others => exact beq_iff.mpr ⟨rfl, attributes, .children (.cons first others)⟩

/-- Elements that agree are put together alike, of children that are equal one by one. -/
lemma concurs_assemble (agrees : e.Agrees e') (same : ns = [] ↔ e.children = [])
    (same' : ns' = [] ↔ e'.children = []) (below : List.Forall₂ (· == ·) ns ns') :
    Concurs (· == ·) (assemble e.name e.attributes (contentText e.content) ns)
      (assemble e'.name e'.attributes (contentText e'.content) ns') := by
  have mixing := agrees.mixed_iff
  by_cases mixed : e.Mixed
  · have mixed' := mixing.mp mixed
    rw [assemble_of_mixed mixed (mt same.mp mixed.children),
      assemble_of_mixed mixed' (mt same'.mp mixed'.children)]
    exact .error
  have pure' := mt mixing.mpr mixed
  have names := (perm_of_agrees agrees).map (·.name)
  cases once : repeated? ((e.attributes.map attributeOf).map (·.name)) with
  | none =>
    have distinct := repeated?_eq_none_iff.mp once
    rw [assemble_of_nodup mixed same distinct,
      assemble_of_nodup pure' same' (names.nodup_iff.mp distinct)]
    exact .ok (nodeOf_beq agrees same same' below)
  | some again =>
    cases once' : repeated? ((e'.attributes.map attributeOf).map (·.name)) with
    | none =>
      have distinct := names.nodup_iff.mpr (repeated?_eq_none_iff.mp once')
      rw [repeated?_eq_none_iff.mpr distinct] at once
      cases once
    | some again' =>
      rw [assemble_of_repeated? mixed same once, assemble_of_repeated? pure' same' once']
      exact .error

/-- Elements that agree are both refused, or give nodes that are equal. -/
lemma concurs_ofElement? (agrees : e.Agrees e') :
    Concurs (· == ·) (ofElement? e) (ofElement? e') := by
  induction e using Element.induction generalizing e' with
  | step e ih =>
    have children : List.Forall₂ Element.Agrees e.children e'.children := by
      cases agrees with
      | intro _ _ _ children => exact children
    have alike : ∀ c ∈ e.children, ∀ c' : Element, c.Agrees c' →
        Concurs (· == ·) (ofElement? c) (ofElement? c') :=
      fun c mem _ agrees => ih c mem agrees
    have each := (List.forall₂_and_left _ _).mpr ⟨alike, children⟩
    have below := Concurs.mapM (each.imp fun c c' both => both.1 c' both.2)
    rw [ofElement?_eq, ofElement?_eq]
    -- The children are all read on both sides, or on neither.
    cases read : e.children.mapM ofElement? <;> cases read' : e'.children.mapM ofElement? <;>
      rw [read, read'] at below <;> cases below
    · exact .error
    · next rel =>
      exact concurs_assemble agrees (eq_nil_iff_of_mapM read) (eq_nil_iff_of_mapM read') rel

/-! ## Payloads -/

variable {payload : Bytes} {root : Element}

/-- To a session the error is one of parsing. -/
def IsParse (err : PayloadError) : Prop :=
  ∃ reason, Error.ofPayload err = .payload reason

/-- The document, if the payload is one, declares no prefix to stand for the empty namespace. -/
def NamesPrefixes (payload : Bytes) : Prop :=
  ∀ {document ts}, Utf8.decodeChars payload = .ok document → tokens? document = some ts →
    ∀ t ∈ ts, t.NamesPrefixes

/-- A payload that is read holds the characters of a document. -/
lemma of_ofPayload? (read : Element.ofPayload? payload = some root) :
    ∃ document, Utf8.decodeChars payload = .ok document ∧
      Element.ofDocument? document = some root := by
  rw [Element.ofPayload?] at read
  split at read
  · next document decoded => exact ⟨document, decoded, read⟩
  · cases read

/-- A payload that is a document stands for the node of its root element. -/
lemma decode?_of_some (read : Element.ofPayload? payload = some root) :
    decode? payload = ofElement? root := by
  obtain ⟨document, decoded, read⟩ := of_ofPayload? read
  rw [decode?, decoded]
  change parseChars? document = _
  rw [parseChars?, read]

/-- A payload that is no document is refused with a parse error. -/
lemma decode?_of_none (read : Element.ofPayload? payload = none) :
    ∃ err, decode? payload = .error err ∧ IsParse err := by
  rw [Element.ofPayload?] at read
  cases decoded : Utf8.decodeChars payload with
  | ok document =>
    rw [decoded] at read
    change Element.ofDocument? document = none at read
    rw [decode?, decoded]
    change ∃ err, parseChars? document = .error err ∧ _
    rw [parseChars?, read]
    exact ⟨_, rfl, ⟨_, rfl⟩⟩
  | error defect =>
    rw [decode?, decoded]
    exact ⟨_, rfl, ⟨_, rfl⟩⟩

/-- In a document no element has two attributes of one name. -/
lemma nodup_of_ofPayload? (read : Element.ofPayload? payload = some root) :
    root.Every fun _ attributes => (attributes.map (·.name)).Nodup := by
  obtain ⟨document, -, read⟩ := of_ofPayload? read
  obtain ⟨ts, -, read⟩ := Option.bind_eq_some_iff.mp read
  exact nodup_of_ofTokens? read

/-- Where no prefix stands for the empty namespace, documents and nodes tell the same names of
attributes apart. -/
lemma not_clashes_of_namesPrefixes (names : NamesPrefixes payload)
    (read : Element.ofPayload? payload = some root) {inner : Element} (within : inner.Within root)
    (localName : String) : ¬inner.Clashes localName := by
  obtain ⟨document, decoded, read⟩ := of_ofPayload? read
  obtain ⟨ts, split, read⟩ := Option.bind_eq_some_iff.mp read
  rintro ⟨-, empty⟩
  obtain ⟨a, mem, eq⟩ := List.mem_map.mp empty
  exact uri_ne_of_ofTokens? (names decoded split) read inner within a mem (congrArg (·.uri) eq)

/-- A document is refused just for an element in it that is at fault. -/
lemma fails_iff (read : Element.ofPayload? payload = some root) :
    (∃ err, decode? payload = .error err) ↔ ∃ inner err, inner.Within root ∧ Fault inner err := by
  rw [decode?_of_some read]
  constructor
  · rintro ⟨err, eq⟩
    obtain ⟨inner, within, fault⟩ := fault_of_error (nodup_of_ofPayload? read) eq
    exact ⟨inner, err, within, fault⟩
  · rintro ⟨inner, err, within, fault⟩
    cases eq : ofElement? root with
    | error err' => exact ⟨err', rfl⟩
    | ok n => exact absurd fault (not_fault_of_ok eq within)

/-- What becomes of a payload. -/
structure Reads (payload : Bytes) : Prop where
  /-- What is no document is refused with a parse error. -/
  unread : Element.ofPayload? payload = none →
    ∃ err, decode? payload = .error err ∧ IsParse err
  /-- A document is refused just for an element that is at fault. -/
  fails_iff {root : Element} : Element.ofPayload? payload = some root →
    ((∃ err, decode? payload = .error err) ↔ ∃ inner err, inner.Within root ∧ Fault inner err)
  /-- The error tells of such an element. -/
  fault {root : Element} {err : PayloadError} :
    Element.ofPayload? payload = some root → decode? payload = .error err →
      ∃ inner, inner.Within root ∧ Fault inner err
  /-- All errors are parse errors if no prefix stands for the empty namespace. -/
  parse {err : PayloadError} : NamesPrefixes payload → decode? payload = .error err → IsParse err
  /-- Then a document is refused just for an element that is mixed. -/
  mixed_iff {root : Element} : NamesPrefixes payload → Element.ofPayload? payload = some root →
    ((∃ err, decode? payload = .error err) ↔ ∃ inner : Element, inner.Within root ∧ inner.Mixed)
  /-- Documents that agree are both refused, or give nodes that are equal. -/
  agrees {payload' : Bytes} {root root' : Element} : Element.ofPayload? payload = some root →
    Element.ofPayload? payload' = some root' → root.Agrees root' →
    Concurs (· == ·) (decode? payload) (decode? payload')

/-- A payload that is no document is refused with a parse error, and a document just for an element
that is mixed or whose attributes clash. Only the latter error is no parse error, and it takes a
prefix that is declared to stand for the empty namespace. Documents that agree give nodes that are
equal, however they are spelled. -/
theorem decode?_reads (payload : Bytes) : Reads payload where
  unread := decode?_of_none
  fails_iff := fails_iff
  fault read eq := by
    rw [decode?_of_some read] at eq
    exact fault_of_error (nodup_of_ofPayload? read) eq
  parse names eq := by
    cases read : Element.ofPayload? payload with
    | none =>
      obtain ⟨err, eq', parse⟩ := decode?_of_none read
      cases eq.symm.trans eq'
      exact parse
    | some root =>
      rw [decode?_of_some read] at eq
      obtain ⟨inner, within, fault⟩ := fault_of_error (nodup_of_ofPayload? read) eq
      cases fault with
      | mixed here => exact ⟨_, rfl⟩
      | clash here => exact absurd here (not_clashes_of_namesPrefixes names read within _)
  mixed_iff names read := by
    rw [fails_iff read]
    constructor
    · rintro ⟨inner, err, within, fault⟩
      cases fault with
      | mixed here => exact ⟨inner, within, here⟩
      | clash here => exact absurd here (not_clashes_of_namesPrefixes names read within _)
    · rintro ⟨inner, within, here⟩
      exact ⟨inner, _, within, .mixed here⟩
  agrees read read' agrees := by
    rw [decode?_of_some read, decode?_of_some read']
    exact concurs_ofElement? agrees

section

/-- A document without prefixes for elements. -/
def plain : String :=
  "<a xmlns='urn:x' xmlns:q='urn:y' k='1' q:l='2'><b>&lt;c]</b></a>"

/-- The same with other prefixes, and with indentation. -/
def indented : String :=
  "<p:a r:l='&#50;' xmlns:r='urn:y' k='1' xmlns:p='urn:x'>\n  <!-- -->\n" ++
    "  <b xmlns='urn:x'><![CDATA[<c]]>&#93;</b>\n</p:a>"

/-- A document with a prefix that stands for the empty namespace. -/
def emptied : String :=
  "<a xmlns:p='' p:k='1' k='2'/>"

/-- The bytes of a text are read as the document that the text is. -/
lemma ofPayload?_encode (s : String) :
    Element.ofPayload? (Utf8.encode s) = Element.ofDocument? s.toList := by
  rw [Element.ofPayload?, Utf8.encode, Utf8.decodeChars_encodeChars]

/-- The plain document and the indented one give equal nodes, and the one with a prefix for the
empty namespace is refused with an error that is none of parsing. -/
theorem decode?_reads_respelled :
    Concurs (· == ·) (decode? (Utf8.encode plain)) (decode? (Utf8.encode indented)) ∧
      decode? (Utf8.encode emptied) = .error (.shape (.duplicateAttribute "a" "k")) ∧
      ¬NamesPrefixes (Utf8.encode emptied) := by
  have read : Element.ofPayload? (Utf8.encode plain) = some
      ⟨⟨some "urn:x", "a"⟩, [⟨⟨none, "k"⟩, "1"⟩, ⟨⟨some "urn:y", "l"⟩, "2"⟩],
        [.element ⟨some "urn:x", "b"⟩ [] [.text "<c]"]]⟩ := by
    have tokens : tokens? plain.toList = some
        [.start ⟨[], ['a']⟩ [⟨⟨[], xmlnsWord⟩, ['u', 'r', 'n', ':', 'x']⟩,
            ⟨⟨xmlnsWord, ['q']⟩, ['u', 'r', 'n', ':', 'y']⟩, ⟨⟨[], ['k']⟩, ['1']⟩,
            ⟨⟨['q'], ['l']⟩, ['2']⟩] false,
          .start ⟨[], ['b']⟩ [] false, .text ['&', 'l', 't', ';', 'c', ']'],
          .stop ⟨[], ['b']⟩, .stop ⟨[], ['a']⟩] := by
      decide +kernel
    rw [ofPayload?_encode, Element.ofDocument?, tokens]
    rfl
  have read' : Element.ofPayload? (Utf8.encode indented) = some
      ⟨⟨some "urn:x", "a"⟩, [⟨⟨some "urn:y", "l"⟩, "2"⟩, ⟨⟨none, "k"⟩, "1"⟩],
        [.text "\n  ", .text "\n  ",
          .element ⟨some "urn:x", "b"⟩ [] [.text "<c", .text "]"], .text "\n"]⟩ := by
    have tokens : tokens? indented.toList = some
        [.start ⟨['p'], ['a']⟩ [⟨⟨['r'], ['l']⟩, ['&', '#', '5', '0', ';']⟩,
            ⟨⟨xmlnsWord, ['r']⟩, ['u', 'r', 'n', ':', 'y']⟩, ⟨⟨[], ['k']⟩, ['1']⟩,
            ⟨⟨xmlnsWord, ['p']⟩, ['u', 'r', 'n', ':', 'x']⟩] false,
          .text ['\n', ' ', ' '], .aside, .text ['\n', ' ', ' '],
          .start ⟨[], ['b']⟩ [⟨⟨[], xmlnsWord⟩, ['u', 'r', 'n', ':', 'x']⟩] false,
          .cdata ['<', 'c'], .text ['&', '#', '9', '3', ';'],
          .stop ⟨[], ['b']⟩, .text ['\n'], .stop ⟨['p'], ['a']⟩] := by
      decide +kernel
    rw [ofPayload?_encode, Element.ofDocument?, tokens]
    rfl
  have read'' : Element.ofPayload? (Utf8.encode emptied) = some
      ⟨⟨none, "a"⟩, [⟨⟨some "", "k"⟩, "1"⟩, ⟨⟨none, "k"⟩, "2"⟩], []⟩ := by
    have tokens : tokens? emptied.toList = some
        [.start ⟨[], ['a']⟩ [⟨⟨xmlnsWord, ['p']⟩, []⟩, ⟨⟨['p'], ['k']⟩, ['1']⟩,
          ⟨⟨[], ['k']⟩, ['2']⟩] true] := by
      decide +kernel
    rw [ofPayload?_encode, Element.ofDocument?, tokens]
    rfl
  have refused : decode? (Utf8.encode emptied) =
      .error (.shape (.duplicateAttribute "a" "k")) := by
    rw [decode?_of_some read'', ofElement?]
    simp only [ofContent?]
    rfl
  refine ⟨(decode?_reads _).agrees read read' ?_, refused, fun names => ?_⟩
  · refine .intro rfl (.swap _ _ _) (by decide +kernel) (.cons ?_ .nil)
    exact .intro rfl .nil (by decide +kernel) .nil
  · obtain ⟨reason, eq⟩ := (decode?_reads _).parse names refused
    cases eq

end

end Node

end Netconf
