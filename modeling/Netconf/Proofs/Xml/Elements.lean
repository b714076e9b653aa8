import Netconf.Proofs.Tree.Recoding

/-!
# The elements of a document

An element holds its children, theirs, and so on (`Element.Within`). What a start tag makes sure of
in the namespaces that are in scope holds of every element of a document (`every_of_ofTokens?`): no
two attributes have the same expanded name (`nodup_of_ofTokens?`), and none is in the empty
namespace, unless a prefix is declared to stand for that (`uri_ne_of_ofTokens?`).
-/

namespace Netconf.Xml

/-- The element that a piece of content is. -/
def Content.element? : Content → Option Element
  | .element name attributes content => some ⟨name, attributes, content⟩
  | .text _ => none

namespace Element

/-- The child elements in order. -/
def children (e : Element) : List Element :=
  e.content.filterMap Content.element?

/-- The element is another one or lies in it. -/
inductive Within : Element → Element → Prop where
  | here {e : Element} :
    Within e e
  | inside {inner child e : Element} :
    child ∈ e.children → Within inner child →
    Within inner e

/-- A child element is smaller than the element. -/
lemma sizeOf_lt_of_mem_children {child e : Element} (mem : child ∈ e.children) :
    sizeOf child < sizeOf e := by
  obtain ⟨c, mem, eq⟩ := List.mem_filterMap.mp mem
  have lt := List.sizeOf_lt_of_mem mem
  obtain ⟨name, attributes, content⟩ := e
  cases c with
  | text => cases eq
  | element =>
    cases eq
    simp only [Content.element.sizeOf_spec, mk.sizeOf_spec] at lt ⊢
    omega

/-- What holds of an element if it does of its children holds of all elements. -/
@[elab_as_elim]
theorem induction {P : Element → Prop} (step : ∀ e, (∀ child ∈ e.children, P child) → P e)
    (e : Element) : P e :=
  step e fun child _ => induction step child
termination_by sizeOf e
decreasing_by exact sizeOf_lt_of_mem_children ‹_›

/-- Names and attributes of all elements in an element have the property. -/
def Every (Q : ExpandedName → List ExpandedAttribute → Prop) (e : Element) : Prop :=
  ∀ inner : Element, inner.Within e → Q inner.name inner.attributes

variable {Q : ExpandedName → List ExpandedAttribute → Prop} {e : Element}

/-- A property holds in an element if it holds of its own name and attributes and in all children.
-/
lemma Every.of_children (here : Q e.name e.attributes) (below : ∀ c ∈ e.children, c.Every Q) :
    e.Every Q := by
  intro inner within
  cases within with
  | here => exact here
  | inside mem within => exact below _ mem inner within

/-- What holds in an element holds in its children. -/
lemma Every.child {child : Element} (ev : e.Every Q) (mem : child ∈ e.children) : child.Every Q :=
  fun inner within => ev inner (.inside mem within)

end Element

/-! ## Reading -/

section

variable {P : Scope → Prop} {Q : ExpandedName → List ExpandedAttribute → Prop}

/-- An element that is open has the property, and its scope and content are such that those in it
have it. -/
structure OpenElement.Every (P : Scope → Prop)
    (Q : ExpandedName → List ExpandedAttribute → Prop) (o : OpenElement) : Prop where
  scope : P o.scope
  head : Q o.name o.attributes
  content : ∀ e ∈ o.content.filterMap Content.element?, e.Every Q

/-- An element that is at its end has the property in it if it had while it was open. -/
lemma OpenElement.Every.finish {o : OpenElement} (ev : o.Every P Q) : o.finish.Every Q := by
  refine .of_children ev.head fun e mem => ev.content e ?_
  rw [Element.children, OpenElement.finish, List.filterMap_reverse] at mem
  exact List.mem_reverse.mp mem

/-- An open element keeps the property with a child element that has it. -/
lemma OpenElement.Every.addElement {o : OpenElement} {e : Element} (ev : o.Every P Q)
    (ok : e.Every Q) : (o.add (.element e.name e.attributes e.content)).Every P Q := by
  refine ⟨ev.scope, ev.head, ?_⟩
  have first : (Content.element e.name e.attributes e.content).element? = some e := rfl
  rw [OpenElement.add, List.filterMap_cons_some first]
  exact List.forall_mem_cons.mpr ⟨ok, ev.content⟩

/-- An open element keeps the property with any text. -/
lemma OpenElement.Every.addText {o : OpenElement} (ev : o.Every P Q) (value : String) :
    (o.add (.text value)).Every P Q :=
  ⟨ev.scope, ev.head, ev.content⟩

/-- All elements have the property that were read so far. -/
inductive Progress.Every (P : Scope → Prop)
    (Q : ExpandedName → List ExpandedAttribute → Prop) : Progress → Prop where
  | before :
    Every P Q .before
  | inside {inner outer} :
    inner.Every P Q →
    (∀ o ∈ outer, o.Every P Q) →
    Every P Q (.inside inner outer)
  | after {root} :
    root.Every Q →
    Every P Q (.after root)

/-- The end of an element that has the property keeps it for those around. -/
lemma Progress.Every.close {e : Element} {outer : List OpenElement} (ev : e.Every Q)
    (around : ∀ o ∈ outer, o.Every P Q) : (Progress.close e outer).Every P Q := by
  cases outer with
  | nil => exact .after ev
  | cons o outer =>
    rw [List.forall_mem_cons] at around
    exact .inside (around.1.addElement ev) around.2

/-- After a start tag its element, open or already at its end, has the property with those around
it. -/
lemma Progress.Every.opened {o : OpenElement} {outer : List OpenElement} (ev : o.Every P Q)
    (around : ∀ o ∈ outer, o.Every P Q) (closed : Bool) :
    (if closed then Progress.close o.finish outer else .inside o outer).Every P Q := by
  cases closed with
  | false => exact .inside ev around
  | true => exact .close ev.finish around

/-- The start tag makes sure of the property. -/
def Token.Ensures (P : Scope → Prop) (Q : ExpandedName → List ExpandedAttribute → Prop) :
    Token → Prop
  | .start tag attributes _ => ∀ {scope o}, P scope →
      OpenElement.ofTag? scope tag attributes = some o → P o.scope ∧ Q o.name o.attributes
  | _ => True

/-- A token that makes sure of the property keeps it. -/
lemma Progress.Every.step (start : P []) {p p' : Progress} {t : Token} (ev : p.Every P Q)
    (ensures : t.Ensures P Q) (eq : p.step t = some p') : p'.Every P Q := by
  have opens {scope : Scope} {tag : TagName} {as : List RawAttribute} (closed : Bool)
      {o : OpenElement} (ensures : (Token.start tag as closed).Ensures P Q) (ok : P scope)
      (eq : OpenElement.ofTag? scope tag as = some o) : o.Every P Q := by
    obtain ⟨inner, head⟩ := ensures ok eq
    obtain ⟨parted, -, eq⟩ := Option.bind_eq_some_iff.mp eq
    obtain ⟨name, -, eq⟩ := Option.bind_eq_some_iff.mp eq
    obtain ⟨attributes, -, same⟩ := Option.bind_eq_some_iff.mp eq
    cases same
    exact ⟨inner, head, List.forall_mem_nil _⟩
  -- One case for each token that may stand at this point.
  unfold Progress.step at eq
  split at eq
  · cases eq
    exact ev
  · next tag as closed =>
    obtain ⟨o, opened, same⟩ := Option.bind_eq_some_iff.mp eq
    cases same
    exact .opened (opens closed ensures start opened) (List.forall_mem_nil _) closed
  · next inner outer tag as closed =>
    obtain ⟨o, opened, same⟩ := Option.bind_eq_some_iff.mp eq
    cases same
    cases ev with
    | inside here around =>
      have ok := opens closed ensures here.scope opened
      exact .opened ok (List.forall_mem_cons.mpr ⟨here, around⟩) closed
  · obtain ⟨-, same⟩ := Option.ite_none_right_eq_some.mp eq
    cases same
    cases ev with
    | inside here around => exact .close here.finish around
  · obtain ⟨cs, -, rfl⟩ := Option.map_eq_some_iff.mp eq
    cases ev with
    | inside here around => exact .inside (here.addText _) around
  · cases eq
    cases ev with
    | inside here around => exact .inside (here.addText _) around
  · obtain ⟨-, same⟩ := Option.ite_none_right_eq_some.mp eq
    cases same
    exact .before
  · obtain ⟨-, same⟩ := Option.ite_none_right_eq_some.mp eq
    cases same
    exact ev
  · cases eq

/-- What all start tags of a document make sure of holds of all its elements. -/
lemma every_of_ofTokens? {ts : List Token} {root : Element} (start : P [])
    (ensures : ∀ t ∈ ts, t.Ensures P Q) (eq : Element.ofTokens? ts = some root) :
    root.Every Q := by
  rw [Element.ofTokens?] at eq
  split at eq
  · next root followed =>
    cases eq
    have ev : Progress.Every P Q (.after root) :=
      of_foldlM (fun t mem _ _ ev eq => ev.step start (ensures t mem) eq) .before followed
    cases ev with
    | after ev => exact ev
  · cases eq

end

/-! ## Names of attributes -/

variable {scope declared : Scope} {ts : List Token} {root : Element}

/-- Attributes that are expanded have different names. -/
lemma nodup_of_expand? {attributes : List (TagName × String)} {as : List ExpandedAttribute}
    (eq : scope.expand? attributes = some as) : (as.map (·.name)).Nodup := by
  obtain ⟨as', -, eq⟩ := Option.bind_eq_some_iff.mp eq
  obtain ⟨once, same⟩ := Option.ite_none_right_eq_some.mp eq
  cases same
  exact repeated?_eq_none_iff.mp (Option.isNone_iff_eq_none.mp once)

/-- No two attributes of an element have the same expanded name. -/
lemma nodup_of_ofTokens? (eq : Element.ofTokens? ts = some root) :
    root.Every fun _ attributes => (attributes.map (·.name)).Nodup := by
  refine every_of_ofTokens? (P := fun _ => True) trivial (fun t _ => ?_) eq
  cases t with
  | start tag as closed =>
    intro scope o _ eq
    obtain ⟨parted, -, eq⟩ := Option.bind_eq_some_iff.mp eq
    obtain ⟨name, -, eq⟩ := Option.bind_eq_some_iff.mp eq
    obtain ⟨attributes, expanded, same⟩ := Option.bind_eq_some_iff.mp eq
    cases same
    exact ⟨trivial, nodup_of_expand? expanded⟩
  | _ => trivial

/-- All prefixes in scope stand for a namespace that is not empty. -/
def Scope.Named (scope : Scope) : Prop :=
  ∀ d ∈ scope, d.1 ≠ [] → d.2 ≠ ""

/-- Inside an element all prefixes stand for some namespace if they do around it and in its
declarations. -/
lemma Scope.Named.enter (outer : scope.Named) (inner : declared.Named) :
    (scope.enter declared).Named := by
  cases declared with
  | nil => exact outer
  | cons d declared =>
    intro e mem
    rcases List.mem_append.mp mem with mem | mem
    · exact inner e mem
    · exact outer e (List.mem_filter.mp mem).1

/-- The tag declares no prefix to stand for the empty namespace. -/
def Token.NamesPrefixes : Token → Prop
  | .start _ attributes _ =>
    ∀ a ∈ attributes, a.name.qualifier = xmlnsWord → resolveValue? a.value ≠ some []
  | _ => True

/-- An attribute that is taken in declares no prefix for the empty namespace if its value is not
empty. -/
lemma named_add? {p p' : Parted} {tag : TagName} {value : String} (ok : p.declared.Named)
    (names : tag.qualifier = xmlnsWord → value ≠ "") (eq : p.add? tag value = some p') :
    p'.declared.Named := by
  rw [Parted.add?] at eq
  split at eq
  · next declares =>
    split at eq
    · cases eq
    split at eq
    · obtain ⟨-, same⟩ := Option.ite_none_right_eq_some.mp eq
      cases same
      exact ok
    · obtain ⟨-, same⟩ := Option.ite_none_left_eq_some.mp eq
      cases same
      exact List.forall_mem_cons.mpr ⟨fun _ => names declares, ok⟩
  · split at eq
    · obtain ⟨-, eq⟩ := Option.ite_none_left_eq_some.mp eq
      split at eq
      · cases eq
        exact ok
      · cases eq
        exact List.forall_mem_cons.mpr ⟨fun ne => absurd rfl ne, ok⟩
    · cases eq
      exact ok

/-- The attributes of a start tag declare no prefix for the empty namespace if none has an empty
value. -/
lemma named_of_ofRaw? {as : List RawAttribute} {p : Parted}
    (names : ∀ a ∈ as, a.name.qualifier = xmlnsWord → resolveValue? a.value ≠ some [])
    (eq : Parted.ofRaw? as = some p) : p.declared.Named := by
  have none : Scope.Named [] := List.forall_mem_nil _
  refine of_foldlM (P := fun p : Parted => p.declared.Named) ?_ none eq
  intro a mem p p' ok added
  obtain ⟨value, resolved, added⟩ := Option.bind_eq_some_iff.mp added
  refine named_add? ok (fun declares none => names a mem declares ?_) added
  rw [resolved, String.ofList_eq_empty_iff.mp none]

/-- Where every prefix stands for some namespace, no attribute gets the empty one. -/
lemma uri_ne_of_attributeName? {tag : TagName} {name : ExpandedName} (ok : scope.Named)
    (eq : scope.attributeName? tag = some name) : name.uri ≠ some "" := by
  rw [Scope.attributeName?] at eq
  split at eq
  · cases eq
    intro same
    cases same
  next qualified =>
  split at eq
  · cases eq
    exact fun same => absurd (Option.some.inj same) (by decide)
  · obtain ⟨uri, found, rfl⟩ := Option.map_eq_some_iff.mp eq
    obtain ⟨before, after, rfl, -⟩ := List.lookup_eq_some_iff.mp found
    have ne := ok (tag.qualifier, uri) (List.mem_append_right _ List.mem_cons_self) qualified
    exact fun same => ne (Option.some.inj same)

/-- Where no prefix stands for it, no attribute is in the empty namespace. -/
lemma uri_ne_of_ofTokens? (names : ∀ t ∈ ts, t.NamesPrefixes)
    (eq : Element.ofTokens? ts = some root) :
    root.Every fun _ attributes => ∀ a ∈ attributes, a.name.uri ≠ some "" := by
  refine every_of_ofTokens? (P := Scope.Named) (List.forall_mem_nil _) (fun t mem => ?_) eq
  have names := names t mem
  cases t with
  | start tag as closed =>
    intro scope o ok eq
    obtain ⟨parted, raw, eq⟩ := Option.bind_eq_some_iff.mp eq
    obtain ⟨name, -, eq⟩ := Option.bind_eq_some_iff.mp eq
    obtain ⟨attributes, expanded, same⟩ := Option.bind_eq_some_iff.mp eq
    cases same
    have inner := ok.enter (named_of_ofRaw? names raw)
    refine ⟨inner, ?_⟩
    obtain ⟨attributes', named, eq⟩ := Option.bind_eq_some_iff.mp expanded
    obtain ⟨-, same⟩ := Option.ite_none_right_eq_some.mp eq
    cases same
    intro a mem
    obtain ⟨⟨tag, value⟩, -, eq⟩ := of_mapM named a mem
    obtain ⟨name, expanded, rfl⟩ := Option.map_eq_some_iff.mp eq
    exact uri_ne_of_attributeName? inner expanded
  | _ => trivial

end Netconf.Xml
