import Mathlib.Data.List.Nodup
import Netconf.Proofs.Tree.Writable
import Netconf.Proofs.Xml.Escape
import Netconf.Tree.Written
import Std.Data.String.ToNat

/-!
# Start tags of nodes

The start tag of a writable node is legible, and opens an element under the name and with the
attributes of the node, in whatever namespaces are in scope (`ofTag?_tagAttributes`): the prefixes
that it declares hide those of the elements around it.
-/

namespace Netconf.Node

open Xml

/-! ## Generated prefixes -/

/-- A generated prefix is a letter with the digits of its number after it. -/
lemma generated_eq (i : Nat) : generated i = 'a' :: Nat.toDigits 10 i := by
  rw [generated, Nat.toString_eq_repr, Nat.toList_repr]

/-- Generated prefixes with different numbers differ. -/
lemma generated_inj {i j : Nat} (eq : generated i = generated j) : i = j := by
  rw [generated, generated, Nat.toString_eq_repr, Nat.toString_eq_repr, List.cons_inj_right,
    String.toList_inj] at eq
  exact Nat.repr_inj.mp eq

/-- A generated prefix is a name. -/
lemma isName_generated (i : Nat) : IsName (generated i) := by
  rw [generated_eq]
  have digit : ∀ c ∈ Nat.toDigits 10 i, c.isDigit = true :=
    fun c mem => Nat.isDigit_of_mem_toDigits (by decide) (by decide) mem
  refine ⟨rfl, ?_, ?_⟩
  · rw [List.forall_mem_cons]
    refine ⟨by decide, fun c mem => ?_⟩
    simp [isNameChar, digit c mem]
  · rw [List.mem_cons, not_or]
    exact ⟨by decide, fun mem => absurd (digit _ mem) (by decide)⟩

/-- A generated prefix is no word that begins with another letter. -/
lemma generated_ne {i : Nat} {word : List Char} (other : word.head? ≠ some 'a') :
    generated i ≠ word := by
  rintro rfl
  exact other rfl

/-! ## Declarations -/

/-- What the start tag of a node declares: its namespace unless it is inherited, and those of its
attributes. -/
def declarations (inherited : String) (name : QName) (attributes : List Attribute) : Scope :=
  (if name.uri = inherited then [] else [([], name.uri)]) ++
    (attributeSpaces attributes).mapIdx fun i uri => (generated i, uri)

/-- The attributes of a node as they are written. -/
def taggedAttributes (attributes : List Attribute) : List (TagName × String) :=
  attributes.map fun a => (attributeTag (attributeSpaces attributes) a.name, a.value)

section

variable {inherited : String} {name : QName} {attributes : List Attribute}

/-- The start tag of a node has its declarations and then its attributes. -/
lemma tagAttributes_eq :
    tagAttributes inherited name attributes =
      ((declarations inherited name attributes).map (fun d => (declarationTag d.1, d.2)) ++
        taggedAttributes attributes).map fun a => rawAttribute a.1 a.2 := by
  have prefixed (i : Nat) : declarationTag (generated i) = ⟨xmlnsWord, generated i⟩ :=
    if_neg (List.cons_ne_nil _ _)
  have mapped (uris : List String) :
      uris.mapIdx (fun i uri => rawAttribute ⟨xmlnsWord, generated i⟩ uri) =
        ((uris.mapIdx fun i uri => (generated i, uri)).map
          fun d => (declarationTag d.1, d.2)).map fun a => rawAttribute a.1 a.2 :=
    List.ext_getElem (by simp) (by simp [prefixed])
  rw [tagAttributes, declarations, taggedAttributes, List.map_append, List.map_append,
    List.map_append, ← mapped, List.map_map (l := attributes)]
  split <;> rfl

/-- Prefixes are declared for the namespaces of attributes, but not for the empty one and that of
the prefix `xml`. -/
lemma mem_attributeSpaces {uri : String} :
    uri ∈ attributeSpaces attributes ↔
      (∃ a ∈ attributes, a.name.uri = uri) ∧ uri ≠ "" ∧ uri ≠ xmlUri := by
  simp [attributeSpaces]

/-- A declaration is that of the default namespace or of a generated prefix. -/
lemma of_mem_declarations {d : List Char × String}
    (mem : d ∈ declarations inherited name attributes) :
    d = ([], name.uri) ∨ ∃ i, d.1 = generated i ∧ d.2 ∈ attributeSpaces attributes := by
  rw [declarations, List.mem_append] at mem
  rcases mem with mem | mem
  · split at mem
    · cases mem
    · exact .inl (List.mem_singleton.mp mem)
  · obtain ⟨i, lt, rfl⟩ := List.mem_mapIdx.mp mem
    exact .inr ⟨i, rfl, List.getElem_mem lt⟩

/-- No prefix is declared twice. -/
lemma nodup_declarations : ((declarations inherited name attributes).map Prod.fst).Nodup := by
  have keys : ((attributeSpaces attributes).mapIdx fun i uri => (generated i, uri)).map Prod.fst =
      (List.range (attributeSpaces attributes).length).map generated :=
    List.ext_getElem (by simp) (by simp)
  have distinct : ((List.range (attributeSpaces attributes).length).map generated).Nodup :=
    List.nodup_range.map fun i j eq => generated_inj eq
  rw [declarations, List.map_append, keys]
  split
  · exact distinct
  · refine List.nodup_cons.mpr ⟨?_, distinct⟩
    intro mem
    obtain ⟨i, -, eq⟩ := List.mem_map.mp mem
    exact List.cons_ne_nil _ _ eq

/-- Inside the element a declared prefix has its namespace, whatever it is around it. -/
lemma find?_declared {scope : Scope} {q : List Char} {uri : String}
    (mem : (q, uri) ∈ declarations inherited name attributes) :
    (scope.enter (declarations inherited name attributes).reverse).find? q = some uri := by
  have distinct : ((declarations inherited name attributes).reverse.map Prod.fst).Nodup := by
    rw [List.map_reverse, List.nodup_reverse]
    exact nodup_declarations
  rw [Scope.find?_enter, Scope.find?_of_mem distinct (List.mem_reverse.mpr mem)]
  rfl

/-- The default namespace is the node's own inside its element. -/
lemma find?_default {scope : Scope} (here : (scope.find? []).getD "" = inherited) :
    ((scope.enter (declarations inherited name attributes).reverse).find? []).getD "" =
      name.uri := by
  by_cases same : name.uri = inherited
  · -- It is inherited, and no generated prefix is empty.
    have fresh : [] ∉ (declarations inherited name attributes).reverse.map Prod.fst := by
      rw [List.map_reverse, List.mem_reverse]
      intro mem
      obtain ⟨d, mem, eq⟩ := List.mem_map.mp mem
      rw [declarations, if_pos same, List.nil_append] at mem
      obtain ⟨i, lt, rfl⟩ := List.mem_mapIdx.mp mem
      exact List.cons_ne_nil _ _ eq
    rw [Scope.find?_enter, Scope.find?_eq_none fresh, Option.none_or, here, same]
  · have mem : ([], name.uri) ∈ declarations inherited name attributes := by
      rw [declarations, if_neg same]
      exact List.mem_append_left _ (List.mem_singleton_self _)
    rw [find?_declared mem, Option.getD_some]

/-- Inside the element the prefix generated for a namespace stands for it. -/
lemma find?_generated {scope : Scope} {uri : String} (mem : uri ∈ attributeSpaces attributes) :
    (scope.enter (declarations inherited name attributes).reverse).find?
        (generated ((attributeSpaces attributes).idxOf uri)) = some uri := by
  have lt := List.idxOf_lt_length_iff.mpr mem
  refine find?_declared ?_
  rw [declarations, List.mem_append, List.mem_mapIdx]
  exact .inr ⟨_, lt, by rw [List.getElem_idxOf]⟩

/-! ## Attributes -/

/-- An attribute under its expanded name. -/
def expanded (a : Attribute) : ExpandedAttribute :=
  ⟨⟨if a.name.uri = "" then none else some a.name.uri, a.name.localName⟩, a.value⟩

/-- An attribute of a document as an attribute of a node. -/
def attributeOf (a : ExpandedAttribute) : Attribute :=
  ⟨nameOf a.name, a.value⟩

/-- An expanded attribute of a node is the attribute again. -/
lemma attributeOf_expanded (a : Attribute) : attributeOf (expanded a) = a := by
  obtain ⟨⟨uri, localName⟩, value⟩ := a
  rw [expanded, attributeOf, nameOf]
  split
  · next none =>
    subst none
    rfl
  · rfl

/-- The prefix of an attribute stands for its namespace inside the element. -/
lemma attributeName?_attributeTag {scope : Scope} {a : Attribute} (mem : a ∈ attributes) :
    (scope.enter (declarations inherited name attributes).reverse).attributeName?
        (attributeTag (attributeSpaces attributes) a.name) = some (expanded a).name := by
  rw [attributeTag, expanded]
  by_cases xml : a.name.uri = xmlUri
  · rw [if_pos xml, Scope.attributeName?_of_xml, String.ofList_toList, xml]
    rfl
  rw [if_neg xml]
  by_cases spaced : a.name.uri ∈ attributeSpaces attributes
  · rw [if_pos spaced, if_neg (mem_attributeSpaces.mp spaced).2.1,
      Scope.attributeName?_of_find? (generated_ne (by decide)) (generated_ne (by decide))
        (find?_generated spaced), String.ofList_toList]
  · -- An attribute without a prefix is in no namespace: the default one is not for attributes.
    have none : a.name.uri = "" := by
      by_contra some
      exact spaced (mem_attributeSpaces.mpr ⟨⟨a, mem, rfl⟩, some, xml⟩)
    rw [if_neg spaced, if_pos none, Scope.attributeName?_of_unprefixed, String.ofList_toList]

/-- Going over a list finds all results if there is one for every element. -/
lemma mapM_of_forall {α β : Type} {f : α → Option β} {g : α → β} {as : List α}
    (all : ∀ a ∈ as, f a = some (g a)) : as.mapM f = some (as.map g) := by
  induction as with
  | nil => rfl
  | cons a as ih =>
    rw [List.forall_mem_cons] at all
    rw [List.mapM_cons, all.1, ih all.2]
    rfl

/-- The attributes of a node are expanded to their names inside its element. -/
lemma expand?_taggedAttributes {scope : Scope} (distinct : (attributes.map (·.name)).Nodup) :
    (scope.enter (declarations inherited name attributes).reverse).expand?
        (taggedAttributes attributes) = some (attributes.map expanded) := by
  have once : repeated? ((attributes.map expanded).map (·.name)) = none := by
    rw [repeated?_eq_none_iff]
    refine List.Nodup.of_map nameOf ?_
    rw [List.map_map, List.map_map]
    refine (List.map_congr_left fun a _ => ?_) ▸ distinct
    exact (congrArg Attribute.name (attributeOf_expanded a)).symm
  have all : ∀ a ∈ attributes,
      ((scope.enter (declarations inherited name attributes).reverse).attributeName?
          (attributeTag (attributeSpaces attributes) a.name)).map
        (fun name => ExpandedAttribute.mk name a.value) = some (expanded a) := by
    intro a mem
    rw [attributeName?_attributeTag mem]
    rfl
  rw [Scope.expand?, taggedAttributes, List.mapM_map]
  simp only [Function.comp_def, mapM_of_forall all, Option.bind_eq_bind, Option.bind_some, once,
    Option.isNone_none, if_true]

/-! ## Tags -/

/-- A name without a prefix is read back. -/
lemma legible_bareTag {localName : String} (isName : IsName localName.toList) :
    (bareTag localName).Legible :=
  ⟨isName, .inl rfl⟩

/-- A written attribute is read back if its name is and its value can be held. -/
lemma legible_rawAttribute {tag : TagName} {value : String} (le : tag.Legible)
    (chars : IsXmlText value) : (rawAttribute tag value).Legible :=
  ⟨le, isXmlChar_escapeValue chars, quote_notMem_escapeValue _, lt_notMem_escapeValue _⟩

/-- A declaration is read back if its prefix is a name or there is none. -/
lemma legible_declarationTag {q : List Char} (le : q = [] ∨ IsName q) :
    (declarationTag q).Legible := by
  rw [declarationTag]
  split
  · exact ⟨show IsName xmlnsWord by decide, .inl rfl⟩
  · next prefixed =>
    exact ⟨le.resolve_left prefixed, .inr (show IsName xmlnsWord by decide)⟩

/-- The name of an attribute is read back with its prefix. -/
lemma legible_attributeTag {spaces : List String} {q : QName} (isName : IsName q.localName.toList) :
    (attributeTag spaces q).Legible := by
  refine ⟨isName, ?_⟩
  rw [attributeTag]
  split
  · exact .inr (show IsName xmlWord by decide)
  split
  · exact .inr (isName_generated _)
  · exact .inl rfl

/-- Written attributes are told apart as their names and values are. -/
lemma ofRaw?_rawAttributes (as : List (TagName × String)) :
    Parted.ofRaw? (as.map fun a => rawAttribute a.1 a.2) = Parted.addAll? ⟨[], []⟩ as := by
  have one (p : Parted) (a : TagName × String) :
      (do p.add? a.1 (.ofList (← resolveValue? (rawAttribute a.1 a.2).value))) =
        p.add? a.1 a.2 := by
    rw [rawAttribute, resolveValue?_escapeValue, Option.bind_eq_bind, Option.bind_some,
      String.ofList_toList]
  rw [Parted.ofRaw?, List.foldlM_map, Parted.addAll?]
  exact congrArg (List.foldlM · _ as) (funext₂ one)

/-- Every namespace that the start tag declares can be declared. -/
lemma isDeclarable_of_mem_declarations (uri : IsDeclarable name.uri)
    (writable : ∀ a ∈ attributes, a.IsWritable) :
    ∀ d ∈ declarations inherited name attributes, IsDeclarable d.2 := by
  intro d mem
  rcases of_mem_declarations mem with rfl | ⟨i, -, spaced⟩
  · exact uri
  · obtain ⟨⟨a, mem, eq⟩, -, ne_xml⟩ := mem_attributeSpaces.mp spaced
    have ok := writable a mem
    rw [← eq] at ne_xml ⊢
    exact ⟨ok.uri, ne_xml, ok.uri_ne⟩

/-- All that stands in the start tag of a writable node is read back. -/
lemma legible_tagAttributes (uri : IsDeclarable name.uri)
    (writable : ∀ a ∈ attributes, a.IsWritable) :
    ∀ r ∈ tagAttributes inherited name attributes, r.Legible := by
  intro r mem
  rw [tagAttributes_eq] at mem
  obtain ⟨⟨tag, value⟩, within, rfl⟩ := List.mem_map.mp mem
  rcases List.mem_append.mp within with within | within
  · obtain ⟨d, declared, eq⟩ := List.mem_map.mp within
    cases eq
    have ok := isDeclarable_of_mem_declarations uri writable d declared
    refine legible_rawAttribute (legible_declarationTag ?_) ok.chars
    rcases of_mem_declarations declared with rfl | ⟨i, eq, -⟩
    · exact .inl rfl
    · exact .inr (eq ▸ isName_generated i)
  · obtain ⟨a, here, eq⟩ := List.mem_map.mp within
    cases eq
    have ok := writable a here
    exact legible_rawAttribute (legible_attributeTag ok.name) ok.value

/-- The declarations and the attributes in a start tag are told apart. -/
lemma ofRaw?_tagAttributes (uri : IsDeclarable name.uri)
    (writable : ∀ a ∈ attributes, a.IsWritable) :
    Parted.ofRaw? (tagAttributes inherited name attributes) =
      some ⟨(declarations inherited name attributes).reverse,
        (taggedAttributes attributes).reverse⟩ := by
  -- No prefix is a reserved one, and no attribute looks like a declaration.
  have other : ∀ d ∈ declarations inherited name attributes, d.1 ≠ xmlWord := by
    intro d mem
    rcases of_mem_declarations mem with rfl | ⟨i, eq, -⟩
    · exact (List.cons_ne_nil _ _).symm
    · exact eq ▸ generated_ne (by decide)
  have qualifier : ∀ a ∈ taggedAttributes attributes, a.1.qualifier ≠ xmlnsWord := by
    intro b mem
    obtain ⟨a, -, rfl⟩ := List.mem_map.mp mem
    rw [attributeTag]
    split
    · exact show xmlWord ≠ xmlnsWord by decide
    split
    · exact generated_ne (by decide)
    · exact (List.cons_ne_nil _ _).symm
  have base : ∀ a ∈ taggedAttributes attributes, a.1.base ≠ xmlnsWord := by
    intro b mem
    obtain ⟨a, here, rfl⟩ := List.mem_map.mp mem
    intro eq
    exact (writable a here).ne_xmlns (String.toList_inj.mp eq)
  rw [tagAttributes_eq, ofRaw?_rawAttributes, Parted.addAll?_append,
    Parted.addAll?_declarations nodup_declarations (fun _ _ => rfl) other
      (isDeclarable_of_mem_declarations uri writable),
    Option.bind_some, Parted.addAll?_attributes qualifier base, List.append_nil, List.append_nil]

/-- The start tag of a node opens an element under its name and with its attributes. -/
lemma ofTag?_tagAttributes {scope : Scope} (here : (scope.find? []).getD "" = inherited)
    (uri : IsDeclarable name.uri) (writable : ∀ a ∈ attributes, a.IsWritable)
    (distinct : (attributes.map (·.name)).Nodup) :
    ∃ o, OpenElement.ofTag? scope (bareTag name.localName)
        (tagAttributes inherited name attributes) = some o ∧
      o.tag = bareTag name.localName ∧ (o.scope.find? []).getD "" = name.uri ∧
      nameOf o.name = name ∧ o.attributes.map attributeOf = attributes ∧ o.content = [] := by
  let inner := scope.enter (declarations inherited name attributes).reverse
  refine ⟨⟨bareTag name.localName, inner, ⟨inner.find? [], name.localName⟩,
    attributes.map expanded, []⟩, ?_, rfl, find?_default here, ?_, ?_, rfl⟩
  · rw [OpenElement.ofTag?, ofRaw?_tagAttributes uri writable]
    simp only [Option.bind_eq_bind, Option.bind_some, bareTag, List.reverse_reverse,
      Scope.elementName?_of_unprefixed, expand?_taggedAttributes distinct, String.ofList_toList]
    rfl
  · rw [nameOf, find?_default here]
  · rw [List.map_map]
    exact (List.map_congr_left fun a _ => attributeOf_expanded a).trans (List.map_id _)

end

end Netconf.Node
