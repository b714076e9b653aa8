import Mathlib.Tactic.Lemma
import Netconf.Xml.Element

/-!
# Namespaces in scope

What declarations in a start tag do to the namespaces in scope: each of them is found inside the
element, and every prefix that is not declared keeps its namespace (`Scope.find?_enter`).
-/

namespace Netconf.Xml

/-- All characters of the text may stand in a document. -/
def IsXmlText (s : String) : Prop :=
  ∀ c ∈ s.toList, isXmlChar c = true

instance (s : String) : Decidable (IsXmlText s) :=
  decidable_of_iff (s.toList.all isXmlChar = true) List.all_eq_true

/-- A namespace that a document may declare. -/
structure IsDeclarable (uri : String) : Prop where
  chars : IsXmlText uri
  ne_xml : uri ≠ xmlUri
  ne_xmlns : uri ≠ xmlnsUri

instance (uri : String) : Decidable (IsDeclarable uri) :=
  decidable_of_iff (IsXmlText uri ∧ uri ≠ xmlUri ∧ uri ≠ xmlnsUri)
    ⟨fun h => ⟨h.1, h.2.1, h.2.2⟩, fun h => ⟨h.chars, h.ne_xml, h.ne_xmlns⟩⟩

namespace Scope

variable {scope declared : Scope} {q : List Char} {uri : String}

/-- A namespace is looked up in the first declarations and then in those after them. -/
lemma find?_append : Scope.find? (declared ++ scope) q = (declared.find? q).or (scope.find? q) :=
  List.lookup_append

/-- Leaving out other prefixes does not change what a prefix stands for. -/
lemma find?_filter {keep : List Char × String → Bool} (kept : ∀ uri, keep (q, uri) = true) :
    Scope.find? (scope.filter keep) q = scope.find? q := by
  induction scope with
  | nil => rfl
  | cons d scope ih =>
    obtain ⟨q', uri⟩ := d
    rw [List.filter_cons]
    by_cases same : q = q'
    · subst same
      rw [if_pos (kept uri)]
      simp [find?]
    · have other : (q == q') = false := beq_eq_false_iff_ne.mpr same
      split
      · simpa [find?, List.lookup_cons, other] using ih
      · simpa [find?, List.lookup_cons, other] using ih

/-- Declarations hide those around them. -/
lemma find?_enter : (scope.enter declared).find? q = (declared.find? q).or (scope.find? q) := by
  cases declared with
  | nil => rfl
  | cons d declared =>
    rw [enter, find?_append]
    cases here : Scope.find? (d :: declared) q with
    | some uri => rfl
    | none =>
      rw [Option.none_or, Option.none_or]
      exact find?_filter (by simp [here])

/-- Of declarations with different prefixes each is found. -/
lemma find?_of_mem (distinct : (declared.map Prod.fst).Nodup) (mem : (q, uri) ∈ declared) :
    declared.find? q = some uri := by
  induction declared with
  | nil => cases mem
  | cons d declared ih =>
    rw [List.map_cons, List.nodup_cons] at distinct
    rw [find?, List.lookup_cons]
    rcases List.mem_cons.mp mem with rfl | mem
    · simp
    · have other : q ≠ d.1 := by
        intro eq
        exact distinct.1 (List.mem_map.mpr ⟨_, mem, eq⟩)
      rw [beq_eq_false_iff_ne.mpr other]
      exact ih distinct.2 mem

/-- A prefix that is not declared stands for nothing. -/
lemma find?_eq_none (fresh : q ∉ declared.map Prod.fst) : declared.find? q = none := by
  rw [find?, List.lookup_eq_none_iff]
  intro d mem
  refine bne_iff_ne.mpr ?_
  rintro rfl
  exact fresh (List.mem_map_of_mem mem)

/-- An attribute without a prefix is in no namespace. -/
lemma attributeName?_of_unprefixed (base : List Char) :
    scope.attributeName? ⟨[], base⟩ = some ⟨none, .ofList base⟩ :=
  rfl

/-- An attribute with the prefix `xml` is in the namespace of this. -/
lemma attributeName?_of_xml (base : List Char) :
    scope.attributeName? ⟨xmlWord, base⟩ = some ⟨some xmlUri, .ofList base⟩ :=
  rfl

/-- An attribute with another prefix is in the namespace that is found for it. -/
lemma attributeName?_of_find? (prefixed : q ≠ []) (other : q ≠ xmlWord)
    (found : scope.find? q = some uri) (base : List Char) :
    scope.attributeName? ⟨q, base⟩ = some ⟨some uri, .ofList base⟩ := by
  simp [attributeName?, prefixed, other, found]

/-- An element without a prefix is in the default namespace. -/
lemma elementName?_of_unprefixed (base : List Char) :
    scope.elementName? ⟨[], base⟩ = some ⟨scope.find? [], .ofList base⟩ :=
  rfl

end Scope

/-! ## Declarations in a tag -/

/-- The name of the attribute that declares a prefix, or the default namespace for the empty
prefix. -/
def declarationTag (q : List Char) : TagName :=
  if q = [] then ⟨[], xmlnsWord⟩ else ⟨xmlnsWord, q⟩

namespace Parted

variable {p : Parted}

/-- A declaration of a prefix that was not declared before is taken in. -/
lemma add?_declaration {q : List Char} {uri : String} (fresh : p.declared.find? q = none)
    (other : q ≠ xmlWord) (ok : IsDeclarable uri) :
    p.add? (declarationTag q) uri = some { p with declared := (q, uri) :: p.declared } := by
  rw [declarationTag]
  split
  · next default =>
    subst default
    simp [add?, fresh, ok.ne_xml, ok.ne_xmlns, xmlnsWord]
  · simp [add?, fresh, ok.ne_xml, ok.ne_xmlns, other]

/-- An attribute that declares nothing is taken in. -/
lemma add?_attribute {name : TagName} {value : String} (qualifier : name.qualifier ≠ xmlnsWord)
    (base : name.base ≠ xmlnsWord) :
    p.add? name value = some { p with attributes := (name, value) :: p.attributes } := by
  rw [add?, if_neg qualifier, if_neg base]

/-- Takes in attributes with their values resolved. -/
def addAll? (p : Parted) (attributes : List (TagName × String)) : Option Parted :=
  attributes.foldlM (fun p a => p.add? a.1 a.2) p

/-- Attributes one after the other are taken in one after the other. -/
lemma addAll?_append (as bs : List (TagName × String)) :
    p.addAll? (as ++ bs) = (p.addAll? as).bind (·.addAll? bs) := by
  rw [addAll?, List.foldlM_append]
  rfl

/-- Declarations of different prefixes are all taken in. -/
lemma addAll?_declarations {declared : Scope} (distinct : (declared.map Prod.fst).Nodup)
    (fresh : ∀ d ∈ declared, p.declared.find? d.1 = none)
    (other : ∀ d ∈ declared, d.1 ≠ xmlWord) (ok : ∀ d ∈ declared, IsDeclarable d.2) :
    p.addAll? (declared.map fun d => (declarationTag d.1, d.2)) =
      some { p with declared := declared.reverse ++ p.declared } := by
  induction declared generalizing p with
  | nil => rfl
  | cons d declared ih =>
    rw [List.forall_mem_cons] at fresh other ok
    rw [List.map_cons, List.nodup_cons] at distinct
    have next : ∀ e ∈ declared, Scope.find? ((d.1, d.2) :: p.declared) e.1 = none := by
      intro e mem
      have ne : e.1 ≠ d.1 := by
        intro eq
        exact distinct.1 (eq ▸ List.mem_map_of_mem mem)
      rw [Scope.find?, List.lookup_cons, beq_eq_false_iff_ne.mpr ne]
      exact fresh.2 e mem
    rw [List.map_cons, addAll?, List.foldlM_cons, add?_declaration fresh.1 other.1 ok.1]
    simp only [Option.bind_eq_bind, Option.bind_some]
    rw [← addAll?, ih distinct.2 next other.2 ok.2, List.reverse_cons, List.append_assoc]
    rfl

/-- Attributes that declare nothing are all taken in. -/
lemma addAll?_attributes {attributes : List (TagName × String)}
    (qualifier : ∀ a ∈ attributes, a.1.qualifier ≠ xmlnsWord)
    (base : ∀ a ∈ attributes, a.1.base ≠ xmlnsWord) :
    p.addAll? attributes = some { p with attributes := attributes.reverse ++ p.attributes } := by
  induction attributes generalizing p with
  | nil => rfl
  | cons a attributes ih =>
    rw [List.forall_mem_cons] at qualifier base
    rw [addAll?, List.foldlM_cons, add?_attribute qualifier.1 base.1]
    simp only [Option.bind_eq_bind, Option.bind_some]
    rw [← addAll?, ih qualifier.2 base.2, List.reverse_cons, List.append_assoc]
    rfl

end Parted

end Netconf.Xml
