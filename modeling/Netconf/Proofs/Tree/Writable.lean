import Netconf.Message
import Netconf.Proofs.Xml.Legible
import Netconf.Proofs.Xml.Scope
import Netconf.Tree.Node

/-!
# Nodes that have a written form

Two properties that every node of a tree can have. A node is shaped if it is one that `build` makes;
it is writable if its names, namespaces and texts are such that a document can hold them.
-/

namespace Netconf

open Xml

namespace Node

/-- A property holds of a node and of all nodes below it. -/
inductive Everywhere (P : Node → Prop) : Node → Prop where
  | intro {n : Node} :
    P n →
    (∀ child ∈ n.children, Everywhere P child) →
    Everywhere P n

namespace Everywhere

variable {P Q : Node → Prop} {n : Node}

/-- What holds everywhere in a tree holds of its root. -/
lemma here (all : n.Everywhere P) : P n := by
  cases all with
  | intro here _ => exact here

/-- What holds everywhere in a tree holds everywhere in the trees of the children. -/
lemma children (all : n.Everywhere P) : ∀ child ∈ n.children, child.Everywhere P := by
  cases all with
  | intro _ children => exact children

/-- Two properties that hold everywhere hold there together. -/
lemma and (first : n.Everywhere P) (second : n.Everywhere Q) :
    n.Everywhere fun n => P n ∧ Q n := by
  induction first with
  | intro here _ ih =>
    exact .intro ⟨here, second.here⟩ fun child mem => ih child mem (second.children child mem)

/-- On a leaf there is nothing below. -/
lemma leaf {name : QName} {attributes : List Attribute} {text : Option String}
    (here : P (.leaf name attributes text)) : (Node.leaf name attributes text).Everywhere P :=
  .intro here (List.forall_mem_nil _)

end Everywhere

/-- The node is one that can be built from its parts: its attributes have different names, an empty
text is no text, and a container has children. -/
structure IsShaped (n : Node) : Prop where
  distinct : (n.attributes.map (·.name)).Nodup
  text : n.text ≠ some ""
  children : n.isContainer = true → n.children ≠ []

/-- Every node of the tree can be built from its parts. -/
def WellShaped (n : Node) : Prop :=
  n.Everywhere IsShaped

end Node

/-- A document can hold the attribute: its name is no declaration, and it is in no namespace that is
kept for declarations. It may be in the namespace of the prefix `xml`. -/
structure Attribute.IsWritable (a : Attribute) : Prop where
  name : IsName a.name.localName.toList
  ne_xmlns : a.name.localName ≠ "xmlns"
  uri : IsXmlText a.name.uri
  uri_ne : a.name.uri ≠ xmlnsUri
  value : IsXmlText a.value

instance (a : Attribute) : Decidable a.IsWritable :=
  decidable_of_iff (IsName a.name.localName.toList ∧ a.name.localName ≠ "xmlns" ∧
      IsXmlText a.name.uri ∧ a.name.uri ≠ xmlnsUri ∧ IsXmlText a.value)
    ⟨fun h => ⟨h.1, h.2.1, h.2.2.1, h.2.2.2.1, h.2.2.2.2⟩,
      fun h => ⟨h.name, h.ne_xmlns, h.uri, h.uri_ne, h.value⟩⟩

namespace Node

/-- A document can hold the node as an element, whatever its children. -/
structure IsWritable (n : Node) : Prop where
  name : IsName n.localName.toList
  uri : IsDeclarable n.uri
  attributes : ∀ a ∈ n.attributes, a.IsWritable
  text : ∀ t ∈ n.text, IsXmlText t

instance (n : Node) : Decidable n.IsWritable :=
  decidable_of_iff (IsName n.localName.toList ∧ IsDeclarable n.uri ∧
      (∀ a ∈ n.attributes, a.IsWritable) ∧ ∀ t ∈ n.text, IsXmlText t)
    ⟨fun h => ⟨h.1, h.2.1, h.2.2.1, h.2.2.2⟩, fun h => ⟨h.name, h.uri, h.attributes, h.text⟩⟩

instance (n : Node) : Decidable n.IsShaped :=
  decidable_of_iff ((n.attributes.map (·.name)).Nodup ∧ n.text ≠ some "" ∧
      (n.isContainer = true → n.children ≠ []))
    ⟨fun h => ⟨h.1, h.2.1, h.2.2⟩, fun h => ⟨h.distinct, h.text, h.children⟩⟩

/-- A document can hold every node of the tree as an element. -/
def Writable (n : Node) : Prop :=
  n.Everywhere IsWritable

/-! ## Nodes made of parts -/

section

variable {name : QName} {attributes : List Attribute} {text : String} {children : List Node}
  {n : Node}

/-- A node that was built has the parts that were given, and is shaped. -/
lemma of_build (eq : build name attributes text children = .ok n) :
    n.name = name ∧ n.attributes = attributes ∧ (∀ t ∈ n.text, t = text) ∧ n.children = children ∧
      n.IsShaped := by
  unfold build at eq
  split at eq
  · cases eq
  · next once =>
    have distinct := repeated?_eq_none_iff.mp once
    split at eq
    · cases eq
    · cases eq
      refine ⟨rfl, rfl, ?_, rfl, distinct, ?_, nofun⟩
      · intro t mem
        change leafText text = some t at mem
        rw [leafText] at mem
        split at mem
        · cases mem
        · exact (Option.some.inj mem).symm
      · change leafText text ≠ some ""
        rw [leafText]
        split
        · exact nofun
        · next ne => exact fun same => ne (Option.some.inj same)
    · cases eq
      exact ⟨rfl, rfl, nofun, rfl, distinct, nofun, fun _ => List.cons_ne_nil _ _⟩

/-- A leaf can be built if its attributes have different names. -/
lemma build_leaf (distinct : (attributes.map (·.name)).Nodup) :
    build name attributes text [] = .ok (leaf name attributes (leafText text)) := by
  rw [build, repeated?_eq_none_iff.mpr distinct]

/-- A container with children can be built if its attributes have different names. -/
lemma build_container (distinct : (attributes.map (·.name)).Nodup) (nonempty : children ≠ []) :
    build name attributes "" children = .ok (container name attributes children) := by
  cases children with
  | nil => exact absurd rfl nonempty
  | cons child rest =>
    unfold build
    rw [repeated?_eq_none_iff.mpr distinct]
    rfl

/-- The shaped nodes are just those that can be built from their own parts. -/
lemma isShaped_iff_build :
    n.IsShaped ↔ build n.name n.attributes (n.text.getD "") n.children = .ok n := by
  constructor
  · intro shaped
    cases n with
    | leaf name attributes text =>
      cases text with
      | none => exact build_leaf shaped.distinct
      | some text =>
        have nonempty : text ≠ "" := by
          rintro rfl
          exact shaped.text rfl
        have built : build name attributes text [] = _ := build_leaf shaped.distinct
        rwa [leafText, if_neg nonempty] at built
    | container name attributes children =>
      exact build_container shaped.distinct (shaped.children rfl)
  · intro built
    obtain ⟨-, -, -, -, shaped⟩ := of_build built
    exact shaped

end

/-! ## Equality -/

/-- Attributes are the same as themselves. -/
lemma sameAttributes_refl (attributes : List Attribute) :
    sameAttributes attributes attributes = true := by
  simp [sameAttributes]

mutual

/-- A node is the same as itself. -/
lemma same_refl (n : Node) : same n n = true := by
  match n with
  | leaf name attributes text => simp [same, sameAttributes_refl]
  | container name attributes children => simp [same, sameAttributes_refl, sameAll_refl children]

/-- Nodes one by one are the same as themselves. -/
lemma sameAll_refl (ns : List Node) : sameAll ns ns = true := by
  match ns with
  | [] => rfl
  | n :: ns => rw [sameAll, same_refl n, sameAll_refl ns, Bool.and_self]

end

end Node

end Netconf
