import Mathlib.Data.List.Forall2
import Netconf.Proofs.Tree.Equality
import Netconf.Proofs.Tree.Made

/-!
# Equality of nodes as an equivalence

Whether two nodes are equal is found out from one side: there are as many attributes on the one as
on the other, and each one of the first is on the second. On nodes whose attributes have different
names, on every level, this says that the attributes are the same set, and equality is an
equivalence (`Node.equivalence_beq`). All nodes that can be made are such nodes.
-/

namespace Netconf.Node

/-- The attributes of the node have different names. -/
def IsDistinct (n : Node) : Prop :=
  (n.attributes.map (·.name)).Nodup

instance (n : Node) : Decidable n.IsDistinct :=
  inferInstanceAs (Decidable (List.Nodup _))

/-- Nodes whose attributes have different names on every level. -/
abbrev Distinctive :=
  { n : Node // n.Everywhere IsDistinct }

/-- Both nodes are leaves with the same text or without one, or both are containers with children
that are equal one by one. -/
inductive SameBody : Node → Node → Prop where
  | text {name name' : QName} {attributes attributes' : List Attribute} (text : Option String) :
    SameBody (.leaf name attributes text) (.leaf name' attributes' text)
  | children {name name' : QName} {attributes attributes' : List Attribute}
    {children children' : List Node} :
    List.Forall₂ (fun c c' => (c == c') = true) children children' →
    SameBody (.container name attributes children) (.container name' attributes' children')

variable {a b c : Node} {as bs : List Node} {attributes attributes' : List Attribute}

/-- Lists of nodes are the same if their nodes are equal one by one. -/
lemma sameAll_iff :
    sameAll as bs = true ↔ List.Forall₂ (fun a b => (a == b) = true) as bs := by
  induction as generalizing bs with
  | nil => cases bs <;> simp [sameAll]
  | cons a as ih =>
    cases bs with
    | nil => simp [sameAll]
    | cons b bs =>
      rw [sameAll, Bool.and_eq_true, ih, List.forall₂_cons]
      rfl

/-- Nodes are equal if they have the same name, the same attributes, and the same text or equal
children. -/
lemma beq_iff :
    (a == b) = true ↔
      a.name = b.name ∧ sameAttributes a.attributes b.attributes = true ∧ SameBody a b := by
  change same a b = true ↔ _
  cases a with
  | leaf name attributes text =>
    cases b with
    | leaf name' attributes' text' =>
      simp only [same, Bool.and_eq_true, beq_iff_eq]
      constructor
      · rintro ⟨⟨rfl, rfl⟩, attributes⟩
        exact ⟨rfl, attributes, .text _⟩
      · rintro ⟨rfl, attributes, body⟩
        cases body
        exact ⟨⟨rfl, rfl⟩, attributes⟩
    | container => exact ⟨nofun, fun all => nomatch all.2.2⟩
  | container name attributes children =>
    cases b with
    | leaf => exact ⟨nofun, fun all => nomatch all.2.2⟩
    | container name' attributes' children' =>
      simp only [same, Bool.and_eq_true, beq_iff_eq, sameAll_iff]
      constructor
      · rintro ⟨⟨rfl, children⟩, attributes⟩
        exact ⟨rfl, attributes, .children children⟩
      · rintro ⟨rfl, attributes, body⟩
        cases body with
        | children children => exact ⟨⟨rfl, children⟩, attributes⟩

/-! ## Attributes -/

/-- Attributes with different names are the same up to order if they are the same set. -/
lemma sameAttributes_iff (distinct : (attributes.map (·.name)).Nodup)
    (distinct' : (attributes'.map (·.name)).Nodup) :
    sameAttributes attributes attributes' = true ↔ ∀ x, x ∈ attributes ↔ x ∈ attributes' := by
  constructor
  · exact fun eq x => (perm_of_sameAttributes distinct eq).mem_iff
  · intro all
    have nodup : attributes.Nodup := .of_map _ distinct
    have nodup' : attributes'.Nodup := .of_map _ distinct'
    exact sameAttributes_of_perm ((List.perm_ext_iff_of_nodup nodup nodup').mpr all)

/-- Different names make the comparison of attributes symmetric. -/
lemma sameAttributes_symm (distinct : (attributes.map (·.name)).Nodup)
    (eq : sameAttributes attributes attributes' = true) :
    sameAttributes attributes' attributes = true :=
  sameAttributes_of_perm (perm_of_sameAttributes distinct eq).symm

/-- The comparison of attributes is transitive. -/
lemma sameAttributes_trans {attributes'' : List Attribute}
    (first : sameAttributes attributes attributes' = true)
    (second : sameAttributes attributes' attributes'' = true) :
    sameAttributes attributes attributes'' = true := by
  simp only [sameAttributes, Bool.and_eq_true, beq_iff_eq, List.all_eq_true,
    List.contains_iff_mem] at first second ⊢
  exact ⟨first.1.trans second.1, fun x mem => second.2 x (first.2 x mem)⟩

/-! ## Nodes -/

/-- Two lists that are related element by element are so the other way round, if this holds of each
element of the first. -/
lemma forall₂_symm {R : Node → Node → Prop} (each : ∀ a ∈ as, ∀ b, R a b → R b a)
    (all : List.Forall₂ R as bs) : List.Forall₂ R bs as := by
  induction all with
  | nil => exact .nil
  | cons here _ ih =>
    rw [List.forall_mem_cons] at each
    exact .cons (each.1 _ here) (ih each.2)

/-- A relation that is transitive from each element of a list is so from the list. -/
lemma forall₂_trans {R : Node → Node → Prop} {cs : List Node}
    (each : ∀ a ∈ as, ∀ b c, R a b → R b c → R a c) (first : List.Forall₂ R as bs)
    (second : List.Forall₂ R bs cs) : List.Forall₂ R as cs := by
  induction first generalizing cs with
  | nil => exact second
  | cons here _ ih =>
    rw [List.forall_mem_cons] at each
    cases second with
    | cons here' later => exact .cons (each.1 _ _ here here') (ih each.2 later)

/-- That attributes are the same from one side is so from the other one, because there is no name on
the first that could be counted twice. -/
lemma beq_symm (distinct : a.Everywhere IsDistinct) (eq : (a == b) = true) : (b == a) = true := by
  induction distinct generalizing b with
  | intro here _ ih =>
    obtain ⟨name, attributes, body⟩ := beq_iff.mp eq
    refine beq_iff.mpr ⟨name.symm, sameAttributes_symm here attributes, ?_⟩
    cases body with
    | text text => exact .text text
    | children children => exact .children (forall₂_symm (fun c mem b => ih c mem) children)

/-- Equality is transitive from a node whose attributes have different names. -/
lemma beq_trans (distinct : a.Everywhere IsDistinct) (first : (a == b) = true)
    (second : (b == c) = true) : (a == c) = true := by
  induction distinct generalizing b c with
  | intro _ _ ih =>
    obtain ⟨name, attributes, body⟩ := beq_iff.mp first
    obtain ⟨name', attributes', body'⟩ := beq_iff.mp second
    refine beq_iff.mpr ⟨name.trans name', sameAttributes_trans attributes attributes', ?_⟩
    cases body with
    | text text =>
      cases body' with
      | text => exact .text text
    | children children =>
      cases body' with
      | children children' =>
        exact .children (forall₂_trans (fun c mem _ _ => ih c mem) children children')

/-- The attributes of a well-shaped node have different names, on every level. -/
lemma WellShaped.everywhere_isDistinct {n : Node} (shaped : n.WellShaped) :
    n.Everywhere IsDistinct := by
  induction shaped with
  | intro here _ ih => exact .intro here.distinct ih

/-- Equality is an equivalence on the nodes whose attributes have different names, on every level,
and all nodes that can be made are such nodes. Two of them are equal just if they have the same
name, the same set of attributes, and the same text or children that are equal one by one. -/
theorem equivalence_beq :
    Equivalence (fun a b : Distinctive => (a.1 == b.1) = true) ∧
      (∀ a b : Distinctive, (a.1 == b.1) = true ↔
        a.1.name = b.1.name ∧ (∀ x, x ∈ a.1.attributes ↔ x ∈ b.1.attributes) ∧
          SameBody a.1 b.1) ∧
      ∀ n, Made n → n.Everywhere IsDistinct := by
  refine ⟨⟨?_, ?_, ?_⟩, ?_, fun n made => made.wellShaped.everywhere_isDistinct⟩
  · exact fun a => same_refl a.1
  · exact fun {a b} eq => beq_symm a.2 eq
  · exact fun {a b c} first second => beq_trans a.2 first second
  · intro a b
    rw [beq_iff, sameAttributes_iff a.2.here b.2.here]

/-- Where a name occurs twice, equality is not symmetric. -/
example :
    let twice := .leaf ⟨"", "n"⟩ [⟨⟨"", "k"⟩, "1"⟩, ⟨⟨"", "k"⟩, "1"⟩] none
    let both := .leaf ⟨"", "n"⟩ [⟨⟨"", "k"⟩, "1"⟩, ⟨⟨"", "k"⟩, "2"⟩] none
    same twice both = true ∧ same both twice = false := by
  decide

end Netconf.Node
