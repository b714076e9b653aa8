import Mathlib.Data.List.Nodup
import Mathlib.Data.List.Perm.Subperm
import Netconf.Proofs.Tree.Writable

/-!
# Equal nodes

What two equal nodes have in common. Equality looks through the order of attributes on every level,
so equal nodes agree in all that does not depend on it. The value of an attribute is looked up by
local name and the first one counts: it is the same on all nodes equal to one exactly if that name
is unambiguous there.
-/

namespace Netconf.Node

variable {a b : Node} {as bs : List Node} {attributes attributes' : List Attribute} {l : String}

/-! ## Children -/

/-- Two lists of nodes agree one by one just if they are equal as lists. -/
lemma sameAll_eq_beq : sameAll as bs = (as == bs) := by
  induction as generalizing bs with
  | nil => cases bs <;> rfl
  | cons a as ih =>
    cases bs with
    | nil => rfl
    | cons b bs =>
      rw [sameAll, ih]
      rfl

/-- What equality compares: name, text and attributes of the nodes, and the children one by one. -/
structure Agrees (a b : Node) : Prop where
  name : b.name = a.name
  isLeaf : b.isLeaf = a.isLeaf
  text : b.text = a.text
  attributes : sameAttributes a.attributes b.attributes = true
  children : (a.children == b.children) = true

/-- Equal nodes agree in all that equality compares. -/
lemma agrees_of_beq (eq : (a == b) = true) : a.Agrees b := by
  have eq : same a b = true := eq
  cases a with
  | leaf =>
    cases b with
    | leaf =>
      simp only [same, Bool.and_eq_true, beq_iff_eq] at eq
      obtain ⟨⟨rfl, rfl⟩, attributes⟩ := eq
      exact ⟨rfl, rfl, rfl, attributes, rfl⟩
    | container => simp [same] at eq
  | container =>
    cases b with
    | leaf => simp [same] at eq
    | container =>
      simp only [same, Bool.and_eq_true, beq_iff_eq] at eq
      obtain ⟨⟨rfl, children⟩, attributes⟩ := eq
      exact ⟨rfl, rfl, rfl, attributes, sameAll_eq_beq ▸ children⟩

/-- Equal nodes have the same local name. -/
lemma localName_of_beq (eq : (a == b) = true) : b.localName = a.localName :=
  congrArg QName.localName (agrees_of_beq eq).name

/-- Equal nodes are named alike. -/
lemma isNamed_of_beq (eq : (a == b) = true) (uri localName : String) :
    b.isNamed uri localName = a.isNamed uri localName := by
  simp only [isNamed, Node.localName, Node.uri, (agrees_of_beq eq).name]

/-- Equal nodes are messages of the same kind. -/
lemma messageKind_of_beq (eq : (a == b) = true) : b.messageKind = a.messageKind := by
  simp only [messageKind, isNamed_of_beq eq]

/-- Of equal children the first ones with a name are equal. -/
lemma find?_localName_of_beq (eq : (as == bs) = true) :
    (as.find? (·.localName == l) == bs.find? (·.localName == l)) = true := by
  induction as generalizing bs with
  | nil =>
    cases bs with
    | nil => rfl
    | cons => cases eq
  | cons a as ih =>
    cases bs with
    | nil => cases eq
    | cons b bs =>
      obtain ⟨first, rest⟩ := Bool.and_eq_true_iff.mp eq
      rw [List.find?_cons, List.find?_cons, localName_of_beq first]
      split
      · exact first
      · exact ih rest

/-- Of equal children those with a name are equal. -/
lemma filter_localName_of_beq (eq : (as == bs) = true) :
    (as.filter (·.localName == l) == bs.filter (·.localName == l)) = true := by
  induction as generalizing bs with
  | nil =>
    cases bs with
    | nil => rfl
    | cons => cases eq
  | cons a as ih =>
    cases bs with
    | nil => cases eq
    | cons b bs =>
      obtain ⟨first, rest⟩ := Bool.and_eq_true_iff.mp eq
      rw [List.filter_cons, List.filter_cons, localName_of_beq first]
      split
      · exact Bool.and_eq_true_iff.mpr ⟨first, ih rest⟩
      · exact ih rest

/-! ## Attributes -/

/-- Attributes with different names that are the same up to order are rearranged. -/
lemma perm_of_sameAttributes (distinct : (attributes.map (·.name)).Nodup)
    (eq : sameAttributes attributes attributes' = true) : attributes.Perm attributes' := by
  simp only [sameAttributes, Bool.and_eq_true, beq_iff_eq, List.all_eq_true,
    List.contains_iff_mem] at eq
  obtain ⟨length, subset⟩ := eq
  have nodup : attributes.Nodup := List.Nodup.of_map _ distinct
  exact (List.subperm_of_subset nodup subset).perm_of_length_le length.ge

/-- Attributes in another order are the same. -/
lemma sameAttributes_of_perm (perm : attributes.Perm attributes') :
    sameAttributes attributes attributes' = true := by
  simp only [sameAttributes, Bool.and_eq_true, beq_iff_eq, List.all_eq_true,
    List.contains_iff_mem]
  exact ⟨perm.length_eq, fun _ => perm.mem_iff.mp⟩

/-- All attributes of a node with the given local name, in whatever namespaces, have one value. -/
def Unambiguous (n : Node) (localName : String) : Prop :=
  ∀ x ∈ n.attributes, ∀ y ∈ n.attributes,
    x.name.localName = localName → y.name.localName = localName → x.value = y.value

instance (n : Node) (localName : String) : Decidable (n.Unambiguous localName) :=
  inferInstanceAs (Decidable (∀ x ∈ n.attributes, ∀ y ∈ n.attributes, _))

/-- No value is found if no attribute has the local name. -/
lemma attribute?_eq_none_iff :
    a.attribute? l = none ↔ ∀ x ∈ a.attributes, x.name.localName ≠ l := by
  simp [attribute?]

/-- A value that is found is that of an attribute with the local name. -/
lemma of_attribute?_eq_some {value : String} (eq : a.attribute? l = some value) :
    ∃ x ∈ a.attributes, x.name.localName = l ∧ x.value = value := by
  obtain ⟨x, found, rfl⟩ := Option.map_eq_some_iff.mp eq
  exact ⟨x, List.mem_of_find?_eq_some found, by simpa using List.find?_some found, rfl⟩

/-- A name is unambiguous if each attribute that has it has the value that is found. -/
lemma unambiguous_iff :
    a.Unambiguous l ↔
      ∀ x ∈ a.attributes, x.name.localName = l → a.attribute? l = some x.value := by
  constructor
  · intro one x mem name
    cases found : a.attribute? l with
    | none => exact absurd name (attribute?_eq_none_iff.mp found x mem)
    | some value =>
      obtain ⟨y, mem', name', rfl⟩ := of_attribute?_eq_some found
      rw [one x mem y mem' name name']
  · intro found x mem y mem' name name'
    exact Option.some.inj ((found x mem name).symm.trans (found y mem' name'))

/-- A name that is unambiguous has the same value in any order of the attributes. -/
lemma attribute?_of_perm (one : a.Unambiguous l) (perm : a.attributes.Perm b.attributes) :
    b.attribute? l = a.attribute? l := by
  cases found : b.attribute? l with
  | none =>
    have none := attribute?_eq_none_iff.mp found
    exact (attribute?_eq_none_iff.mpr fun x mem => none x (perm.mem_iff.mp mem)).symm
  | some value =>
    obtain ⟨x, mem, name, rfl⟩ := of_attribute?_eq_some found
    exact (unambiguous_iff.mp one x (perm.mem_iff.mpr mem) name).symm

/-- The node with other attributes. -/
def withAttributes : Node → List Attribute → Node
  | leaf name _ text, attributes => leaf name attributes text
  | container name _ children, attributes => container name attributes children

/-- A node that is given other attributes has these. -/
@[simp]
lemma attributes_withAttributes (n : Node) :
    (n.withAttributes attributes).attributes = attributes := by
  cases n <;> rfl

/-- A node is equal to itself with its attributes in another order. -/
lemma beq_withAttributes (n : Node) (perm : n.attributes.Perm attributes) :
    (n == n.withAttributes attributes) = true := by
  change same n (n.withAttributes attributes) = true
  have rearranged := sameAttributes_of_perm perm
  cases n with
  | leaf => simpa [same, withAttributes, Node.attributes] using rearranged
  | container => simpa [same, withAttributes, sameAll_refl, Node.attributes] using rearranged

/-- A value found on a node is found on all nodes equal to it just if the name is unambiguous. -/
lemma attribute?_eq_iff_unambiguous (distinct : (a.attributes.map (·.name)).Nodup) :
    (∀ b, (a == b) = true → b.attribute? l = a.attribute? l) ↔ a.Unambiguous l := by
  constructor
  · intro found
    refine unambiguous_iff.mpr fun x mem name => ?_
    -- The attribute is the one that counts where it comes first.
    have first := found _ (beq_withAttributes a (List.perm_cons_erase mem))
    rw [← first, attribute?, attributes_withAttributes,
      List.find?_cons_of_pos (by simpa using name)]
    rfl
  · intro one b eq
    exact attribute?_of_perm one (perm_of_sameAttributes distinct (agrees_of_beq eq).attributes)

end Netconf.Node
