import Netconf.Proofs.Filter.Congruence

/-!
# Two spellings of a key

An attribute of a filter node asks for a leaf, and so does a child with a text. Whether a filter
selects something is the same for both spellings, and so is what it leaves of data in which no
container has two such leaves (`apply_respelled`). Of several such leaves the attribute takes the
first, and the child takes all.
-/

namespace Netconf.Filter

/-- At one place, a filter node has a child that asks for a text in place of an attribute. The leaf
that both ask for has the given name and the given text. -/
inductive Respelled (key : QName) (value : String) : Node → Node → Prop where
  | here {g before a after fs fs'} :
    g.text = none → g.attributes = before ++ a :: after → g.children = fs ++ fs' →
    key = keyName g.name a.name → value = a.value → value ≠ "" →
    Respelled key value g (.container g.name (before ++ after) (fs ++ .ofText key value :: fs'))
  | deeper {name attributes before f f' after} :
    Respelled key value f f' →
    Respelled key value (.container name attributes (before ++ f :: after))
      (.container name attributes (before ++ f' :: after))

/-- No two children of the data node are leaves with the name and the text. -/
def AtMostOne (key : QName) (value : String) (d : Node) : Prop :=
  d.children.countP (isLeafWith key value) ≤ 1

instance (key : QName) (value : String) (d : Node) : Decidable (AtMostOne key value d) :=
  inferInstanceAs (Decidable (_ ≤ _))

/-- Of leaves of which there is one at most, each is the first. -/
lemma AtMostOne.keyLeaf {key : QName} {value : String} {c d : Node} {i : Nat}
    (one : AtMostOne key value d) (here : d.children[i]? = some c) (leaf : LeafWith key value c) :
    KeyLeaf key value d i := by
  refine ⟨⟨c, here, leaf⟩, fun j before c' here' leaf' => ?_⟩
  have first : 0 < (d.children.take i).countP (isLeafWith key value) := by
    refine List.countP_pos_iff.mpr ⟨c', ?_, isLeafWith_iff.mpr leaf'⟩
    exact List.mem_of_getElem? ((List.getElem?_take_of_lt before).trans here')
  have second : 0 < (d.children.drop i).countP (isLeafWith key value) := by
    refine List.countP_pos_iff.mpr ⟨c, ?_, isLeafWith_iff.mpr leaf⟩
    have at_zero : (d.children.drop i)[0]? = some c := by rwa [List.getElem?_drop]
    exact List.mem_of_getElem? at_zero
  have both : (d.children.take i).countP (isLeafWith key value) +
      (d.children.drop i).countP (isLeafWith key value) ≤ 1 := by
    rw [← List.countP_append, List.take_append_drop]
    exact one
  omega

/-! ## A node and its other spelling -/

section

variable {g d : Node} {before after : List Attribute} {a : Attribute} {fs fs' : List Node}
  {q : List Nat}

/-- The node with a child in place of an attribute. -/
def respell (g : Node) (before after : List Attribute) (a : Attribute) (fs fs' : List Node) :
    Node :=
  .container g.name (before ++ after) (fs ++ .ofText (keyName g.name a.name) a.value :: fs')

/-- In its other spelling a node has the child that asks for the text among its children. -/
lemma children_respell : (respell g before after a fs fs').children =
    fs ++ .ofText (keyName g.name a.name) a.value :: fs' :=
  rfl

/-- In its other spelling a node has all attributes but the one. -/
lemma attributes_respell : (respell g before after a fs fs').attributes = before ++ after :=
  rfl

/-- A leaf made of a text that is not empty asks for it. -/
lemma kind_ofText {key : QName} {value : String} (some : value ≠ "") :
    kind (.ofText key value) = .contentMatch value := by
  rw [Node.ofText, Node.leafText, if_neg some]
  rfl

/-- A node with an attribute and without text is a containment node. -/
lemma kind_of_attributes (text : g.text = none) (attributes : g.attributes = before ++ a :: after) :
    kind g = .containment := by
  cases g with
  | container => rfl
  | leaf name keys t =>
    cases text
    cases keys with
    | nil =>
      have some : before ++ a :: after ≠ [] :=
        List.append_ne_nil_of_right_ne_nil _ (List.cons_ne_nil _ _)
      exact absurd attributes.symm some
    | cons => rfl

/-- Both spellings ask for the same leaf. -/
lemma describes_holds_iff (attributes : g.attributes = before ++ a :: after)
    (children : g.children = fs ++ fs') (some : a.value ≠ "") :
    Describes g d ∧ Holds g.children d ↔
      Describes (respell g before after a fs fs') d ∧
        Holds (respell g before after a fs fs').children d := by
  have described : Describes g d ↔ Describes (respell g before after a fs fs') d ∧
      ∃ c ∈ d.children, LeafWith (keyName g.name a.name) a.value c := by
    constructor
    · rintro ⟨container, named, keys⟩
      rw [attributes, List.forall_mem_append, List.forall_mem_cons] at keys
      exact ⟨⟨container, named, List.forall_mem_append.mpr ⟨keys.1, keys.2.2⟩⟩, keys.2.1⟩
    · rintro ⟨⟨container, named, keys⟩, found⟩
      refine ⟨container, named, ?_⟩
      obtain ⟨first, rest⟩ := List.forall_mem_append.mp keys
      rw [attributes, List.forall_mem_append, List.forall_mem_cons]
      exact ⟨first, found, rest⟩
  have held : Holds (respell g before after a fs fs').children d ↔
      (∃ c ∈ d.children, LeafWith (keyName g.name a.name) a.value c) ∧ Holds g.children d := by
    have asked : (∀ text, kind (.ofText (keyName g.name a.name) a.value) = .contentMatch text →
        ∃ c ∈ d.children, LeafWith (keyName g.name a.name) text c) ↔
        ∃ c ∈ d.children, LeafWith (keyName g.name a.name) a.value c := by
      rw [kind_ofText some]
      exact ⟨fun all => all _ rfl, fun found text eq => by cases eq; exact found⟩
    rw [← asked, children, children_respell]
    simp only [Holds, List.forall_mem_append, List.forall_mem_cons]
    exact and_left_comm
  rw [described, held, and_assoc]

/-- Where a containment node speaks of a data node and its children hold, it takes the node itself,
what they take of a child, or a key. -/
lemma takes_iff_holds (con : kind g = .containment) :
    Takes g d q ↔ (Describes g d ∧ Holds g.children d) ∧
      (q = [] ∧ (∀ f ∈ g.children, isContentMatch f = true) ∨
      (∃ i r, q = i :: r ∧ ∃ c, d.children[i]? = some c ∧ ∃ f ∈ g.children, Takes f c r) ∨
      ∃ a ∈ g.attributes, ∃ i, q = [i] ∧ KeyLeaf (keyName g.name a.name) a.value d i) := by
  rw [takes_iff con, selects_iff, ← and_or_left, and_assoc, or_assoc]

/-- Where the first leaf is the only one, the attribute takes what the child takes. -/
lemma takes_respell (text : g.text = none) (attributes : g.attributes = before ++ a :: after)
    (children : g.children = fs ++ fs') (some : a.value ≠ "")
    (one : AtMostOne (keyName g.name a.name) a.value d) :
    Takes g d q ↔ Takes (respell g before after a fs fs') d q := by
  have asks : kind (.ofText (keyName g.name a.name) a.value) = .contentMatch a.value :=
    kind_ofText some
  rw [takes_iff_holds (kind_of_attributes text attributes),
    takes_iff_holds (g := respell g before after a fs fs') rfl,
    describes_holds_iff attributes children some]
  refine and_congr_right fun _ => ?_
  have texts : (∀ f ∈ g.children, isContentMatch f = true) ↔
      ∀ f ∈ (respell g before after a fs fs').children, isContentMatch f = true := by
    have content : isContentMatch (.ofText (keyName g.name a.name) a.value) = true := by
      rw [isContentMatch, asks]
    simp only [children, children_respell, List.forall_mem_append, List.forall_mem_cons, content,
      true_and]
  rw [← texts]
  refine or_congr_right ?_
  -- The leaf for the attribute is the one that the child takes.
  have leaf : (∃ i, q = [i] ∧ KeyLeaf (keyName g.name a.name) a.value d i) ↔
      ∃ i r, q = i :: r ∧ ∃ c, d.children[i]? = .some c ∧
        Takes (.ofText (keyName g.name a.name) a.value) c r := by
    simp only [takes_content_iff asks]
    constructor
    · rintro ⟨i, eq, ⟨c, here, leaf⟩, -⟩
      exact ⟨i, [], eq, c, here, leaf, rfl⟩
    · rintro ⟨i, r, rfl, c, here, leaf, rfl⟩
      exact ⟨i, rfl, one.keyLeaf here leaf⟩
  simp only [attributes, children, attributes_respell, children_respell, List.perm_middle.mem_iff,
    List.mem_cons, exists_eq_or_imp, and_or_left, exists_or, leaf]
  exact or_left_comm.trans or_assoc.symm

/-- Whether something is selected does not depend on the spelling, whatever the data. -/
lemma takesSome_respell (text : g.text = none) (attributes : g.attributes = before ++ a :: after)
    (children : g.children = fs ++ fs') (some : a.value ≠ "") :
    (∃ q, Takes g d q) ↔ ∃ q, Takes (respell g before after a fs fs') d q := by
  have con := kind_of_attributes text attributes
  have keyed : (∃ q, Takes g d q) ↔ Describes g d ∧ Holds g.children d := by
    have mem : a ∈ g.attributes := by
      rw [attributes]
      exact List.mem_append_right _ List.mem_cons_self
    constructor
    · rintro ⟨q, takes⟩
      exact ((takes_iff_holds con).mp takes).1
    · rintro ⟨de, holding⟩
      exact (exists_takes_iff con).mpr ⟨de, .inr ⟨holding, List.ne_nil_of_mem mem⟩⟩
  rw [keyed, describes_holds_iff attributes children some]
  constructor
  · rintro ⟨de, holding⟩
    -- The child holds because its leaf is there, and then takes the leaf.
    have mem : .ofText (keyName g.name a.name) a.value ∈
        (respell g before after a fs fs').children :=
      List.mem_append_right _ List.mem_cons_self
    have asks : kind (.ofText (keyName g.name a.name) a.value) = .contentMatch a.value :=
      kind_ofText some
    obtain ⟨c, here, leaf⟩ := holding _ mem _ asks
    obtain ⟨i, here⟩ := List.mem_iff_getElem?.mp here
    exact ⟨[i], .within rfl de (.child holding mem here (.content asks leaf))⟩
  · rintro ⟨q, takes⟩
    exact ((takes_iff_holds (g := respell g before after a fs fs') rfl).mp takes).1

/-- The name of a key is well formed if the names of the node and the attribute are. -/
lemma isWellFormed_keyName {name key : QName} (node : isWellFormed name = true)
    (attr : isWellFormed key = true) : isWellFormed (keyName name key) = true := by
  rw [keyName]
  split
  · exact attr
  · simp only [isWellFormed, Bool.and_eq_true] at node attr ⊢
    exact ⟨attr.1, node.2⟩

/-- In its other spelling a node is passed if it was in the first. -/
lemma passed_respell (attributes : g.attributes = before ++ a :: after)
    (children : g.children = fs ++ fs') (ok : checkNode g = .ok ()) :
    checkNode (respell g before after a fs fs') = .ok () := by
  rw [checkNode_eq_ok, attributes, children] at ok
  rw [checkNode_eq_ok, attributes_respell, children_respell]
  simp only [List.perm_middle.mem_iff, List.forall_mem_cons] at ok ⊢
  obtain ⟨named, ⟨key, keys⟩, below⟩ := ok
  have leaf : checkNode (.ofText (keyName g.name a.name) a.value) = .ok () := by
    rw [checkNode_eq_ok]
    exact ⟨isWellFormed_keyName named key, List.forall_mem_nil _, List.forall_mem_nil _⟩
  exact ⟨named, keys, leaf, below⟩

end

/-- A filter says the same in either spelling of data without two such leaves side by side. -/
lemma Respelled.alike {key : QName} {value : String} {f f' : Node}
    (re : Respelled key value f f') : Alike (Node.Everywhere (AtMostOne key value)) f f' := by
  induction re with
  | here text attributes children eq eq' some =>
    subst eq eq'
    have con := kind_of_attributes text attributes
    refine ⟨?_, fun d => takesSome_respell text attributes children some, ?_, ?_⟩
    · rw [textOf?, con]
      rfl
    · exact fun d one q => takes_respell text attributes children some one.here
    · exact passed_respell attributes children
  | deeper _ ih =>
    exact .containment rfl rfl rfl (fun _ => .rfl) (.replace ih) fun d one => one.children

/-- Whether a filter selects something does not depend on how a key below its root is spelled. What
it leaves does not either where no container of the data has two leaves for the key. -/
theorem apply_respelled {data f f' : Node} {name key : QName} {value : String}
    {attributes : List Attribute} {before after : List Node} (re : Respelled key value f f')
    (valid : validate (.container name attributes (before ++ f :: after)) = .ok ()) :
    let filter := .container name attributes (before ++ f :: after)
    let filter' := .container name attributes (before ++ f' :: after)
    selects data filter' = selects data filter ∧
      (data.Everywhere (AtMostOne key value) →
        apply data (some filter') = apply data (some filter)) := by
  intro filter filter'
  have alike : AlikeAll (Node.Everywhere (AtMostOne key value)) filter.children filter'.children :=
    .replace re.alike
  exact ⟨alike.selects_eq rfl valid, fun one => alike.apply_eq rfl valid one.children⟩

/-- In either spelling of the key the example filter leaves the same of the data. -/
theorem apply_respelled_roleOf :
    let data := users [user "alice" "1" "admin", user "bob" "2" "ops"]
    let role := Node.leaf (.unqualified "role") [] none
    let byKey := .container ⟨"urn:users", "user"⟩ [⟨.unqualified "name", "bob"⟩] [role]
    let byText := .container ⟨"urn:users", "user"⟩ [] [.ofText ⟨"urn:users", "name"⟩ "bob", role]
    let filter := .container (.unqualified "filter") [] [byText]
    let bob := .container ⟨"urn:users", "user"⟩ []
      [.leaf ⟨"urn:users", "name"⟩ [] (some "bob"), .leaf ⟨"urn:users", "role"⟩ [] (some "ops")]
    Respelled ⟨"urn:users", "name"⟩ "bob" byKey byText ∧ validate (roleOf "bob") = .ok () ∧
      data.Everywhere (AtMostOne ⟨"urn:users", "name"⟩ "bob") ∧
      selects data filter = .ok true ∧ apply data (some filter) = .ok (some (users [bob])) := by
  intro data role byKey byText filter bob
  have re : Respelled ⟨"urn:users", "name"⟩ "bob" byKey byText :=
    @Respelled.here _ _ byKey [] ⟨.unqualified "name", "bob"⟩ [] [] [role] rfl rfl rfl rfl rfl
      (by decide)
  have valid : validate (roleOf "bob") = .ok () := by rfl
  have leaf (name text : String) : (Node.leaf ⟨"urn:users", name⟩ [] (some text)).Everywhere
      (AtMostOne ⟨"urn:users", "name"⟩ "bob") :=
    .leaf (Nat.zero_le 1)
  have leaves (name id role : String) : ∀ c ∈ (user name id role).children,
      c.Everywhere (AtMostOne ⟨"urn:users", "name"⟩ "bob") :=
    List.forall_mem_cons.mpr ⟨leaf "name" name,
      List.forall_mem_cons.mpr ⟨leaf "id" id, List.forall_mem_singleton.mpr (leaf "role" role)⟩⟩
  have entries : ∀ n ∈ [user "alice" "1" "admin", user "bob" "2" "ops"],
      n.Everywhere (AtMostOne ⟨"urn:users", "name"⟩ "bob") :=
    List.forall_mem_cons.mpr ⟨.intro (by decide) (leaves _ _ _),
      List.forall_mem_singleton.mpr (.intro (by decide) (leaves _ _ _))⟩
  have one : data.Everywhere (AtMostOne ⟨"urn:users", "name"⟩ "bob") := .intro (by decide) entries
  obtain ⟨answer, left⟩ :=
    @apply_respelled data byKey byText (.unqualified "filter") _ _ [] [] [] re valid
  exact ⟨re, valid, one, answer.trans (by rfl), (left one).trans (by rfl)⟩

end Netconf.Filter
