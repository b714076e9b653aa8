import Mathlib.Tactic.Lemma
import Netconf.Filter

/-!
# What a filter selects

Which nodes of the data a group of sibling filter nodes selects, told by their paths and without
any picks. A path selects the node at its end with all that is below it, and a node is kept if it is
selected, lies below a selected one, or is on the way to one. The picks of a filter keep just these
nodes (`keeps_pick`, `keeps_evaluate`).
-/

namespace Netconf

/-- A pattern names a node by its local name, and by its namespace unless it has none. -/
structure QName.Names (pattern name : QName) : Prop where
  localName : pattern.localName = name.localName
  uri : pattern.uri = "" ∨ pattern.uri = name.uri

/-- The test whether a pattern covers a name decides whether it names it. -/
lemma QName.covers_iff {pattern name : QName} : pattern.covers name = true ↔ pattern.Names name := by
  simp only [covers, Bool.and_eq_true, Bool.or_eq_true, beq_iff_eq]
  exact ⟨fun h => ⟨h.1, h.2⟩, fun h => ⟨h.localName, h.uri⟩⟩

namespace Filter

/-- The data node is a leaf that the pattern names, and has exactly the text. -/
structure LeafWith (pattern : QName) (text : String) (d : Node) : Prop where
  named : pattern.Names d.name
  leaf : d.isLeaf = true
  text : d.text = some text

/-- Every text that the filter nodes ask for is in a leaf child of the data node. -/
def Holds (fs : List Node) (d : Node) : Prop :=
  ∀ f ∈ fs, ∀ text, kind f = .contentMatch text → ∃ c ∈ d.children, LeafWith f.name text c

/-- The data node is the first leaf child with the name and the value of an attribute. -/
structure KeyLeaf (pattern : QName) (value : String) (d : Node) (i : Nat) : Prop where
  here : ∃ c, d.children[i]? = some c ∧ LeafWith pattern value c
  first : ∀ j < i, ∀ c, d.children[j]? = some c → ¬LeafWith pattern value c

/-- A containment node speaks of the data node: it is a container with that name, and has a leaf for
every attribute. -/
structure Describes (g d : Node) : Prop where
  container : d.isContainer = true
  named : g.name.Names d.name
  keys : ∀ a ∈ g.attributes, ∃ c ∈ d.children, LeafWith (keyName g.name a.name) a.value c

mutual

/-- What a group of sibling filter nodes selects of a data node. -/
inductive Selects : List Node → Node → List Nat → Prop where
  /-- A group that asks for texts only, or for nothing, selects all of a node where it holds. -/
  | whole {fs d} :
    Holds fs d → (∀ f ∈ fs, isContentMatch f = true) →
    Selects fs d []
  /-- Where the group holds, each filter node selects of the children. -/
  | child {fs f d c i q} :
    Holds fs d → f ∈ fs → d.children[i]? = some c → Takes f c q →
    Selects fs d (i :: q)

/-- What a filter node selects of a data node next to others. -/
inductive Takes : Node → Node → List Nat → Prop where
  | content {f d text} :
    kind f = .contentMatch text → LeafWith f.name text d →
    Takes f d []
  | selection {f d} :
    kind f = .selection → f.name.Names d.name →
    Takes f d []
  /-- A containment node selects what its children select. -/
  | within {g d q} :
    kind g = .containment → Describes g d → Selects g.children d q →
    Takes g d q
  /-- Where its children hold, it selects the leaves for its attributes too. -/
  | key {g d a i} :
    kind g = .containment → Describes g d → Holds g.children d → a ∈ g.attributes →
    KeyLeaf (keyName g.name a.name) a.value d i →
    Takes g d [i]

end

/-- A node is kept if it is selected, below a selected one, or on the way to one. -/
def Kept (S : List Nat → Prop) (p : List Nat) : Prop :=
  ∃ q, S q ∧ (q <+: p ∨ p <+: q)

section

variable {S T : List Nat → Prop} {p : List Nat} {i : Nat}

/-- What is kept depends only on which paths are selected. -/
lemma kept_congr (same : ∀ q, S q ↔ T q) : Kept S p ↔ Kept T p := by
  simp only [Kept, same]

/-- Of two selections together a node is kept if it is kept of one of them. -/
lemma kept_or : Kept (fun q => S q ∨ T q) p ↔ Kept S p ∨ Kept T p := by
  simp only [Kept, or_and_right, exists_or]

/-- The node itself is kept if anything is selected. -/
lemma kept_nil : Kept S [] ↔ ∃ q, S q := by
  simp [Kept]

/-- Everything is kept below a node that is selected itself. -/
lemma Kept.of_nil (all : S []) : Kept S p :=
  ⟨[], all, .inl List.nil_prefix⟩

/-- Below a child of a node that is not selected itself, what is kept is what is kept of the child's
own selection. -/
lemma kept_cons (proper : ¬S []) : Kept S (i :: p) ↔ Kept (fun q => S (i :: q)) p := by
  constructor
  · rintro ⟨q, sel, near⟩
    cases q with
    | nil => exact absurd sel proper
    | cons j q =>
      rw [List.cons_prefix_cons, List.cons_prefix_cons] at near
      rcases near with ⟨rfl, near⟩ | ⟨rfl, near⟩
      · exact ⟨q, sel, .inl near⟩
      · exact ⟨q, sel, .inr near⟩
  · rintro ⟨q, sel, near⟩
    exact ⟨i :: q, sel, by simpa [List.cons_prefix_cons] using near⟩

end

/-! ## Picks by paths -/

namespace Pick

/-- Whether the node at a path is picked, with or without all that is below it. -/
def keeps : Pick → List Nat → Bool
  | nothing, _ => false
  | whole, _ => true
  | within _, [] => true
  | within picks, i :: p => (picks.getD i nothing).keeps p

/-- A pick of nothing keeps no path. -/
@[simp]
lemma keeps_nothing (p : List Nat) : nothing.keeps p = false := by
  cases p <;> rfl

/-- A pick of the whole node keeps every path. -/
@[simp]
lemma keeps_whole (p : List Nat) : whole.keeps p = true := by
  cases p <;> rfl

/-- The node itself is kept by every pick but that of nothing. -/
lemma keeps_nil (pick : Pick) : pick.keeps [] = !pick.isNothing := by
  cases pick <;> rfl

/-- Only the pick of nothing counts as nothing. -/
lemma nothing_of_isNothing {pick : Pick} (none : pick.isNothing = true) : pick = nothing := by
  cases pick with
  | nothing => rfl
  | _ => cases none

/-- Two lists of picks are united position by position, where a missing pick is one of nothing. -/
lemma getD_unionAll (ps qs : List Pick) (i : Nat) :
    (unionAll ps qs).getD i nothing = (ps.getD i nothing).union (qs.getD i nothing) := by
  have right (p : Pick) : p.union nothing = p := by
    cases p <;> rfl
  induction ps generalizing qs i with
  | nil => cases qs <;> cases i <;> simp [unionAll, union]
  | cons p ps ih =>
    cases qs with
    | nil => cases i <;> simp [unionAll, right]
    | cons q qs =>
      cases i with
      | zero => simp [unionAll]
      | succ i => simpa [unionAll] using ih qs i

/-- Of two picks together a node is picked if it is picked by one of them. -/
lemma keeps_union (a b : Pick) (p : List Nat) : (a.union b).keeps p = (a.keeps p || b.keeps p) := by
  induction p generalizing a b with
  | nil => cases a <;> cases b <;> rfl
  | cons i p ih =>
    cases a with
    | nothing => rw [union, keeps_nothing, Bool.false_or]
    | whole => cases b <;> simp [union]
    | within picks =>
      cases b with
      | nothing => simp [union]
      | whole => simp [union]
      | within picks' =>
        rw [union, keeps, keeps, keeps, getD_unionAll]
        exact ih _ _

/-- A node with picked children is picked if one of them is. -/
lemma keeps_ofChildren_nil (picks : List Pick) :
    (ofChildren picks).keeps [] = true ↔ ∃ i, (picks.getD i nothing).keeps [] = true := by
  have some : (ofChildren picks).keeps [] = true ↔ ∃ pick ∈ picks, pick.isNothing = false := by
    rw [keeps_nil]
    unfold ofChildren
    split
    · next none => simpa [isNothing] using none
    · next some => simpa [isNothing] using some
  rw [some]
  constructor
  · rintro ⟨pick, mem, some⟩
    obtain ⟨i, here⟩ := List.mem_iff_getElem?.mp mem
    exact ⟨i, by simp [here, keeps_nil, some]⟩
  · rintro ⟨i, kept⟩
    rw [List.getD_eq_getElem?_getD] at kept
    cases here : picks[i]? with
    | none => simp [here] at kept
    | some pick => exact ⟨pick, List.mem_of_getElem? here, by simpa [here, keeps_nil] using kept⟩

/-- A node with picked children keeps below a child what the child's pick keeps. -/
lemma keeps_ofChildren_cons (picks : List Pick) (i : Nat) (p : List Nat) :
    (ofChildren picks).keeps (i :: p) = (picks.getD i nothing).keeps p := by
  unfold ofChildren
  split
  · next none =>
    rw [List.all_eq_true] at none
    rw [List.getD_eq_getElem?_getD]
    cases here : picks[i]? with
    | none => simp
    | some pick => simp [nothing_of_isNothing (none _ (List.mem_of_getElem? here))]
  · rfl

/-- Picks of children that keep what is selected of them keep what is selected. -/
lemma keeps_ofChildren {picks : List Pick} {S : List Nat → Prop} (proper : ¬S [])
    (each : ∀ i p, (picks.getD i nothing).keeps p = true ↔ Kept (fun q => S (i :: q)) p)
    (p : List Nat) : (ofChildren picks).keeps p = true ↔ Kept S p := by
  cases p with
  | nil =>
    simp only [keeps_ofChildren_nil, each, kept_nil]
    constructor
    · rintro ⟨i, q, sel⟩
      exact ⟨i :: q, sel⟩
    · rintro ⟨q, sel⟩
      cases q with
      | nil => exact absurd sel proper
      | cons i q => exact ⟨i, q, sel⟩
  | cons i p => rw [keeps_ofChildren_cons, each, kept_cons proper]

end Pick

/-! ## Texts and keys -/

section

variable {name : QName} {text : String} {d : Node} {fs ds : List Node}

/-- The test for a leaf with a text decides the property. -/
lemma isLeafWith_iff : isLeafWith name text d = true ↔ LeafWith name text d := by
  simp only [isLeafWith, Bool.and_eq_true, QName.covers_iff, beq_iff_eq]
  constructor
  · rintro ⟨named, text⟩
    refine ⟨named, ?_, text⟩
    cases d with
    | leaf => rfl
    | container => cases text
  · exact fun h => ⟨h.named, h.text⟩

/-- The test whether the texts asked for are there decides the property. -/
lemma holds_iff : holds fs d.children = true ↔ Holds fs d := by
  simp only [holds, List.all_eq_true, Holds]
  refine forall₂_congr fun f mem => ?_
  cases kind f with
  | contentMatch text =>
    simp only [List.any_eq_true, isLeafWith_iff]
    constructor
    · rintro found _ eq
      cases eq
      exact found
    · exact fun found => found _ rfl
  | _ => simp

/-- The look-up of a leaf with a name and a text finds the first child that is one. -/
lemma keyLeaf_iff {i : Nat} :
    d.children.findIdx? (isLeafWith name text) = some i ↔ KeyLeaf name text d i := by
  rw [List.findIdx?_eq_some_iff_getElem]
  constructor
  · rintro ⟨lt, here, first⟩
    refine ⟨⟨_, List.getElem?_eq_getElem lt, isLeafWith_iff.mp here⟩, ?_⟩
    intro j before c eq other
    obtain ⟨lt', rfl⟩ := List.getElem?_eq_some_iff.mp eq
    exact first j before (isLeafWith_iff.mpr other)
  · rintro ⟨⟨c, eq, here⟩, first⟩
    obtain ⟨lt, rfl⟩ := List.getElem?_eq_some_iff.mp eq
    refine ⟨lt, isLeafWith_iff.mpr here, ?_⟩
    intro j before other
    exact first j before _ (List.getElem?_eq_getElem _) (isLeafWith_iff.mp other)

end

/-- What the look-up of the attributes of a filter node comes to. -/
inductive Looked (node : QName) (attributes : List Attribute) (d : Node) :
    Option (List Nat) → Prop where
  | missing :
    ¬(∀ a ∈ attributes, ∃ c ∈ d.children, LeafWith (keyName node a.name) a.value c) →
    Looked node attributes d none
  | found {keys} :
    (∀ a ∈ attributes, ∃ c ∈ d.children, LeafWith (keyName node a.name) a.value c) →
    (∀ i, i ∈ keys ↔ ∃ a ∈ attributes, KeyLeaf (keyName node a.name) a.value d i) →
    Looked node attributes d (some keys)

/-- The look-up of keys finds the first leaf for each attribute, or fails if one has none. -/
lemma looked_keys? (node : QName) (attributes : List Attribute) (d : Node) :
    Looked node attributes d (keys? node attributes d.children) := by
  induction attributes with
  | nil => exact .found (List.forall_mem_nil _) (by simp)
  | cons a rest ih =>
    rw [keys?, List.mapM_cons]
    rw [keys?] at ih
    cases here : d.children.findIdx? (isLeafWith (keyName node a.name) a.value) with
    | none =>
      refine .missing fun all => ?_
      obtain ⟨c, mem, leaf⟩ := all a List.mem_cons_self
      exact Bool.false_ne_true
        ((List.findIdx?_eq_none_iff.mp here c mem).symm.trans (isLeafWith_iff.mpr leaf))
    | some i =>
      have key := keyLeaf_iff.mp here
      obtain ⟨c, eq, leaf⟩ := key.here
      cases later : rest.mapM fun a =>
          d.children.findIdx? (isLeafWith (keyName node a.name) a.value) with
      | none =>
        rw [later] at ih
        obtain ⟨missing⟩ := ih
        exact .missing fun all => missing fun a mem => all a (List.mem_cons_of_mem _ mem)
      | some keys =>
        rw [later] at ih
        obtain _ | ⟨found, mem_keys⟩ := ih
        refine .found (List.forall_mem_cons.mpr ⟨⟨c, List.mem_of_getElem? eq, leaf⟩, found⟩) ?_
        intro j
        -- There is one first leaf for an attribute.
        have only : j = i ↔ KeyLeaf (keyName node a.name) a.value d j := by
          rw [← keyLeaf_iff, here, Option.some.injEq, eq_comm]
        simp [mem_keys, only]

/-! ## Picks of filters -/

/-- What a group of filter nodes picks of a data node, with the leaves at the given positions. -/
def level (keys : List Nat) (fs : List Node) (d : Node) : Pick :=
  if !holds fs d.children then .nothing
  else if fs.all isContentMatch then .whole
  else .ofChildren (withKeys keys (d.children.map (pickAny fs)))

section

variable {g d : Node} {fs : List Node} {keys : List Nat}

/-- A containment node picks nothing of a data node that it does not speak of, and otherwise what
its children pick there, with the keys. -/
lemma pick_of_containment (con : kind g = .containment) :
    pick g d =
      if !g.name.covers d.name || d.isLeaf then .nothing
      else
        match keys? g.name g.attributes d.children with
        | none => .nothing
        | some keys => level keys g.children d := by
  cases g with
  | container => rw [pick]; rfl
  | leaf name attributes text =>
    cases text with
    | some text => cases con
    | none =>
      cases attributes with
      | nil => cases con
      | cons a rest =>
        -- Without children there is nothing that could fail to hold.
        have bare (keys : List Nat) : level keys [] d = .whole := rfl
        rw [pick]
        change _ = if !name.covers d.name || d.isLeaf then Pick.nothing
          else match keys? name (a :: rest) d.children with
            | none => Pick.nothing
            | some keys => level keys [] d
        simp only [bare]
        cases name.covers d.name <;> cases d.isLeaf <;> rfl

/-- Of a leaf all is picked or nothing. -/
lemma pick_of_isLeaf (f : Node) (leaf : d.isLeaf = true) :
    pick f d = .nothing ∨ pick f d = .whole := by
  cases con : kind f with
  | containment =>
    left
    rw [pick_of_containment con, leaf, Bool.or_true, if_pos rfl]
  | _ =>
    cases f with
    | container => cases con
    | leaf name attributes text =>
      cases text with
      | some text =>
        rw [pick]
        split
        · exact .inr rfl
        · exact .inl rfl
      | none =>
        cases attributes with
        | cons => cases con
        | nil =>
          rw [pick]
          cases name.covers d.name <;> simp

/-- Of a leaf several filter nodes together pick all or nothing too. -/
lemma pickAny_of_isLeaf (leaf : d.isLeaf = true) :
    pickAny fs d = .nothing ∨ pickAny fs d = .whole := by
  induction fs with
  | nil => exact .inl (by rw [pickAny])
  | cons f rest ih =>
    rw [pickAny]
    rcases pick_of_isLeaf f leaf with one | one <;> rcases ih with more | more <;>
      simp [one, more, Pick.union]

/-- Of each child is picked what the filter nodes pick of it, or all of it where that is nothing and
it is a key. -/
lemma getD_withKeys (i : Nat) :
    (withKeys keys (d.children.map (pickAny fs))).getD i .nothing =
      match d.children[i]? with
      | none => .nothing
      | some c => if (pickAny fs c).isNothing && keys.contains i then .whole else pickAny fs c := by
  rw [withKeys, List.getD_eq_getElem?_getD, List.getElem?_mapIdx, List.getElem?_map]
  cases d.children[i]? <;> rfl

/-- A group of filter nodes that pick what they select picks what it selects. -/
lemma keeps_level
    (each : ∀ c p, (pickAny fs c).keeps p = true ↔ Kept (fun q => ∃ f ∈ fs, Takes f c q) p)
    (leaf : ∀ i ∈ keys, ∃ c, d.children[i]? = some c ∧ c.isLeaf = true) (p : List Nat) :
    (level keys fs d).keeps p = true ↔
      Kept (fun q => Selects fs d q ∨ Holds fs d ∧ ∃ i ∈ keys, q = [i]) p := by
  unfold level
  split
  · next fails =>
    have fails : ¬Holds fs d := by
      rw [← holds_iff]
      simpa using fails
    refine iff_of_false (by simp) ?_
    rintro ⟨q, sel | sel, -⟩
    · cases sel with
      | whole holding => exact fails holding
      | child holding => exact fails holding
    · exact fails sel.1
  next holding =>
  have holding : Holds fs d := by
    rw [← holds_iff]
    simpa using holding
  split
  · next all =>
    rw [List.all_eq_true] at all
    exact iff_of_true (Pick.keeps_whole p) (.of_nil (.inl (.whole holding all)))
  next all =>
  rw [List.all_eq_true] at all
  refine Pick.keeps_ofChildren ?_ ?_ p
  · rintro (sel | ⟨-, i, -, eq⟩)
    · cases sel with
      | whole _ all' => exact all all'
    · cases eq
  · intro i p
    -- A child is reached by what the filter nodes take of it, or because it is a key.
    have child (q : List Nat) :
        (Selects fs d (i :: q) ∨ Holds fs d ∧ ∃ j ∈ keys, i :: q = [j]) ↔
          (∃ c, d.children[i]? = some c ∧ ∃ f ∈ fs, Takes f c q) ∨ i ∈ keys ∧ q = [] := by
      constructor
      · rintro (sel | ⟨-, j, mem, eq⟩)
        · cases sel with
          | child _ mem here takes => exact .inl ⟨_, here, _, mem, takes⟩
        · cases eq
          exact .inr ⟨mem, rfl⟩
      · rintro (⟨c, here, f, mem, takes⟩ | ⟨mem, rfl⟩)
        · exact .inl (.child holding mem here takes)
        · exact .inr ⟨holding, i, mem, rfl⟩
    rw [kept_congr child, getD_withKeys]
    cases here : d.children[i]? with
    | none =>
      refine iff_of_false (by simp) ?_
      rintro ⟨q, ⟨c, eq, -⟩ | ⟨mem, -⟩, -⟩
      · cases eq
      · obtain ⟨c, eq, -⟩ := leaf i mem
        rw [here] at eq
        cases eq
    | some c =>
      simp only [Option.some.injEq, exists_eq_left', kept_or, ← each]
      by_cases mem : i ∈ keys
      · -- A key is a leaf, so what is picked of it is nothing or all.
        obtain ⟨c', eq, isLeaf⟩ := leaf i mem
        rw [here, Option.some.injEq] at eq
        subst eq
        refine iff_of_true ?_ (.inr (.of_nil ⟨mem, rfl⟩))
        rcases @pickAny_of_isLeaf _ fs isLeaf with eq | eq <;> simp [eq, mem, Pick.isNothing]
      · simp [mem, Kept]

/-- A containment node picks what it selects if its children do. -/
lemma keeps_containment (con : kind g = .containment)
    (each : ∀ c p,
      (pickAny g.children c).keeps p = true ↔ Kept (fun q => ∃ f ∈ g.children, Takes f c q) p)
    (p : List Nat) : (pick g d).keeps p = true ↔ Kept (Takes g d) p := by
  -- Whatever is taken, the node speaks of the data node, and so that is looked at first.
  have describes (q : List Nat) (takes : Takes g d q) : Describes g d := by
    cases takes with
    | content eq => rw [con] at eq; cases eq
    | selection eq => rw [con] at eq; cases eq
    | within _ de => exact de
    | key _ de => exact de
  rw [pick_of_containment con]
  split
  · next other =>
    refine iff_of_false (by simp) ?_
    rintro ⟨q, takes, -⟩
    have de := describes q takes
    simp [QName.covers_iff.mpr de.named, Bool.not_eq_true' _ |>.mp de.container] at other
  next some =>
    simp only [Bool.or_eq_true, Bool.not_eq_true', not_or, Bool.not_eq_false,
      Bool.not_eq_true] at some
    have looked := looked_keys? g.name g.attributes d
    generalize keys? g.name g.attributes d.children = keys at looked
    cases looked with
    | missing missing =>
      refine iff_of_false (by simp) ?_
      rintro ⟨q, takes, -⟩
      exact missing (describes q takes).keys
    | @found keys found mem_keys =>
      have de : Describes g d := by
        refine ⟨?_, QName.covers_iff.mp some.1, found⟩
        rw [Node.isContainer, some.2, Bool.not_false]
      refine (keeps_level each ?_ p).trans (kept_congr fun q => ?_)
      · intro i mem
        obtain ⟨a, -, key⟩ := (mem_keys i).mp mem
        obtain ⟨c, eq, leaf⟩ := key.here
        exact ⟨c, eq, leaf.leaf⟩
      · constructor
        · rintro (sel | ⟨holding, i, mem, rfl⟩)
          · exact .within con de sel
          · obtain ⟨a, mem, key⟩ := (mem_keys i).mp mem
            exact .key con de holding mem key
        · intro takes
          cases takes with
          | content eq => rw [con] at eq; cases eq
          | selection eq => rw [con] at eq; cases eq
          | within _ _ sel => exact .inl sel
          | key _ _ holding mem key => exact .inr ⟨holding, _, (mem_keys _).mpr ⟨_, mem, key⟩, rfl⟩

end

mutual

/-- A filter node picks what it selects. -/
lemma keeps_pick (f d : Node) (p : List Nat) :
    (pick f d).keeps p = true ↔ Kept (Takes f d) p := by
  match f with
  | .container name attributes children =>
    have each (c : Node) (p : List Nat) :
        (pickAny children c).keeps p = true ↔ Kept (fun q => ∃ f ∈ children, Takes f c q) p :=
      keeps_pickAny children c p
    exact keeps_containment (g := .container name attributes children) rfl each p
  | .leaf name (a :: rest) none =>
    -- With attributes and without children it is a containment node too.
    have each (c : Node) (p : List Nat) :
        (pickAny [] c).keeps p = true ↔ Kept (fun q => ∃ f ∈ [], Takes f c q) p :=
      keeps_pickAny [] c p
    exact keeps_containment (g := .leaf name (a :: rest) none) rfl each p
  | .leaf name attributes (some text) =>
    have takes (q : List Nat) :
        Takes (.leaf name attributes (some text)) d q ↔ LeafWith name text d ∧ q = [] := by
      constructor
      · rintro (⟨eq, leaf⟩ | ⟨eq, -⟩ | ⟨eq, -, -⟩ | ⟨eq, -, -, -, -⟩) <;> cases eq
        exact ⟨leaf, rfl⟩
      · rintro ⟨leaf, rfl⟩
        exact .content rfl leaf
    rw [pick, kept_congr takes]
    split
    · next leaf => exact iff_of_true (by simp) (.of_nil ⟨isLeafWith_iff.mp leaf, rfl⟩)
    · next other =>
      refine iff_of_false (by simp) ?_
      rintro ⟨q, ⟨leaf, -⟩, -⟩
      exact other (isLeafWith_iff.mpr leaf)
  | .leaf name [] none =>
    have takes (q : List Nat) : Takes (.leaf name [] none) d q ↔ name.Names d.name ∧ q = [] := by
      constructor
      · rintro (⟨eq, -⟩ | ⟨-, named⟩ | ⟨eq, -, -⟩ | ⟨eq, -, -, -, -⟩)
        · cases eq
        · exact ⟨named, rfl⟩
        · cases eq
        · cases eq
      · rintro ⟨named, rfl⟩
        exact .selection rfl named
    rw [pick, kept_congr takes]
    cases named : name.covers d.name with
    | true => exact iff_of_true (by simp) (.of_nil ⟨QName.covers_iff.mp named, rfl⟩)
    | false =>
      refine iff_of_false (by simp) ?_
      rintro ⟨q, ⟨same, -⟩, -⟩
      exact Bool.false_ne_true (named.symm.trans (QName.covers_iff.mpr same))

/-- Several filter nodes together pick what one of them selects. -/
lemma keeps_pickAny (fs : List Node) (d : Node) (p : List Nat) :
    (pickAny fs d).keeps p = true ↔ Kept (fun q => ∃ f ∈ fs, Takes f d q) p := by
  match fs with
  | [] => simp [pickAny, Kept]
  | f :: rest =>
    rw [pickAny, Pick.keeps_union, Bool.or_eq_true, keeps_pick f d, keeps_pickAny rest d, ← kept_or]
    exact kept_congr fun q => by simp

end

/-- A filter with children picks of the data what they pick as a group, without keys. -/
lemma evaluate_eq_level {data filter : Node} (some : filter.children ≠ []) :
    evaluate data filter = level [] filter.children data := by
  have plain (picks : List Pick) : withKeys [] picks = picks := by
    simp [withKeys, List.mapIdx_eq_zipIdx_map]
  rw [evaluate, level, plain]
  simp [some]

/-- A filter with children picks what they select. -/
lemma keeps_evaluate {data filter : Node} (some : filter.children ≠ []) (p : List Nat) :
    (evaluate data filter).keeps p = true ↔ Kept (Selects filter.children data) p := by
  rw [evaluate_eq_level some, keeps_level (keeps_pickAny _) (List.forall_mem_nil _)]
  exact kept_congr fun q => by simp

end Filter

end Netconf
