import Netconf.Proofs.Filter.Pruning
import Netconf.Proofs.Tree.Parts

/-!
# Filtering twice

A filter leaves of filtered data all that there is (`apply_idempotent`). What it picks of a pruned
node is what it picked of the whole node, provided that the pruning has left that (`pick_restrict`):
the leaves that it asks for are among them, so they are still found, and pruning brings nothing that
was not there before.
-/

namespace Netconf.Filter

namespace Pick

/-! ## Picks of what is left -/

mutual

/-- A pick of a node as a pick of what another one leaves of the node. -/
def after (p q : Pick) : Pick :=
  match q, p with
  | within qs, within ps => within (afterAll ps qs)
  | _, p => p

/-- Picks of several nodes as picks of what others leave of them. -/
def afterAll (ps qs : List Pick) : List Pick :=
  match qs, ps with
  | nothing :: qs, _ :: ps => afterAll ps qs
  | q :: qs, p :: ps => p.after q :: afterAll ps qs
  | _, _ => []

end

/-- All that the one picks is picked by the other. -/
def Below (p q : Pick) : Prop :=
  ∀ path, p.keeps path = true → q.keeps path = true

/-- All that the ones pick of several nodes is picked by the others. -/
def AllBelow (ps qs : List Pick) : Prop :=
  ∀ i, (ps.getD i nothing).Below (qs.getD i nothing)

section

variable {p p' q : Pick} {ps qs : List Pick}

/-- Of two picks that are within a third one together each is. -/
lemma Below.of_union (below : (p.union p').Below q) : p.Below q ∧ p'.Below q := by
  constructor
  · intro path kept
    exact below path (by rw [keeps_union, kept, Bool.true_or])
  · intro path kept
    exact below path (by rw [keeps_union, kept, Bool.or_true])

/-- A pick is of nothing if it is within one of nothing. -/
lemma Below.isNothing (below : p.Below q) (none : q.isNothing = true) : p.isNothing = true := by
  have here := below []
  rw [keeps_nil, keeps_nil, none] at here
  cases some : p.isNothing with
  | true => rfl
  | false => rw [some] at here; cases here rfl

/-- The children of a node come to an end, and picking all of it does not. -/
lemma not_whole_below (qs : List Pick) : ¬whole.Below (within qs) := by
  intro below
  have beyond := below [qs.length] (keeps_whole _)
  rw [keeps, List.getD_eq_getElem?_getD, List.getElem?_length] at beyond
  cases beyond

/-- What is picked of each child is within what another pick has of it, if that holds of the node.
-/
lemma Below.children (below : (ofChildren ps).Below (within qs)) : AllBelow ps qs := by
  intro i path kept
  rw [← keeps_ofChildren_cons] at kept
  exact below (i :: path) kept

/-- Without the first node picks stay within the others. -/
lemma AllBelow.tail (below : AllBelow (p :: ps) qs) : AllBelow ps qs.tail := by
  intro i
  have later := below (i + 1)
  cases qs <;> exact later

/-- A pick of nothing is one of nothing in what another leaves. -/
lemma nothing_after (q : Pick) : nothing.after q = nothing := by
  cases q <;> rfl

/-- A pick of the whole is one of the whole in what another leaves. -/
lemma whole_after (q : Pick) : whole.after q = whole := by
  cases q <;> rfl

/-- Taking a pick as one of what another leaves makes it neither nothing nor something. -/
lemma isNothing_after : (p.after q).isNothing = p.isNothing := by
  cases q <;> cases p <;> rfl

/-- A node that is not left has no pick among those of what is left. -/
lemma afterAll_nothing (p : Pick) (ps qs : List Pick) :
    afterAll (p :: ps) (nothing :: qs) = afterAll ps qs := by
  rw [afterAll]

/-- A node that is left has its pick taken as one of what is left of it. -/
lemma afterAll_cons (p : Pick) (ps qs : List Pick) (some : q.isNothing = false) :
    afterAll (p :: ps) (q :: qs) = p.after q :: afterAll ps qs := by
  cases q with
  | nothing => cases some
  | _ => rw [afterAll]; nofun

/-- Where more was left than was picked, all is still picked. -/
lemma all_isNothing_afterAll (below : AllBelow ps qs) :
    (afterAll ps qs).all isNothing = ps.all isNothing := by
  induction qs generalizing ps with
  | nil =>
    rw [afterAll]
    · refine (List.all_eq_true.mpr fun p mem => ?_).symm
      obtain ⟨i, lt, rfl⟩ := List.mem_iff_getElem.mp mem
      simpa [lt] using (below i).isNothing rfl
    · nofun
    · nofun
  | cons q qs ih =>
    cases ps with
    | nil => cases q <;> rw [afterAll] <;> nofun
    | cons p ps =>
      have first : p.Below q := below 0
      have rest := ih below.tail
      cases some : q.isNothing with
      | true =>
        rw [nothing_of_isNothing some, afterAll_nothing, rest, List.all_cons,
          first.isNothing some, Bool.true_and]
      | false => rw [afterAll_cons _ _ _ some, List.all_cons, List.all_cons, isNothing_after, rest]

/-- A pick of the children, within another one, is taken as one of what is left of each child. -/
lemma ofChildren_after (below : AllBelow ps qs) :
    (ofChildren ps).after (within qs) = ofChildren (afterAll ps qs) := by
  unfold ofChildren
  rw [all_isNothing_afterAll below]
  split
  · rfl
  · rfl

/-- Picks united with no picks stay as they are. -/
lemma unionAll_nil (ps : List Pick) : unionAll ps [] = ps := by
  cases ps <;> rfl

end

mutual

/-- Two picks are taken as picks of what another leaves together or each for itself. -/
lemma union_after (p p' q : Pick) : (p.union p').after q = (p.after q).union (p'.after q) := by
  match q with
  | nothing => simp only [after]
  | whole => simp only [after]
  | within qs =>
    cases p with
    | nothing => rw [union, nothing_after, union]
    | whole => cases p' <;> rfl
    | within ps =>
      cases p' with
      | nothing => rfl
      | whole => rfl
      | within ps' => simp only [union, after, unionAll_afterAll ps ps' qs]

/-- Two lists of picks are taken as picks of what others leave together or each for itself. -/
lemma unionAll_afterAll (ps ps' qs : List Pick) :
    afterAll (unionAll ps ps') qs = unionAll (afterAll ps qs) (afterAll ps' qs) := by
  match qs, ps, ps' with
  | [], ps, ps' => simp [afterAll, unionAll]
  | q :: qs, [], ps' => simp [afterAll, unionAll]
  | q :: qs, p :: ps, [] =>
    have none : afterAll [] (q :: qs) = [] := by simp [afterAll]
    rw [none, unionAll_nil, unionAll_nil]
  | q :: qs, p :: ps, p' :: ps' =>
    rw [unionAll]
    cases some : q.isNothing with
    | true =>
      obtain rfl := nothing_of_isNothing some
      rw [afterAll_nothing, afterAll_nothing, afterAll_nothing]
      exact unionAll_afterAll ps ps' qs
    | false =>
      rw [afterAll_cons _ _ _ some, afterAll_cons _ _ _ some, afterAll_cons _ _ _ some, unionAll,
        union_after p p' q, unionAll_afterAll ps ps' qs]

end

mutual

/-- Of what it has left itself a pick leaves all. -/
lemma restrict_after_self (q : Pick) (d : Node) :
    (q.after q).restrict (q.restrict d) = q.restrict d := by
  match q, d with
  | nothing, d => simp only [after, restrict]
  | whole, d => simp only [after, restrict]
  | within qs, .leaf .. => simp only [after, restrict]
  | within qs, .container name attributes ds =>
    have same := restrictAll_afterAll_self qs ds
    rw [after, restrict]
    cases left : restrictAll qs ds with
    | nil => rfl
    | cons d ds =>
      rw [Node.ofChildren, restrict, ← left, same, left]
      rfl

/-- Of what they have left themselves picks leave all. -/
lemma restrictAll_afterAll_self (qs : List Pick) (ds : List Node) :
    restrictAll (afterAll qs qs) (restrictAll qs ds) = restrictAll qs ds := by
  match qs, ds with
  | [], ds => rw [restrictAll_nil, restrictAll_of_nil]
  | q :: qs, [] => rw [restrictAll_of_nil, restrictAll_of_nil]
  | q :: qs, d :: ds =>
    cases some : q.isNothing with
    | true =>
      obtain rfl := nothing_of_isNothing some
      rw [afterAll_nothing, restrictAll_nothing]
      exact restrictAll_afterAll_self qs ds
    | false =>
      have still : (q.after q).isNothing = false := isNothing_after.trans some
      rw [afterAll_cons _ _ _ some, restrictAll_cons _ _ _ some, restrictAll_cons _ _ _ still,
        restrict_after_self q d, restrictAll_afterAll_self qs ds]

end

end Pick

/-! ## What is asked of a node -/

/-- A leaf that a filter asks for among the children of a node. -/
structure Asked where
  name : QName
  text : String

namespace Asked

def isMetBy (a : Asked) (d : Node) : Bool :=
  isLeafWith a.name a.text d

def isMetAmong (a : Asked) (ds : List Node) : Bool :=
  ds.any a.isMetBy

end Asked

/-- The leaves for the attributes of a filter node. -/
def keysOf (g : Node) : List Asked :=
  g.attributes.map fun a => ⟨keyName g.name a.name, a.value⟩

/-- The leaf whose text a filter node asks for. -/
def textOf? (f : Node) : Option Asked :=
  match kind f with
  | .contentMatch text => some ⟨f.name, text⟩
  | _ => none

/-- What filter nodes pick of a node that may be the leaf for a key. -/
def pickKeyed (keys : List Asked) (fs : List Node) (d : Node) : Pick :=
  if (pickAny fs d).isNothing && keys.any (·.isMetBy d) then .whole else pickAny fs d

/-- What filter nodes pick of several nodes, with the first leaf for each key. -/
def picksOf (keys : List Asked) (fs : List Node) : List Node → List Pick
  | [] => []
  | d :: ds => pickKeyed keys fs d :: picksOf (keys.filter (!·.isMetBy d)) fs ds

/-- What filter nodes pick of a node with the given children, next to which there are keys. -/
def groupPick (keys : List Asked) (fs ds : List Node) : Pick :=
  if !(keys ++ fs.filterMap textOf?).all (·.isMetAmong ds) then .nothing
  else if fs.all isContentMatch then .whole
  else .ofChildren (picksOf keys fs ds)

section

variable {keys : List Asked} {fs ds : List Node} {g d : Node} {a : Asked}

/-- A group holds if each leaf whose text it asks for is there. -/
lemma holds_eq_all (fs ds : List Node) :
    holds fs ds = (fs.filterMap textOf?).all (·.isMetAmong ds) := by
  induction fs with
  | nil => rfl
  | cons f fs ih =>
    rw [holds, List.all_cons, ← holds, ih, List.filterMap_cons, textOf?]
    cases kind f <;> rfl

/-- Each node has what the filter nodes pick of it, or all of it if that is nothing and it is the
first leaf for one of the keys. -/
lemma getElem?_picksOf (keys : List Asked) (fs ds : List Node) (i : Nat) :
    (picksOf keys fs ds)[i]? = ds[i]?.map fun d =>
      if (pickAny fs d).isNothing && keys.any (fun a => ds.findIdx? a.isMetBy == some i) then .whole
      else pickAny fs d := by
  induction ds generalizing keys i with
  | nil => rfl
  | cons d ds ih =>
    cases i with
    | zero =>
      have first (a : Asked) : ((d :: ds).findIdx? a.isMetBy == some 0) = a.isMetBy d := by
        rw [List.findIdx?_cons]
        cases a.isMetBy d <;> simp
      simp [picksOf, pickKeyed, first]
    | succ i =>
      have later (a : Asked) : ((d :: ds).findIdx? a.isMetBy == some (i + 1)) =
          (!a.isMetBy d && ds.findIdx? a.isMetBy == some i) := by
        rw [List.findIdx?_cons]
        cases a.isMetBy d <;> simp
      rw [picksOf, List.getElem?_cons_succ, List.getElem?_cons_succ, ih]
      simp only [later, List.any_filter]

/-- The first leaves for the keys are picked with what the filter nodes pick. -/
lemma withKeys_eq_picksOf {positions : List Nat}
    (first : ∀ i, i ∈ positions ↔ ∃ a ∈ keys, ds.findIdx? a.isMetBy = some i) :
    withKeys positions (ds.map (pickAny fs)) = picksOf keys fs ds := by
  refine List.ext_getElem? fun i => ?_
  have same : positions.contains i = keys.any fun a => ds.findIdx? a.isMetBy == some i := by
    rw [Bool.eq_iff_iff, List.contains_iff_mem, first]
    simp
  rw [getElem?_picksOf, withKeys, List.getElem?_mapIdx, List.getElem?_map, Option.map_map, same]
  rfl

/-- What a group picks can be found going once along the children. -/
lemma level_eq_groupPick {positions : List Nat}
    (first : ∀ i, i ∈ positions ↔ ∃ a ∈ keys, d.children.findIdx? a.isMetBy = some i)
    (met : keys.all (·.isMetAmong d.children) = true) :
    level positions fs d = groupPick keys fs d.children := by
  simp only [level, groupPick, List.all_append, met, Bool.true_and, holds_eq_all,
    withKeys_eq_picksOf first]

/-- A containment node picks of a container that it names what its children and the leaves for its
attributes pick there. -/
lemma pick_eq_groupPick (con : kind g = .containment) :
    pick g d =
      if !g.name.covers d.name || d.isLeaf then .nothing
      else groupPick (keysOf g) g.children d.children := by
  rw [pick_of_containment con]
  have looked := looked_keys? g.name g.attributes d
  generalize keys? g.name g.attributes d.children = positions at looked
  have met (a : Asked) :
      a.isMetAmong d.children = true ↔ ∃ c ∈ d.children, LeafWith a.name a.text c := by
    simp only [Asked.isMetAmong, List.any_eq_true, Asked.isMetBy, isLeafWith_iff]
  cases looked with
  | missing missing =>
    have fails : (keysOf g).all (·.isMetAmong d.children) = false := by
      simpa [keysOf, met] using missing
    simp [groupPick, fails]
  | @found positions found mem_positions =>
    have all : (keysOf g).all (·.isMetAmong d.children) = true := by
      simpa [keysOf, met] using found
    have first i : i ∈ positions ↔ ∃ a ∈ keysOf g, d.children.findIdx? a.isMetBy = some i := by
      rw [mem_positions, keysOf]
      simp only [List.mem_map, exists_exists_and_eq_and, ← keyLeaf_iff]
      rfl
    simp only [level_eq_groupPick first all]

/-- A filter with children picks of the data what they pick as a group. -/
lemma evaluate_eq_groupPick {data filter : Node} (more : filter.children ≠ []) :
    evaluate data filter = groupPick [] filter.children data.children :=
  (evaluate_eq_level more).trans (level_eq_groupPick (by simp) rfl)

end

/-! ## Asking what is left -/

open Pick

/-- The filter nodes pick of what is left of a node what they picked of the node, provided that this
is left. -/
def Lasting (fs : List Node) : Prop :=
  ∀ d q, (pickAny fs d).Below q → pickAny fs (q.restrict d) = (pickAny fs d).after q

section

variable {keys : List Asked} {fs ds : List Node} {g d : Node} {a : Asked}

/-- A node keeps its name when it is pruned. -/
lemma name_restrict (q : Pick) (d : Node) : (q.restrict d).name = d.name := by
  cases q with
  | within qs =>
    cases d with
    | leaf => simp only [restrict]
    | container => rw [restrict, Node.name_ofChildren]; rfl
  | _ => simp only [restrict]

/-- A node keeps its text when it is pruned. -/
lemma text_restrict (q : Pick) (d : Node) : (q.restrict d).text = d.text := by
  cases q with
  | within qs =>
    cases d with
    | leaf => simp only [restrict]
    | container => rw [restrict, Node.text_ofChildren]; rfl
  | _ => simp only [restrict]

/-- A leaf stays as it is, and a container does not become what is asked for. -/
lemma isMetBy_restrict (a : Asked) (q : Pick) (d : Node) :
    a.isMetBy (q.restrict d) = a.isMetBy d := by
  rw [Asked.isMetBy, Asked.isMetBy, isLeafWith, isLeafWith, name_restrict, text_restrict]

/-- Pruning brings nothing that is asked for. -/
lemma isMetAmong_of_restrictAll {qs : List Pick} (met : a.isMetAmong (restrictAll qs ds) = true) :
    a.isMetAmong ds = true := by
  induction qs generalizing ds with
  | nil =>
    rw [restrictAll_nil] at met
    cases met
  | cons q qs ih =>
    cases ds with
    | nil =>
      rw [restrictAll_of_nil] at met
      cases met
    | cons d ds =>
      rw [Asked.isMetAmong, List.any_cons, Bool.or_eq_true]
      cases some : q.isNothing with
      | true =>
        rw [nothing_of_isNothing some, restrictAll_nothing] at met
        exact .inr (ih met)
      | false =>
        rw [restrictAll_cons _ _ _ some, Asked.isMetAmong, List.any_cons, isMetBy_restrict,
          Bool.or_eq_true] at met
        exact met.imp_right ih

/-- A leaf that is asked for, by a key or by one of the filter nodes, is picked. -/
lemma isNothing_pickKeyed
    (picks : a ∈ keys ∨ ∀ d, a.isMetBy d = true → (pickAny fs d).isNothing = false)
    (met : a.isMetBy d = true) : (pickKeyed keys fs d).isNothing = false := by
  unfold pickKeyed
  split
  · rfl
  · next other =>
    cases none : (pickAny fs d).isNothing with
    | false => rfl
    | true =>
      rcases picks with mem | picks
      · rw [none, Bool.true_and, List.any_eq_true] at other
        exact absurd ⟨a, mem, met⟩ other
      · exact none.symm.trans (picks d met)

/-- What filter nodes pick of a node that may be a key they pick of what is left of it, if that is
left. -/
lemma pickKeyed_restrict {q : Pick} (lasting : Lasting fs)
    (below : (pickKeyed keys fs d).Below q) :
    pickKeyed keys fs (q.restrict d) = (pickKeyed keys fs d).after q := by
  have plain : (pickAny fs d).Below q := by
    cases none : (pickAny fs d).isNothing with
    | true =>
      rw [nothing_of_isNothing none]
      exact fun path kept => nomatch (keeps_nothing path).symm.trans kept
    | false => rwa [pickKeyed, none, Bool.false_and, if_neg Bool.false_ne_true] at below
  unfold pickKeyed
  rw [lasting d q plain, isNothing_after]
  simp only [isMetBy_restrict]
  split
  · rw [whole_after]
  · rfl

/-- What is asked for and picked is left. -/
lemma isMetAmong_restrictAll {qs : List Pick}
    (below : AllBelow (picksOf keys fs ds) qs)
    (picks : a ∈ keys ∨ ∀ d, a.isMetBy d = true → (pickAny fs d).isNothing = false)
    (met : a.isMetAmong ds = true) : a.isMetAmong (restrictAll qs ds) = true := by
  induction ds generalizing keys qs with
  | nil => cases met
  | cons d ds ih =>
    have first : (pickKeyed keys fs d).Below (qs.getD 0 .nothing) := below 0
    cases here : a.isMetBy d with
    | true =>
      have picked := isNothing_pickKeyed picks here
      cases qs with
      | nil => rw [first.isNothing rfl] at picked; cases picked
      | cons q qs =>
        have some : q.isNothing = false := by
          cases none : q.isNothing with
          | false => rfl
          | true => rw [first.isNothing none] at picked; cases picked
        rw [restrictAll_cons _ _ _ some, Asked.isMetAmong, List.any_cons, isMetBy_restrict, here,
          Bool.true_or]
    | false =>
      have later : a.isMetAmong ds = true := by
        simpa [Asked.isMetAmong, here] using met
      -- The leaf is still asked for behind a node that is not it.
      have still : a ∈ keys → a ∈ keys.filter (!·.isMetBy d) := by
        simp [here]
      have left := ih below.tail (picks.imp_left still) later
      cases qs with
      | nil => exact left
      | cons q qs =>
        cases some : q.isNothing with
        | true => rwa [nothing_of_isNothing some, restrictAll_nothing]
        | false =>
          rw [restrictAll_cons _ _ _ some, Asked.isMetAmong, List.any_cons, Bool.or_eq_true]
          exact .inr left

/-- Filter nodes pick of what is left what they picked before, if that is left. -/
lemma picksOf_restrictAll {qs : List Pick} (lasting : Lasting fs)
    (below : AllBelow (picksOf keys fs ds) qs) :
    picksOf keys fs (restrictAll qs ds) = afterAll (picksOf keys fs ds) qs := by
  induction ds generalizing keys qs with
  | nil =>
    rw [restrictAll_of_nil, picksOf]
    cases qs <;> simp [afterAll]
  | cons d ds ih =>
    cases qs with
    | nil =>
      rw [restrictAll_nil, picksOf]
      simp [afterAll]
    | cons q qs =>
      have first : (pickKeyed keys fs d).Below q := below 0
      have rest := ih below.tail
      rw [List.tail_cons] at rest
      cases some : q.isNothing with
      | true =>
        -- What is not left was not the leaf for a key.
        have none : keys.filter (!·.isMetBy d) = keys := by
          rw [List.filter_eq_self]
          intro a mem
          cases met : a.isMetBy d with
          | false => rfl
          | true =>
            have picked : (pickKeyed keys fs d).isNothing = false :=
              isNothing_pickKeyed (.inl mem) met
            rw [first.isNothing some] at picked
            cases picked
        rw [nothing_of_isNothing some, restrictAll_nothing, picksOf, afterAll_nothing, ← rest, none]
      | false =>
        have same : keys.filter (!·.isMetBy (q.restrict d)) = keys.filter (!·.isMetBy d) := by
          simp only [isMetBy_restrict]
        rw [restrictAll_cons _ _ _ some, picksOf, picksOf, afterAll_cons _ _ _ some, same, rest,
          pickKeyed_restrict lasting first]

/-- A leaf with the text that one of the filter nodes asks for is picked. -/
lemma isNothing_pickAny (mem : a ∈ fs.filterMap textOf?) (met : a.isMetBy d = true) :
    (pickAny fs d).isNothing = false := by
  obtain ⟨f, mem_f, asks⟩ := List.mem_filterMap.mp mem
  have takes : Takes f d [] := by
    unfold textOf? at asks
    split at asks
    · next text eq =>
      cases asks
      exact .content eq (isLeafWith_iff.mp met)
    · cases asks
  have kept := (keeps_pickAny fs d []).mpr (kept_nil.mpr ⟨[], f, mem_f, takes⟩)
  rwa [keeps_nil, Bool.not_eq_true'] at kept

/-- What filter nodes pick of a node they pick of what is left of it, if that is left. -/
lemma groupPick_restrictAll {qs : List Pick} (lasting : Lasting fs)
    (below : (groupPick keys fs ds).Below (.within qs)) :
    groupPick keys fs (restrictAll qs ds) = (groupPick keys fs ds).after (.within qs) := by
  unfold groupPick at below ⊢
  cases met : (keys ++ fs.filterMap textOf?).all (·.isMetAmong ds) with
  | false =>
    have still : (keys ++ fs.filterMap textOf?).all (·.isMetAmong (restrictAll qs ds)) = false := by
      rw [List.all_eq_false] at met ⊢
      obtain ⟨a, mem, unmet⟩ := met
      exact ⟨a, mem, fun met => unmet (isMetAmong_of_restrictAll met)⟩
    simp only [still, Bool.not_false, if_true, nothing_after]
  | true =>
    simp only [met, Bool.not_true, Bool.false_eq_true, if_false] at below ⊢
    cases texts : fs.all isContentMatch with
    | true =>
      rw [texts, if_pos rfl] at below
      exact absurd below (not_whole_below qs)
    | false =>
      rw [texts, if_neg Bool.false_ne_true] at below
      have still :
          (keys ++ fs.filterMap textOf?).all (·.isMetAmong (restrictAll qs ds)) = true := by
        rw [List.all_eq_true] at met ⊢
        intro a mem
        refine isMetAmong_restrictAll below.children ?_ (met a mem)
        exact (List.mem_append.mp mem).imp_right fun text _ => isNothing_pickAny text
      simp only [still, Bool.not_true, Bool.false_eq_true, if_false]
      rw [picksOf_restrictAll lasting below.children, ofChildren_after below.children]

/-- Of a node without children a group picks all or nothing. -/
lemma groupPick_nil (keys : List Asked) (fs : List Node) :
    groupPick keys fs [] = .nothing ∨ groupPick keys fs [] = .whole := by
  unfold groupPick
  split
  · exact .inl rfl
  · split
    · exact .inr rfl
    · exact .inl rfl

/-- What was picked of children of which none is left was nothing. -/
lemma groupPick_of_restrictAll_nil {qs : List Pick} (lasting : Lasting fs)
    (below : (groupPick keys fs ds).Below (.within qs)) (none : restrictAll qs ds = []) :
    (groupPick keys fs ds).after (.within qs) = .nothing := by
  have group := groupPick_restrictAll lasting below
  rw [none] at group
  rcases groupPick_nil keys fs with eq | eq
  · exact group.symm.trans eq
  · -- What is all of nothing was all of the node.
    rw [eq] at group
    generalize groupPick keys fs ds = p at group below
    cases p with
    | whole => exact absurd below (not_whole_below qs)
    | _ => cases group

/-- A containment node picks of what is left of a node what it picked of the node, if that is left
and its children are lasting. -/
lemma containment_restrict {q : Pick} (con : kind g = .containment)
    (lasting : Lasting g.children) (below : (pick g d).Below q) :
    pick g (q.restrict d) = (pick g d).after q := by
  match q, d with
  | .nothing, d => simp only [restrict, after]
  | .whole, d => simp only [restrict, after]
  | .within qs, .leaf .. =>
    simp only [restrict, pick_eq_groupPick con, Node.isLeaf, Bool.or_true, if_true, nothing_after]
  | .within qs, .container name attributes ds =>
    have eq : pick g (.container name attributes ds) =
        if !g.name.covers name then .nothing else groupPick (keysOf g) g.children ds := by
      rw [pick_eq_groupPick con, Node.isLeaf, Bool.or_false]
      rfl
    rw [eq] at below ⊢
    rw [restrict, pick_eq_groupPick con, Node.name_ofChildren, Node.children_ofChildren]
    cases covers : g.name.covers name with
    | false => rfl
    | true =>
      rw [covers, Bool.not_true, if_neg Bool.false_ne_true] at below
      rw [Bool.not_true, Bool.false_or, if_neg Bool.false_ne_true]
      cases left : restrictAll qs ds with
      | nil => exact (groupPick_of_restrictAll_nil lasting below left).symm
      | cons =>
        have group := groupPick_restrictAll lasting below
        rwa [left] at group

end

mutual

/-- What a filter node picks of a node it picks of what is left of it, if that is left. -/
lemma pick_restrict (f d : Node) (q : Pick) (below : (pick f d).Below q) :
    pick f (q.restrict d) = (pick f d).after q := by
  match f with
  | .container name attributes children =>
    exact containment_restrict (g := .container name attributes children) rfl
      (pickAny_restrict children) below
  | .leaf name (a :: rest) none =>
    exact containment_restrict (g := .leaf name (a :: rest) none) rfl
      (pickAny_restrict []) below
  | .leaf name attributes (some text) =>
    have same := isMetBy_restrict ⟨name, text⟩ q d
    unfold Asked.isMetBy at same
    rw [pick, pick, same]
    split
    · rw [whole_after]
    · rw [nothing_after]
  | .leaf name [] none =>
    rw [pick, pick, name_restrict]
    cases name.covers d.name with
    | true => exact (whole_after q).symm
    | false => exact (nothing_after q).symm

/-- What several filter nodes pick of a node they pick of what is left of it, if that is left. -/
lemma pickAny_restrict (fs : List Node) (d : Node) (q : Pick) (below : (pickAny fs d).Below q) :
    pickAny fs (q.restrict d) = (pickAny fs d).after q := by
  match fs with
  | [] => rw [pickAny, pickAny, nothing_after]
  | f :: rest =>
    rw [pickAny] at below ⊢
    obtain ⟨one, more⟩ := below.of_union
    rw [pickAny, union_after, pick_restrict f d q one, pickAny_restrict rest d q more]

end

/-- Of what a filter has left it picks all. -/
lemma evaluate_restrict (data filter : Node) :
    evaluate ((evaluate data filter).restrict data) filter =
      (evaluate data filter).after (evaluate data filter) := by
  cases eq : evaluate data filter with
  | nothing => rwa [restrict, nothing_after]; nofun
  | whole => rwa [restrict, whole_after]; nofun
  | within qs =>
    have more : filter.children ≠ [] := by
      intro none
      simp [evaluate, none] at eq
    rw [evaluate_eq_groupPick more] at eq ⊢
    cases data with
    | leaf =>
      rcases groupPick_nil [] filter.children with none | all
      · cases eq.symm.trans none
      · cases eq.symm.trans all
    | container name attributes ds =>
      rw [Node.children] at eq
      have below : (groupPick [] filter.children ds).Below (within qs) := fun path kept => eq ▸ kept
      have same := groupPick_restrictAll (pickAny_restrict _) below
      rw [eq] at same
      rwa [restrict, Node.children_ofChildren]

/-- A filter leaves a node of the data if it is valid, picks something, and the node is the data as
far as it is picked. -/
lemma apply_eq_some {data filter n : Node} :
    apply data (some filter) = .ok (some n) ↔
      validate filter = .ok () ∧ (evaluate data filter).isNothing = false ∧
        (evaluate data filter).restrict data = n := by
  rw [apply]
  cases validate filter with
  | error => simp [Except.map]
  | ok => cases evaluate data filter <;> simp [Except.map, isNothing]

/-- What a filter has left of the data it leaves as it is. -/
theorem apply_idempotent {data n : Node} {filter : Option Node}
    (left : apply data filter = .ok (some n)) : apply n filter = .ok (some n) := by
  cases filter with
  | none => rfl
  | some filter =>
    rw [apply_eq_some] at left ⊢
    obtain ⟨valid, some, rfl⟩ := left
    refine ⟨valid, ?_, ?_⟩
    · rwa [evaluate_restrict, isNothing_after]
    · rw [evaluate_restrict, restrict_after_self]

/-- Asks for the roles of the user with a name, which is given as a key, and for the names of the
users with a role. -/
def roleOfAndNamesOf (name role : String) : Node :=
  .container (.unqualified "filter") []
    [.container ⟨"urn:users", "user"⟩ [⟨.unqualified "name", name⟩]
      [.leaf (.unqualified "role") [] none],
    .container (.unqualified "user") []
      [.leaf ⟨"urn:users", "role"⟩ [] (some role), .leaf (.unqualified "name") [] none]]

/-- The example filter leaves two users of three, and these as they are when it is applied once
more. -/
theorem apply_idempotent_roleOfAndNamesOf :
    let data := users [user "alice" "1" "admin", user "bob" "2" "ops"]
    let filter := roleOfAndNamesOf "bob" "ops"
    let bob := .container ⟨"urn:users", "user"⟩ []
      [.leaf ⟨"urn:users", "name"⟩ [] (some "bob"), .leaf ⟨"urn:users", "role"⟩ [] (some "ops")]
    apply data (some filter) = .ok (some (users [bob])) ∧
      apply (users [bob]) (some filter) = .ok (some (users [bob])) := by
  intro data filter bob
  have left : apply data (some filter) = .ok (some (users [bob])) := by rfl
  exact ⟨left, apply_idempotent left⟩

end Netconf.Filter
