import Netconf.Proofs.Filter.Idempotent

/-!
# Filters that say the same

What is left of the data depends on nothing but what the children of a filter select of it, and that
on nothing but what each of them asks for and takes. So a filter can be changed at any place by what
says the same there (`Alike.containment`), and still answers the same (`AlikeAll.apply_eq`,
`AlikeAll.selects_eq`).
-/

namespace Netconf.Filter

namespace Pick

/-! ## Picks that keep the same -/

/-- Picks that keep the same are both of nothing or neither is. -/
lemma isNothing_congr {a b : Pick} (same : ∀ p, a.keeps p = b.keeps p) :
    a.isNothing = b.isNothing := by
  have here := same []
  rw [keeps_nil, keeps_nil] at here
  exact Bool.not_inj here

/-- The first pick decides on the first node, where a missing pick is one of nothing. -/
lemma restrictAll_head (ps : List Pick) (d : Node) (ds : List Node) :
    restrictAll ps (d :: ds) =
      if (ps.getD 0 nothing).isNothing then restrictAll ps.tail ds
      else (ps.getD 0 nothing).restrict d :: restrictAll ps.tail ds := by
  cases ps with
  | nil => simp [restrictAll_nil, isNothing]
  | cons p ps =>
    change _ = if p.isNothing then restrictAll ps ds else p.restrict d :: restrictAll ps ds
    cases some : p.isNothing with
    | true => rw [nothing_of_isNothing some, restrictAll_nothing, if_pos rfl]
    | false => rw [restrictAll_cons _ _ _ some, if_neg Bool.false_ne_true]

/-- Without the first pick each further one is a position earlier. -/
lemma getD_tail (ps : List Pick) (i : Nat) :
    ps.tail.getD i nothing = ps.getD (i + 1) nothing := by
  cases ps <;> rfl

mutual

/-- Picks that keep the same leave the same. -/
lemma restrict_congr (a b : Pick) (d : Node) (same : ∀ p, a.keeps p = b.keeps p) :
    a.restrict d = b.restrict d := by
  have none := isNothing_congr same
  match a, b, d with
  | nothing, nothing, d => rfl
  | nothing, whole, d => cases none
  | nothing, within _, d => cases none
  | whole, nothing, d => cases none
  | within _, nothing, d => cases none
  | whole, whole, d => rfl
  | whole, within bs, d => exact absurd (fun p kept => same p ▸ kept) (not_whole_below bs)
  | within as, whole, d => exact absurd (fun p kept => (same p).symm ▸ kept) (not_whole_below as)
  | within as, within bs, .leaf .. => simp only [restrict]
  | within as, within bs, .container name attributes children =>
    rw [restrict, restrict, restrictAll_congr as bs children fun i p => same (i :: p)]

/-- Lists of picks that keep the same at every position leave the same of the nodes. -/
lemma restrictAll_congr (as bs : List Pick) (ds : List Node)
    (same : ∀ i p, (as.getD i nothing).keeps p = (bs.getD i nothing).keeps p) :
    restrictAll as ds = restrictAll bs ds := by
  match ds with
  | [] => rw [restrictAll_of_nil, restrictAll_of_nil]
  | d :: ds =>
    have later (i : Nat) (p : List Nat) :
        (as.tail.getD i nothing).keeps p = (bs.tail.getD i nothing).keeps p := by
      rw [getD_tail, getD_tail]
      exact same (i + 1) p
    rw [restrictAll_head, restrictAll_head, isNothing_congr (same 0),
      restrict_congr _ _ d (same 0), restrictAll_congr _ _ ds later]

end

end Pick

/-! ## What is picked -/

/-- A filter picks nothing if and only if its children select nothing. -/
lemma isNothing_evaluate {data filter : Node} (more : filter.children ≠ []) :
    (evaluate data filter).isNothing = true ↔ ¬∃ q, Selects filter.children data q := by
  have kept := @keeps_evaluate data filter more []
  rw [Pick.keeps_nil, kept_nil] at kept
  rw [← kept, Bool.not_eq_true', Bool.not_eq_false]

/-! ## Valid filters -/

section

variable {attributes : List Attribute} {fs : List Node} {f : Node}

/-- A name is passed if it is well formed. -/
lemma checkName_eq_ok {q : QName} : checkName q = .ok () ↔ isWellFormed q = true := by
  rw [checkName]
  split
  · next ok => exact iff_of_true rfl ok
  · next bad => exact iff_of_false nofun bad

/-- Attributes are passed if all their names are well formed. -/
lemma checkAttributes_eq_ok :
    checkAttributes attributes = .ok () ↔ ∀ a ∈ attributes, isWellFormed a.name = true := by
  induction attributes with
  | nil => exact iff_of_true rfl (List.forall_mem_nil _)
  | cons a rest ih =>
    rw [List.forall_mem_cons, ← ih, ← checkName_eq_ok, checkAttributes]
    cases checkName a.name with
    | error => exact iff_of_false nofun fun both => nomatch both.1
    | ok => exact (and_iff_right rfl).symm

/-- Filter nodes are passed if each of them is. -/
lemma checkNodes_eq_ok : checkNodes fs = .ok () ↔ ∀ f ∈ fs, checkNode f = .ok () := by
  induction fs with
  | nil => exact iff_of_true rfl (List.forall_mem_nil _)
  | cons f rest ih =>
    rw [List.forall_mem_cons, ← ih, checkNodes]
    cases checkNode f with
    | error => exact iff_of_false nofun fun both => nomatch both.1
    | ok => exact (and_iff_right rfl).symm

/-- A node of a filter is passed if its names and those of its attributes are well formed, and the
nodes below it are passed. -/
lemma checkNode_eq_ok :
    checkNode f = .ok () ↔
      isWellFormed f.name = true ∧ (∀ a ∈ f.attributes, isWellFormed a.name = true) ∧
        ∀ c ∈ f.children, checkNode c = .ok () := by
  rw [← checkName_eq_ok, ← checkAttributes_eq_ok, ← checkNodes_eq_ok]
  cases f with
  | leaf name attributes text =>
    rw [checkNode]
    change _ ↔ checkName name = .ok () ∧ checkAttributes attributes = .ok () ∧
      checkNodes [] = .ok ()
    cases checkName name with
    | error => exact iff_of_false nofun fun all => nomatch all.1
    | ok => exact ⟨fun ok => ⟨rfl, ok, rfl⟩, fun all => all.2.1⟩
  | container name attributes children =>
    rw [checkNode]
    change _ ↔ checkName name = .ok () ∧ checkAttributes attributes = .ok () ∧
      checkNodes children = .ok ()
    cases checkName name with
    | error => exact iff_of_false nofun fun all => nomatch all.1
    | ok =>
      cases checkAttributes attributes with
      | error => exact iff_of_false nofun fun all => nomatch all.2.1
      | ok => exact ⟨fun ok => ⟨rfl, rfl, ok⟩, fun all => all.2.2⟩

/-- A filter is valid if its root has no text but white space and all nodes below it are passed. -/
lemma validate_eq_ok {filter : Node} :
    validate filter = .ok () ↔ (∀ t ∈ filter.text, Text.allBlank t = true) ∧
      ∀ f ∈ filter.children, checkNode f = .ok () := by
  rw [← checkNodes_eq_ok, validate]
  cases filter.text with
  | none => exact (and_iff_right nofun).symm
  | some text =>
    simp only [Option.mem_some_iff, forall_eq']
    split
    · next blank => exact (and_iff_right blank).symm
    · next other => exact iff_of_false nofun fun both => other both.1

end

/-! ## What groups and filter nodes select -/

section

variable {fs : List Node} {g d f : Node} {q : List Nat}

/-- A group that holds selects the node itself if all of it asks for texts, and below a child what
its nodes take of it. -/
lemma selects_iff :
    Selects fs d q ↔ Holds fs d ∧ (q = [] ∧ (∀ f ∈ fs, isContentMatch f = true) ∨
      ∃ i r, q = i :: r ∧ ∃ c, d.children[i]? = some c ∧ ∃ f ∈ fs, Takes f c r) := by
  constructor
  · intro sel
    cases sel with
    | whole holding texts => exact ⟨holding, .inl ⟨rfl, texts⟩⟩
    | child holding mem here takes => exact ⟨holding, .inr ⟨_, _, rfl, _, here, _, mem, takes⟩⟩
  · rintro ⟨holding, ⟨rfl, texts⟩ | ⟨i, r, rfl, c, here, f, mem, takes⟩⟩
    · exact .whole holding texts
    · exact .child holding mem here takes

/-- A group selects something if it holds and asks for texts only, or one of its nodes takes
something of a child. -/
lemma exists_selects_iff :
    (∃ q, Selects fs d q) ↔ Holds fs d ∧ ((∀ f ∈ fs, isContentMatch f = true) ∨
      ∃ c ∈ d.children, ∃ f ∈ fs, ∃ q, Takes f c q) := by
  constructor
  · rintro ⟨q, sel⟩
    cases sel with
    | whole holding texts => exact ⟨holding, .inl texts⟩
    | child holding mem here takes =>
      exact ⟨holding, .inr ⟨_, List.mem_of_getElem? here, _, mem, _, takes⟩⟩
  · rintro ⟨holding, texts | ⟨c, here, f, mem, q, takes⟩⟩
    · exact ⟨[], .whole holding texts⟩
    · obtain ⟨i, here⟩ := List.mem_iff_getElem?.mp here
      exact ⟨i :: q, .child holding mem here takes⟩

/-- A containment node takes of a data node that it speaks of what its children select and, where
they hold, its keys. -/
lemma takes_iff (con : kind g = .containment) :
    Takes g d q ↔ Describes g d ∧ (Selects g.children d q ∨ Holds g.children d ∧
      ∃ a ∈ g.attributes, ∃ i, q = [i] ∧ KeyLeaf (keyName g.name a.name) a.value d i) := by
  constructor
  · intro takes
    cases takes with
    | content eq => rw [con] at eq; cases eq
    | selection eq => rw [con] at eq; cases eq
    | within _ de sel => exact ⟨de, .inl sel⟩
    | key _ de holding mem key => exact ⟨de, .inr ⟨holding, _, mem, _, rfl, key⟩⟩
  · rintro ⟨de, sel | ⟨holding, a, mem, i, rfl, key⟩⟩
    · exact .within con de sel
    · exact .key con de holding mem key

/-- A filter node that asks for a text takes exactly the leaves with it, as a whole. -/
lemma takes_content_iff {text : String} (con : kind f = .contentMatch text) :
    Takes f d q ↔ LeafWith f.name text d ∧ q = [] := by
  constructor
  · intro takes
    cases takes with
    | content eq leaf => cases con.symm.trans eq; exact ⟨leaf, rfl⟩
    | selection eq => cases con.symm.trans eq
    | within eq => cases con.symm.trans eq
    | key eq => cases con.symm.trans eq
  · rintro ⟨leaf, rfl⟩
    exact .content con leaf

/-- Of the leaves with a name and a value one is the first. -/
lemma exists_keyLeaf {name : QName} {value : String}
    (found : ∃ c ∈ d.children, LeafWith name value c) : ∃ i, KeyLeaf name value d i := by
  obtain ⟨c, mem, leaf⟩ := found
  cases first : d.children.findIdx? (isLeafWith name value) with
  | none =>
    have other := List.findIdx?_eq_none_iff.mp first c mem
    exact absurd (other.symm.trans (isLeafWith_iff.mpr leaf)) Bool.false_ne_true
  | some i => exact ⟨i, keyLeaf_iff.mp first⟩

/-- A filter node with attributes selects something wherever it speaks of the data and its children
hold. -/
lemma exists_takes_iff (con : kind g = .containment) :
    (∃ q, Takes g d q) ↔
      Describes g d ∧ ((∃ q, Selects g.children d q) ∨ Holds g.children d ∧ g.attributes ≠ []) := by
  constructor
  · rintro ⟨q, takes⟩
    obtain ⟨de, sel | ⟨holding, a, mem, -⟩⟩ := (takes_iff con).mp takes
    · exact ⟨de, .inl ⟨q, sel⟩⟩
    · exact ⟨de, .inr ⟨holding, List.ne_nil_of_mem mem⟩⟩
  · rintro ⟨de, ⟨q, sel⟩ | ⟨holding, some⟩⟩
    · exact ⟨q, .within con de sel⟩
    · obtain ⟨a, mem⟩ := List.exists_mem_of_ne_nil _ some
      obtain ⟨i, key⟩ := exists_keyLeaf (de.keys a mem)
      exact ⟨[i], .key con de holding mem key⟩

/-- The text asked for is that of a content match, under the name of the node. -/
lemma textOf?_eq_some {a : Asked} :
    textOf? f = some a ↔ kind f = .contentMatch a.text ∧ f.name = a.name := by
  obtain ⟨name, text⟩ := a
  rw [textOf?]
  cases kind f with
  | contentMatch t => simp [and_comm]
  | _ => simp

/-- A filter node is a content match if it asks for some text. -/
lemma isContentMatch_iff : isContentMatch f = true ↔ ∃ a, textOf? f = some a := by
  rw [isContentMatch, textOf?]
  cases kind f <;> simp

/-- A group holds if the leaves that it asks for are there. -/
lemma holds_iff_asked :
    Holds fs d ↔
      ∀ a, (∃ f ∈ fs, textOf? f = some a) → ∃ c ∈ d.children, LeafWith a.name a.text c := by
  constructor
  · rintro holding a ⟨f, mem, asks⟩
    obtain ⟨eq, name⟩ := textOf?_eq_some.mp asks
    obtain ⟨c, here, leaf⟩ := holding f mem a.text eq
    exact ⟨c, here, name ▸ leaf⟩
  · intro met f mem text eq
    exact met ⟨f.name, text⟩ ⟨f, mem, textOf?_eq_some.mpr ⟨eq, rfl⟩⟩

end

/-! ## Filter nodes that say the same -/

/-- The filter nodes ask for the same text, or for none, and take the same of all data nodes with a
property. Whether they take something of a data node is the same without it. -/
structure Alike (P : Node → Prop) (f f' : Node) : Prop where
  asks : textOf? f = textOf? f'
  takesSome : ∀ d, (∃ q, Takes f d q) ↔ ∃ q, Takes f' d q
  takes : ∀ d, P d → ∀ q, Takes f d q ↔ Takes f' d q
  passed : checkNode f = .ok () → checkNode f' = .ok ()

/-- Each of the filter nodes has one among the others that says the same. -/
structure AlikeAll (P : Node → Prop) (fs fs' : List Node) : Prop where
  left : ∀ f ∈ fs, ∃ f' ∈ fs', Alike P f f'
  right : ∀ f' ∈ fs', ∃ f ∈ fs, Alike P f f'

section

variable {P : Node → Prop} {f f' f'' g g' d : Node} {fs fs' fs'' : List Node} {q : List Nat}

/-- Every filter node says the same as itself. -/
lemma Alike.refl (f : Node) : Alike P f f :=
  ⟨rfl, fun _ => .rfl, fun _ _ _ => .rfl, id⟩

/-- Filter nodes that say the same as a third one say the same as each other. -/
lemma Alike.trans (first : Alike P f f') (second : Alike P f' f'') : Alike P f f'' where
  asks := first.asks.trans second.asks
  takesSome d := (first.takesSome d).trans (second.takesSome d)
  takes d here q := (first.takes d here q).trans (second.takes d here q)
  passed ok := second.passed (first.passed ok)

namespace AlikeAll

/-- Filter nodes that are the same up to order and repetition say the same. -/
lemma of_mem_iff (same : ∀ f, f ∈ fs ↔ f ∈ fs') : AlikeAll P fs fs' where
  left f mem := ⟨f, (same f).mp mem, .refl f⟩
  right f mem := ⟨f, (same f).mpr mem, .refl f⟩

/-- Filter nodes say the same if the first ones do and the rest do. -/
lemma cons (first : Alike P f f') (rest : AlikeAll P fs fs') :
    AlikeAll P (f :: fs) (f' :: fs') where
  left := by
    refine List.forall_mem_cons.mpr ⟨⟨f', List.mem_cons_self, first⟩, fun g mem => ?_⟩
    obtain ⟨g', mem', alike⟩ := rest.left g mem
    exact ⟨g', List.mem_cons_of_mem _ mem', alike⟩
  right := by
    refine List.forall_mem_cons.mpr ⟨⟨f, List.mem_cons_self, first⟩, fun g' mem' => ?_⟩
    obtain ⟨g, mem, alike⟩ := rest.right g' mem'
    exact ⟨g, List.mem_cons_of_mem _ mem, alike⟩

/-- One of several filter nodes may be replaced by one that says the same. -/
lemma replace {before after : List Node} (one : Alike P f f') :
    AlikeAll P (before ++ f :: after) (before ++ f' :: after) := by
  induction before with
  | nil => exact .cons one (.of_mem_iff fun _ => .rfl)
  | cons g before ih => exact .cons (.refl g) ih

/-- Filter nodes that say the same as a third group say the same as each other. -/
lemma trans (first : AlikeAll P fs fs') (second : AlikeAll P fs' fs'') : AlikeAll P fs fs'' where
  left f mem := by
    obtain ⟨f', mem', alike⟩ := first.left f mem
    obtain ⟨f'', mem'', alike'⟩ := second.left f' mem'
    exact ⟨f'', mem'', alike.trans alike'⟩
  right f'' mem'' := by
    obtain ⟨f', mem', alike'⟩ := second.right f'' mem''
    obtain ⟨f, mem, alike⟩ := first.right f' mem'
    exact ⟨f, mem, alike.trans alike'⟩

/-- A property that nodes which say the same share holds of one of the nodes if it holds of one of
the others. -/
lemma exists_iff {Q : Node → Prop} (alike : AlikeAll P fs fs')
    (same : ∀ f f', Alike P f f' → (Q f ↔ Q f')) : (∃ f ∈ fs, Q f) ↔ ∃ f ∈ fs', Q f := by
  constructor
  · rintro ⟨f, mem, here⟩
    obtain ⟨f', mem', one⟩ := alike.left f mem
    exact ⟨f', mem', (same f f' one).mp here⟩
  · rintro ⟨f', mem', here⟩
    obtain ⟨f, mem, one⟩ := alike.right f' mem'
    exact ⟨f, mem, (same f f' one).mpr here⟩

/-- A property that nodes which say the same share holds of all of the nodes if it holds of all the
others. -/
lemma forall_iff {Q : Node → Prop} (alike : AlikeAll P fs fs')
    (same : ∀ f f', Alike P f f' → (Q f ↔ Q f')) : (∀ f ∈ fs, Q f) ↔ ∀ f ∈ fs', Q f := by
  constructor
  · intro all f' mem'
    obtain ⟨f, mem, one⟩ := alike.right f' mem'
    exact (same f f' one).mp (all f mem)
  · intro all f mem
    obtain ⟨f', mem', one⟩ := alike.left f mem
    exact (same f f' one).mpr (all f' mem')

/-- Groups that say the same hold of the same data nodes. -/
lemma holds_iff (alike : AlikeAll P fs fs') : Holds fs d ↔ Holds fs' d := by
  rw [holds_iff_asked, holds_iff_asked]
  refine forall_congr' fun a => imp_congr_left ?_
  exact alike.exists_iff fun f f' one => by rw [one.asks]

/-- Of groups that say the same both ask for texts only or neither does. -/
lemma texts_iff (alike : AlikeAll P fs fs') :
    (∀ f ∈ fs, isContentMatch f = true) ↔ ∀ f ∈ fs', isContentMatch f = true :=
  alike.forall_iff fun f f' one => by rw [isContentMatch_iff, isContentMatch_iff, one.asks]

/-- Groups that say the same select something of the same data nodes. -/
lemma exists_selects_iff (alike : AlikeAll P fs fs') :
    (∃ q, Selects fs d q) ↔ ∃ q, Selects fs' d q := by
  rw [Filter.exists_selects_iff, Filter.exists_selects_iff, alike.holds_iff, alike.texts_iff]
  refine and_congr_right fun _ => or_congr_right ?_
  refine exists_congr fun c => and_congr_right fun _ => ?_
  exact alike.exists_iff fun f f' one => one.takesSome c

/-- Groups that say the same of all children of a data node select the same of it. -/
lemma selects_iff (alike : AlikeAll P fs fs') (inside : ∀ c ∈ d.children, P c) :
    Selects fs d q ↔ Selects fs' d q := by
  rw [Filter.selects_iff, Filter.selects_iff, alike.holds_iff, alike.texts_iff]
  refine and_congr_right fun _ => or_congr_right ?_
  refine exists_congr fun i => exists_congr fun r => and_congr_right fun _ => ?_
  refine exists_congr fun c => and_congr_right fun here => ?_
  exact alike.exists_iff fun f f' one => one.takes c (inside c (List.mem_of_getElem? here)) r

/-- Of groups that say the same both are empty or neither is. -/
lemma nil_iff (alike : AlikeAll P fs fs') : fs = [] ↔ fs' = [] := by
  rw [List.eq_nil_iff_forall_not_mem, List.eq_nil_iff_forall_not_mem]
  exact alike.forall_iff fun _ _ _ => .rfl

end AlikeAll

/-- Filter nodes with the same name and the same attributes speak of the same data nodes. -/
lemma describes_congr (name : g.name = g'.name)
    (attributes : ∀ a, a ∈ g.attributes ↔ a ∈ g'.attributes) : Describes g d ↔ Describes g' d := by
  constructor
  · rintro ⟨container, named, keys⟩
    exact ⟨container, name ▸ named, fun a mem => name ▸ keys a ((attributes a).mpr mem)⟩
  · rintro ⟨container, named, keys⟩
    exact ⟨container, name ▸ named, fun a mem => name ▸ keys a ((attributes a).mp mem)⟩

/-- Filter nodes that ask for the same text say the same. -/
lemma Alike.content {text : String} (con : kind f = .contentMatch text)
    (con' : kind f' = .contentMatch text) (name : f.name = f'.name)
    (passed : checkNode f = .ok () → checkNode f' = .ok ()) : Alike P f f' where
  asks := by rw [textOf?, textOf?, con, con', name]
  takesSome d := by simp only [takes_content_iff con, takes_content_iff con', name]
  takes d _ q := by rw [takes_content_iff con, takes_content_iff con', name]
  passed := passed

/-- Filter nodes with the same attributes say the same if their children do. -/
lemma Alike.containment (con : kind g = .containment) (con' : kind g' = .containment)
    (name : g.name = g'.name) (attributes : ∀ a, a ∈ g.attributes ↔ a ∈ g'.attributes)
    (alike : AlikeAll P g.children g'.children) (inside : ∀ d, P d → ∀ c ∈ d.children, P c) :
    Alike P g g' where
  asks := by rw [textOf?, textOf?, con, con']
  takesSome d := by
    have some : g.attributes ≠ [] ↔ g'.attributes ≠ [] := by
      simp only [Ne, List.eq_nil_iff_forall_not_mem, attributes]
    rw [exists_takes_iff con, exists_takes_iff con', describes_congr name attributes,
      alike.exists_selects_iff, alike.holds_iff, some]
  takes d here q := by
    rw [takes_iff con, takes_iff con', describes_congr name attributes,
      alike.selects_iff (inside d here), alike.holds_iff]
    simp only [attributes, name]
  passed ok := by
    rw [checkNode_eq_ok] at ok ⊢
    obtain ⟨named, keys, below⟩ := ok
    refine ⟨name ▸ named, fun a mem => keys a ((attributes a).mpr mem), fun f' mem' => ?_⟩
    obtain ⟨f, mem, one⟩ := alike.right f' mem'
    exact one.passed (below f mem)

end

/-! ## Filters that answer the same -/

namespace AlikeAll

variable {P : Node → Prop} {data filter filter' : Node}

/-- A filter that says the same as a valid one, with the same text at its root, is valid. -/
lemma validate_eq (alike : AlikeAll P filter.children filter'.children)
    (text : filter.text = filter'.text) (valid : validate filter = .ok ()) :
    validate filter' = .ok () := by
  rw [validate_eq_ok] at valid ⊢
  obtain ⟨blank, below⟩ := valid
  refine ⟨text ▸ blank, fun f' mem' => ?_⟩
  obtain ⟨f, mem, one⟩ := alike.right f' mem'
  exact one.passed (below f mem)

/-- Filters that say the same pick nothing of the same data. -/
lemma isNothing_eq (alike : AlikeAll P filter.children filter'.children) :
    (evaluate data filter).isNothing = (evaluate data filter').isNothing := by
  by_cases none : filter.children = []
  · have none' := alike.nil_iff.mp none
    simp [evaluate, none, none']
  · have some := mt alike.nil_iff.mpr none
    rw [Bool.eq_iff_iff, isNothing_evaluate none, isNothing_evaluate some, alike.exists_selects_iff]

/-- Filters that say the same answer the same on whether something is selected. -/
lemma selects_eq (alike : AlikeAll P filter.children filter'.children)
    (text : filter.text = filter'.text) (valid : validate filter = .ok ()) :
    selects data filter' = selects data filter := by
  rw [selects, selects, valid, alike.validate_eq text valid, alike.isNothing_eq]

/-- Filters that say the same of all parts of the data leave the same of it. -/
lemma apply_eq (alike : AlikeAll P filter.children filter'.children)
    (text : filter.text = filter'.text) (valid : validate filter = .ok ())
    (inside : ∀ c ∈ data.children, P c) :
    apply data (some filter') = apply data (some filter) := by
  have keeps p : (evaluate data filter).keeps p = (evaluate data filter').keeps p := by
    by_cases none : filter.children = []
    · have none' := alike.nil_iff.mp none
      simp [evaluate, none, none']
    · have some := mt alike.nil_iff.mpr none
      rw [Bool.eq_iff_iff, keeps_evaluate none, keeps_evaluate some]
      exact kept_congr fun q => alike.selects_iff inside
  have left := Pick.restrict_congr _ _ data keeps
  have none : (evaluate data filter).isNothing = (evaluate data filter').isNothing :=
    alike.isNothing_eq
  rw [apply, apply, valid, alike.validate_eq text valid]
  generalize evaluate data filter = p, evaluate data filter' = p' at left none
  cases p with
  | nothing =>
    cases p' with
    | nothing => rfl
    | _ => cases none
  | _ =>
    cases p' with
    | nothing => cases none
    | _ => exact congrArg (fun n => Except.ok (some n)) left.symm

end AlikeAll

end Netconf.Filter
