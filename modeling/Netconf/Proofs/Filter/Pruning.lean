import Netconf.Proofs.Filter.Selection

/-!
# Filtered data

What a filter leaves of the data is the data pruned to the nodes that the filter selects
(`apply_prunes`): these nodes are there with their names, attributes and texts and in their order,
and no others. There is nothing left if and only if nothing is selected.
-/

namespace Netconf.Filter

mutual

/-- A node as far as the nodes at the given paths are to be kept. -/
inductive Pruned : (List Nat → Prop) → Node → Node → Prop where
  | intro {S d n} :
    n.name = d.name → n.attributes = d.attributes → n.text = d.text →
    PrunedAll (fun i p => S (i :: p)) d.children n.children →
    Pruned S d n

/-- Several nodes as far as they are to be kept, each with the paths given for its position. -/
inductive PrunedAll : (Nat → List Nat → Prop) → List Node → List Node → Prop where
  | nil {T} :
    PrunedAll T [] []
  | keep {T d n ds ns} :
    T 0 [] → Pruned (T 0) d n → PrunedAll (fun i => T (i + 1)) ds ns →
    PrunedAll T (d :: ds) (n :: ns)
  | drop {T d ds ns} :
    ¬T 0 [] → PrunedAll (fun i => T (i + 1)) ds ns →
    PrunedAll T (d :: ds) ns

end

mutual

/-- A node that is kept with all below it stays as it is. -/
lemma Pruned.refl {S : List Nat → Prop} (all : ∀ p, S p) (d : Node) : Pruned S d d := by
  match d with
  | .leaf .. => exact .intro rfl rfl rfl .nil
  | .container _ _ children =>
    exact .intro rfl rfl rfl (PrunedAll.refl (fun i p => all (i :: p)) children)

/-- Nodes that are all kept with all below them stay as they are. -/
lemma PrunedAll.refl {T : Nat → List Nat → Prop} (all : ∀ i p, T i p) (ds : List Node) :
    PrunedAll T ds ds := by
  match ds with
  | [] => exact .nil
  | d :: ds =>
    exact .keep (all 0 []) (Pruned.refl (all 0) d) (PrunedAll.refl (fun i => all (i + 1)) ds)

end

/-- Of nodes none of which is kept nothing is left. -/
lemma PrunedAll.nothing {T : Nat → List Nat → Prop} (none : ∀ i, ¬T i []) (ds : List Node) :
    PrunedAll T ds [] := by
  induction ds generalizing T with
  | nil => exact .nil
  | cons d ds ih => exact .drop (none 0) (ih fun i => none (i + 1))

namespace Pick

/-- No picks leave none of the nodes. -/
lemma restrictAll_nil (ds : List Node) : restrictAll [] ds = [] := by
  simp [restrictAll]

/-- Of no nodes every list of picks leaves none. -/
lemma restrictAll_of_nil (picks : List Pick) : restrictAll picks [] = [] := by
  cases picks <;> simp [restrictAll]

/-- A node of which nothing is picked is left out. -/
lemma restrictAll_nothing (d : Node) (ds : List Node) (picks : List Pick) :
    restrictAll (nothing :: picks) (d :: ds) = restrictAll picks ds := by
  rw [restrictAll]

/-- A node of which something is picked is left as far as it is picked. -/
lemma restrictAll_cons {pick : Pick} (d : Node) (ds : List Node) (picks : List Pick)
    (some : pick.isNothing = false) :
    restrictAll (pick :: picks) (d :: ds) = pick.restrict d :: restrictAll picks ds := by
  cases pick with
  | nothing => cases some
  | _ => rw [restrictAll]; nofun

mutual

/-- A data node as far as it is picked is pruned to what is picked. -/
lemma pruned_restrict (pick : Pick) (d : Node) (some : pick.isNothing = false) :
    Pruned (fun p => pick.keeps p = true) d (pick.restrict d) := by
  match pick, d with
  | nothing, _ => cases some
  | whole, d =>
    have eq : whole.restrict d = d := by simp [restrict]
    rw [eq]
    exact Pruned.refl keeps_whole d
  | within picks, .leaf name attributes text =>
    have eq : (within picks).restrict (.leaf name attributes text) = .leaf name attributes text := by
      simp [restrict]
    rw [eq]
    exact .intro rfl rfl rfl .nil
  | within picks, .container name attributes children =>
    have all := prunedAll_restrictAll picks children
    rw [restrict]
    cases kept : restrictAll picks children <;> rw [kept] at all <;> exact .intro rfl rfl rfl all

/-- Data nodes as far as they are picked are pruned to what is picked of each. -/
lemma prunedAll_restrictAll (picks : List Pick) (ds : List Node) :
    PrunedAll (fun i p => (picks.getD i nothing).keeps p = true) ds (restrictAll picks ds) := by
  match picks, ds with
  | [], ds =>
    rw [restrictAll_nil]
    exact PrunedAll.nothing (by simp) ds
  | pick :: picks, [] =>
    rw [restrictAll_of_nil]
    exact .nil
  | pick :: picks, d :: ds =>
    have later : PrunedAll (fun i p => ((pick :: picks).getD (i + 1) nothing).keeps p = true) ds
        (restrictAll picks ds) := prunedAll_restrictAll picks ds
    cases none : pick.isNothing with
    | true =>
      obtain rfl := nothing_of_isNothing none
      rw [restrictAll_nothing]
      exact .drop (by simp) later
    | false =>
      rw [restrictAll_cons _ _ _ none]
      exact .keep (by simp [keeps_nil, none]) (pruned_restrict pick d none) later

end

end Pick

/-- A valid filter with children leaves of the data what the children select, or nothing if they
select nothing. -/
theorem apply_prunes {data filter : Node} (valid : validate filter = .ok ())
    (more : filter.children ≠ []) :
    ∃ result, apply data (some filter) = .ok result ∧
      (result = none ↔ ∀ p, ¬Selects filter.children data p) ∧
      ∀ n, result = some n → Pruned (Kept (Selects filter.children data)) data n := by
  have same : (fun p => (evaluate data filter).keeps p = true) =
      Kept (Selects filter.children data) :=
    funext fun p => propext (keeps_evaluate more p)
  have nothing : (evaluate data filter).isNothing = true ↔
      ∀ p, ¬Selects filter.children data p := by
    rw [← not_exists, ← kept_nil, ← same]
    simp [Pick.keeps_nil]
  refine ⟨_, by rw [apply, valid]; rfl, ?_⟩
  cases none : (evaluate data filter).isNothing with
  | true =>
    rw [Pick.nothing_of_isNothing none]
    refine ⟨iff_of_true rfl (nothing.mp none), ?_⟩
    rintro n ⟨⟩
  | false =>
    have pruned := Pick.pruned_restrict _ data none
    rw [same] at pruned
    have some : ¬∀ p, ¬Selects filter.children data p := by
      rw [← nothing, none]
      exact Bool.false_ne_true
    generalize evaluate data filter = pick at none pruned
    cases pick with
    | nothing => cases none
    | _ =>
      refine ⟨iff_of_false (Option.some_ne_none _) some, ?_⟩
      rintro n ⟨⟩
      exact pruned

/-- An entry of a list of users, of which the last two leaves are not keys. -/
def user (name id role : String) : Node :=
  .container ⟨"urn:users", "user"⟩ []
    [.leaf ⟨"urn:users", "name"⟩ [] (some name), .leaf ⟨"urn:users", "id"⟩ [] (some id),
      .leaf ⟨"urn:users", "role"⟩ [] (some role)]

def users (entries : List Node) : Node :=
  .container ⟨"urn:users", "users"⟩ [⟨.unqualified "count", "2"⟩] entries

/-- Asks for the role of the user with a name, which is given as a key. -/
def roleOf (name : String) : Node :=
  .container (.unqualified "filter") []
    [.container ⟨"urn:users", "user"⟩ [⟨.unqualified "name", name⟩]
      [.leaf (.unqualified "role") [] none]]

/-- Of two users the filter leaves the one with the name, pruned to the key and the role. -/
theorem apply_prunes_roleOf :
    validate (roleOf "bob") = .ok () ∧ (roleOf "bob").children ≠ [] ∧
      let data := users [user "alice" "1" "admin", user "bob" "2" "ops"]
      let bob := .container ⟨"urn:users", "user"⟩ []
        [.leaf ⟨"urn:users", "name"⟩ [] (some "bob"), .leaf ⟨"urn:users", "role"⟩ [] (some "ops")]
      apply data (some (roleOf "bob")) = .ok (some (users [bob])) ∧
        Pruned (Kept (Selects (roleOf "bob").children data)) data (users [bob]) := by
  have valid : validate (roleOf "bob") = .ok () := by rfl
  have more : (roleOf "bob").children ≠ [] := by rintro ⟨⟩
  refine ⟨valid, more, ?_⟩
  intro data bob
  have eq : apply data (some (roleOf "bob")) = .ok (some (users [bob])) := by rfl
  obtain ⟨result, eq', -, pruned⟩ := @apply_prunes data _ valid more
  cases eq'.symm.trans eq
  exact ⟨eq, pruned _ rfl⟩

end Netconf.Filter
