import Mathlib.Data.List.Perm.Basic
import Netconf.Proofs.Filter.Congruence

/-!
# Filters in another order

On no level of a filter does it matter in which order siblings and attributes are, or whether a
sibling is there once or more often (`apply_rearranged`). Rearranging leaves each node with nodes
below it that say the same.
-/

namespace Netconf.Filter

mutual

/-- A filter node with its attributes in another order, and the nodes below it in another order or
repeated, on any level. -/
inductive Rearranged : Node → Node → Prop where
  | leaf {name attributes attributes' text} :
    attributes.Perm attributes' →
    Rearranged (.leaf name attributes text) (.leaf name attributes' text)
  | container {name attributes attributes' fs fs'} :
    attributes.Perm attributes' → RearrangedAll fs fs' →
    Rearranged (.container name attributes fs) (.container name attributes' fs')

/-- Sibling filter nodes in another order or repeated, each of them rearranged. -/
inductive RearrangedAll : List Node → List Node → Prop where
  | perm {fs fs'} :
    fs.Perm fs' →
    RearrangedAll fs fs'
  /-- A sibling that is there is there once more. -/
  | again {f fs} :
    f ∈ fs →
    RearrangedAll fs (f :: fs)
  | cons {f f' fs fs'} :
    Rearranged f f' → RearrangedAll fs fs' →
    RearrangedAll (f :: fs) (f' :: fs')
  | trans {fs fs' fs''} :
    RearrangedAll fs fs' → RearrangedAll fs' fs'' →
    RearrangedAll fs fs''

end

section

variable {name : QName} {attributes attributes' : List Attribute}

/-- Whether a leaf has attributes decides what it asks for, and their order does not. -/
lemma Alike.leaf {P : Node → Prop} {text : Option String} (perm : attributes.Perm attributes')
    (inside : ∀ d, P d → ∀ c ∈ d.children, P c) :
    Alike P (.leaf name attributes text) (.leaf name attributes' text) := by
  cases text with
  | some text =>
    refine .content rfl rfl rfl fun ok => ?_
    rw [checkNode_eq_ok] at ok ⊢
    exact ⟨ok.1, fun a mem => ok.2.1 a (perm.mem_iff.mpr mem), ok.2.2⟩
  | none =>
    cases attributes with
    | nil => rw [perm.nil_eq]; exact .refl _
    | cons =>
      cases attributes' with
      | nil => cases perm.eq_nil
      | cons =>
        exact .containment rfl rfl rfl (fun _ => perm.mem_iff) (.of_mem_iff fun _ => .rfl) inside

end

mutual

/-- What a filter node says does not change when it is rearranged. -/
lemma Rearranged.alike {f f' : Node} (re : Rearranged f f') : Alike (fun _ => True) f f' := by
  match re with
  | .leaf perm => exact .leaf perm fun _ _ _ _ => trivial
  | .container perm below =>
    exact .containment rfl rfl rfl (fun a => perm.mem_iff) below.alikeAll fun _ _ _ _ => trivial

/-- What sibling filter nodes say does not change when they are rearranged. -/
lemma RearrangedAll.alikeAll {fs fs' : List Node} (re : RearrangedAll fs fs') :
    AlikeAll (fun _ => True) fs fs' := by
  match re with
  | .perm perm => exact .of_mem_iff fun f => perm.mem_iff
  | .again mem => exact .of_mem_iff fun g => by simp +contextual [mem]
  | .cons first rest => exact .cons first.alike rest.alikeAll
  | .trans first second => exact first.alikeAll.trans second.alikeAll

end

/-- A filter leaves the same of the data in whatever order its nodes and their attributes are, and
however often a node is repeated among its siblings. -/
theorem apply_rearranged {data filter filter' : Node} (valid : validate filter = .ok ())
    (re : Rearranged filter filter') :
    apply data (some filter') = apply data (some filter) := by
  cases re with
  | leaf => exact AlikeAll.apply_eq (.of_mem_iff fun _ => .rfl) rfl valid fun _ _ => trivial
  | container perm below =>
    exact below.alikeAll.apply_eq rfl valid fun _ _ => trivial

/-- Asks for the role of the user with the given keys. -/
def roleWith (keys : List Attribute) : Node :=
  .container ⟨"urn:users", "user"⟩ keys [.leaf (.unqualified "role") [] none]

/-- Asks for the names of the users with a role, in this or another order. -/
def namesWith (role : String) (order : Node → Node → List Node) : Node :=
  .container (.unqualified "user") []
    (order (.leaf ⟨"urn:users", "role"⟩ [] (some role)) (.leaf (.unqualified "name") [] none))

def keyOf (name value : String) : Attribute :=
  ⟨.unqualified name, value⟩

/-- Asks for the role of a user and for the names of the users with it. -/
def once : Node :=
  .container (.unqualified "filter") []
    [roleWith [keyOf "name" "bob", keyOf "id" "2"], namesWith "ops" fun role name => [role, name]]

/-- Asks for the same, and for the names twice. -/
def again : Node :=
  .container (.unqualified "filter") []
    [namesWith "ops" fun role name => [name, role, name],
      roleWith [keyOf "id" "2", keyOf "name" "bob"],
      namesWith "ops" fun role name => [name, role, name]]

/-- In either arrangement the example filter leaves the same of the data. -/
theorem apply_rearranged_again :
    let data := users [user "alice" "1" "admin", user "bob" "2" "ops"]
    let bob := .container ⟨"urn:users", "user"⟩ []
      [.leaf ⟨"urn:users", "name"⟩ [] (some "bob"), .leaf ⟨"urn:users", "id"⟩ [] (some "2"),
        .leaf ⟨"urn:users", "role"⟩ [] (some "ops")]
    validate once = .ok () ∧ Rearranged once again ∧
      apply data (some again) = .ok (some (users [bob])) := by
  intro data bob
  have valid : validate once = .ok () := by rfl
  have left : apply data (some once) = .ok (some (users [bob])) := by rfl
  have keys : Rearranged (roleWith [keyOf "name" "bob", keyOf "id" "2"])
      (roleWith [keyOf "id" "2", keyOf "name" "bob"]) :=
    .container (.swap _ _ []) (.perm .rfl)
  have names : Rearranged (namesWith "ops" fun role name => [role, name])
      (namesWith "ops" fun role name => [name, role, name]) :=
    .container .rfl (.again (List.mem_cons_of_mem _ List.mem_cons_self))
  have re : Rearranged once again :=
    .container .rfl (.trans (.cons keys (.cons names (.perm .rfl)))
      (.again (List.mem_cons_of_mem _ List.mem_cons_self)))
  exact ⟨valid, re, (apply_rearranged valid re).trans left⟩

end Netconf.Filter
