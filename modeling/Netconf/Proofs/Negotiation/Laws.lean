import Netconf.Proofs.Negotiation.Greeting

/-!
# Laws of capability sets

Equality of capability sets compares identities only, and what two sets have in common is told by
identities too. So the sets that can be formed are, up to equality, the finite sets of identities
with their intersections (`intersect_lawful`); which URI stands for an identity is up to the first
set.
-/

namespace Netconf.CapabilitySet

/-- The sets that can be formed. -/
abbrev Formable :=
  { s : CapabilitySet // s.Formed }

/-- What two sets that can be formed have in common. -/
def Formable.intersect (a b : Formable) : Formable :=
  ⟨a.1.intersect b.1, a.2.intersect b.2⟩

/-- The sets are equal. -/
def Formable.Same (a b : Formable) : Prop :=
  (a.1 == b.1) = true

namespace Formable

variable {a a' b b' c : Formable}

/-- Sets are equal if they have the same identities. -/
lemma same_iff : a.Same b ↔ ∀ identity, identity ∈ a.1.identities ↔ identity ∈ b.1.identities :=
  a.2.sound.beq_iff b.2.sound

/-- An intersection has the identities that are in both sets. -/
lemma mem_intersect {identity : String} :
    identity ∈ (a.intersect b).1.identities ↔
      identity ∈ a.1.identities ∧ identity ∈ b.1.identities :=
  a.2.sound.mem_identities_intersect

/-- Equality of sets is an equivalence. -/
lemma equivalence_same : Equivalence Same where
  refl _ := same_iff.mpr fun _ => Iff.rfl
  symm same := same_iff.mpr fun identity => (same_iff.mp same identity).symm
  trans first second :=
    same_iff.mpr fun identity => (same_iff.mp first identity).trans (same_iff.mp second identity)

/-- Intersecting is associative. -/
lemma intersect_assoc : ((a.intersect b).intersect c).Same (a.intersect (b.intersect c)) := by
  refine same_iff.mpr fun identity => ?_
  rw [mem_intersect, mem_intersect, mem_intersect, mem_intersect, and_assoc]

/-- A set has all its identities in common with itself. -/
lemma intersect_self : (a.intersect a).Same a := by
  refine same_iff.mpr fun identity => ?_
  rw [mem_intersect, and_self_iff]

/-- Equal sets have equal intersections. -/
lemma Same.intersect (first : a.Same a') (second : b.Same b') :
    (a.intersect b).Same (a'.intersect b') := by
  refine same_iff.mpr fun identity => ?_
  rw [mem_intersect, mem_intersect, same_iff.mp first, same_iff.mp second]

/-- What is common is among the capabilities of the first set, as they are and in their order. -/
lemma items_intersect_sublist : (a.intersect b).1.items.Sublist a.1.items := by
  have items := a.2.sound.items_intersect b.1
  rw [intersect, items]
  exact List.filter_sublist

end Formable

/-- Equality is an equivalence on the sets that can be formed and says that the identities are the
same. Up to it, intersecting is commutative, associative and idempotent and takes equal sets to
equal ones. A URI is in the intersection if it is in both sets, and the intersection consists of
capabilities of the first set in their order. -/
theorem intersect_lawful :
    Equivalence Formable.Same ∧
      (∀ a b : Formable,
        a.Same b ↔ ∀ identity, identity ∈ a.1.identities ↔ identity ∈ b.1.identities) ∧
      (∀ a b : Formable, (a.intersect b).Same (b.intersect a)) ∧
      (∀ a b c : Formable,
        ((a.intersect b).intersect c).Same (a.intersect (b.intersect c))) ∧
      (∀ a : Formable, (a.intersect a).Same a) ∧
      (∀ a a' b b' : Formable, a.Same a' → b.Same b' →
        (a.intersect b).Same (a'.intersect b')) ∧
      (∀ (a b : Formable) (uri : String),
        (a.intersect b).1.contains uri = true ↔ a.1.contains uri = true ∧ b.1.contains uri = true) ∧
      ∀ a b : Formable, (a.intersect b).1.items.Sublist a.1.items := by
  refine ⟨Formable.equivalence_same, fun a b => Formable.same_iff, ?_, ?_, ?_, ?_, ?_, ?_⟩
  · exact fun a b => a.2.sound.same_intersect b.2.sound
  · exact fun a b c => Formable.intersect_assoc
  · exact fun a => Formable.intersect_self
  · exact fun a a' b b' first second => first.intersect second
  · intro a b uri
    rw [Formable.intersect, a.2.sound.contains_intersect, Bool.and_eq_true]
  · exact fun a b => Formable.items_intersect_sublist

end Netconf.CapabilitySet
