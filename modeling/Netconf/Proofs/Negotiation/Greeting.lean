import Netconf.Proofs.Negotiation.Hello
import Netconf.Proofs.Tree.Made

/-!
# Hellos from end to end

The hello that one side builds of its capabilities is understood by the other side as the same
capabilities, with their parameters and in the same order (`Hello.reads_back`). What carries this is
that all sets of capabilities that can be formed are sound (`CapabilitySet.Formed.sound`), so that
reading a hello drops and collapses nothing that is in it.
-/

namespace Netconf

/-- The sets of capabilities that can be formed: of URIs, one by one or many at once, and of what
two such sets have in common. -/
inductive CapabilitySet.Formed : CapabilitySet → Prop where
  | empty :
    Formed .empty
  | ofUris (uris : List String) :
    Formed (.ofUris uris)
  | insert {s : CapabilitySet} (uri : String) :
    Formed s →
    Formed (s.insert (.ofUri uri))
  | intersect {s t : CapabilitySet} :
    Formed s →
    Formed t →
    Formed (s.intersect t)

/-- Every set that can be formed is sound. -/
lemma CapabilitySet.Formed.sound {s : CapabilitySet} (formed : s.Formed) : s.Sound := by
  induction formed with
  | empty => exact sound_empty
  | ofUris uris => exact sound_ofUris uris
  | insert uri _ ih => exact ih.insert (Capability.trim_ofUri uri)
  | intersect _ _ ih _ => exact ih.intersect _

namespace Hello

/-- A hello that is built of capabilities and of a positive session number, or of none, is read back
from its bytes as just these. -/
theorem reads_back {s : CapabilitySet} {id : Option Nat} (formed : s.Formed)
    (some : s.isEmpty = false) (chars : ∀ uri ∈ s.uris, Xml.IsXmlText uri)
    (valid : ∀ i ∈ id, 0 < i ∧ i < UInt32.size) :
    ∃ n m, compose ⟨s, id⟩ = .ok n ∧ Node.decode? n.encode = .ok m ∧ ofNode m = .ok ⟨s, id⟩ := by
  refine ⟨toNode ⟨s, id⟩, toNode ⟨s, id⟩, compose_eq _, decode?_toNode chars id, ?_⟩
  rw [ofNode_toNode formed.sound valid, some]
  rfl

/-- An offer with parameters, characters to escape, inner and outer white space, and an identity
that comes twice. -/
def offered : CapabilitySet :=
  CapabilitySet.insert (.ofUris [" urn:a?x=<1>&y=2\n", "urn:b  c", "urn:a?x=3"]) (.ofUri "urn:d?\t")

/-- The example offer comes back from the bytes of a hello with the greatest session number. -/
theorem reads_back_offered :
    offered.uris = ["urn:a?x=<1>&y=2", "urn:b  c", "urn:d?"] ∧ offered.Formed ∧
      offered.isEmpty = false ∧ (∀ uri ∈ offered.uris, Xml.IsXmlText uri) ∧
      (∀ i ∈ some 4294967295, 0 < i ∧ i < UInt32.size) ∧
      ∃ n m, compose ⟨offered, some 4294967295⟩ = .ok n ∧ Node.decode? n.encode = .ok m ∧
        ofNode m = .ok ⟨offered, some 4294967295⟩ := by
  have formed : offered.Formed := .insert _ (.ofUris _)
  have some : offered.isEmpty = false := by decide +kernel
  have chars : ∀ uri ∈ offered.uris, Xml.IsXmlText uri := by decide +kernel
  have valid : ∀ i ∈ Option.some 4294967295, 0 < i ∧ i < UInt32.size := by decide
  exact ⟨by decide +kernel, formed, some, chars, valid, reads_back formed some chars valid⟩

end Hello

end Netconf
