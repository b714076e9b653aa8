import Netconf.Hello
import Netconf.Proofs.Negotiation.Capabilities
import Netconf.Proofs.Text.Number
import Netconf.Proofs.Tree.Parts

/-!
# Reading hellos that were written

A hello comes back from its bytes (`Hello.decode?_toNode`), and is understood as the capabilities
and the session number that it was made of (`Hello.ofNode_toNode`). Only a hello without
capabilities is refused.
-/

namespace Netconf

/-! ## Session numbers -/

namespace Text

/-- A digit is not blank. -/
lemma isBlank_of_isDigit {c : Char} (digit : c.isDigit = true) : isBlank c = false := by
  simp only [Char.isDigit, Bool.and_eq_true, decide_eq_true_eq, ge_iff_le, UInt32.le_iff_toNat_le,
    Char.toNat_val, Char.reduceToNat] at digit
  simp only [isBlank, Bool.or_eq_false_iff, Bool.and_eq_false_iff, decide_eq_false_iff_not,
    beq_eq_false_iff_ne]
  omega

/-- A written number has no blank ends. -/
lemma trim_toString (n : Nat) : trim (toString n) = toString n :=
  trim_of_forall fun _ mem => isBlank_of_isDigit (isDigit_of_mem_toString mem)

end Text

open Xml

/-- A written number can be held by a document. -/
lemma isXmlText_toString (n : Nat) : IsXmlText (toString n) := by
  intro c mem
  refine isXmlChar_of_isNameChar ?_
  simp [isNameChar, Text.isDigit_of_mem_toString mem]

/-! ## The nodes of hellos -/

namespace Hello

open Node CapabilitySet

variable {s : CapabilitySet} {id : Option Nat}

/-- The element of a hello that lists capabilities. -/
def listing (s : CapabilitySet) : Node :=
  .ofChildren ⟨baseUri, "capabilities"⟩ []
    (s.items.map fun c => .ofText ⟨baseUri, "capability"⟩ c.uri)

/-- A hello has the listing of its capabilities and, if it says one, the session number. -/
lemma toNode_eq : toNode ⟨s, id⟩ = .ofChildren ⟨baseUri, "hello"⟩ []
    (listing s :: (id.map fun id => Node.ofText ⟨baseUri, "session-id"⟩ (toString id)).toList) :=
  rfl

/-- The listing of capabilities is found by its name. -/
lemma localName_listing : (listing s).localName = "capabilities" := by
  rw [listing, localName, name_ofChildren]

/-- A document can hold a hello if it can hold the URIs in it. -/
lemma kept_toNode (chars : ∀ uri ∈ s.uris, IsXmlText uri) :
    (toNode ⟨s, id⟩).Everywhere Kept := by
  have capabilities : (listing s).Everywhere Kept := by
    refine kept_element (by decide) isDeclarable_baseUri (List.forall_mem_map.mpr ?_)
    intro c mem
    exact kept_ofText (by decide) isDeclarable_baseUri (chars _ (List.mem_map_of_mem mem))
  rw [toNode_eq]
  refine kept_element (by decide) isDeclarable_baseUri ?_
  refine List.forall_mem_cons.mpr ⟨capabilities, ?_⟩
  cases id with
  | none => exact List.forall_mem_nil _
  | some id =>
    refine List.forall_mem_singleton.mpr ?_
    exact kept_ofText (by decide) isDeclarable_baseUri (isXmlText_toString id)

/-- A hello comes back from its bytes. -/
lemma decode?_toNode (chars : ∀ uri ∈ s.uris, IsXmlText uri) (id : Option Nat) :
    decode? (toNode ⟨s, id⟩).encode = .ok (toNode ⟨s, id⟩) :=
  decode?_of_kept (kept_toNode chars)

/-- The capabilities of a hello come back. -/
lemma listed_listing (sound : s.Sound) : listed (listing s) = s := by
  have named : ∀ n ∈ s.items.map fun c => ofText ⟨baseUri, "capability"⟩ c.uri,
      (n.localName == "capability") = true :=
    List.forall_mem_map.mpr fun c _ => rfl
  have texts : ∀ c ∈ s.items,
      (Node.text ∘ fun c : Capability => ofText ⟨baseUri, "capability"⟩ c.uri) c = some c.uri :=
    fun c mem => if_neg (sound.nonempty c mem)
  rw [listed, listing, childrenNamed, children_ofChildren, List.filter_eq_self.mpr named,
    List.filterMap_map, List.filterMap_congr texts]
  change ofUris (s.items.filterMap (some ∘ Capability.uri)) = s
  rw [List.filterMap_eq_map]
  exact sound.ofUris_uris

/-- A positive number of 32 bits is read back as a session number. -/
lemma sessionIdOf?_toString {id : Nat} (pos : 0 < id) (lt : id < UInt32.size) :
    sessionIdOf? (toString id) = some id := by
  rw [sessionIdOf?, Text.trim_toString, Text.number?_toString lt, Option.filter_some, if_pos]
  exact decide_eq_true pos

/-- The session number of a hello comes back. -/
lemma sessionIdIn_toNode (valid : ∀ i ∈ id, 0 < i ∧ i < UInt32.size) :
    sessionIdIn (toNode ⟨s, id⟩) = .ok id := by
  have other : ((listing s).localName == "session-id") = false := by
    rw [localName_listing]
    rfl
  rw [sessionIdIn, child?, toNode_eq, children_ofChildren, List.find?_cons, other]
  cases id with
  | none => rfl
  | some id =>
    obtain ⟨pos, lt⟩ := valid id rfl
    have text : (ofText ⟨baseUri, "session-id"⟩ (toString id)).text = some (toString id) :=
      if_neg (Text.toString_ne_empty id)
    have found : (ofText ⟨baseUri, "session-id"⟩ (toString id)).localName == "session-id" := rfl
    simp only [Option.map_some, Option.toList_some, List.find?_cons, found, text, Option.bind_some,
      sessionIdOf?_toString pos lt]

/-- A hello that lists capabilities is understood as what it was made of. -/
lemma ofNode_toNode (sound : s.Sound) (valid : ∀ i ∈ id, 0 < i ∧ i < UInt32.size) :
    ofNode (toNode ⟨s, id⟩) = if s.isEmpty then .error .noCapabilities else .ok ⟨s, id⟩ := by
  have kind : (toNode ⟨s, id⟩).messageKind = .hello := rfl
  have found : (toNode ⟨s, id⟩).child? "capabilities" = some (listing s) := by
    have here : ((listing s).localName == "capabilities") = true := by
      rw [localName_listing]
      rfl
    rw [child?, toNode_eq, children_ofChildren, List.find?_cons, here]
  rw [ofNode, kind, if_neg (not_not.mpr rfl), found]
  simp only [listed_listing sound, sessionIdIn_toNode valid]
  rfl

end Hello

end Netconf
