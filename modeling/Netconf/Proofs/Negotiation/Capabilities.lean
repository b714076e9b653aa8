import Mathlib.Data.List.DropRight
import Mathlib.Data.List.Nodup
import Mathlib.Data.List.Perm.Subperm
import Mathlib.Tactic.Lemma
import Netconf.Capability

/-!
# Sets of capabilities

However a set is made, its capabilities have a URI without blank ends, and no two of them have the
same identity (`CapabilitySet.Sound`). What two such sets have in common is the same from both
sides, but for the parameters (`CapabilitySet.same_intersect`).
-/

namespace Netconf

namespace Text

/-- Trimmed characters stay as they are when they are trimmed again. -/
lemma trimChars_trimChars (cs : List Char) : trimChars (trimChars cs) = trimChars cs := by
  change ((trimChars cs).dropWhile isBlank).rdropWhile isBlank = trimChars cs
  have front : (trimChars cs).dropWhile isBlank = trimChars cs := by
    rw [List.dropWhile_eq_self_iff]
    intro pos
    have first : trimChars cs <+: cs.dropWhile isBlank := List.rdropWhile_prefix _ _
    rw [first.getElem pos]
    exact List.dropWhile_get_zero_not _ _ _
  rw [front]
  exact List.rdropWhile_idempotent _ _

/-- A trimmed text stays as it is when it is trimmed again. -/
lemma trim_trim (s : String) : trim (trim s) = trim s := by
  rw [trim, trim, String.toList_ofList, trimChars_trimChars]

/-- A text without blank characters stays as it is when it is trimmed. -/
lemma trim_of_forall {s : String} (solid : ∀ c ∈ s.toList, isBlank c = false) : trim s = s := by
  have none {cs : List Char} (solid : ∀ c ∈ cs, isBlank c = false) : cs.dropWhile isBlank = cs := by
    rw [List.dropWhile_eq_self_iff]
    intro pos blank
    exact Bool.false_ne_true ((solid _ (List.getElem_mem pos)).symm.trans blank)
  rw [trim, trimChars, none solid, none (by simpa using solid), List.reverse_reverse,
    String.ofList_toList]

end Text

/-- The identity of a URI identifies itself. -/
lemma identityOf_identityOf (uri : String) : identityOf (identityOf uri) = identityOf uri := by
  rw [identityOf, identityOf, String.toList_ofList, Text.upTo, Text.upTo, List.takeWhile_idem]

/-- A URI without parameters identifies itself. -/
lemma identityOf_bare {uri : String} (bare : '?' ∉ uri.toList) : identityOf uri = uri := by
  have all : ∀ c ∈ uri.toList, (c != '?') = true := by
    intro c mem
    exact bne_iff_ne.mpr fun eq => bare (eq ▸ mem)
  rw [identityOf, Text.upTo, List.takeWhile_eq_self_iff.mpr all, String.ofList_toList]

namespace Capability

/-- The URI of the protocol's first version identifies itself. -/
lemma identityOf_base10 : identityOf base10 = base10 :=
  identityOf_bare (by decide +kernel)

/-- The URI of its second version identifies itself. -/
lemma identityOf_base11 : identityOf base11 = base11 :=
  identityOf_bare (by decide +kernel)

/-- The URI of the compression identifies itself. -/
lemma identityOf_exi : identityOf exi = exi :=
  identityOf_bare (by decide +kernel)

/-- The URI of a capability that is made of one has no blank ends. -/
lemma trim_ofUri (uri : String) : Text.trim (ofUri uri).uri = (ofUri uri).uri :=
  Text.trim_trim uri

/-- A capability is determined by its URI. -/
lemma ofUri_uri {c : Capability} (trimmed : Text.trim c.uri = c.uri) : ofUri c.uri = c := by
  obtain ⟨uri, identity, rfl⟩ := c
  change Text.trim uri = uri at trimmed
  simp only [ofUri, trimmed]

/-- The identity of a capability identifies itself. -/
lemma identityOf_identity (c : Capability) : identityOf c.identity = c.identity := by
  rw [c.identity_eq, identityOf_identityOf]

end Capability

namespace CapabilitySet

/-- The identities in order. -/
def identities (s : CapabilitySet) : List String :=
  s.items.map (·.identity)

/-- The URIs of the capabilities have no blank ends and are not empty, and no two capabilities have
the same identity. -/
structure Sound (s : CapabilitySet) : Prop where
  nonempty : ∀ c ∈ s.items, c.uri ≠ ""
  trimmed : ∀ c ∈ s.items, Text.trim c.uri = c.uri
  distinct : s.identities.Nodup

variable {s t : CapabilitySet} {cs : List Capability} {c : Capability} {uri : String}

/-- A URI is in a set if its identity is one of those in the set. -/
lemma contains_iff : s.contains uri = true ↔ identityOf uri ∈ s.identities := by
  rw [contains, get?, List.find?_isSome, identities, List.mem_map]
  simp only [beq_iff_eq]

/-- The identity of a capability is in a set as a URI if it is one of the identities. -/
lemma contains_identity : s.contains c.identity = true ↔ c.identity ∈ s.identities := by
  rw [contains_iff, c.identityOf_identity]

/-! ## Making sets -/

/-- A set admits a capability that is not empty and whose identity is free. -/
lemma admits_iff : s.admits c = true ↔ c.uri ≠ "" ∧ c.identity ∉ s.identities := by
  rw [admits, Bool.and_eq_true, bne_iff_ne, Bool.not_eq_true', ← Bool.not_eq_true,
    contains_identity]

/-- The empty set is sound. -/
lemma sound_empty : empty.Sound :=
  ⟨List.forall_mem_nil _, List.forall_mem_nil _, .nil⟩

/-- A sound set stays sound with one more capability. -/
lemma Sound.insert (sound : s.Sound) (trimmed : Text.trim c.uri = c.uri) : (s.insert c).Sound := by
  rw [CapabilitySet.insert]
  split
  · next admitted =>
    obtain ⟨nonempty, fresh⟩ := admits_iff.mp admitted
    refine ⟨?_, ?_, ?_⟩
    · exact List.forall_mem_append.mpr ⟨sound.nonempty, List.forall_mem_singleton.mpr nonempty⟩
    · exact List.forall_mem_append.mpr ⟨sound.trimmed, List.forall_mem_singleton.mpr trimmed⟩
    · rw [identities, List.map_append, List.map_singleton, ← List.concat_eq_append]
      exact sound.distinct.concat fresh
  · exact sound

/-- However a set is made of capabilities, it is sound. -/
lemma sound_ofList (trimmed : ∀ c ∈ cs, Text.trim c.uri = c.uri) : (ofList cs).Sound :=
  List.foldlRecOn (motive := Sound) cs CapabilitySet.insert sound_empty
    fun _ sound c mem => sound.insert (trimmed c mem)

/-- A set that is made of URIs is sound. -/
lemma sound_ofUris (uris : List String) : (ofUris uris).Sound :=
  sound_ofList (List.forall_mem_map.mpr fun uri _ => Capability.trim_ofUri uri)

/-- Capabilities that are all admitted make up the set. -/
lemma foldl_insert (nonempty : ∀ c ∈ cs, c.uri ≠ "")
    (distinct : ((s.items ++ cs).map (·.identity)).Nodup) :
    cs.foldl CapabilitySet.insert s = ⟨s.items ++ cs⟩ := by
  induction cs generalizing s with
  | nil => rw [List.foldl_nil, List.append_nil]
  | cons c cs ih =>
    rw [List.forall_mem_cons] at nonempty
    have fresh : c.identity ∉ s.identities := by
      rw [List.map_append, List.map_cons] at distinct
      exact fun mem => (List.nodup_append.mp distinct).2.2 _ mem _ List.mem_cons_self rfl
    rw [List.foldl_cons, CapabilitySet.insert, if_pos (admits_iff.mpr ⟨nonempty.1, fresh⟩),
      ih nonempty.2 (by rwa [List.append_assoc]), List.append_assoc]
    rfl

/-- Capabilities that are not empty and have different identities make up their set. -/
lemma ofList_eq (nonempty : ∀ c ∈ cs, c.uri ≠ "") (distinct : (cs.map (·.identity)).Nodup) :
    ofList cs = ⟨cs⟩ :=
  foldl_insert nonempty distinct

/-- A sound set is made again of its URIs. -/
lemma Sound.ofUris_uris (sound : s.Sound) : ofUris s.uris = s := by
  have same : s.items.map (fun c => Capability.ofUri c.uri) = s.items :=
    (List.map_congr_left fun c mem => Capability.ofUri_uri (sound.trimmed c mem)).trans
      (List.map_id _)
  rw [ofUris, uris, List.map_map]
  exact (congrArg ofList same).trans (ofList_eq sound.nonempty sound.distinct)

/-! ## What is in a set -/

/-- A set has the identities that it had before and that of the capability put into it. -/
lemma mem_identities_insert {identity : String} :
    identity ∈ (s.insert c).identities ↔
      identity ∈ s.identities ∨ c.uri ≠ "" ∧ c.identity = identity := by
  rw [CapabilitySet.insert]
  split
  · next admitted =>
    have nonempty := (admits_iff.mp admitted).1
    simp [identities, nonempty, eq_comm]
  · next refused =>
    refine (or_iff_left_of_imp ?_).symm
    rintro ⟨nonempty, rfl⟩
    by_contra fresh
    exact refused (admits_iff.mpr ⟨nonempty, fresh⟩)

/-- A set has the identities that it had before and those of all capabilities put into it. -/
lemma mem_identities_foldl {identity : String} :
    identity ∈ (cs.foldl CapabilitySet.insert s).identities ↔
      identity ∈ s.identities ∨ ∃ c ∈ cs, c.uri ≠ "" ∧ c.identity = identity := by
  induction cs generalizing s with
  | nil => simp
  | cons c cs ih =>
    rw [List.foldl_cons, ih, mem_identities_insert, or_assoc]
    simp only [List.mem_cons, exists_eq_or_imp]

/-- A set has the identities of all URIs that it was made of, but for blank ones. -/
lemma mem_identities_ofUris {uris : List String} {identity : String} :
    identity ∈ (ofUris uris).identities ↔
      ∃ uri ∈ uris, Text.trim uri ≠ "" ∧ identityOf (Text.trim uri) = identity := by
  rw [ofUris, ofList, mem_identities_foldl]
  simp only [List.mem_map, exists_exists_and_eq_and]
  exact or_iff_right List.not_mem_nil

/-! ## What two sets have in common -/

/-- The common capabilities are those of the first set, in its order. -/
lemma Sound.items_intersect (sound : s.Sound) (t : CapabilitySet) :
    (s.intersect t).items = s.items.filter fun c => t.contains c.identity := by
  have sub := List.filter_sublist (p := fun c => t.contains c.identity) (l := s.items)
  rw [intersect, ofList_eq (fun c mem => sound.nonempty c (sub.mem mem))
    (sound.distinct.sublist (sub.map _))]

/-- Two sets have in common the identities that are in both. -/
lemma Sound.mem_identities_intersect (sound : s.Sound) {identity : String} :
    identity ∈ (s.intersect t).identities ↔ identity ∈ s.identities ∧ identity ∈ t.identities := by
  rw [identities, sound.items_intersect, List.mem_map]
  constructor
  · rintro ⟨c, mem, rfl⟩
    rw [List.mem_filter, contains_identity] at mem
    exact ⟨List.mem_map_of_mem mem.1, mem.2⟩
  · rintro ⟨first, second⟩
    obtain ⟨c, mem, rfl⟩ := List.mem_map.mp first
    exact ⟨c, List.mem_filter.mpr ⟨mem, contains_identity.mpr second⟩, rfl⟩

/-- A capability is common if both sets have one of its identity. -/
lemma Sound.contains_intersect (sound : s.Sound) (t : CapabilitySet) (uri : String) :
    (s.intersect t).contains uri = (s.contains uri && t.contains uri) := by
  rw [Bool.eq_iff_iff, Bool.and_eq_true, contains_iff, contains_iff, contains_iff]
  exact sound.mem_identities_intersect

/-- What a sound set has in common with another set is sound. -/
lemma Sound.intersect (sound : s.Sound) (t : CapabilitySet) : (s.intersect t).Sound :=
  sound_ofList fun c mem => sound.trimmed c (List.mem_filter.mp mem).1

/-! ## Equality -/

/-- Two sets are equal just if they have the same identities. As each identity is there once, equal
sizes and one inclusion are enough. -/
lemma Sound.beq_iff (first : s.Sound) (second : t.Sound) :
    (s == t) = true ↔ ∀ identity, identity ∈ s.identities ↔ identity ∈ t.identities := by
  have size {u : CapabilitySet} : u.identities.length = u.size := List.length_map _
  change (_ == _ && _) = true ↔ _
  rw [Bool.and_eq_true, beq_iff_eq, List.all_eq_true]
  constructor
  · rintro ⟨length, all⟩ identity
    have subset : s.identities ⊆ t.identities :=
      List.forall_mem_map.mpr fun c mem => contains_identity.mp (all c mem)
    rw [← size, ← size] at length
    exact ((List.subperm_of_subset first.distinct subset).perm_of_length_le length.ge).mem_iff
  · intro same
    have perm := (List.perm_ext_iff_of_nodup first.distinct second.distinct).mpr same
    refine ⟨by rw [← size, ← size, perm.length_eq], fun c mem => contains_identity.mpr ?_⟩
    exact (same _).mp (List.mem_map_of_mem mem)

/-- Two sets have the same in common from both sides. -/
lemma Sound.same_intersect (first : s.Sound) (second : t.Sound) :
    (s.intersect t == t.intersect s) = true := by
  refine ((first.intersect t).beq_iff (second.intersect s)).mpr fun identity => ?_
  rw [first.mem_identities_intersect, second.mem_identities_intersect, and_comm]

end CapabilitySet

end Netconf
