import Netconf.Proofs.Negotiation.Greeting
import Netconf.Proofs.Text.Number

/-!
# Sets of capabilities told by what was offered

Whatever a set was made of, and in whatever steps, it holds of each identity the capability that was
offered first under it, in the order in which the identities were first offered
(`Making.holds_first`). One insertion keeps this (`HoldsFirst.insert`); that it survives
intersecting as well is because leaving out offers by their identity commutes with making the set
(`ofList_filter`).
-/

namespace Netconf

/-- The URIs agree up to the first question mark of each. -/
def AgreeUpToMark (a b : String) : Prop :=
  ∃ front x y, a.toList = front ++ x ∧ b.toList = front ++ y ∧ '?' ∉ front ∧
    (∀ c ∈ x.head?, c = '?') ∧ ∀ c ∈ y.head?, c = '?'

/-- What stands before a mark is found up to the first one, or up to the end. -/
lemma upTo_append {front x : List Char} (bare : '?' ∉ front) (mark : ∀ c ∈ x.head?, c = '?') :
    Text.upTo '?' (front ++ x) = front := by
  have all : ∀ c ∈ front, (c != '?') = true := by
    intro c mem
    exact bne_iff_ne.mpr fun eq => bare (eq ▸ mem)
  rw [Text.upTo, List.takeWhile_append_of_pos all]
  cases x with
  | nil => rw [List.takeWhile_nil, List.append_nil]
  | cons c x =>
    obtain rfl := mark c rfl
    exact List.append_nil front

/-- URIs agree up to the question mark if they have the same identity. -/
lemma agreeUpToMark_iff {a b : String} : AgreeUpToMark a b ↔ identityOf a = identityOf b := by
  constructor
  · rintro ⟨front, x, y, first, second, bare, mark, mark'⟩
    rw [identityOf, identityOf, first, second, upTo_append bare mark, upTo_append bare mark']
  · intro eq
    have front : Text.upTo '?' a.toList = Text.upTo '?' b.toList := String.ofList_injective eq
    have split (s : String) : s.toList = Text.upTo '?' s.toList ++ s.toList.dropWhile (· != '?') :=
      List.takeWhile_append_dropWhile.symm
    have mark (s : String) : ∀ c ∈ (s.toList.dropWhile (· != '?')).head?, c = '?' := by
      intro c mem
      have stop := List.head?_dropWhile_not (· != '?') s.toList
      rw [mem] at stop
      simpa using stop
    refine ⟨Text.upTo '?' a.toList, _, _, split a, front ▸ split b, ?_, mark a, mark b⟩
    intro mem
    simpa using List.mem_takeWhile_imp mem

namespace CapabilitySet

/-- A capability is an offer under its identity unless it is blank. -/
def isOffer (identity : String) (c : Capability) : Bool :=
  c.uri != "" && c.identity == identity

/-- Where an identity is first offered. -/
def placeOf (offers : List Capability) (identity : String) : Nat :=
  offers.findIdx (isOffer identity)

/-- The set holds what was offered first under each identity, in the order of these offers. -/
structure HoldsFirst (offers : List Capability) (s : CapabilitySet) : Prop where
  first : ∀ c ∈ s.items, offers.find? (isOffer c.identity) = some c
  all : ∀ c ∈ offers, c.uri ≠ "" → c.identity ∈ s.identities
  ordered : s.items.Pairwise fun c d => placeOf offers c.identity < placeOf offers d.identity

variable {s : CapabilitySet} {c : Capability} {uri : String}

/-! ## One offer after the other -/

section

variable {offers : List Capability}

/-- A capability that is not empty is an offer under its own identity. -/
lemma isOffer_self (nonempty : c.uri ≠ "") : isOffer c.identity c = true := by
  simp [isOffer, nonempty]

/-- An identity that is offered has a place among the offers. -/
lemma placeOf_lt {identity : String} (found : offers.find? (isOffer identity) = some c) :
    placeOf offers identity < offers.length :=
  List.findIdx_lt_length_of_exists
    ⟨c, List.mem_of_find?_eq_some found, List.find?_some found⟩

/-- A later offer does not change where an identity is first offered. -/
lemma placeOf_concat {identity : String} (found : offers.find? (isOffer identity) = some c)
    (d : Capability) : placeOf (offers ++ [d]) identity = placeOf offers identity := by
  rw [placeOf, List.findIdx_append]
  exact if_pos (placeOf_lt found)

/-- Of no offers the empty set holds the first ones. -/
lemma HoldsFirst.empty : HoldsFirst [] empty :=
  ⟨List.forall_mem_nil _, List.forall_mem_nil _, .nil⟩

/-- Nothing was offered under an identity that is free. -/
lemma HoldsFirst.find?_eq_none (holds : HoldsFirst offers s) (fresh : c.identity ∉ s.identities) :
    offers.find? (isOffer c.identity) = none := by
  rw [List.find?_eq_none]
  intro d mem offer
  obtain ⟨nonempty, same⟩ := Bool.and_eq_true_iff.mp offer
  exact fresh (eq_of_beq same ▸ holds.all d mem (bne_iff_ne.mp nonempty))

/-- A set holds what was offered first when one more capability is offered to it. -/
lemma HoldsFirst.insert (holds : HoldsFirst offers s) (c : Capability) :
    HoldsFirst (offers ++ [c]) (s.insert c) := by
  have before : ∀ d ∈ s.items, (offers ++ [c]).find? (isOffer d.identity) = some d := by
    intro d mem
    rw [List.find?_append, holds.first d mem, Option.some_or]
  -- An identity that has been offered keeps its place, whatever comes next.
  have ordered : s.items.Pairwise fun a b =>
      placeOf (offers ++ [c]) a.identity < placeOf (offers ++ [c]) b.identity := by
    refine holds.ordered.imp_of_mem fun {a b} mem mem' lt => ?_
    rwa [placeOf_concat (holds.first a mem), placeOf_concat (holds.first b mem')]
  rw [CapabilitySet.insert]
  split
  · next admitted =>
    obtain ⟨nonempty, fresh⟩ := admits_iff.mp admitted
    have new := holds.find?_eq_none fresh
    refine ⟨List.forall_mem_append.mpr ⟨before, List.forall_mem_singleton.mpr ?_⟩, ?_, ?_⟩
    · rw [List.find?_append, new, Option.none_or]
      exact List.find?_cons_of_pos (isOffer_self nonempty)
    · intro d mem some
      rw [identities, List.map_append, List.mem_append]
      rcases List.mem_append.mp mem with old | last
      · exact .inl (holds.all d old some)
      · exact .inr (List.mem_map_of_mem last)
    · refine List.pairwise_append.mpr ⟨ordered, List.pairwise_singleton _ _, ?_⟩
      intro a mem b last
      obtain rfl := List.mem_singleton.mp last
      rw [placeOf_concat (holds.first a mem), placeOf, placeOf, List.findIdx_append]
      have none : ¬offers.findIdx (isOffer b.identity) < offers.length := by
        rw [List.findIdx_lt_length]
        rintro ⟨d, mem', offer⟩
        exact List.find?_eq_none.mp new d mem' offer
      rw [if_neg none]
      exact Nat.lt_add_left _ (placeOf_lt (holds.first a mem))
  · next refused =>
    refine ⟨before, ?_, ordered⟩
    intro d mem some
    rcases List.mem_append.mp mem with old | last
    · exact holds.all d old some
    · obtain rfl := List.mem_singleton.mp last
      by_contra fresh
      exact refused (admits_iff.mpr ⟨some, fresh⟩)

/-- A set that is made of one more capability is the set before with it put in. -/
lemma ofList_concat (cs : List Capability) (c : Capability) :
    ofList (cs ++ [c]) = (ofList cs).insert c :=
  List.foldl_append

/-- A set that is made of capabilities holds what was offered first. -/
lemma holdsFirst_ofList (offers : List Capability) : HoldsFirst offers (ofList offers) := by
  induction offers using List.reverseRecOn with
  | nil => exact .empty
  | append_singleton offers c ih =>
    rw [ofList_concat]
    exact ih.insert c

end

/-! ## Leaving out offers -/

/-- The set without the capabilities whose identity is not to be kept. -/
def restrict (keep : String → Bool) (s : CapabilitySet) : CapabilitySet :=
  ⟨s.items.filter fun c => keep c.identity⟩

/-- Of an identity that is to be kept it does not matter that others are left out. -/
lemma mem_identities_restrict {keep : String → Bool} (kept : keep c.identity = true) :
    c.identity ∈ (s.restrict keep).identities ↔ c.identity ∈ s.identities := by
  simp only [identities, restrict, List.mem_map, List.mem_filter]
  constructor
  · rintro ⟨d, ⟨mem, -⟩, same⟩
    exact ⟨d, mem, same⟩
  · rintro ⟨d, mem, same⟩
    exact ⟨d, ⟨mem, same ▸ kept⟩, same⟩

/-- Leaving out identities after a capability is put in is leaving them out before, and the
capability with them. -/
lemma restrict_insert (keep : String → Bool) (s : CapabilitySet) (c : Capability) :
    (s.insert c).restrict keep =
      if keep c.identity then (s.restrict keep).insert c else s.restrict keep := by
  cases kept : keep c.identity with
  | true =>
    have same : (s.restrict keep).admits c = s.admits c := by
      rw [Bool.eq_iff_iff, admits_iff, admits_iff, mem_identities_restrict kept]
    rw [if_pos rfl, CapabilitySet.insert, CapabilitySet.insert, same]
    split
    · rw [restrict, List.filter_append, List.filter_singleton, kept]
      rfl
    · rfl
  | false =>
    rw [if_neg Bool.false_ne_true, CapabilitySet.insert]
    split
    · rw [restrict, List.filter_append, List.filter_singleton, kept]
      exact congrArg mk (List.append_nil _)
    · rfl

/-- Leaving out identities before the set is made or after comes to the same. -/
lemma ofList_filter (keep : String → Bool) (cs : List Capability) :
    ofList (cs.filter fun c => keep c.identity) = (ofList cs).restrict keep := by
  induction cs using List.reverseRecOn with
  | nil => rfl
  | append_singleton cs c ih =>
    rw [ofList_concat, restrict_insert, ← ih, List.filter_append, List.filter_singleton]
    cases keep c.identity with
    | true => exact ofList_concat _ c
    | false => exact congrArg ofList (List.append_nil _)

/-! ## However a set is made -/

/-- How a set is made: of URIs, by one more of them, or of what two sets have in common. -/
inductive Making where
  | ofUris (uris : List String)
  | insert (making : Making) (uri : String)
  | intersect (making other : Making)

namespace Making

/-- The set that is made. -/
def set : Making → CapabilitySet
  | ofUris uris => .ofUris uris
  | insert making uri => making.set.insert (.ofUri uri)
  | intersect making other => making.set.intersect other.set

/-- The capabilities that were offered to the set, in order. Those that count for an intersection
were offered to the first set, under an identity that was also offered to the other. -/
def offers : Making → List Capability
  | ofUris uris => uris.map .ofUri
  | insert making uri => making.offers ++ [.ofUri uri]
  | intersect making other =>
    making.offers.filter fun c => other.offers.any (isOffer c.identity)

/-- However a set is made, it is one that can be formed. -/
lemma formed_set (m : Making) : m.set.Formed := by
  induction m with
  | ofUris uris => exact .ofUris uris
  | insert _ uri ih => exact ih.insert uri
  | intersect _ _ ih ih' => exact ih.intersect ih'

/-- A set that is made of capabilities has an identity if one of them is an offer under it. -/
lemma contains_ofList (cs : List Capability) (c : Capability) :
    (ofList cs).contains c.identity = cs.any (isOffer c.identity) := by
  rw [Bool.eq_iff_iff, contains_identity, ofList, mem_identities_foldl, List.any_eq_true]
  simp only [isOffer, Bool.and_eq_true, bne_iff_ne, beq_iff_eq]
  exact or_iff_right List.not_mem_nil

/-- A set is what its offers make one by one. -/
lemma set_eq (m : Making) : m.set = ofList m.offers := by
  induction m with
  | ofUris uris => rfl
  | insert m uri ih =>
    rw [set, ih]
    exact (ofList_concat m.offers _).symm
  | intersect m k ih ih' =>
    have sound := m.formed_set.sound
    rw [ih] at sound
    have common : (ofList m.offers).intersect (ofList k.offers) =
        (ofList m.offers).restrict fun i => k.offers.any (isOffer i) := by
      have items := sound.items_intersect (ofList k.offers)
      simp only [contains_ofList] at items
      exact congrArg mk items
    rw [set, ih, ih', common]
    exact (ofList_filter _ m.offers).symm

end Making

/-- A URI is inserted if it is not blank and its identity is free. -/
lemma admits_ofUri :
    s.admits (.ofUri uri) = true ↔
      Text.allBlank uri = false ∧ identityOf (Text.trim uri) ∉ s.identities := by
  rw [admits_iff, ← Bool.not_eq_true, ← Text.trim_eq_empty_iff]
  rfl

/-- A URI is in a set if it agrees with one of the set's URIs up to the question mark. -/
lemma contains_iff_agree : s.contains uri = true ↔ ∃ u ∈ s.uris, AgreeUpToMark u uri := by
  rw [contains_iff, identities, uris, List.mem_map]
  simp only [List.mem_map, exists_exists_and_eq_and, agreeUpToMark_iff, Capability.identity_eq]

/-- However a set is made, its capabilities have different identities and URIs that are trimmed and
not empty, and they are the first ones offered under each identity, in the order of these offers. A
further URI is taken in at the end just if it is not blank and its identity is free. A URI, as it
stands, is in the set just if it agrees with one that is held up to the question mark. -/
theorem Making.holds_first (m : Making) :
    m.set.Sound ∧ m.set.HoldsFirst m.offers ∧
      (∀ uri,
        (m.set.admits (.ofUri uri) = true ↔
          Text.allBlank uri = false ∧ identityOf (Text.trim uri) ∉ m.set.identities) ∧
        (m.set.insert (.ofUri uri)).items =
          m.set.items ++ if m.set.admits (.ofUri uri) then [.ofUri uri] else []) ∧
      ∀ uri, m.set.contains uri = true ↔ ∃ held ∈ m.set.uris, AgreeUpToMark held uri := by
  refine ⟨m.formed_set.sound, ?_, fun uri => ⟨admits_ofUri, ?_⟩, fun uri => contains_iff_agree⟩
  · rw [m.set_eq]
    exact holdsFirst_ofList m.offers
  · rw [CapabilitySet.insert]
    split
    · rfl
    · exact (List.append_nil _).symm

/-- Of two offers under the identity before the question mark the first one stays, also where it is
empty. -/
example :
    (Making.insert (.ofUris ["?x", " a?1\n", "\t", "?y", "a?2"]) "b").set.uris =
      ["?x", "a?1", "b"] := by
  decide +kernel

end CapabilitySet

end Netconf
