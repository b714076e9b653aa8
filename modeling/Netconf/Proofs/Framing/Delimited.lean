import Netconf.Marker
import Netconf.Proofs.Framing.Grammar

/-!
# Payloads with a marker after them

A stream in end-of-message framing falls into payloads, each of which ends at the first marker after
the payload before it, and a rest without a marker. It does so in one way only (`Splits.unique`).
-/

namespace Netconf

namespace Marker

section

variable {α : Type} [BEq α]

/-- A list is cut before its first element where the marker stands there, and within the rest of it
otherwise. -/
lemma cut?_cons (marker : List α) (a : α) (rest : List α) :
    cut? marker (a :: rest) =
      if marker.isPrefixOf (a :: rest) then some ([], (a :: rest).drop marker.length)
      else (cut? marker rest).map fun (before, after) => (a :: before, after) := by
  simp only [cut?, find?_cons]
  split
  · simp
  · cases find? marker rest <;> simp [Nat.add_right_comm]

/-- An empty list is cut only by an empty marker. -/
lemma cut?_nil (marker : List α) :
    cut? marker [] = if marker.isPrefixOf [] then some ([], []) else none := by
  simp only [cut?, find?, findFrom]
  split <;> simp

end

variable {α : Type} [BEq α] [LawfulBEq α] {marker list before after : List α}

/-- What is cut off is what stands before the leftmost marker. -/
lemma of_cut? (h : cut? marker list = some (before, after)) :
    list = before ++ (marker ++ after) ∧
      ∀ {other}, other ++ marker <+: list → before.length ≤ other.length := by
  induction list generalizing before with
  | nil =>
    rw [cut?_nil] at h
    split at h
    · next here =>
      cases h
      obtain rfl := List.prefix_nil.mp (List.isPrefixOf_iff_prefix.mp here)
      exact ⟨rfl, fun _ => Nat.zero_le _⟩
    · cases h
  | cons a rest ih =>
    rw [cut?_cons] at h
    split at h
    · next here =>
      obtain ⟨after', eq⟩ := List.isPrefixOf_iff_prefix.mp here
      rw [← eq, List.drop_left] at h
      cases h
      exact ⟨eq.symm, fun _ => Nat.zero_le _⟩
    · next elsewhere =>
      obtain ⟨⟨before', after'⟩, cut, eq⟩ := Option.map_eq_some_iff.mp h
      cases eq
      obtain ⟨rfl, first⟩ := ih cut
      refine ⟨rfl, ?_⟩
      intro other begins
      -- A marker further left would stand at the head, or further left in the rest too.
      cases other with
      | nil => exact absurd (List.isPrefixOf_iff_prefix.mpr begins) elsewhere
      | cons b other =>
        rw [List.cons_append, List.cons_prefix_cons] at begins
        exact Nat.succ_le_succ (first begins.2)

/-- Nothing is cut off only where there is no marker. -/
lemma not_infix_of_cut? (h : cut? marker list = none) : ¬marker <:+: list := by
  induction list with
  | nil =>
    rw [cut?_nil] at h
    intro inside
    rw [List.infix_nil.mp inside] at h
    cases h
  | cons a rest ih =>
    rw [cut?_cons] at h
    split at h
    · cases h
    · next elsewhere =>
      rw [List.infix_cons_iff, not_or]
      exact ⟨mt List.isPrefixOf_iff_prefix.mpr elsewhere, ih (Option.map_eq_none_iff.mp h)⟩

end Marker

namespace Framing

/-- In a payload with a marker after it no marker begins before that one. -/
def EndsAtMarker (payload : Bytes) : Prop :=
  ∀ {before : Bytes}, before ++ endOfMessageMarker <+: payload ++ endOfMessageMarker →
    payload.length ≤ before.length

/-- A payload that ends at the first marker. -/
structure Delimited where
  payload : Bytes
  first : EndsAtMarker payload

namespace Delimited

/-- A payload as it goes over the wire. -/
def wire (p : Delimited) : Bytes :=
  p.payload ++ endOfMessageMarker

/-- Payloads as they go over the wire, one after the other. -/
def stream (ps : List Delimited) : Bytes :=
  ps.flatMap wire

/-- The bytes are those of the payloads, each up to the first marker, and a rest without one. -/
structure Splits (bytes : Bytes) (ps : List Delimited) (rest : Bytes) : Prop where
  eq : bytes = stream ps ++ rest
  free : ¬endOfMessageMarker <:+: rest

/-- Of two payloads with which the same bytes begin, none is shorter. -/
lemma length_le {p q : Delimited} {bytes : Bytes} (first : p.wire <+: bytes)
    (second : q.wire <+: bytes) : q.payload.length ≤ p.payload.length := by
  rcases Nat.le_total q.payload.length p.payload.length with le | le
  · exact le
  · apply q.first
    refine List.prefix_of_prefix_length_le first second ?_
    simp only [List.length_append]
    omega

/-- No payload with its marker begins another one. -/
lemma prefixCode : PrefixCode wire := by
  intro p q x y h
  have first : p.wire <+: p.wire ++ x := List.prefix_append _ _
  have second : q.wire <+: p.wire ++ x := ⟨y, h.symm⟩
  have len := Nat.le_antisymm (length_le second first) (length_le first second)
  simp only [wire, List.append_assoc] at h
  obtain ⟨same, rest⟩ := List.append_inj h len
  refine ⟨?_, List.append_cancel_left rest⟩
  obtain ⟨_, _⟩ := p
  obtain ⟨_, _⟩ := q
  cases same
  rfl

/-- Bytes without a marker do not begin with a payload. -/
lemma ne_wire {rest more : Bytes} (free : ¬endOfMessageMarker <:+: rest) {p : Delimited} :
    rest ≠ p.wire ++ more := by
  rintro rfl
  exact free ⟨p.payload, more, rfl⟩

/-- A stream splits in one way only. -/
lemma Splits.unique {bytes rest rest' : Bytes} {ps qs : List Delimited}
    (first : Splits bytes ps rest) (second : Splits bytes qs rest') : ps = qs ∧ rest = rest' :=
  prefixCode.unique (ne_wire first.free) (ne_wire second.free) (first.eq.symm.trans second.eq)

/-- The payloads of a stream are all that its bytes come to. -/
def Comes (bytes : Bytes) (ps : List Delimited) (v : Option Violation) : Prop :=
  v = none ∧ ∃ rest, Splits bytes ps rest

end Delimited

end Framing

end Netconf
