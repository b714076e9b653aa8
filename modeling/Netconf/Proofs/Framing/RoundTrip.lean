import Mathlib.Data.Set.List
import Netconf.Proofs.Framing.Chunked
import Netconf.Proofs.Framing.EndOfMessage

/-!
# Decoding what was encoded

Encoded payloads come back from a decoder, however their bytes are cut, if and only if each of them
is fit for the framing (`decodes_encoded`): its greatest chunk is within the limit, or it ends at
the first marker.
-/

namespace Netconf.Framing

/-! ## Payloads in chunks -/

/-- The size of the greatest chunk of an encoded payload. -/
def greatestChunk (size : Nat) (payload : Bytes) : Nat :=
  min (min (max size 1) absoluteMaxChunkSize) payload.length

section

variable {limit size : Nat} {p : Bytes} {ps : List Bytes}

/-- A payload that is not empty is encoded as its pieces in chunks, and the mark at the end. -/
lemma encode_chunked (ne : p ≠ []) :
    encode .chunked size p =
      .ok ((pieces (min size absoluteMaxChunkSize) p).flatMap encodeChunk ++ endOfChunks) := by
  simp [encode, ne]

/-- The size of the pieces is at least one and at most the greatest size of a chunk. -/
lemma max_min_size (size : Nat) :
    max (min size absoluteMaxChunkSize) 1 = min (max size 1) absoluteMaxChunkSize := by
  have : 1 ≤ absoluteMaxChunkSize := by decide
  omega

/-- Without a chunk beyond the limit a payload becomes a message. -/
lemma encode_of_le (ne : p ≠ []) (fit : greatestChunk size p ≤ limit) :
    ∃ m : Message limit, encode .chunked size p = .ok m.wire ∧ m.payload = p := by
  rw [encode_chunked ne]
  have parts : ∀ part ∈ pieces (min size absoluteMaxChunkSize) p,
      part ≠ [] ∧ part.length ≤ limit := by
    intro part mem
    obtain ⟨ne, le⟩ := of_mem_pieces mem
    rw [max_min_size] at le
    exact ⟨ne, le.trans fit⟩
  have all := flatten_pieces (min size absoluteMaxChunkSize) p
  have chunks : pieces (min size absoluteMaxChunkSize) p ∈
      Set.range (List.map (@Chunk.data limit)) := by
    rw [Set.range_list_map]
    exact fun part mem => ⟨⟨part, (parts part mem).1, (parts part mem).2⟩, rfl⟩
  obtain ⟨cs, same⟩ := chunks
  rw [← same] at all ⊢
  refine ⟨⟨cs, ?_⟩, ?_, all⟩
  · rintro rfl
    exact ne all.symm
  · rw [List.flatMap_map]
    rfl

/-- With a chunk beyond the limit its first chunk already violates it. -/
lemma encode_of_lt (ne : p ≠ []) (beyond : limit < greatestChunk size p) :
    ∃ wire, encode .chunked size p = .ok wire ∧ ∀ chunks more,
      Header.read limit chunks (wire ++ more) =
        .violated 2 (.oversizedChunk (greatestChunk size p) limit) := by
  refine ⟨_, encode_chunked ne, ?_⟩
  intro chunks more
  have len : (p.take (max (min size absoluteMaxChunkSize) 1)).length = greatestChunk size p := by
    rw [List.length_take, max_min_size, greatestChunk]
  have most : greatestChunk size p ≤ absoluteMaxChunkSize := by
    rw [greatestChunk]
    omega
  rw [pieces_of_ne_nil ne, List.flatMap_cons, encodeChunk_eq, len]
  simp only [List.append_assoc]
  rw [Header.read_chunkHeader (by omega) (length_decimal_le most), if_pos beyond]

/-- What the bytes of encoded payloads come to. -/
inductive Encoded (limit size : Nat) (ps : List Bytes) (bytes : Bytes) : Prop where
  /-- Without a chunk beyond the limit they are messages. -/
  | whole (ms : List (Message limit)) :
    (∀ p ∈ ps, greatestChunk size p ≤ limit) → bytes = Message.stream ms →
    ms.map Message.payload = ps →
    Encoded limit size ps bytes
  /-- With such a chunk a violation takes the place of its message. -/
  | broken (ms : List (Message limit)) (violation : Violation) :
    ¬(∀ p ∈ ps, greatestChunk size p ≤ limit) → Outcome bytes ms (some violation) →
    ms.length < ps.length →
    Encoded limit size ps bytes

/-- Payloads that are not empty are all encoded. -/
lemma encode_all (limit size : Nat) (nonempty : ∀ p ∈ ps, p ≠ []) :
    ∃ wires, ps.mapM (encode .chunked size) = .ok wires ∧
      Encoded limit size ps wires.flatten := by
  induction ps with
  | nil => exact ⟨[], rfl, .whole [] (by simp) rfl rfl⟩
  | cons p ps ih =>
    rw [List.forall_mem_cons] at nonempty
    obtain ⟨wires, encoded, after⟩ := ih nonempty.2
    rw [List.mapM_cons, encoded]
    rcases Nat.lt_or_ge limit (greatestChunk size p) with beyond | fit
    · -- Whatever follows, the first payload is not read.
      obtain ⟨wire, eq, read⟩ := encode_of_lt nonempty.1 beyond
      have out : @Outcome limit (wire ++ wires.flatten) [] (some _) :=
        .intro [] rfl (.violated (read 0 wires.flatten))
      refine ⟨wire :: wires, by rw [eq]; rfl, .broken [] _ ?_ out (Nat.succ_pos _)⟩
      rw [List.forall_mem_cons]
      exact fun fit => absurd fit.1 (Nat.not_le.mpr beyond)
    · obtain ⟨m, eq, payload⟩ := encode_of_le nonempty.1 fit
      refine ⟨m.wire :: wires, by rw [eq]; rfl, ?_⟩
      rw [List.flatten_cons]
      cases after with
      | whole ms all flat payloads =>
        refine .whole (m :: ms) (List.forall_mem_cons.mpr ⟨fit, all⟩) ?_ ?_
        · rw [flat]
          rfl
        · rw [List.map_cons, payload, payloads]
      | broken ms violation some out less =>
        refine .broken (m :: ms) violation ?_ (out.cons m) (Nat.succ_lt_succ less)
        exact mt (fun all => (List.forall_mem_cons.mp all).2) some

end

namespace Decoder

variable {limit size : Nat} {ps cut : List Bytes}

/-- After messages and nothing else a decoder holds no bytes. -/
lemma Stands.size_eq_zero (top : limit ≤ absoluteMaxChunkSize) {ms : List (Message limit)}
    {d : Decoder} (st : Stands (Message.stream ms) ms d) : d.size = 0 := by
  cases st with
  | header cs g _ _ eq =>
    have nothing := List.append_right_eq_self.mp eq.symm
    rw [List.append_eq_nil_iff] at nothing
    have counted := g.counted
    rw [nothing.2] at counted
    rw [size, counted]
    simp
  | chunk cs data g _ _ _ _ eq =>
    have nothing := List.append_right_eq_self.mp eq.symm
    simp [chunkHeader] at nothing
  | failed _ out => exact absurd (out.unique top (.stream ms)).2 (Option.some_ne_none _)

/-- Fed the bytes of encoded payloads in any pieces, a decoder gives these and is left with nothing
if and only if no chunk is beyond the limit, and it meets no violation if it gives them. -/
lemma feed_encoded (top : limit ≤ absoluteMaxChunkSize) (enc : Encoded limit size ps cut.flatten) :
    let fed := (new .chunked limit).feed cut
    (fed.payloads = ps ∧ fed.decoder.size = 0 ↔ ∀ p ∈ ps, greatestChunk size p ≤ limit) ∧
      (fed.payloads = ps → fed.error = none) := by
  intro fed
  obtain ⟨ns, payloads, st, out⟩ := feed_chunked top cut
  cases enc with
  | whole ms fit flat eq =>
    rw [flat] at st out
    obtain ⟨rfl, none⟩ := out.unique top (.stream ms)
    refine ⟨⟨fun _ => fit, fun _ => ⟨payloads.trans eq, st.size_eq_zero top⟩⟩, ?_⟩
    exact fun _ => Option.map_eq_none_iff.mp none
  | broken ms violation unfit out' less =>
    obtain ⟨rfl, -⟩ := out.unique top out'
    have other : fed.payloads ≠ ps := by
      intro eq
      rw [← eq, payloads, List.length_map] at less
      exact Nat.lt_irrefl _ less
    refine ⟨⟨fun back => absurd back.1 other, fun fit => absurd fit unfit⟩, ?_⟩
    exact fun back => absurd back other

/-- Fed payloads with markers after them in any pieces, a decoder meets no violation, and gives
these if and only if each ends at the first marker. -/
lemma feed_marked (same : cut.flatten = (ps.map (· ++ endOfMessageMarker)).flatten) :
    let fed := (new .endOfMessage limit).feed cut
    fed.error = none ∧ (fed.payloads = ps ↔ ∀ p ∈ ps, EndsAtMarker p) := by
  intro fed
  obtain ⟨qs, payloads, none, rest, sp⟩ := feed_endOfMessage limit cut
  refine ⟨none, ?_, ?_⟩
  · intro back p mem
    rw [← back, payloads, List.mem_map] at mem
    obtain ⟨q, -, rfl⟩ := mem
    exact q.first
  · intro ends
    have all : ps ∈ Set.range (List.map Delimited.payload) := by
      rw [Set.range_list_map]
      exact fun p mem => ⟨⟨p, ends p mem⟩, rfl⟩
    obtain ⟨rs, rfl⟩ := all
    have whole : Delimited.Splits cut.flatten rs [] := by
      refine ⟨?_, by decide⟩
      rw [same, List.map_map, List.append_nil]
      rfl
    obtain ⟨rfl, -⟩ := sp.unique whole
    exact payloads

/-- Encoded payloads come back, however their bytes are cut, and nothing is left of them, if and
only if no chunk is beyond the limit, or each payload ends at the first marker. -/
theorem decodes_encoded (top : limit ≤ absoluteMaxChunkSize) (size : Nat) (ps : List Bytes) :
    ((∀ p ∈ ps, p ≠ []) →
        ∃ wires, ps.mapM (encode .chunked size) = .ok wires ∧
          ∀ cut : List Bytes, cut.flatten = wires.flatten →
            let fed := (new .chunked limit).feed cut
            (fed.payloads = ps ∧ fed.decoder.size = 0 ↔
                ∀ p ∈ ps, greatestChunk size p ≤ limit) ∧
              (fed.payloads = ps → fed.error = none)) ∧
      ∃ wires, ps.mapM (encode .endOfMessage size) = .ok wires ∧
        ∀ cut : List Bytes, cut.flatten = wires.flatten →
          let fed := (new .endOfMessage limit).feed cut
          fed.error = none ∧ (fed.payloads = ps ↔ ∀ p ∈ ps, EndsAtMarker p) := by
  constructor
  · intro nonempty
    obtain ⟨wires, encoded, enc⟩ := encode_all limit size nonempty
    refine ⟨wires, encoded, ?_⟩
    intro cut same
    rw [← same] at enc
    exact feed_encoded top enc
  · refine ⟨ps.map (· ++ endOfMessageMarker), List.mapM_pure, ?_⟩
    intro cut same
    exact feed_marked same

/-- Two payloads in chunks of one byte, the second of them a part of the marker. -/
theorem decodes_encoded_bytes :
    3 ≤ absoluteMaxChunkSize ∧ (∀ p ∈ [[0x41, 0x42], [0x5d]], p ≠ ([] : Bytes)) ∧
      ∃ wires, [[0x41, 0x42], [0x5d]].mapM (encode .chunked 0) = .ok wires ∧
        ((new .chunked 3).feed wires).payloads = [[0x41, 0x42], [0x5d]] ∧
        ((new .chunked 3).feed wires).decoder.size = 0 := by
  have top : 3 ≤ absoluteMaxChunkSize := by decide
  have nonempty : ∀ p ∈ [[0x41, 0x42], [0x5d]], p ≠ ([] : Bytes) := by decide
  have fit : ∀ p ∈ ([[0x41, 0x42], [0x5d]] : List Bytes), greatestChunk 0 p ≤ 3 := by decide
  obtain ⟨wires, encoded, back⟩ := (decodes_encoded top 0 [[0x41, 0x42], [0x5d]]).1 nonempty
  exact ⟨top, nonempty, wires, encoded, (back wires rfl).1.mpr fit⟩

end Decoder

end Netconf.Framing
