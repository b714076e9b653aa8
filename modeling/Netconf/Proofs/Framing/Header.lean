import Mathlib.Data.List.TakeWhile
import Netconf.Proofs.Framing.Size

/-!
# Headers of chunks

What the head of the buffer says where a header is due is told apart by what the buffer begins
with: a header in the shortest form, the mark at the end of the chunks, a part of one of these, or
anything else. A violation stays one whatever bytes follow (`Header.violated_append`), and what is
incomplete is short (`Header.incomplete_cases`).
-/

namespace Netconf.Framing

/-- The header of a chunk of the given size. -/
def chunkHeader (size : Nat) : Bytes :=
  [lf, hash] ++ decimal size ++ [lf]

/-- A chunk is encoded as the header for its size with its bytes after it. -/
lemma encodeChunk_eq (data : Bytes) : encodeChunk data = chunkHeader data.length ++ data := by
  simp [encodeChunk, chunkHeader]

/-- A header has the digits of its size, two bytes before them and one after them. -/
lemma length_chunkHeader (size : Nat) :
    (chunkHeader size).length = 2 + (decimal size).length + 1 := by
  simp only [chunkHeader, List.length_append, List.length_cons, List.length_nil]

/-- A list cut at its first line feed. -/
lemma takeWhile_of_lf {field : Bytes} (free : lf ∉ field) (rest : Bytes) :
    (field ++ lf :: rest).takeWhile (· != lf) = field ∧
      (field ++ lf :: rest).dropWhile (· != lf) = lf :: rest := by
  have keep : ∀ b ∈ field, (b != lf) = true := fun b mem => by
    simpa using fun eq : b = lf => free (eq ▸ mem)
  constructor
  · rw [List.takeWhile_append_of_pos keep]
    simp
  · rw [List.dropWhile_append_of_pos keep]
    simp

/-- A list without a line feed is all of the field, and nothing follows. -/
lemma takeWhile_of_open {bytes : Bytes} (free : lf ∉ bytes) :
    bytes.takeWhile (· != lf) = bytes ∧ bytes.dropWhile (· != lf) = [] := by
  have keep : ∀ b ∈ bytes, (b != lf) = true := fun b mem => by
    simpa using fun eq : b = lf => free (eq ▸ mem)
  exact ⟨List.takeWhile_eq_self_iff.mpr keep, List.dropWhile_eq_nil_iff.mpr keep⟩

namespace Header

variable {limit chunks : Nat} {bytes : Bytes}

/-- A field that is at its end is judged for good. -/
lemma ofField_append {field : Bytes} (free : lf ∉ field) (rest more : Bytes) :
    ofField limit (field ++ lf :: rest ++ more) = ofField limit (field ++ lf :: rest) := by
  obtain ⟨take, drop⟩ := takeWhile_of_lf free rest
  obtain ⟨take', drop'⟩ := takeWhile_of_lf free (rest ++ more)
  rw [List.append_assoc, List.cons_append]
  simp only [ofField, take, drop, take', drop', List.isEmpty_cons]

/-- A size in its shortest form announces a chunk if it is within the limit. -/
lemma ofField_decimal {size : Nat} (pos : 0 < size)
    (short : (decimal size).length ≤ maxChunkSizeDigits) (rest : Bytes) :
    ofField limit (decimal size ++ lf :: rest) =
      if limit < size then .violated 2 (.oversizedChunk size limit)
      else .size size (chunkHeader size).length := by
  obtain ⟨take, drop⟩ := takeWhile_of_lf (lf_notMem_decimal size) rest
  have digits : (decimal size).findIdx? (!isDigit ·) = none := by
    rw [List.findIdx?_eq_none_iff]
    intro b mem
    simp [isDigit_of_mem_decimal mem]
  simp only [ofField, take, drop, digits, if_neg (Nat.not_lt.mpr short), List.isEmpty_cons,
    Bool.false_eq_true, if_false]
  have front := head?_decimal pos
  split
  · next eq => exact absurd eq (decimal_ne_nil size)
  · next eq => simp [eq] at front
  · next eq => simp [eq] at front
  · rw [value_decimal, length_chunkHeader]

/-- A field announces a chunk only if it is the shortest form of a size within the limit. -/
lemma decimal_of_ofField {size length : Nat} (h : ofField limit bytes = .size size length) :
    0 < size ∧ size ≤ limit ∧ (decimal size).length ≤ maxChunkSizeDigits ∧
      length = (chunkHeader size).length ∧ ∃ rest, bytes = decimal size ++ lf :: rest := by
  have cut := List.takeWhile_append_dropWhile (p := (· != lf)) (l := bytes)
  simp only [ofField] at h
  split at h
  · cases h
  next digits =>
  split at h
  · cases h
  next short =>
  split at h
  · cases h
  next ended =>
  rw [List.findIdx?_eq_none_iff] at digits
  have digits : ∀ b ∈ bytes.takeWhile (· != lf), isDigit b = true := by simpa using digits
  -- A field is judged as a size only when it is at its end.
  have ended : ∃ rest, bytes.dropWhile (· != lf) = lf :: rest := by
    have stop := List.head?_dropWhile_not (· != lf) bytes
    cases eq : bytes.dropWhile (· != lf) with
    | nil => simp [eq] at ended
    | cons b rest =>
      rw [eq] at stop
      have last : b = lf := by simpa using stop
      exact ⟨rest, by rw [last]⟩
  obtain ⟨rest, ended⟩ := ended
  split at h
  · cases h
  · cases h
  · cases h
  next ne one zero =>
  have front : (bytes.takeWhile (· != lf)).head? ≠ some 0x30 := by
    intro eq
    obtain ⟨rest, eq⟩ := List.head?_eq_some_iff.mp eq
    exact zero rest eq
  obtain ⟨pos, shortest⟩ := decimal_value digits ne front
  split at h
  · cases h
  next within =>
  cases h
  rw [length_chunkHeader, shortest]
  refine ⟨pos, Nat.not_lt.mp within, Nat.not_lt.mp short, rfl, rest, ?_⟩
  rw [← ended, cut]

/-- No size is written with such a field. -/
def Unfit (field : Bytes) : Prop :=
  (∃ b ∈ field, isDigit b = false) ∨ maxChunkSizeDigits < field.length

/-- An unfit field shows this before its end. -/
lemma ofField_of_unfit (limit : Nat) (bad : Unfit (bytes.takeWhile (· != lf))) :
    ∃ position, ofField limit bytes = .violated position .invalidChunkSize := by
  simp only [ofField]
  cases found : (bytes.takeWhile (· != lf)).findIdx? (!isDigit ·) with
  | some i => exact ⟨2 + i, rfl⟩
  | none =>
    rw [List.findIdx?_eq_none_iff] at found
    rcases bad with ⟨b, mem, other⟩ | long
    · simpa [other] using found b mem
    · exact ⟨_, if_pos long⟩

/-- Index of the byte after a field with as many digits as a size can have. -/
def full : Nat :=
  2 + maxChunkSizeDigits

/-- A field that shows a violation shows it at the same place whatever follows, but for too many
digits: after them a byte may come that is none. -/
lemma ofField_violated_append {position : Nat} {violation : Violation}
    (h : ofField limit bytes = .violated position violation) (more : Bytes) :
    ∃ position', ofField limit (bytes ++ more) = .violated position' violation ∧
      (position' = position ∨
        position = full ∧ full < 2 + bytes.length ∧ 2 + bytes.length ≤ position') := by
  by_cases mem : lf ∈ bytes
  · -- The field is at its end.
    obtain ⟨field, rest, rfl, free⟩ := List.eq_append_cons_of_mem mem
    exact ⟨position, by rw [ofField_append free, h], .inl rfl⟩
  · obtain ⟨take, drop⟩ := takeWhile_of_open mem
    have longer : (bytes ++ more).takeWhile (· != lf) = bytes ++ more.takeWhile (· != lf) := by
      rw [List.takeWhile_append, if_pos (by rw [take])]
    simp only [ofField, take, drop, List.isEmpty_nil, if_true] at h
    simp only [ofField, longer, List.findIdx?_append]
    split at h
    · next i found =>
      cases h
      exact ⟨2 + i, by rw [found, Option.some_or], .inl rfl⟩
    · next digits =>
      split at h
      · next long =>
        cases h
        rw [digits, Option.none_or]
        -- There are too many digits already, but what follows may hold a byte that is none.
        cases found : (more.takeWhile (· != lf)).findIdx? (!isDigit ·) with
        | none =>
          refine ⟨full, ?_, .inl rfl⟩
          simp only [Option.map_none]
          rw [if_pos (by rw [List.length_append]; omega), full]
        | some j =>
          refine ⟨2 + (j + bytes.length), rfl, .inr ⟨rfl, ?_, by omega⟩⟩
          rw [full]
          omega
      · cases h

/-- A field that needs more bytes has at most as many as a size can have digits. -/
lemma length_le_of_ofField_incomplete (h : ofField limit bytes = .incomplete) :
    bytes.length ≤ maxChunkSizeDigits := by
  by_cases mem : lf ∈ bytes
  · obtain ⟨field, rest, rfl, free⟩ := List.eq_append_cons_of_mem mem
    obtain ⟨-, drop⟩ := takeWhile_of_lf free rest
    simp only [ofField, drop, List.isEmpty_cons, Bool.false_eq_true, if_false] at h
    repeat' split at h
    all_goals cases h
  · by_cases bad : Unfit bytes
    · rw [← (takeWhile_of_open mem).1] at bad
      obtain ⟨_, eq⟩ := ofField_of_unfit limit bad
      rw [eq] at h
      cases h
    · rw [Unfit, not_or] at bad
      exact Nat.not_lt.mp bad.2

/-- What a buffer can begin with where a header is due. -/
inductive Shape (limit chunks : Nat) : Bytes → Prop where
  | part {head : Bytes} : head <+: [lf, hash, hash] → Shape limit chunks head
  | field {b : UInt8} (rest : Bytes) : b ≠ hash → Shape limit chunks (lf :: hash :: b :: rest)
  | ending (rest : Bytes) : Shape limit chunks (Framing.endOfChunks ++ rest)
  | other {head : Bytes} (position : Nat) (violation : Violation) :
    (∀ more, read limit chunks (head ++ more) = .violated position violation) →
    Shape limit chunks head

/-- Every buffer has one of the shapes. -/
lemma shape (limit chunks : Nat) (bytes : Bytes) : Shape limit chunks bytes := by
  -- Byte by byte, each is the one that is due, or shows the violation whatever follows.
  rcases bytes with _ | ⟨first, _ | ⟨second, _ | ⟨third, rest⟩⟩⟩
  · exact .part (List.nil_prefix)
  all_goals
    by_cases one : first = lf
    swap
    · exact .other 0 .malformedChunkHeader fun more => by
        simp [read, one]
    subst one
  · exact .part (by decide)
  all_goals
    by_cases two : second = hash
    swap
    · exact .other 1 .malformedChunkHeader fun more => by
        simp [read, two]
    subst two
  · exact .part (by decide)
  by_cases three : third = hash
  swap
  · exact .field rest three
  subst three
  rcases rest with _ | ⟨fourth, rest⟩
  · exact .part (by decide)
  by_cases four : fourth = lf
  · subst four
    exact .ending rest
  · exact .other 3 .malformedEndOfChunks fun more => by
      simp [read, four]

/-- Bytes with which the mark at the end of the chunks begins need more bytes. -/
lemma read_part (h : bytes <+: [lf, hash, hash]) : read limit chunks bytes = .incomplete := by
  simp only [List.prefix_cons_iff, List.prefix_nil] at h
  rcases h with rfl | ⟨_, rfl, rfl | ⟨_, rfl, rfl | ⟨_, rfl, rfl⟩⟩⟩ <;> rfl

/-- After a line feed and a number sign, any byte but another number sign begins the field of a
size. -/
lemma read_field {b : UInt8} (other : b ≠ hash) (rest : Bytes) :
    read limit chunks (lf :: hash :: b :: rest) = ofField limit (b :: rest) := by
  simp [read, other]

/-- The mark at the end of the chunks is read as such, and refused if the message has no chunks. -/
lemma read_ending (rest : Bytes) :
    read limit chunks (Framing.endOfChunks ++ rest) =
      if chunks = 0 then .violated 0 .emptyMessage else .endOfChunks := by
  simp [read, Framing.endOfChunks]

/-- A header announces a chunk of its size, and is refused if that is beyond the limit. -/
lemma read_chunkHeader {size : Nat} (pos : 0 < size)
    (short : (decimal size).length ≤ maxChunkSizeDigits) (rest : Bytes) :
    read limit chunks (chunkHeader size ++ rest) =
      if limit < size then .violated 2 (.oversizedChunk size limit)
      else .size size (chunkHeader size).length := by
  have judged : ofField limit (decimal size ++ lf :: rest) = _ := ofField_decimal pos short rest
  have digit : hash ∉ decimal size := fun mem =>
    absurd (isDigit_of_mem_decimal mem) (by decide)
  have split : chunkHeader size ++ rest = lf :: hash :: (decimal size ++ lf :: rest) := by
    simp [chunkHeader]
  rw [split]
  cases eq : decimal size with
  | nil => exact absurd eq (decimal_ne_nil size)
  | cons b ds =>
    rw [eq] at judged digit
    have other : b ≠ hash := fun eq => digit (by simp [eq])
    exact (read_field other _).trans judged

/-- A chunk is announced only by the header for its size, which is within the limit and has no more
than ten digits. -/
lemma of_read_size {size length : Nat} (h : read limit chunks bytes = .size size length) :
    0 < size ∧ size ≤ limit ∧ (decimal size).length ≤ maxChunkSizeDigits ∧
      length = (chunkHeader size).length ∧ ∃ rest, bytes = chunkHeader size ++ rest := by
  cases shape limit chunks bytes with
  | part part => simp [read_part part] at h
  | field rest other =>
    rw [read_field other] at h
    obtain ⟨pos, within, short, len, rest, eq⟩ := decimal_of_ofField h
    refine ⟨pos, within, short, len, rest, ?_⟩
    simp [chunkHeader, eq]
  | ending rest =>
    rw [read_ending] at h
    split at h <;> cases h
  | other _ _ all =>
    rw [← List.append_nil bytes, all] at h
    cases h

/-- The chunks are ended only by the mark, after at least one of them. -/
lemma of_read_endOfChunks (h : read limit chunks bytes = .endOfChunks) :
    chunks ≠ 0 ∧ ∃ rest, bytes = Framing.endOfChunks ++ rest := by
  cases shape limit chunks bytes with
  | part part => simp [read_part part] at h
  | field rest other =>
    rw [read_field other] at h
    simp only [ofField] at h
    repeat' split at h
    all_goals cases h
  | ending rest =>
    rw [read_ending] at h
    split at h
    · cases h
    · next some => exact ⟨some, rest, rfl⟩
  | other _ _ all =>
    rw [← List.append_nil bytes, all] at h
    cases h

/-- A violation stays one whatever follows, and at the same place, but for too many digits: after
them a byte may come that is none. -/
lemma violated_append {position : Nat} {violation : Violation}
    (h : read limit chunks bytes = .violated position violation) (more : Bytes) :
    ∃ position', read limit chunks (bytes ++ more) = .violated position' violation ∧
      (position' = position ∨
        position = full ∧ full < bytes.length ∧ bytes.length ≤ position') := by
  cases shape limit chunks bytes with
  | part part => simp [read_part part] at h
  | field rest other =>
    rw [read_field other] at h
    obtain ⟨position', eq, same⟩ := ofField_violated_append h more
    refine ⟨position', (read_field other _).trans eq, ?_⟩
    simp only [List.length_cons] at same ⊢
    omega
  | ending rest =>
    rw [read_ending] at h
    exact ⟨position, by rw [List.append_assoc, read_ending, h], .inl rfl⟩
  | other _ _ all =>
    rw [← List.append_nil bytes, all] at h
    cases h
    exact ⟨position, all more, .inl rfl⟩

/-- What is incomplete is short, and up to its second byte it is a part of any header. -/
lemma incomplete_cases (h : read limit chunks bytes = .incomplete) :
    bytes.length ≤ 2 + maxChunkSizeDigits ∧ bytes.take 2 <+: [lf, hash] := by
  cases shape limit chunks bytes with
  | part part =>
    have len := part.length_le
    refine ⟨len.trans (by decide), ?_⟩
    have cut : [lf, hash] <+: [lf, hash, hash] := ⟨[hash], rfl⟩
    exact List.prefix_of_prefix_length_le ((List.take_prefix 2 bytes).trans part) cut
      (List.length_take_le 2 bytes)
  | field rest other =>
    rw [read_field other] at h
    have len := length_le_of_ofField_incomplete h
    refine ⟨?_, List.prefix_refl _⟩
    simp only [List.length_cons] at len ⊢
    omega
  | ending rest =>
    rw [read_ending] at h
    split at h <;> cases h
  | other _ _ all =>
    rw [← List.append_nil bytes, all] at h
    cases h

end Header

end Netconf.Framing
