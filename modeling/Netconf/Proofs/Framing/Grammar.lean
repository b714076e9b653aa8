import Netconf.Proofs.Framing.Header

/-!
# Messages in chunked framing

A message is one or more chunks, each with its size in front of it, and the mark at their end. No
message begins another, so a stream can be read as messages in one way only (`Message.prefixCode`).
-/

namespace Netconf.Framing

/-- A chunk of at most `limit` bytes. -/
structure Chunk (limit : Nat) where
  data : Bytes
  nonempty : data ≠ []
  within : data.length ≤ limit

/-- A message whose chunks have at most `limit` bytes. -/
structure Message (limit : Nat) where
  chunks : List (Chunk limit)
  nonempty : chunks ≠ []

variable {limit : Nat}

/-- A chunk as it goes over the wire. -/
def Chunk.wire (c : Chunk limit) : Bytes :=
  encodeChunk c.data

/-- A message as it goes over the wire. -/
def Message.wire (m : Message limit) : Bytes :=
  m.chunks.flatMap Chunk.wire ++ endOfChunks

/-- What a message carries. -/
def Message.payload (m : Message limit) : Bytes :=
  m.chunks.flatMap Chunk.data

/-- Messages as they go over the wire, one after the other. -/
def Message.stream (ms : List (Message limit)) : Bytes :=
  ms.flatMap wire

/-! ## Code words -/

/-- No code word begins another one, whatever follows them. -/
def PrefixCode {α : Type} (code : α → Bytes) : Prop :=
  ∀ {a b : α} {x y : Bytes}, code a ++ x = code b ++ y → a = b ∧ x = y

section

variable {α : Type} {code : α → Bytes} {as bs : List α} {x y : Bytes}

/-- Where no code word follows the first of two sequences, it has all of the second. -/
lemma PrefixCode.prefix (pc : PrefixCode code) (stop : ∀ {a z}, x ≠ code a ++ z)
    (h : as.flatMap code ++ x = bs.flatMap code ++ y) :
    ∃ cs, as = bs ++ cs ∧ y = cs.flatMap code ++ x := by
  induction bs generalizing as with
  | nil => exact ⟨as, rfl, h.symm⟩
  | cons b bs ih =>
    simp only [List.flatMap_cons, List.append_assoc] at h
    cases as with
    | nil => exact absurd h stop
    | cons a as =>
      simp only [List.flatMap_cons, List.append_assoc] at h
      obtain ⟨rfl, rest⟩ := pc h
      obtain ⟨cs, rfl, eq⟩ := ih rest
      exact ⟨cs, rfl, eq⟩

/-- Where no code word follows two sequences, they are the same. -/
lemma PrefixCode.unique (pc : PrefixCode code) (stop : ∀ {a z}, x ≠ code a ++ z)
    (stop' : ∀ {a z}, y ≠ code a ++ z) (h : as.flatMap code ++ x = bs.flatMap code ++ y) :
    as = bs ∧ x = y := by
  obtain ⟨cs, rfl, eq⟩ := pc.prefix stop h
  cases cs with
  | nil => exact ⟨by rw [List.append_nil], eq.symm⟩
  | cons c cs =>
    rw [List.flatMap_cons, List.append_assoc] at eq
    exact absurd eq stop'

end

/-- No header of a chunk begins another one. -/
lemma chunkHeader_prefixCode : PrefixCode chunkHeader := by
  intro n k x y h
  simp only [chunkHeader, List.append_assoc, List.cons_append, List.nil_append,
    List.cons.injEq, true_and] at h
  have field := congrArg (List.takeWhile (· != lf)) h
  rw [(takeWhile_of_lf (lf_notMem_decimal n) x).1,
    (takeWhile_of_lf (lf_notMem_decimal k) y).1] at field
  rw [field] at h
  refine ⟨?_, (List.cons.inj (List.append_cancel_left h)).2⟩
  rw [← value_decimal n, field, value_decimal]

/-- A chunk is written as its header with its bytes after it. -/
lemma Chunk.wire_append (c : Chunk limit) (x : Bytes) :
    c.wire ++ x = chunkHeader c.data.length ++ (c.data ++ x) := by
  rw [wire, encodeChunk_eq, List.append_assoc]

/-- No chunk begins another one. -/
lemma Chunk.prefixCode : PrefixCode (@wire limit) := by
  intro c d x y h
  rw [wire_append, wire_append] at h
  obtain ⟨len, rest⟩ := chunkHeader_prefixCode h
  obtain ⟨data, rest⟩ := List.append_inj rest len
  refine ⟨?_, rest⟩
  obtain ⟨_, _, _⟩ := c
  obtain ⟨_, _, _⟩ := d
  cases data
  rfl

/-- The mark at the end of the chunks is no header. -/
lemma endOfChunks_ne_chunkHeader {n : Nat} {x y : Bytes} :
    endOfChunks ++ x ≠ chunkHeader n ++ y := by
  intro h
  have digit : hash ∉ decimal n := fun mem =>
    absurd (isDigit_of_mem_decimal mem) (by decide)
  cases eq : decimal n with
  | nil => exact decimal_ne_nil n eq
  | cons b ds =>
    simp only [chunkHeader, eq, endOfChunks, List.cons_append, List.nil_append, List.append_assoc,
      List.cons.injEq] at h
    exact digit (by simp [eq, h.2.2.1])

/-- The mark at the end of the chunks is no chunk. -/
lemma Chunk.endOfChunks_ne_wire {c : Chunk limit} {x y : Bytes} :
    endOfChunks ++ x ≠ c.wire ++ y := by
  rw [wire_append]
  exact endOfChunks_ne_chunkHeader

/-- No message begins another one. -/
lemma Message.prefixCode : PrefixCode (@wire limit) := by
  intro m n x y h
  simp only [wire, List.append_assoc] at h
  obtain ⟨chunks, rest⟩ :=
    Chunk.prefixCode.unique Chunk.endOfChunks_ne_wire Chunk.endOfChunks_ne_wire h
  refine ⟨?_, List.append_cancel_left rest⟩
  obtain ⟨_, _⟩ := m
  obtain ⟨_, _⟩ := n
  cases chunks
  rfl

/-! ## Streams of messages -/

namespace Message

/-- The bytes begin with the messages, and with no other ones after them. -/
structure Longest (bytes : Bytes) (ms : List (Message limit)) : Prop where
  begins : stream ms <+: bytes
  longest {ns : List (Message limit)} : stream ns <+: bytes → ns <+: ms

/-- The bytes with some more after them are those of messages. -/
def Continues (limit : Nat) (bytes : Bytes) : Prop :=
  ∃ ns : List (Message limit), bytes <+: stream ns

/-- Where no bytes lead to messages, no further message comes. -/
lemma Longest.eq_of_append {bytes more : Bytes} {ms ns : List (Message limit)}
    (now : Longest bytes ms) (later : Longest (bytes ++ more) ns)
    (dead : ¬Continues limit bytes) : ns = ms := by
  have here : bytes <+: bytes ++ more := List.prefix_append bytes more
  have old : ms <+: ns := later.longest (now.begins.trans here)
  rcases Nat.le_total (stream ns).length bytes.length with le | le
  · have new : ns <+: ms := now.longest (List.prefix_of_prefix_length_le later.begins here le)
    exact new.eq_of_length_le old.length_le
  · exact absurd ⟨ns, List.prefix_of_prefix_length_le here later.begins le⟩ dead

end Message

end Netconf.Framing
