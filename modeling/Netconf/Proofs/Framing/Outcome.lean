import Netconf.Proofs.Framing.Grammar

/-!
# What a stream comes to

The bytes of a stream in chunked framing are those of complete messages, of complete chunks of one
more message, and a remnant: a part of a header or of a chunk, or a violation. They are so in one
way only (`Outcome.unique`), and the messages are all with which the stream begins
(`Outcome.longest`). A violation means that no bytes can make the stream a sequence of messages
(`Outcome.dead`), and a stream that no bytes can make one comes to a violation within ten bytes
(`Outcome.continues`).
-/

namespace Netconf.Framing

variable {limit : Nat}

/-- What follows the complete chunks of a message that is not complete itself. -/
inductive Remnant (limit chunks : Nat) : Bytes → Option Violation → Prop where
  | header {rest} :
    Header.read limit chunks rest = .incomplete →
    Remnant limit chunks rest none
  | chunk {size data} :
    data.length < size → size ≤ limit →
    Remnant limit chunks (chunkHeader size ++ data) none
  | violated {rest position violation} :
    Header.read limit chunks rest = .violated position violation →
    Remnant limit chunks rest (some violation)

/-- The bytes of a stream come to the messages, and to the violation if there is one. -/
inductive Outcome (bytes : Bytes) (ms : List (Message limit)) (v : Option Violation) : Prop where
  | intro {rest} (cs : List (Chunk limit)) :
    bytes = Message.stream ms ++ (cs.flatMap Chunk.wire ++ rest) →
    Remnant limit cs.length rest v →
    Outcome bytes ms v

section

variable {chunks : Nat} {bytes rest more : Bytes} {v w : Option Violation}

/-! ## The remnant -/

/-- A chunk within the limit is read as the header for its size. -/
lemma Chunk.read_wire (top : limit ≤ absoluteMaxChunkSize) (c : Chunk limit) (more : Bytes) :
    Header.read limit chunks (c.wire ++ more) =
      .size c.data.length (chunkHeader c.data.length).length := by
  have within := c.within
  have pos : 0 < c.data.length := List.length_pos_iff.mpr c.nonempty
  rw [wire_append, Header.read_chunkHeader pos (length_decimal_le (within.trans top)),
    if_neg (Nat.not_lt.mpr within)]

/-- No complete chunk is left in a remnant. -/
lemma Remnant.ne_wire (top : limit ≤ absoluteMaxChunkSize) (rem : Remnant limit chunks rest v)
    {c : Chunk limit} : rest ≠ c.wire ++ more := by
  intro eq
  cases rem with
  | header read =>
    rw [eq, c.read_wire top] at read
    cases read
  | violated read =>
    rw [eq, c.read_wire top] at read
    cases read
  | chunk short =>
    rw [c.wire_append] at eq
    obtain ⟨rfl, rfl⟩ := chunkHeader_prefixCode eq
    rw [List.length_append] at short
    omega

/-- The mark at the end is not left in a remnant unless there are no chunks before it. -/
lemma Remnant.ne_endOfChunks (rem : Remnant limit chunks rest v) (some : chunks ≠ 0) :
    rest ≠ endOfChunks ++ more := by
  intro eq
  cases rem with
  | header read =>
    rw [eq, Header.read_ending, if_neg some] at read
    cases read
  | violated read =>
    rw [eq, Header.read_ending, if_neg some] at read
    cases read
  | chunk => exact endOfChunks_ne_chunkHeader eq.symm

/-- The violation that the head of the buffer shows. -/
def Header.violation? : Header → Option Violation
  | .violated _ violation => some violation
  | .incomplete | .size _ _ | .endOfChunks => none

/-- A remnant comes to the violation that its header shows. -/
lemma Remnant.violation_eq (top : limit ≤ absoluteMaxChunkSize)
    (rem : Remnant limit chunks rest v) : v = (Header.read limit chunks rest).violation? := by
  cases rem with
  | header read => rw [read, Header.violation?]
  | violated read => rw [read, Header.violation?]
  | chunk short within =>
    rw [Header.read_chunkHeader (by omega) (length_decimal_le (within.trans top)),
      if_neg (Nat.not_lt.mpr within), Header.violation?]

/-! ## The outcome -/

variable {ms ns : List (Message limit)} {cs : List (Chunk limit)}

/-- With a remnant after its chunks a message is not complete. -/
lemma Remnant.ne_message (top : limit ≤ absoluteMaxChunkSize)
    (rem : Remnant limit cs.length rest v) {m : Message limit} :
    cs.flatMap Chunk.wire ++ rest ≠ m.wire ++ more := by
  intro eq
  rw [Message.wire, List.append_assoc] at eq
  obtain ⟨rfl, after⟩ := Chunk.prefixCode.unique (rem.ne_wire top) Chunk.endOfChunks_ne_wire eq
  exact rem.ne_endOfChunks (by simpa using m.nonempty) after

/-- The messages of an outcome are all with which the stream begins. -/
lemma Outcome.longest (top : limit ≤ absoluteMaxChunkSize) (out : Outcome bytes ms v) :
    Message.Longest bytes ms := by
  obtain ⟨cs, rfl, rem⟩ := out
  refine ⟨List.prefix_append _ _, ?_⟩
  rintro ns ⟨more, eq⟩
  obtain ⟨ls, rfl, -⟩ := Message.prefixCode.prefix (rem.ne_message top) eq.symm
  exact List.prefix_append ns ls

/-- A stream has one outcome only. -/
lemma Outcome.unique (top : limit ≤ absoluteMaxChunkSize) (first : Outcome bytes ms v)
    (second : Outcome bytes ns w) : ms = ns ∧ v = w := by
  obtain ⟨cs, rfl, rem⟩ := first
  obtain ⟨ds, eq, rem'⟩ := second
  obtain ⟨rfl, after⟩ := Message.prefixCode.unique (rem.ne_message top) (rem'.ne_message top) eq
  obtain ⟨rfl, rfl⟩ := Chunk.prefixCode.unique (rem.ne_wire top) (rem'.ne_wire top) after
  exact ⟨rfl, by rw [rem.violation_eq top, ← rem'.violation_eq top]⟩

/-! ## Streams that no bytes can make a sequence of messages -/

/-- A violation stays what the stream comes to, whatever follows. -/
lemma Outcome.append {violation : Violation} (out : Outcome bytes ms (some violation))
    (more : Bytes) : Outcome (bytes ++ more) ms (some violation) := by
  obtain ⟨cs, rfl, rem⟩ := out
  cases rem with
  | violated read =>
    obtain ⟨_, read, -⟩ := Header.violated_append read more
    exact ⟨cs, by simp only [List.append_assoc], .violated read⟩

/-- Messages come to themselves. -/
lemma Outcome.stream (ms : List (Message limit)) : Outcome (Message.stream ms) ms none := by
  have nothing : Header.read limit 0 [] = .incomplete := rfl
  exact .intro [] (by simp) (.header nothing)

/-- What follows a message comes to the same with the message before it. -/
lemma Outcome.cons (m : Message limit) (out : Outcome bytes ms v) :
    Outcome (m.wire ++ bytes) (m :: ms) v := by
  obtain ⟨cs, rfl, rem⟩ := out
  exact .intro cs (by simp [Message.stream]) rem

/-- After a violation nothing can make the stream a sequence of messages. -/
lemma Outcome.dead (top : limit ≤ absoluteMaxChunkSize) {violation : Violation}
    (out : Outcome bytes ms (some violation)) : ¬Message.Continues limit bytes := by
  rintro ⟨ns, more, eq⟩
  have clean := Outcome.stream ns
  rw [← eq] at clean
  exact absurd ((out.append more).unique top clean).2 nofun

/-- With one more chunk and the mark at its end a message is complete. -/
lemma Message.stream_concat (ms : List (Message limit)) (cs : List (Chunk limit))
    (c : Chunk limit) :
    stream (ms ++ [⟨cs ++ [c], by simp⟩]) =
      stream ms ++ (cs.flatMap Chunk.wire ++ (c.wire ++ endOfChunks)) := by
  simp [stream, wire]

/-- Where there is no violation, the bytes but for the last ten can become messages. -/
lemma Outcome.continues (pos : 0 < limit) (out : Outcome (bytes ++ more) ms none)
    (ten : maxChunkSizeDigits ≤ more.length) : Message.Continues limit bytes := by
  obtain ⟨cs, eq, rem⟩ := out
  cases rem with
  | @chunk size data short within =>
    -- The chunk can be completed with any bytes.
    let pad : Bytes := List.replicate (size - data.length) 0
    have len : (data ++ pad).length = size := by
      simp only [pad, List.length_append, List.length_replicate]
      omega
    let c : Chunk limit := ⟨data ++ pad, by rw [← List.length_pos_iff]; omega, by omega⟩
    refine ⟨ms ++ [⟨cs ++ [c], by simp⟩], ?_⟩
    have eq' : Message.stream (ms ++ [⟨cs ++ [c], by simp⟩]) =
        bytes ++ (more ++ (pad ++ endOfChunks)) := by
      rw [Message.stream_concat, c.wire_append, len, ← List.append_assoc bytes, eq]
      simp only [List.append_assoc, c]
    exact ⟨_, eq'.symm⟩
  | header read =>
    rename_i rest
    -- What is incomplete begins any header, but for its last ten bytes.
    obtain ⟨short, begins⟩ := Header.incomplete_cases read
    let c : Chunk limit := ⟨[0], by simp, pos⟩
    refine ⟨ms ++ [⟨cs ++ [c], by simp⟩], ?_⟩
    have len := congrArg List.length eq
    rw [Message.stream_concat]
    rw [← List.append_assoc] at eq ⊢
    generalize Message.stream ms ++ cs.flatMap Chunk.wire = before at eq len ⊢
    have cut : bytes <+: before ++ rest.take 2 := by
      have whole : bytes <+: before ++ rest := ⟨more, eq⟩
      refine List.prefix_of_prefix_length_le whole ?_ ?_
      · rw [List.prefix_append_right_inj]
        exact List.take_prefix 2 rest
      · have := congrArg List.length eq
        simp only [List.length_append, List.length_take] at this ⊢
        omega
    refine cut.trans ?_
    rw [List.prefix_append_right_inj]
    refine begins.trans ⟨decimal 1 ++ lf :: 0 :: endOfChunks, ?_⟩
    simp [c, Chunk.wire, encodeChunk]

end

end Netconf.Framing
