import Netconf.Proofs.Framing.Feeding
import Netconf.Proofs.Framing.Outcome

/-!
# Decoding chunked framing

A decoder stands after complete messages and complete chunks of another, at a header or within a
chunk, or it has met a violation. Each move takes it from one such place to the next
(`Stands.move`), so that what it gives is what the bytes of the stream come to, however they are cut
(`decodes_grammar`).
-/

namespace Netconf.Framing

namespace Decoder

variable {limit : Nat}

/-- The decoder has met no violation and has complete chunks of a message. -/
structure Going (limit chunks : Nat) (d : Decoder) : Prop where
  going : d.failed = none
  limited : d.limit = limit
  chunks : d.chunks = chunks
  counted : d.received = d.offset + d.pending.length

/-- Where a decoder stands in the bytes, after it handed out the messages. -/
inductive Stands (bytes : Bytes) (ms : List (Message limit)) (d : Decoder) : Prop where
  /-- After complete chunks a header is due. -/
  | header (cs : List (Chunk limit)) :
    Going limit cs.length d → d.phase = .header → d.assembled.reverse = cs.flatMap Chunk.data →
    bytes = Message.stream ms ++ (cs.flatMap Chunk.wire ++ d.pending) →
    Stands bytes ms d
  /-- After complete chunks and a header more bytes of a chunk are due. -/
  | chunk (cs : List (Chunk limit)) (data : Bytes) {remaining : Nat} :
    Going limit cs.length d → d.phase = .chunk remaining →
    d.assembled.reverse = cs.flatMap Chunk.data ++ data →
    0 < remaining → data.length + remaining ≤ limit →
    bytes = Message.stream ms ++
      (cs.flatMap Chunk.wire ++ (chunkHeader (data.length + remaining) ++ (data ++ d.pending))) →
    Stands bytes ms d
  | failed {e : FramingError} :
    d.failed = some e → Outcome bytes ms (some e.violation) →
    Stands bytes ms d

/-- What a move comes to in the bytes. -/
inductive Moved (bytes : Bytes) (ms : List (Message limit)) : Move → Prop where
  | wait {d : Decoder} :
    Stands bytes ms d → Outcome bytes ms none →
    Moved bytes ms (.wait d)
  | go {d : Decoder} :
    Stands bytes ms d → d.failed = none → d.arrived = [] →
    Moved bytes ms (.go d)
  | message {m d} :
    Stands bytes (ms ++ [m]) d →
    Moved bytes ms (.message m.payload d)
  | violated {e : FramingError} :
    Outcome bytes ms (some e.violation) →
    Moved bytes ms (.violated e)

/-- What a decoder that is asked for a message answers. -/
inductive Asked (bytes : Bytes) (ms : List (Message limit)) :
    Except FramingError (Option Bytes) × Decoder → Prop where
  | none {d : Decoder} :
    Stands bytes ms d → Outcome bytes ms none →
    Asked bytes ms (.ok none, d)
  | message {m d} :
    Stands bytes (ms ++ [m]) d →
    Asked bytes ms (.ok (some m.payload), d)
  | violated {e : FramingError} {d : Decoder} :
    d.failed = some e → Outcome bytes ms (some e.violation) →
    Asked bytes ms (.error e, d)

variable {bytes : Bytes} {ms : List (Message limit)} {d : Decoder}

/-- A decoder that has met no violation has met none when more bytes come in. -/
lemma Going.extend {chunks : Nat} (g : Going limit chunks d) (more : Bytes) :
    Going limit chunks (d.extend more) := by
  refine ⟨g.going, g.limited, g.chunks, ?_⟩
  have := g.counted
  rw [pending_extend, List.length_append]
  simp only [Decoder.extend]
  omega

/-- Putting what arrived behind what is in the buffer brings no violation. -/
lemma Going.gather {chunks : Nat} (g : Going limit chunks d) :
    Going limit chunks { d with arrived := [], buffered := d.pending } :=
  ⟨g.going, g.limited, g.chunks, by simpa [pending] using g.counted⟩

/-- What is held is what a decoder consumes and what it still holds then. -/
lemma pending_consume (all : d.arrived = []) (n : Nat) :
    d.pending = d.buffered.take n ++ (d.consume n).pending := by
  simp [pending, Decoder.consume, all]

/-- Consuming bytes that are held keeps the count of those received. -/
lemma Going.consume {chunks n : Nat} (g : Going limit chunks d) (all : d.arrived = [])
    (le : n ≤ d.buffered.length) :
    (d.consume n).received = (d.consume n).offset + (d.consume n).pending.length := by
  have counted := g.counted
  rw [pending_consume all n, List.length_append, List.length_take] at counted
  simp only [Decoder.consume] at counted ⊢
  omega

namespace Stands

/-- A new decoder stands at the start of the stream. -/
lemma new (limit : Nat) : @Stands limit [] [] (.new .chunked limit) :=
  .header [] ⟨rfl, rfl, rfl, rfl⟩ rfl rfl rfl

/-- With more bytes a decoder stands at the same place of the longer stream. -/
lemma extend (st : Stands bytes ms d) (more : Bytes) :
    Stands (bytes ++ more) ms (d.extend more) := by
  cases st with
  | header cs g phase data eq =>
    exact .header cs (g.extend more) phase data (by simp [eq])
  | chunk cs data g phase assembled pos within eq =>
    exact .chunk cs data (g.extend more) phase assembled pos within (by simp [eq])
  | failed fail out => exact .failed fail (out.append more)

/-- What arrived is put behind what is in the buffer. -/
lemma gather (st : Stands bytes ms d) :
    Stands bytes ms { d with arrived := [], buffered := d.pending } := by
  have same : pending { d with arrived := [], buffered := d.pending } = d.pending := by
    simp [pending]
  cases st with
  | header cs g phase data eq => exact .header cs g.gather phase data (by rw [same, eq])
  | chunk cs data g phase assembled pos within eq =>
    exact .chunk cs data g.gather phase assembled pos within (by rw [same, eq])
  | failed fail out => exact .failed fail out

/-- Where a header is due, a move consumes it, ends the message or meets a violation. -/
lemma move_header (all : d.arrived = []) (cs : List (Chunk limit)) (g : Going limit cs.length d)
    (phase : d.phase = .header) (assembled : d.assembled.reverse = cs.flatMap Chunk.data)
    (eq : bytes = Message.stream ms ++ (cs.flatMap Chunk.wire ++ d.pending)) :
    Moved bytes ms d.move := by
  simp only [Decoder.move, phase, g.limited, g.chunks]
  cases read : Header.read limit cs.length d.buffered with
  | incomplete =>
    rw [← pending_eq all] at read
    exact .wait (.header cs g phase assembled eq) (.intro cs eq (.header read))
  | violated position violation =>
    rw [← pending_eq all] at read
    exact .violated (.intro cs eq (.violated read))
  | size size length =>
    obtain ⟨pos, within, -, rfl, rest, split⟩ := Header.of_read_size read
    have counted := g.consume (n := (chunkHeader size).length) all (by simp [split])
    refine .go (.chunk cs [] ⟨g.going, g.limited, g.chunks, counted⟩ rfl ?_ pos ?_ ?_) g.going all
    · simpa [Decoder.consume] using assembled
    · simpa using within
    · rw [eq, pending_consume all (chunkHeader size).length, split, List.take_left]
      simp [pending, Decoder.consume]
  | endOfChunks =>
    obtain ⟨some, rest, split⟩ := Header.of_read_endOfChunks read
    have counted := g.consume (n := endOfChunks.length) all (by simp [split])
    -- The mark is refused before the first chunk, so there is one.
    let m : Message limit := ⟨cs, by rintro rfl; exact some rfl⟩
    have payload : d.assembled.reverse = m.payload := assembled
    rw [payload]
    refine .message (.header [] ⟨g.going, g.limited, rfl, counted⟩ phase rfl ?_)
    rw [eq, pending_consume all endOfChunks.length, split, List.take_left]
    simp [pending, Decoder.consume, m, Message.stream, Message.wire]

/-- Within a chunk, a move takes what there is of it. -/
lemma move_chunk (all : d.arrived = []) (cs : List (Chunk limit)) (data : Bytes) {remaining : Nat}
    (g : Going limit cs.length d) (phase : d.phase = .chunk remaining)
    (assembled : d.assembled.reverse = cs.flatMap Chunk.data ++ data) (pos : 0 < remaining)
    (within : data.length + remaining ≤ limit)
    (eq : bytes = Message.stream ms ++
      (cs.flatMap Chunk.wire ++ (chunkHeader (data.length + remaining) ++ (data ++ d.pending)))) :
    Moved bytes ms d.move := by
  simp only [Decoder.move, phase]
  split
  · next empty =>
    rw [List.isEmpty_iff] at empty
    have rem : Remnant limit cs.length (chunkHeader (data.length + remaining) ++ data) none :=
      .chunk (by omega) within
    refine .wait (.chunk cs data g phase assembled pos within eq) (.intro cs ?_ rem)
    rw [eq, pending_eq all, empty, List.append_nil]
  · next some =>
    have some : d.buffered ≠ [] := by simpa using some
    have nonempty : d.buffered.take remaining ≠ [] := by simp [some, pos.ne']
    have most : (d.buffered.take remaining).length ≤ remaining := List.length_take_le _ _
    have counted := g.consume all (List.length_take_le' remaining d.buffered)
    have taken := pending_consume all (d.buffered.take remaining).length
    rw [← List.prefix_iff_eq_take.mp (List.take_prefix remaining d.buffered)] at taken
    generalize d.buffered.take remaining = part at *
    split
    · next full =>
      -- The chunk is complete, and a header is due.
      let c : Chunk limit := ⟨data ++ part, by simp [nonempty], by
        rw [List.length_append]
        omega⟩
      refine .go (.header (cs ++ [c]) ⟨g.going, g.limited, ?_, counted⟩ rfl ?_ ?_) g.going all
      · simpa [Decoder.consume] using g.chunks
      · simp [List.reverseAux_eq, assembled, c]
      · rw [eq, taken, List.flatMap_append, List.flatMap_singleton]
        simp [c, Chunk.wire, encodeChunk_eq, full, pending, Decoder.consume]
    · next short =>
      have left : (data ++ part).length + (remaining - part.length) = data.length + remaining := by
        rw [List.length_append]
        omega
      refine .go (.chunk cs (data ++ part) ⟨g.going, g.limited, g.chunks, counted⟩ rfl ?_ ?_
        (left.trans_le within) ?_) g.going all
      · simp [List.reverseAux_eq, assembled]
      · omega
      · rw [left, eq, taken]
        simp [pending, Decoder.consume]

/-- A move of a decoder that has met no violation takes it to another such place. -/
lemma move (st : Stands bytes ms d) (going : d.failed = none) (all : d.arrived = []) :
    Moved bytes ms d.move := by
  cases st with
  | header cs g phase assembled eq => exact move_header all cs g phase assembled eq
  | chunk cs data g phase assembled pos within eq =>
    exact move_chunk all cs data g phase assembled pos within eq
  | failed fail => simp [going] at fail

/-- What a decoder answers comes from the bytes. -/
lemma extract (st : Stands bytes ms d) (going : d.failed = none) (all : d.arrived = []) :
    Asked bytes ms d.extract := by
  fun_induction Decoder.extract d with
  | case1 d d' eq =>
    have moved := st.move going all
    rw [eq] at moved
    obtain ⟨st, out⟩ := moved
    exact .none st out
  | case2 d d' eq _ ih =>
    have moved := st.move going all
    rw [eq] at moved
    obtain _ | ⟨st, going, all⟩ := moved
    exact ih st going all
  | case3 d payload d' eq =>
    have moved := st.move going all
    rw [eq] at moved
    obtain _ | _ | st := moved
    exact .message st
  | case4 d e eq =>
    have moved := st.move going all
    rw [eq] at moved
    obtain _ | _ | _ | out := moved
    exact .violated rfl out

/-- Whatever a decoder answers when it is asked for a message comes from the bytes. -/
lemma next (st : Stands bytes ms d) : Asked bytes ms d.next := by
  cases fail : d.failed with
  | none =>
    rw [next_eq fail]
    exact st.gather.extract fail rfl
  | some e =>
    simp only [Decoder.next, fail]
    cases st with
    | header _ g => simp [g.going] at fail
    | chunk _ _ g => simp [g.going] at fail
    | failed fail' out =>
      rw [fail] at fail'
      cases fail'
      exact .violated fail out

/-- A decoder in chunked framing is faithful to what the bytes of a stream come to. -/
lemma faithful (top : limit ≤ absoluteMaxChunkSize) :
    Faithful Message.payload (@Stands limit) Outcome where
  extend more st := st.extend more
  message {bytes ms d p d'} st eq := by
    have asked := st.next
    rw [eq] at asked
    obtain _ | st := asked
    exact ⟨_, rfl, st⟩
  wait {bytes ms d d'} st eq := by
    have asked := st.next
    rw [eq] at asked
    obtain ⟨st, out⟩ := asked
    exact ⟨st, out⟩
  violated {bytes ms d e d'} st eq := by
    have asked := st.next
    rw [eq] at asked
    obtain _ | _ | ⟨fail, out⟩ := asked
    exact ⟨.failed fail out, out⟩
  append more out := out.append more
  unique first second := first.unique top second

end Stands

/-- However a stream is cut, a new decoder gives what its bytes come to. -/
lemma feed_chunked (top : limit ≤ absoluteMaxChunkSize) (pieces : List Bytes) :
    ∃ ms : List (Message limit),
      ((new .chunked limit).feed pieces).payloads = ms.map Message.payload ∧
        Stands pieces.flatten ms ((new .chunked limit).feed pieces).decoder ∧
        Outcome pieces.flatten ms
          (((new .chunked limit).feed pieces).error.map FramingError.violation) :=
  (Stands.faithful top).feed (Stands.new limit) (Outcome.stream []) pieces

/-- However a stream is cut, a decoder gives the messages with which it begins. It meets a violation
only if no bytes can make the stream a sequence of messages, and then it does so within ten bytes
and without another message. -/
theorem decodes_grammar (pos : 0 < limit) (top : limit ≤ absoluteMaxChunkSize)
    (pieces : List Bytes) :
    let bytes := pieces.flatten
    let fed := (new .chunked limit).feed pieces
    (∃ ms : List (Message limit),
        Message.Longest bytes ms ∧ fed.payloads = ms.map Message.payload) ∧
      (fed.error.isSome → ¬Message.Continues limit bytes) ∧
      (¬Message.Continues limit bytes →
        ∀ more, let later := (new .chunked limit).feed (pieces ++ more)
          later.payloads = fed.payloads ∧ (10 ≤ more.flatten.length → later.error.isSome)) ∧
      ∀ others, others.flatten = bytes →
        ((new .chunked limit).feed others).error.map FramingError.violation =
          fed.error.map FramingError.violation := by
  intro bytes fed
  obtain ⟨ms, payloads, -, out⟩ := feed_chunked top pieces
  refine ⟨⟨ms, out.longest top, payloads⟩, ?_, ?_, ?_⟩
  · intro some
    obtain ⟨e, eq⟩ := Option.isSome_iff_exists.mp some
    rw [show ((new .chunked limit).feed pieces).error = _ from eq] at out
    exact out.dead top
  · intro dead more later
    obtain ⟨ns, payloads', -, out'⟩ := feed_chunked top (pieces ++ more)
    rw [List.flatten_append] at out'
    obtain rfl := (out.longest top).eq_of_append (out'.longest top) dead
    refine ⟨payloads'.trans payloads.symm, ?_⟩
    intro ten
    -- Without a violation by then, the bytes before these ten could become messages.
    by_contra none
    rw [Option.not_isSome_iff_eq_none] at none
    rw [none] at out'
    exact dead (out'.continues pos ten)
  · intro others same
    obtain ⟨ns, -, -, out'⟩ := feed_chunked top others
    rw [same] at out'
    exact (out'.unique top out).2

/-- A chunk without bytes, cut within its header. -/
theorem decodes_zero_chunk :
    0 < 4 ∧ 4 ≤ absoluteMaxChunkSize ∧ ¬Message.Continues 4 [lf, hash, 0x30, lf] ∧
      ((new .chunked 4).feed ([[lf], [hash, 0x30, lf]] ++ [List.replicate 10 0])).error.isSome := by
  have top : 4 ≤ absoluteMaxChunkSize := by decide
  have read : Header.read 4 0 [lf, hash, 0x30, lf] = .violated 2 .zeroChunk := by decide
  have out : @Outcome 4 [lf, hash, 0x30, lf] [] (some .zeroChunk) :=
    .intro [] rfl (.violated read)
  have dead := out.dead top
  have fed := decodes_grammar (by decide) top [[lf], [hash, 0x30, lf]]
  exact ⟨by decide, top, dead, (fed.2.2.1 dead [List.replicate 10 0]).2 (by decide)⟩

end Decoder

end Netconf.Framing
