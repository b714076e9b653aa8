import Netconf.Proofs.Framing.Chunked
import Netconf.Proofs.Framing.EndOfMessage
import Netconf.Proofs.Framing.Reading

/-!
# From end-of-message to chunked framing

A reader goes over to chunked framing after some messages. What its decoder holds then are the bytes
that follow the last marker (`Decoder.Scanned.setMode`), so the reader goes on with the first byte
after that marker, whatever was read before (`Reader.switches`).
-/

namespace Netconf.Framing

/-! ## Reads of a bounded size -/

namespace Read

/-- Reads one after the other are cut one after the other. -/
lemma split_append (size : Nat) (reads reads' : List Read) :
    split size (reads ++ reads') = split size reads ++ split size reads' := by
  fun_induction split size reads with
  | case1 => rfl
  | case2 rest ih => rw [List.cons_append, split, ih, List.cons_append]
  | case3 bytes rest some ih => rw [List.cons_append, split, ih, List.append_assoc]; exact some
  | case4 reason rest ih => rw [List.cons_append, split, ih, List.cons_append]

/-- Cutting the reads does not change the bytes that they give. -/
lemma stream_split (size : Nat) (reads : List Read) : stream (split size reads) = stream reads := by
  fun_induction split size reads with
  | case1 => rfl
  | case2 rest ih => exact ih
  | case3 bytes rest some ih =>
    have whole : stream ((pieces size bytes).map .data) = bytes := by
      rw [stream, List.flatMap_map]
      exact List.flatMap_id.trans (flatten_pieces size bytes)
    rw [stream, List.flatMap_append]
    exact congrArg₂ (· ++ ·) whole ih
  | case4 reason rest ih => exact ih

/-- Cutting the reads does not change which of them fail. -/
lemma failures_split (size : Nat) (reads : List Read) :
    failures (split size reads) = failures reads := by
  fun_induction split size reads with
  | case1 => rfl
  | case2 rest ih => exact ih
  | case3 bytes rest some ih =>
    have none : failures ((pieces size bytes).map .data) = [] := by
      rw [failures, List.filterMap_map]
      exact List.filterMap_eq_nil_iff.mpr fun _ _ => rfl
    rw [failures, List.filterMap_append]
    exact congrArg₂ (· ++ ·) none ih
  | case4 reason rest ih => exact congrArg (reason :: ·) ih

/-- Cut into pieces, reads do not become the end of the stream. -/
lemma end_notMem_split (size : Nat) {reads : List Read} (free : .data [] ∉ reads) :
    .data [] ∉ split size reads := by
  fun_induction split size reads with
  | case1 => exact free
  | case2 rest ih => exact absurd List.mem_cons_self free
  | case3 bytes rest some ih =>
    rw [List.mem_append, not_or]
    refine ⟨?_, ih (mt (List.mem_cons_of_mem _) free)⟩
    rw [List.mem_map]
    rintro ⟨piece, mem, eq⟩
    exact (of_mem_pieces mem).1 (Read.data.inj eq)
  | case4 reason rest ih =>
    rw [List.mem_cons, not_or]
    exact ⟨nofun, ih (mt (List.mem_cons_of_mem _) free)⟩

end Read

/-! ## Going over -/

variable {limit : Nat}

/-- What a decoder holds when it goes over to chunked framing is decoded in that framing. -/
lemma Decoder.Scanned.setMode {bytes : Bytes} {ps : List Delimited} {d : Decoder}
    (sc : Scanned limit bytes ps d) :
    ∃ d' tail, d.setMode .chunked = .ok d' ∧ bytes = Delimited.stream ps ++ tail ∧
      @Stands limit tail [] d' := by
  have held : d.assembled.reverse ++ d.pending =
      (d.assembled.reverseAux d.buffered) ++ d.arrived.reverse := by
    rw [pending, List.reverseAux_eq, List.append_assoc]
  have counted := sc.counted
  rw [← List.length_reverse, ← List.length_append, held] at counted
  let d' : Decoder :=
    { d with buffered := d.assembled.reverseAux d.buffered, assembled := [], phase := .header }
  refine ⟨d', d.assembled.reverse ++ d.pending, ?_, sc.received, ?_⟩
  · simp only [Decoder.setMode, Decoder.mode, sc.phase, d']
  · exact .header [] ⟨sc.going, sc.limited, sc.chunks, counted⟩ rfl rfl held

namespace Reader

/-- The bytes that a reader has not given when it goes over are those that it gives then. -/
lemma Ready.setMode {total : Bytes} {later : List Read} {ps : List Delimited} {r : Reader}
    {reads : List Read} (ready : Ready (Decoder.Scanned limit) total later ps r reads) :
    ∃ r' tail, r.setMode .chunked = .ok r' ∧ total = Delimited.stream ps ++ tail ∧
      Ready (@Decoder.Stands limit) tail later [] r' reads := by
  cases ready with
  | @reading bytes script sc going free all =>
    obtain ⟨d, tail, eq, rfl, st⟩ := sc.setMode
    refine ⟨⟨d, r.ended⟩, tail ++ Read.stream script, ?_, ?_, .reading st going free rfl⟩
    · rw [Reader.setMode, eq]
      rfl
    · rw [← all, List.append_assoc]
  | ended sc ended =>
    obtain ⟨d, tail, eq, rfl, st⟩ := sc.setMode
    refine ⟨⟨d, r.ended⟩, tail, ?_, rfl, .ended st ended⟩
    rw [Reader.setMode, eq]
    rfl

/-- However a transport cuts a stream and whichever reads fail, a reader that goes over to chunked
framing after some payloads gives these, and then what the bytes after the last of their markers
come to in chunked framing: the messages, and for ever the violation or the end of the stream, after
which it reads no more. Each failed read is the answer to one call. -/
theorem switches (top : limit ≤ absoluteMaxChunkSize) (size : Nat) {script : List Read}
    (free : .data [] ∉ script) (later : List Read) :
    ∃ ps rest, Delimited.Splits (Read.stream script) ps rest ∧ ∀ k ≤ ps.length,
      ∃ tail, Read.stream script = Delimited.stream (ps.take k) ++ tail ∧
        ∃ answers r left r' answers' s left' answer left'',
          let reads := Read.split size (script ++ .data [] :: later)
          let fed := (Decoder.new .chunked limit).feed [tail]
          (new limit).Delivers reads ((ps.take k).map Delimited.payload) answers r left ∧
            answers.getLast? = (ps.take k).getLast?.map (.message ∘ Delimited.payload) ∧
            r.setMode .chunked = .ok r' ∧
            r'.Delivers left fed.payloads answers' s left' ∧
            s.Settles left' answer left'' ∧
            Closing (Read.split size later) (fed.error.map FramingError.violation) answer
              left'' ∧
            Read.failures (script ++ .data [] :: later) =
              (answers ++ answers').filterMap Reading.failure? ++ Read.failures left'' := by
  have fa := Decoder.Scanned.faithful limit
  have fa' := Decoder.Stands.faithful top
  obtain ⟨ps, -, -, rest, sp⟩ := Decoder.feed_endOfMessage limit [Read.stream script]
  rw [List.flatten_singleton] at sp
  refine ⟨ps, rest, sp, ?_⟩
  intro k le
  have ready : Ready (Decoder.Scanned limit) (Read.stream script) (Read.split size later) []
      (new limit) (Read.split size (script ++ .data [] :: later)) := by
    rw [Read.split_append, Read.split]
    have all := Read.stream_split size script
    exact .reading (.new limit) rfl (Read.end_notMem_split size free) all
  have co : Delimited.Comes (Read.stream script) ([] ++ (ps.take k ++ ps.drop k)) none := by
    rw [List.nil_append, List.take_append_drop]
    exact ⟨rfl, rest, sp⟩
  obtain ⟨answers, r, left, del, last, ready⟩ := ready.reach fa co
  -- What the reader was not asked for yet is the start of a stream in the other framing.
  obtain ⟨r', tail, switched, eq, ready⟩ := ready.setMode
  obtain ⟨ms, payloads, -, out⟩ := Decoder.feed_chunked top [tail]
  rw [List.flatten_singleton] at out
  obtain ⟨answers', s, left', answer, left'', del', settled, closing⟩ := ready.finish fa' out
  rw [← payloads] at del'
  refine ⟨tail, eq, answers, r, left, r', answers', s, left', answer, left'', del, last, switched,
    del', settled, closing, ?_⟩
  rw [← Read.failures_split size, del.failures, del'.failures, settled.failures,
    List.filterMap_append, List.append_assoc]

/-- A payload whose marker comes in one read with a part of a header, and a read that fails within
the message after it. -/
theorem switches_within_read :
    4 ≤ absoluteMaxChunkSize ∧
      Read.data [] ∉ [.data ([0x61] ++ endOfMessageMarker ++ [lf, hash, 0x31]), .failed "reset",
        .data ([lf, 0x41] ++ endOfChunks)] ∧
      ∃ answers r left r' answers' s left',
        (new 4).Delivers
            (Read.split 2 ([.data ([0x61] ++ endOfMessageMarker ++ [lf, hash, 0x31]),
              .failed "reset", .data ([lf, 0x41] ++ endOfChunks)] ++ .data [] :: []))
            [[0x61]] answers r left ∧
          r.setMode .chunked = .ok r' ∧ r'.Delivers left [[0x41]] answers' s left' ∧
          s.Settles left' .ended [] := by
  have top : 4 ≤ absoluteMaxChunkSize := by decide
  have free : Read.data [] ∉ [.data ([0x61] ++ endOfMessageMarker ++ [lf, hash, 0x31]),
      .failed "reset", .data ([lf, 0x41] ++ endOfChunks)] := by decide
  have ends : EndsAtMarker [0x61] := by
    intro before begins
    cases before with
    | nil => exact absurd begins (by decide)
    | cons => simp
  let m : Message 4 := ⟨[⟨[0x41], by decide, by decide⟩], by decide⟩
  obtain ⟨ps, rest, sp, all⟩ := switches top 2 free []
  have sp' : Delimited.Splits _ [⟨[0x61], ends⟩] (Message.stream [m]) := ⟨rfl, by decide⟩
  obtain ⟨rfl, -⟩ := sp.unique sp'
  obtain ⟨tail, eq, answers, r, left, r', answers', s, left', answer, left'', del, -, switched,
    del', settled, closing, -⟩ := all 1 (Nat.le_refl 1)
  obtain rfl : Message.stream [m] = tail := List.append_cancel_left (sp'.eq.symm.trans eq)
  obtain ⟨ms, payloads, -, out⟩ := Decoder.feed_chunked top [Message.stream [m]]
  obtain ⟨rfl, none⟩ := out.unique top (.stream [m])
  rw [payloads] at del'
  rw [none] at closing
  cases closing
  exact ⟨top, free, answers, r, left, r', answers', s, left', del, switched, del', settled⟩

end Reader

end Netconf.Framing
