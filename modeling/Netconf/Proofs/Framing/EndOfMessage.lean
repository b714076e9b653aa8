import Netconf.Proofs.Framing.Delimited
import Netconf.Proofs.Framing.Feeding

/-!
# Decoding end-of-message framing

A decoder sets bytes aside with which no marker can begin, and looks for the marker in the others
only. That none begins there, whatever bytes are still to come, is what it keeps (`Scanned`), so it
finds the leftmost markers of the stream however this is cut (`splits_of_calls`).
-/

namespace Netconf.Framing

namespace Decoder

/-- The decoder was asked for messages in the bytes and handed out the payloads. -/
structure Scanned (limit : Nat) (bytes : Bytes) (ps : List Delimited) (d : Decoder) : Prop where
  going : d.failed = none
  phase : d.phase = .marker
  chunks : d.chunks = 0
  limited : d.limit = limit
  counted : d.received = d.offset + (d.assembled.length + d.pending.length)
  received : bytes = Delimited.stream ps ++ (d.assembled.reverse ++ d.pending)
  /-- No marker begins in the bytes set aside. -/
  aside {before more : Bytes} :
    before ++ endOfMessageMarker <+: d.assembled.reverse ++ (d.buffered ++ more) →
    d.assembled.length ≤ before.length

namespace Scanned

variable {limit : Nat} {bytes : Bytes} {ps : List Delimited} {d : Decoder}

/-- A new decoder has received nothing and handed out nothing. -/
lemma new (limit : Nat) : Scanned limit [] [] (.new .endOfMessage limit) where
  going := rfl
  phase := rfl
  chunks := rfl
  limited := rfl
  counted := rfl
  received := rfl
  aside _ := Nat.zero_le _

/-- Bytes that come in are held behind the others. -/
lemma extend (sc : Scanned limit bytes ps d) (more : Bytes) :
    Scanned limit (bytes ++ more) ps (d.extend more) where
  going := sc.going
  phase := sc.phase
  chunks := sc.chunks
  limited := sc.limited
  counted := by
    have := sc.counted
    simp only [pending_extend, List.length_append]
    simp only [Decoder.extend]
    omega
  received := by
    rw [sc.received, pending_extend]
    simp [Decoder.extend]
  aside := sc.aside

/-- What arrived is put behind what is in the buffer. -/
lemma gather (sc : Scanned limit bytes ps d) :
    Scanned limit bytes ps { d with arrived := [], buffered := d.pending } where
  going := sc.going
  phase := sc.phase
  chunks := sc.chunks
  limited := sc.limited
  counted := by simpa [pending] using sc.counted
  received := by simpa [pending] using sc.received
  aside begins := sc.aside (by simpa [pending] using begins)

/-- A marker in what is held begins in the buffer. -/
lemma in_buffer (sc : Scanned limit bytes ps d) {before more : Bytes}
    (begins : before ++ endOfMessageMarker <+: d.assembled.reverse ++ (d.buffered ++ more)) :
    ∃ other, before = d.assembled.reverse ++ other ∧
      other ++ endOfMessageMarker <+: d.buffered ++ more := by
  have le := sc.aside begins
  have first : d.assembled.reverse <+: before := by
    refine List.prefix_of_prefix_length_le (List.prefix_append _ _)
      ((List.prefix_append _ _).trans begins) ?_
    rwa [List.length_reverse]
  obtain ⟨other, rfl⟩ := first
  rw [List.append_assoc, List.prefix_append_right_inj] at begins
  exact ⟨other, rfl, begins⟩

/-- What stands before the marker, with the bytes set aside, is the next payload. -/
lemma found (sc : Scanned limit bytes ps d) (all : d.arrived = []) {head rest : Bytes}
    (cut : Marker.cut? endOfMessageMarker d.buffered = some (head, rest)) :
    ∃ p : Delimited, p.payload = d.assembled.reverse ++ head ∧
      Scanned limit bytes (ps ++ [p])
        { d with
          buffered := rest
          assembled := []
          offset := d.offset + p.payload.length + endOfMessageMarker.length } := by
  obtain ⟨eq, leftmost⟩ := Marker.of_cut? cut
  have counted := sc.counted
  have received := sc.received
  rw [pending_eq all, eq] at counted received
  let p : Delimited := {
    payload := d.assembled.reverse ++ head
    first := by
      intro before begins
      have whole : before ++ endOfMessageMarker <+: d.assembled.reverse ++ (d.buffered ++ []) :=
        begins.trans ⟨rest, by simp [eq]⟩
      -- A marker before it would begin in the buffer, where this one is the leftmost.
      obtain ⟨other, rfl, here⟩ := sc.in_buffer whole
      rw [List.append_nil] at here
      have := leftmost here
      simp only [List.length_append]
      omega }
  refine ⟨p, rfl, sc.going, sc.phase, sc.chunks, sc.limited, ?_, ?_, fun _ => Nat.zero_le _⟩
  · simp only [pending, all, p, List.length_append, List.length_reverse, List.length_nil,
      List.reverse_nil] at counted ⊢
    omega
  · simp [pending, all, received, p, Delimited.stream, Delimited.wire]

/-- If there is no marker in the buffer, none begins in it but for its last bytes. -/
lemma missed (sc : Scanned limit bytes ps d) (all : d.arrived = [])
    (cut : Marker.cut? endOfMessageMarker d.buffered = none) :
    Scanned limit bytes ps
      { d with
        buffered := d.buffered.drop d.scanned
        assembled := (d.buffered.take d.scanned).reverseAux d.assembled } := by
  have free := Marker.not_infix_of_cut? cut
  have counted := sc.counted
  have received := sc.received
  rw [pending_eq all] at counted received
  have split := congrArg List.length (List.take_append_drop d.scanned d.buffered)
  refine ⟨sc.going, sc.phase, sc.chunks, sc.limited, ?_, ?_, ?_⟩
  · simp only [pending, all, List.length_append, List.length_reverse, List.length_nil,
      List.reverse_nil, List.reverseAux_eq] at split ⊢
    omega
  · simpa [pending, all, List.reverseAux_eq] using received
  · intro before more begins
    rw [List.reverseAux_eq, List.reverse_append, List.reverse_reverse, List.append_assoc,
      ← List.append_assoc (d.buffered.take _), List.take_append_drop] at begins
    obtain ⟨other, rfl, here⟩ := sc.in_buffer begins
    simp only [List.reverseAux_eq, List.length_append, List.length_reverse, List.length_take]
    by_contra short
    -- The marker would lie within the buffer.
    have inside : other ++ endOfMessageMarker <+: d.buffered := by
      refine List.prefix_of_prefix_length_le here (List.prefix_append _ _) ?_
      simp only [List.length_append, scanned] at short ⊢
      omega
    exact free (List.IsInfix.trans ⟨other, [], by simp⟩ inside.isInfix)

/-- Where there is no marker in the buffer, there is none in what is held. -/
lemma free (sc : Scanned limit bytes ps d)
    (cut : Marker.cut? endOfMessageMarker d.buffered = none) :
    ¬endOfMessageMarker <:+: d.assembled.reverse ++ d.buffered := by
  rintro ⟨before, after, eq⟩
  have whole : before ++ endOfMessageMarker <+: d.assembled.reverse ++ (d.buffered ++ []) :=
    ⟨after, by rw [List.append_nil, eq]⟩
  obtain ⟨other, -, here⟩ := sc.in_buffer whole
  rw [List.append_nil] at here
  exact Marker.not_infix_of_cut? cut (List.IsInfix.trans ⟨other, [], by simp⟩ here.isInfix)

/-- A decoder hands out the next payload, or there is no marker in what it holds. -/
lemma next (sc : Scanned limit bytes ps d) :
    (∃ p d', d.next = (.ok (some p.payload), d') ∧ Scanned limit bytes (ps ++ [p]) d') ∨
      ∃ d', d.next = (.ok none, d') ∧ Scanned limit bytes ps d' ∧
        ¬endOfMessageMarker <:+: d'.assembled.reverse ++ d'.pending := by
  rw [next_eq sc.going]
  have all : { d with arrived := [], buffered := d.pending }.arrived = [] := rfl
  have sc := sc.gather
  generalize { d with arrived := [], buffered := d.pending } = d at sc all ⊢
  cases cut : Marker.cut? endOfMessageMarker d.buffered with
  | some parts =>
    obtain ⟨p, eq, sc'⟩ := sc.found all cut
    refine .inl ⟨p, _, extract_of_message ?_, sc'⟩
    simp only [Decoder.move, sc.phase, cut, List.reverseAux_eq, eq]
  | none =>
    refine .inr ⟨_, extract_of_wait ?_, sc.missed all cut, ?_⟩
    · simp only [Decoder.move, sc.phase, cut]
    · simpa [pending, all, List.reverseAux_eq] using sc.free cut

/-- A decoder in end-of-message framing is faithful to the payloads between the leftmost markers. -/
lemma faithful (limit : Nat) : Faithful Delimited.payload (Scanned limit) Delimited.Comes where
  extend more sc := sc.extend more
  message {bytes ps d p d'} sc eq := by
    rcases sc.next with ⟨p', d'', eq', sc⟩ | ⟨d'', eq', _, _⟩ <;> rw [eq] at eq' <;> cases eq'
    exact ⟨p', rfl, sc⟩
  wait {bytes ps d d'} sc eq := by
    rcases sc.next with ⟨p', d'', eq', sc⟩ | ⟨d'', eq', sc, free⟩ <;> rw [eq] at eq' <;> cases eq'
    exact ⟨sc, rfl, _, sc.received, free⟩
  violated {bytes ps d e d'} sc eq := by
    rcases sc.next with ⟨p', d'', eq', _⟩ | ⟨d'', eq', _, _⟩ <;> rw [eq] at eq' <;> cases eq'
  append _ co := absurd co.1 nofun
  unique {bytes ps qs v w} first second := by
    obtain ⟨rfl, rest, first⟩ := first
    obtain ⟨rfl, rest', second⟩ := second
    exact ⟨(first.unique second).1, rfl⟩

end Scanned

/-- However a stream is cut, a new decoder gives the payloads between its leftmost markers. -/
lemma feed_endOfMessage (limit : Nat) (pieces : List Bytes) :
    ∃ ps : List Delimited,
      ((new .endOfMessage limit).feed pieces).payloads = ps.map Delimited.payload ∧
        ((new .endOfMessage limit).feed pieces).error = none ∧
        ∃ rest, Delimited.Splits pieces.flatten ps rest := by
  have nothing : Delimited.Comes [] [] none := ⟨rfl, [], rfl, by decide⟩
  obtain ⟨ps, payloads, -, none, rest, sp⟩ :=
    (Scanned.faithful limit).feed (Scanned.new limit) nothing pieces
  exact ⟨ps, payloads, Option.map_eq_none_iff.mp none, rest, sp⟩

/-- A decoder that was called in any order and then asked for all messages has handed out the
payloads between the leftmost markers, holds what follows the last of them, and met no violation. -/
theorem splits_of_calls (limit : Nat) (calls : List Call) :
    let before := (new .endOfMessage limit).run calls
    let after := before.decoder.exhaust
    ∃ (ps : List Delimited) (rest : Bytes),
      Delimited.Splits (calls.flatMap Call.bytes) ps rest ∧
        before.payloads ++ after.payloads = ps.map Delimited.payload ∧
        before.error = none ∧ after.error = none ∧
        after.decoder.assembled.reverse ++ after.decoder.pending = rest ∧
        after.decoder.size = rest.length := by
  intro before after
  obtain ⟨ps, early, ok, sc⟩ :=
    (Scanned.faithful limit).run (Scanned.new limit) (fun co => absurd co.1 nofun) calls
  obtain ⟨qs, late, sc, none, rest, sp⟩ := (Scanned.faithful limit).exhaust sc
  have eq : after.decoder.assembled.reverse ++ after.decoder.pending = rest :=
    List.append_cancel_left (sc.received.symm.trans sp.eq)
  refine ⟨ps ++ qs, rest, sp, ?_, ok, Option.map_eq_none_iff.mp none, eq, ?_⟩
  · rw [List.map_append, ← early, ← late]
  · have counted : after.decoder.received = after.decoder.offset +
        (after.decoder.assembled.length + after.decoder.pending.length) := sc.counted
    rw [← eq, List.length_append, List.length_reverse, size]
    omega

end Decoder

end Netconf.Framing
