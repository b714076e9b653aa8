import Netconf.Proofs.Framing.Pushing

/-!
# The place of a decoder in its stream

A decoder stands between two bytes of the stream that came in: it has consumed those before and
holds all those after (`Decoder.Placed`). Each move takes it forward, and so does everything that
can be done with it, in whatever order (`Decoder.Placed.use`). A violation is shown by a byte that
it holds, and with that it stays where it is for good (`Decoder.uses_placed`).
-/

namespace Netconf.Framing

/-- A violation is shown by a byte that is there. -/
lemma Header.position_lt_of_ofField {limit position : Nat} {bytes : Bytes} {violation : Violation}
    (h : ofField limit bytes = .violated position violation) (nonempty : bytes ≠ []) :
    position < bytes.length + 2 := by
  have part : (bytes.takeWhile (· != lf)).length ≤ bytes.length :=
    (List.takeWhile_prefix _).length_le
  rw [← List.length_pos_iff] at nonempty
  simp only [ofField] at h
  split at h
  · next i found =>
    have lt := (List.findIdx?_eq_some_iff_getElem.mp found).1
    cases h
    omega
  -- The other violations are met at the first byte of the field or the eleventh.
  repeat' split at h
  all_goals cases h
  all_goals omega

/-- A violation is shown by one of the bytes that are there. -/
lemma Header.position_lt {limit chunks position : Nat} {bytes : Bytes} {violation : Violation}
    (h : read limit chunks bytes = .violated position violation) : position < bytes.length := by
  unfold read at h
  repeat' split at h
  all_goals first | exact position_lt_of_ofField h (List.cons_ne_nil _ _) | skip
  all_goals cases h
  all_goals simp only [List.length_cons]; omega

namespace Decoder

/-! ## Uses of a decoder -/

/-- What can be done with a decoder. -/
inductive Use where
  | push (bytes : Bytes)
  | extend (bytes : Bytes)
  | ask
  | setMode (mode : Mode)

/-- The bytes that a use brings in. -/
def Use.bytes : Use → Bytes
  | push bytes | extend bytes => bytes
  | ask | setMode _ => []

/-- What comes of a use. -/
inductive Answer where
  | pushed (answer : Except FramingError (List Bytes))
  | extended
  | asked (answer : Except FramingError (Option Bytes))
  | switched (answer : Except FramingError Unit)

/-- The violation that is met when a decoder is asked for messages. -/
def Answer.violation? : Answer → Option FramingError
  | pushed (.error e) | asked (.error e) => some e
  | _ => none

/-- Uses a decoder once. -/
def use (d : Decoder) : Use → Answer × Decoder
  | .push bytes => (.pushed (d.push bytes).1, (d.push bytes).2)
  | .extend bytes => (.extended, d.extend bytes)
  | .ask => (.asked d.next.1, d.next.2)
  | .setMode mode =>
    match d.setMode mode with
    | .ok d => (.switched (.ok ()), d)
    | .error e => (.switched (.error e), d)

/-- The decoder after it was used some times. -/
def after (d : Decoder) (uses : List Use) : Decoder :=
  uses.foldl (fun d u => (d.use u).2) d

/-- The bytes that were received and not consumed. Those with which no marker begins are set aside
before. -/
def unconsumed (d : Decoder) : Bytes :=
  match d.phase with
  | .marker => d.assembled.reverse ++ d.pending
  | .header | .chunk _ => d.pending

/-! ## Places -/

/-- The decoder has consumed the bytes of the stream up to its offset and holds those after it. -/
structure Placed (limit : Nat) (stream : Bytes) (d : Decoder) : Prop where
  limited : d.limit = limit
  received : d.received = stream.length
  within : d.offset ≤ stream.length
  rest : d.unconsumed = stream.drop d.offset
  due {n : Nat} : d.phase = .chunk n → 1 ≤ n ∧ n ≤ limit
  /-- A violation was met in chunked framing, at a byte that is held. -/
  shown {e : FramingError} :
    d.failed = some e → d.mode = .chunked ∧ d.offset ≤ e.offset ∧ e.offset < stream.length

/-- From the one decoder to the other it goes forward in the stream, in the same framing. -/
structure Forward (limit : Nat) (stream : Bytes) (d d' : Decoder) : Prop where
  placed : Placed limit stream d'
  offset : d.offset ≤ d'.offset
  mode : d'.mode = d.mode

/-- What a move comes to in the stream. -/
inductive Advanced (limit : Nat) (stream : Bytes) (d : Decoder) : Move → Prop where
  | wait {d' : Decoder} :
    Forward limit stream d d' →
    Advanced limit stream d (.wait d')
  | go {d' : Decoder} :
    Forward limit stream d d' → d'.arrived = [] → d'.failed = none →
    Advanced limit stream d (.go d')
  | message {payload : Bytes} {d' : Decoder} :
    Forward limit stream d d' →
    Advanced limit stream d (.message payload d')
  | violated {e : FramingError} :
    d.mode = .chunked → d.offset ≤ e.offset → e.offset < stream.length →
    Advanced limit stream d (.violated e)

namespace Forward

variable {limit : Nat} {stream : Bytes} {d d' d'' : Decoder}

/-- Going forward twice is going forward. -/
lemma trans (first : Forward limit stream d d') (second : Forward limit stream d' d'') :
    Forward limit stream d d'' where
  placed := second.placed
  offset := first.offset.trans second.offset
  mode := second.mode.trans first.mode

end Forward

namespace Placed

variable {limit : Nat} {stream : Bytes} {d d' : Decoder} {e : FramingError}

/-- A new decoder is at the start of the stream. -/
lemma new (mode : Mode) (limit : Nat) : Placed limit [] (.new mode limit) where
  limited := rfl
  received := rfl
  within := Nat.le_refl 0
  rest := by cases mode <;> rfl
  due eq := by cases mode <;> cases eq
  shown eq := by cases eq

/-- The bytes that a decoder has consumed and those that it counts as left are all that came in. -/
lemma size_eq (pl : Placed limit stream d) : d.offset + d.size = stream.length := by
  have := pl.within
  rw [size, pl.received]
  omega

/-- With more bytes a decoder is at the same place of the longer stream. -/
lemma extend (pl : Placed limit stream d) (more : Bytes) :
    Placed limit (stream ++ more) (d.extend more) where
  limited := pl.limited
  received := by
    rw [List.length_append, ← pl.received]
    rfl
  within := by
    rw [List.length_append]
    exact Nat.le_add_right_of_le pl.within
  rest := by
    have held : (d.extend more).unconsumed = d.unconsumed ++ more := by
      simp only [unconsumed, pending_extend, ← List.append_assoc]
      simp only [Decoder.extend]
      split <;> rfl
    rw [held, pl.rest]
    exact (List.drop_append_of_le_length pl.within).symm
  due := pl.due
  shown met := by
    obtain ⟨chunked, above, below⟩ := pl.shown met
    rw [List.length_append]
    exact ⟨chunked, above, Nat.lt_add_right _ below⟩

/-- Putting what arrived behind what is in the buffer does not move a decoder. -/
lemma gather (pl : Placed limit stream d) :
    Placed limit stream { d with arrived := [], buffered := d.pending } where
  limited := pl.limited
  received := pl.received
  within := pl.within
  rest := by simpa [unconsumed, pending] using pl.rest
  due := pl.due
  shown := pl.shown

/-- A decoder that consumes some of the bytes that it holds goes forward. -/
lemma forward (pl : Placed limit stream d) {n : Nat} (le : n ≤ d.unconsumed.length)
    (limited : d'.limit = d.limit) (received : d'.received = d.received)
    (offset : d'.offset = d.offset + n) (rest : d'.unconsumed = d.unconsumed.drop n)
    (due : ∀ {m}, d'.phase = .chunk m → 1 ≤ m ∧ m ≤ limit) (going : d'.failed = none)
    (mode : d'.mode = d.mode) : Forward limit stream d d' := by
  have within := pl.within
  rw [pl.rest, List.length_drop] at le
  refine ⟨⟨limited.trans pl.limited, received.trans pl.received, by omega, ?_, due, ?_⟩, by omega,
    mode⟩
  · rw [rest, pl.rest, List.drop_drop, offset]
  · intro e met
    simp [going] at met

/-- In chunked framing the bytes that are not consumed are those in the buffer. -/
lemma unconsumed_of_chunked (all : d.arrived = []) (chunked : d.mode = .chunked) :
    d.unconsumed = d.buffered := by
  rw [← pending_eq all, unconsumed]
  split
  · next marker => simp [Decoder.mode, marker] at chunked
  all_goals rfl

/-- Where a marker is due, a move goes forward or finds more bytes missing. -/
lemma move_marker (pl : Placed limit stream d) (all : d.arrived = []) (going : d.failed = none)
    (phase : d.phase = .marker) : Advanced limit stream d d.move := by
  have held : d.unconsumed = d.assembled.reverse ++ d.buffered := by
    simp [unconsumed, phase, pending_eq all]
  simp only [Decoder.move, phase]
  cases cut : Marker.cut? endOfMessageMarker d.buffered with
  | some parts =>
    obtain ⟨head, rest⟩ := parts
    obtain ⟨split, -⟩ := Marker.of_cut? cut
    -- The payload and its marker are consumed.
    have whole : d.unconsumed = d.assembled.reverse ++ head ++ endOfMessageMarker ++ rest := by
      simp [held, split]
    refine .message (pl.forward
      (n := (d.assembled.reverse ++ head ++ endOfMessageMarker).length)
      ?_ rfl rfl ?_ ?_ ?_ going ?_)
    · rw [whole]
      exact (List.prefix_append _ rest).length_le
    · simp only [List.reverseAux_eq, List.length_append]
      omega
    · rw [whole, List.drop_left]
      simp [unconsumed, pending, all]
    · rintro m eq
      cases eq
    · simp [Decoder.mode, phase]
  | none =>
    refine .wait (pl.forward (n := 0) (Nat.zero_le _) rfl rfl rfl ?_ ?_ going ?_)
    · simp [unconsumed, phase, pending, all, List.reverseAux_eq]
    · rintro m eq
      cases eq
    · simp [Decoder.mode, phase]

/-- Where a header is due, a move goes forward, finds more bytes missing, or meets a violation at a
byte that is held. -/
lemma move_header (pl : Placed limit stream d) (all : d.arrived = []) (going : d.failed = none)
    (phase : d.phase = .header) : Advanced limit stream d d.move := by
  have chunked : d.mode = .chunked := by simp [Decoder.mode, phase]
  have held := unconsumed_of_chunked all chunked
  simp only [Decoder.move, phase, pl.limited]
  cases read : Header.read limit d.chunks d.buffered with
  | incomplete => exact .wait ⟨pl, Nat.le_refl _, rfl⟩
  | violated position violation =>
    refine .violated chunked (Nat.le_add_right _ _) ?_
    -- The byte is one of the buffer, and the buffer begins at the offset.
    have here := Header.position_lt read
    have within := pl.within
    rw [← held, pl.rest, List.length_drop] at here
    show d.offset + position < stream.length
    omega
  | size size length =>
    obtain ⟨pos, small, -, -, -⟩ := Header.of_read_size read
    refine .go (pl.forward (n := length) ?_ rfl rfl rfl ?_ ?_ going ?_) all going
    · rw [held]
      exact (Header.length_le_of_read read).2
    · rw [held]
      simp [unconsumed, pending, Decoder.consume, all]
    · rintro m eq
      cases eq
      exact ⟨pos, small⟩
    · simp [Decoder.mode, phase]
  | endOfChunks =>
    refine .message (pl.forward (n := endOfChunks.length) ?_ rfl rfl rfl ?_ ?_ going ?_)
    · rw [held]
      exact Header.four_le_of_read read
    · rw [held]
      simp [unconsumed, pending, Decoder.consume, all, phase]
    · simp [Decoder.consume, phase]
    · simp [Decoder.mode, Decoder.consume, phase]

/-- Within a chunk a move goes forward or finds more bytes missing. -/
lemma move_chunk (pl : Placed limit stream d) (all : d.arrived = []) (going : d.failed = none)
    {remaining : Nat} (phase : d.phase = .chunk remaining) : Advanced limit stream d d.move := by
  have chunked : d.mode = .chunked := by simp [Decoder.mode, phase]
  have held := unconsumed_of_chunked all chunked
  obtain ⟨pos, small⟩ := pl.due phase
  have le : (d.buffered.take remaining).length ≤ d.unconsumed.length := by
    rw [held]
    exact List.length_take_le' _ _
  simp only [Decoder.move, phase]
  split
  · exact .wait ⟨pl, Nat.le_refl _, rfl⟩
  split
  · refine .go (pl.forward le rfl rfl rfl ?_ ?_ going ?_) all going
    · rw [held]
      simp [unconsumed, pending, Decoder.consume, all]
    · rintro m eq
      cases eq
    · simp [Decoder.mode, phase]
  · next part =>
    refine .go (pl.forward le rfl rfl rfl ?_ ?_ going ?_) all going
    · rw [held]
      simp [unconsumed, pending, Decoder.consume, all]
    · rintro m eq
      cases eq
      have := List.length_take_le remaining d.buffered
      omega
    · simp [Decoder.mode, phase]

/-- Every move goes forward in the stream or meets a violation at a byte that is held. -/
lemma move (pl : Placed limit stream d) (all : d.arrived = []) (going : d.failed = none) :
    Advanced limit stream d d.move := by
  cases phase : d.phase with
  | marker => exact pl.move_marker all going phase
  | header => exact pl.move_header all going phase
  | chunk => exact pl.move_chunk all going phase

/-- Extracting a message goes forward in the stream. -/
lemma extract (pl : Placed limit stream d) (all : d.arrived = []) (going : d.failed = none) :
    Forward limit stream d d.extract.2 := by
  have moved := pl.move all going
  fun_induction Decoder.extract d with
  | case1 d d' eq =>
    rw [eq] at moved
    cases moved with
    | wait fw => exact fw
  | case2 d d' eq _ ih =>
    rw [eq] at moved
    cases moved with
    | go fw all going => exact fw.trans (ih fw.placed all going (fw.placed.move all going))
  | case3 d payload d' eq =>
    rw [eq] at moved
    cases moved with
    | message fw => exact fw
  | case4 d e eq =>
    rw [eq] at moved
    cases moved with
    | violated chunked above below =>
      refine ⟨{ pl with shown := ?_ }, Nat.le_refl _, rfl⟩
      intro e' met
      cases met
      exact ⟨chunked, above, below⟩

/-- Asking for a message goes forward in the stream. -/
lemma next (pl : Placed limit stream d) : Forward limit stream d d.next.2 := by
  cases met : d.failed with
  | none =>
    rw [next_eq met]
    obtain ⟨placed, offset, mode⟩ := pl.gather.extract rfl met
    exact ⟨placed, offset, mode⟩
  | some e =>
    simp only [Decoder.next, met]
    exact ⟨pl, Nat.le_refl _, rfl⟩

/-- Asking for all messages goes forward in the stream. -/
lemma exhaust (pl : Placed limit stream d) : Forward limit stream d d.exhaust.decoder := by
  fun_induction Decoder.exhaust d with
  | case1 d payload d' eq =>
    rename_i ih
    have fw := pl.next
    rw [eq] at fw
    exact fw.trans (ih fw.placed)
  | case2 d d' eq | case3 d e d' eq =>
    have fw := pl.next
    rwa [eq] at fw

/-- Going over to another framing does not move a decoder, and never leads back from chunked
framing. -/
lemma setMode {mode : Mode} (pl : Placed limit stream d) (eq : d.setMode mode = .ok d') :
    Placed limit stream d' ∧ d'.offset = d.offset ∧ (d.mode = .chunked → d'.mode = .chunked) := by
  cases here : d.mode <;> cases mode <;> simp only [Decoder.setMode, here] at eq <;> cases eq
  case endOfMessage.chunked =>
    have marker : d.phase = .marker := by
      cases phase : d.phase <;> simp [Decoder.mode, phase] at here
      rfl
    refine ⟨⟨pl.limited, pl.received, pl.within, ?_, nofun, ?_⟩, rfl, nofun⟩
    · rw [← pl.rest]
      simp [unconsumed, marker, pending, List.reverseAux_eq]
    · intro e met
      have := (pl.shown met).1
      simp [here] at this
  all_goals exact ⟨pl, rfl, here.trans⟩

/-- Whatever is done with a decoder, it goes forward in the stream with what that brings in, and
there is no way back from chunked framing. -/
lemma use (pl : Placed limit stream d) (u : Use) :
    Placed limit (stream ++ u.bytes) (d.use u).2 ∧ d.offset ≤ (d.use u).2.offset ∧
      (d.mode = .chunked → (d.use u).2.mode = .chunked) := by
  cases u with
  | push bytes =>
    obtain ⟨placed, offset, mode⟩ := (pl.extend bytes).exhaust
    simp only [Decoder.use, push_eq]
    exact ⟨placed, offset, mode.trans⟩
  | extend bytes => exact ⟨pl.extend bytes, Nat.le_refl _, id⟩
  | ask =>
    obtain ⟨placed, offset, mode⟩ := pl.next
    rw [Use.bytes, List.append_nil]
    exact ⟨placed, offset, mode.trans⟩
  | setMode mode =>
    rw [Use.bytes, List.append_nil, Decoder.use]
    split
    · next d' eq =>
      obtain ⟨placed, offset, kept⟩ := pl.setMode eq
      exact ⟨placed, offset.ge, kept⟩
    · exact ⟨pl, Nat.le_refl _, id⟩

/-- However often a decoder is used, it has its place in the stream with all that the uses bring in.
-/
lemma after (pl : Placed limit stream d) (uses : List Use) :
    Placed limit (stream ++ uses.flatMap Use.bytes) (d.after uses) := by
  induction uses generalizing stream d with
  | nil => simpa [Decoder.after] using pl
  | cons u uses ih => simpa [Decoder.after] using ih (pl.use u).1

end Placed

/-! ## Violations -/

section

variable {d : Decoder} {e : FramingError}

/-- A decoder that is answered with a violation keeps it. -/
lemma failed_of_use {u : Use} (met : (d.use u).1.violation? = some e) :
    (d.use u).2.failed = some e := by
  cases u with
  | push bytes =>
    rw [use, push_eq] at met ⊢
    refine failed_of_exhaust ?_
    simp only [Yield.answer] at met
    split at met <;> cases met
    assumption
  | extend => cases met
  | ask =>
    rw [use] at met ⊢
    rcases eq : d.next with ⟨answer, d'⟩
    cases answer with
    | ok => simp [eq, Answer.violation?] at met
    | error e' =>
      simp only [eq, Answer.violation?, Option.some.injEq] at met
      subst met
      exact failed_of_next eq
  | setMode mode =>
    rw [use] at met
    split at met <;> cases met

/-- The decoder answers with the violation whenever it is asked for messages, and has come no
further in the stream. -/
structure Stuck (offset : Nat) (e : FramingError) (d : Decoder) : Prop where
  offset : d.offset = offset
  pushed (bytes : Bytes) : (d.use (.push bytes)).1 = .pushed (.error e)
  asked : (d.use .ask).1 = .asked (.error e)

/-- A decoder that met a violation answers with it and stays as it is. -/
lemma next_of_failed (failed : d.failed = some e) : d.next = (.error e, d) := by
  simp only [next, failed]

/-- A push then answers with the violation too, and takes the bytes in only. -/
lemma push_of_failed (failed : d.failed = some e) (bytes : Bytes) :
    d.push bytes = (.error e, d.extend bytes) := by
  have failed : (d.extend bytes).failed = some e := failed
  rw [push_eq, exhaust_of_violated (next_of_failed failed)]
  rfl

/-- A decoder that met a violation is stuck where it is. -/
lemma stuck_of_failed (failed : d.failed = some e) : Stuck d.offset e d where
  offset := rfl
  pushed bytes := by rw [use, push_of_failed failed]
  asked := by rw [use, next_of_failed failed]

/-- A violation that was met is kept, and nothing is consumed after it. -/
lemma failed_use (failed : d.failed = some e) (chunked : d.mode = .chunked) (u : Use) :
    (d.use u).2.failed = some e ∧ (d.use u).2.mode = .chunked ∧ (d.use u).2.offset = d.offset := by
  cases u with
  | push bytes =>
    rw [use, push_of_failed failed]
    exact ⟨failed, chunked, rfl⟩
  | extend => exact ⟨failed, chunked, rfl⟩
  | ask =>
    rw [use, next_of_failed failed]
    exact ⟨failed, chunked, rfl⟩
  | setMode mode =>
    have kept : (d.use (.setMode mode)).2 = d := by
      cases mode <;> simp only [use, setMode, chunked]
    rw [kept]
    exact ⟨failed, chunked, rfl⟩

/-- A decoder that met a violation stays stuck where it is, however it is used. -/
lemma stuck_after (failed : d.failed = some e) (chunked : d.mode = .chunked) (uses : List Use) :
    Stuck d.offset e (d.after uses) := by
  induction uses generalizing d with
  | nil => exact stuck_of_failed failed
  | cons u uses ih =>
    obtain ⟨failed, chunked, offset⟩ := failed_use failed chunked u
    exact offset ▸ ih failed chunked

end

/-! ## The main result -/

/-- Where a decoder stands in the stream that came in, and what each further use makes of that. -/
structure Orderly (limit : Nat) (stream : Bytes) (d : Decoder) : Prop where
  total : d.offset + d.size = stream.length
  /-- The bytes that are not consumed are those from the offset on. -/
  rest : d.unconsumed = stream.drop d.offset
  due {n : Nat} : d.phase = .chunk n → 1 ≤ n ∧ n ≤ limit
  forward (u : Use) : d.offset ≤ (d.use u).2.offset
  chunked (u : Use) : d.mode = .chunked → (d.use u).2.mode = .chunked
  /-- Only the way back from chunked framing is refused, which leaves the decoder as it is. -/
  refused {mode : Mode} {e : FramingError} :
    (d.use (.setMode mode)).1 = .switched (.error e) →
    d.mode = .chunked ∧ mode = .endOfMessage ∧ (d.use (.setMode mode)).2 = d
  /-- A violation is shown by a byte that came in and was not consumed. -/
  shown {u : Use} {e : FramingError} :
    (d.use u).1.violation? = some e →
    (d.use u).2.offset ≤ e.offset ∧ e.offset < (d.use u).2.offset + (d.use u).2.size
  /-- The first violation is final. -/
  stuck {u : Use} {e : FramingError} :
    (d.use u).1.violation? = some e →
    ∀ later, Stuck (d.use u).2.offset e ((d.use u).2.after later)

/-- However a new decoder is used, it keeps its place in the stream. -/
theorem uses_placed (mode : Mode) (limit : Nat) (uses : List Use) :
    Orderly limit (uses.flatMap Use.bytes) ((new mode limit).after uses) := by
  have pl : Placed limit (uses.flatMap Use.bytes) ((new mode limit).after uses) :=
    (Placed.new mode limit).after uses
  generalize uses.flatMap Use.bytes = stream at pl ⊢
  generalize (new mode limit).after uses = d at pl ⊢
  refine ⟨pl.size_eq, pl.rest, pl.due, fun u => (pl.use u).2.1, fun u => (pl.use u).2.2, ?_, ?_, ?_⟩
  · intro mode e refused
    cases here : d.mode <;> cases mode <;> simp [use, setMode, here] at refused ⊢
  · intro u e met
    have placed := (pl.use u).1
    obtain ⟨-, above, below⟩ := placed.shown (failed_of_use met)
    exact ⟨above, placed.size_eq ▸ below⟩
  · intro u e met later
    have failed := failed_of_use met
    exact stuck_after failed ((pl.use u).1.shown failed).1 later

end Decoder

end Netconf.Framing
