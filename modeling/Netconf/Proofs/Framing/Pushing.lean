import Netconf.Proofs.Framing.Chunked
import Netconf.Proofs.Framing.EndOfMessage

/-!
# Pushing the pieces of a stream

A push takes a piece in and answers with all messages that are complete then, or with a violation if
one follows them. In the second case it answers with nothing else, and so does every push after it.
So the messages before a violation are handed out but for those that the piece completes with which
the violation is met (`pushes_deliver`).
-/

namespace Netconf.Framing

namespace Decoder

/-- What successive pushes answer. -/
def pushes (d : Decoder) : List Bytes → List (Except FramingError (List Bytes))
  | [] => []
  | piece :: pieces => (d.push piece).1 :: pushes (d.push piece).2 pieces

/-- What a push answers that comes to this. -/
def Yield.answer (y : Yield) : Except FramingError (List Bytes) :=
  match y.error with
  | none => .ok y.payloads
  | some e => .error e

variable {d d' : Decoder} {e : FramingError}

/-- A decoder that has a message gives it before all that it gives afterwards. -/
lemma exhaust_of_message {payload : Bytes} (eq : d.next = (.ok (some payload), d')) :
    d.exhaust = { d'.exhaust with payloads := payload :: d'.exhaust.payloads } := by
  rw [exhaust]
  split <;> simp_all

/-- A decoder that needs more bytes gives nothing more. -/
lemma exhaust_of_wait (eq : d.next = (.ok none, d')) : d.exhaust = ⟨[], none, d'⟩ := by
  rw [exhaust]
  split <;> simp_all

/-- A decoder that meets a violation gives it and no message. -/
lemma exhaust_of_violated (eq : d.next = (.error e, d')) : d.exhaust = ⟨[], some e, d'⟩ := by
  rw [exhaust]
  split <;> simp_all

/-- Draining a decoder answers with the messages before and those that it gives when it is asked for
all. -/
lemma drain_eq (done : List Bytes) (d : Decoder) :
    d.drain done = ({ d.exhaust with payloads := done.reverse ++ d.exhaust.payloads }.answer,
      d.exhaust.decoder) := by
  fun_induction drain done d with
  | case1 done d payload d' eq =>
    rename_i ih
    simp [ih, exhaust_of_message eq, Yield.answer]
  | case2 done d d' eq => simp [exhaust_of_wait eq, Yield.answer]
  | case3 done d e d' eq => simp [exhaust_of_violated eq, Yield.answer]

/-- A push takes the bytes in and asks for all messages. -/
lemma push_eq (d : Decoder) (piece : Bytes) :
    d.push piece = ((d.extend piece).exhaust.answer, (d.extend piece).exhaust.decoder) :=
  drain_eq [] (d.extend piece)

/-- A decoder that meets a violation when it is asked for all messages keeps it. -/
lemma failed_of_exhaust (met : d.exhaust.error = some e) : d.exhaust.decoder.failed = some e := by
  fun_induction exhaust d with
  | case1 =>
    rename_i ih
    exact ih met
  | case2 => cases met
  | case3 d e' d' eq =>
    cases met
    exact failed_of_next eq

/-- A decoder that met a violation answers every push with it. -/
lemma pushes_of_failed (fail : d.failed = some e) (pieces : List Bytes) :
    d.pushes pieces = pieces.map fun _ => .error e := by
  induction pieces generalizing d with
  | nil => rfl
  | cons piece pieces ih =>
    have next : (d.extend piece).next = (.error e, d.extend piece) := by
      simp only [Decoder.next, Decoder.extend, fail]
    have kept : (d.extend piece).failed = some e := fail
    rw [pushes, push_eq, exhaust_of_violated next, ih kept]
    rfl

/-! ## Any decoder -/

/-- What pushes of the pieces answer after the bytes with the messages: the messages as they come,
and a violation from the piece on with which it is met. -/
inductive Pushed {F : Type} (payload : F → Bytes)
    (Comes : Bytes → List F → Option Violation → Prop) (bytes : Bytes) (fs : List F)
    (pieces : List Bytes) : List (Except FramingError (List Bytes)) → Prop where
  | all (batches : List (List F)) :
    Comes (bytes ++ pieces.flatten) (fs ++ batches.flatten) none →
    Pushed payload Comes bytes fs pieces ((batches.map (List.map payload)).map .ok)
  | violated (before : List Bytes) (batches : List (List F)) (lost : List F) {piece : Bytes}
    {after : List Bytes} {e : FramingError} :
    pieces = before ++ piece :: after →
    Comes (bytes ++ before.flatten) (fs ++ batches.flatten) none →
    Comes (bytes ++ (before ++ [piece]).flatten) (fs ++ (batches.flatten ++ lost))
      (some e.violation) →
    Pushed payload Comes bytes fs pieces
      ((batches.map (List.map payload)).map .ok ++ (piece :: after).map fun _ => .error e)

section

variable {F : Type} {payload : F → Bytes} {Stands : Bytes → List F → Decoder → Prop}
  {Comes : Bytes → List F → Option Violation → Prop} {bytes : Bytes} {fs : List F}

/-- Messages that come with a first piece are handed out before those that come later. -/
lemma Pushed.cons {piece : Bytes} {pieces : List Bytes} {batch : List F}
    {answers : List (Except FramingError (List Bytes))}
    (pu : Pushed payload Comes (bytes ++ piece) (fs ++ batch) pieces answers) :
    Pushed payload Comes bytes fs (piece :: pieces) (.ok (batch.map payload) :: answers) := by
  cases pu with
  | all batches co =>
    refine .all (batch :: batches) ?_
    simpa using co
  | violated before batches lost split clean broken =>
    refine .violated (piece :: before) (batch :: batches) lost (congrArg (piece :: ·) split) ?_ ?_
    · simpa using clean
    · simpa using broken

/-- Pushed the pieces of a stream, a decoder answers with the messages to which it comes. -/
lemma Faithful.pushes (fa : Faithful payload Stands Comes) (st : Stands bytes fs d)
    (co : Comes bytes fs none) (pieces : List Bytes) :
    Pushed payload Comes bytes fs pieces (d.pushes pieces) := by
  induction pieces generalizing bytes fs d with
  | nil => exact .all [] (by simpa using co)
  | cons piece pieces ih =>
    obtain ⟨batch, now, st, co'⟩ := fa.exhaust (fa.extend piece st)
    rw [Decoder.pushes, push_eq]
    cases met : (d.extend piece).exhaust.error with
    | none =>
      rw [met] at co'
      simp only [Yield.answer, met, now]
      exact (ih st co').cons
    | some e =>
      rw [met] at co'
      simp only [Yield.answer, met, pushes_of_failed (failed_of_exhaust met)]
      exact .violated [] [] batch rfl (by simpa using co)
        (by simpa using co')

end

/-! ## New decoders -/

end Decoder

/-- The bytes hold the complete messages with the payloads and no other ones, and the violation
after them if there is one. -/
inductive Holds (limit : Nat) : Mode → Bytes → List Bytes → Option Violation → Prop where
  | chunked {bytes : Bytes} {ms : List (Message limit)} {v : Option Violation} :
    Outcome bytes ms v →
    Holds limit .chunked bytes (ms.map Message.payload) v
  | endOfMessage {bytes rest : Bytes} {ps : List Delimited} :
    Delimited.Splits bytes ps rest →
    Holds limit .endOfMessage bytes (ps.map Delimited.payload) none

/-- What bytes hold is determined by them. -/
lemma Holds.unique {limit : Nat} (top : limit ≤ absoluteMaxChunkSize) {mode : Mode} {bytes : Bytes}
    {ps qs : List Bytes} {v w : Option Violation} (first : Holds limit mode bytes ps v)
    (second : Holds limit mode bytes qs w) : ps = qs ∧ v = w := by
  cases first with
  | chunked out =>
    obtain ⟨out'⟩ := second
    obtain ⟨rfl, rfl⟩ := out.unique top out'
    exact ⟨rfl, rfl⟩
  | endOfMessage sp =>
    obtain _ | ⟨sp'⟩ := second
    obtain ⟨rfl, -⟩ := sp.unique sp'
    exact ⟨rfl, rfl⟩

/-- What new decoders answer to pushes of the pieces, and what they hand out of the payloads of the
stream. -/
inductive Delivers (limit : Nat) (mode : Mode) (pieces payloads : List Bytes) :
    Option Violation → Prop where
  /-- Without a violation every push succeeds, and they hand out all payloads. -/
  | all {batches : List (List Bytes)} :
    (Decoder.new mode limit).pushes pieces = batches.map .ok →
    batches.flatten = payloads →
    Delivers limit mode pieces payloads none
  /-- The pushes before a piece hand out what is complete then. Those from the piece on fail, and
  what it completes is lost. -/
  | violated {before after : List Bytes} {piece : Bytes} {batches : List (List Bytes)}
    {lost : List Bytes} {e : FramingError} :
    pieces = before ++ piece :: after →
    (Decoder.new mode limit).pushes pieces =
      batches.map .ok ++ (piece :: after).map (fun _ => .error e) →
    batches.flatten ++ lost = payloads →
    Holds limit mode before.flatten batches.flatten none →
    Holds limit mode (before ++ [piece]).flatten payloads (some e.violation) →
    (piece.length ≤ 1 → lost = []) →
    Delivers limit mode pieces payloads (some e.violation)

variable {limit : Nat}

/-- One byte does not complete a message and show a violation. -/
lemma Outcome.eq_of_byte (top : limit ≤ absoluteMaxChunkSize) {bytes piece : Bytes}
    {ms ns : List (Message limit)} {v : Violation} (clean : Outcome bytes ns none)
    (broken : Outcome (bytes ++ piece) ms (some v)) (short : piece.length ≤ 1) : ms = ns := by
  have here : bytes <+: bytes ++ piece := List.prefix_append bytes piece
  have begins := (broken.longest top).begins
  have old : ns <+: ms := (broken.longest top).longest ((clean.longest top).begins.trans here)
  obtain ⟨cs, eq, rem⟩ := broken
  rename_i rest
  cases rem with
  | violated read =>
    have some : rest ≠ [] := by
      rintro rfl
      cases read
    rw [← List.length_pos_iff] at some
    have len := congrArg List.length eq
    simp only [List.length_append] at len
    have within : Message.stream ms <+: bytes :=
      List.prefix_of_prefix_length_le begins here (by omega)
    exact (old.eq_of_length_le ((clean.longest top).longest within).length_le).symm

/-- A new decoder that is faithful delivers the payloads of the stream, but for those lost with a
violation. -/
lemma Decoder.Pushed.delivers {F : Type} {payload : F → Bytes}
    {Stands : Bytes → List F → Decoder → Prop} {Comes : Bytes → List F → Option Violation → Prop}
    {mode : Mode} {pieces : List Bytes} {fs : List F} {v : Option Violation}
    (fa : Faithful payload Stands Comes)
    (holds : ∀ {bytes fs v}, Comes bytes fs v → Holds limit mode bytes (fs.map payload) v)
    (byte : ∀ {bytes piece fs gs v}, Comes bytes gs none → Comes (bytes ++ piece) fs (some v) →
      piece.length ≤ 1 → fs = gs)
    (co : Comes pieces.flatten fs v)
    (pu : Pushed payload Comes [] [] pieces ((new mode limit).pushes pieces)) :
    Delivers limit mode pieces (fs.map payload) v := by
  generalize eq : (new mode limit).pushes pieces = answers at pu
  cases pu with
  | all _ co' =>
    obtain ⟨rfl, rfl⟩ := fa.unique co co'
    exact .all eq (by simp)
  | @violated before batches lost piece after e split clean broken =>
    simp only [List.nil_append] at clean broken
    -- The violation stays what the whole stream comes to, so no other messages are in it.
    have later := fa.append after.flatten broken
    have whole : (before ++ [piece]).flatten ++ after.flatten = pieces.flatten := by simp [split]
    rw [whole] at later
    obtain ⟨rfl, rfl⟩ := fa.unique co later
    have parted : (batches.map (List.map payload)).flatten ++ lost.map payload =
        (batches.flatten ++ lost).map payload := by simp
    refine .violated split eq parted ?_ (holds broken) ?_
    · simpa using holds clean
    · intro short
      rw [List.flatten_append, List.flatten_singleton] at broken
      simpa using byte clean broken short

/-- A stream holds the same complete messages however it is pushed. If no violation follows them,
they are all handed out. Otherwise those are lost that are completed by the piece with which the
violation is met, and none are if that is a single byte. -/
theorem pushes_deliver (top : limit ≤ absoluteMaxChunkSize) (mode : Mode) (bytes : Bytes) :
    ∃ payloads v, Holds limit mode bytes payloads v ∧
      ∀ pieces, pieces.flatten = bytes → Delivers limit mode pieces payloads v := by
  cases mode with
  | endOfMessage =>
    obtain ⟨ps, -, -, rest, sp⟩ := Decoder.feed_endOfMessage limit [bytes]
    rw [List.flatten_singleton] at sp
    refine ⟨_, _, .endOfMessage sp, ?_⟩
    rintro pieces rfl
    have fa := Decoder.Scanned.faithful limit
    refine (fa.pushes (.new limit) ⟨rfl, [], rfl, by decide⟩ pieces).delivers fa ?_ ?_ ⟨rfl, _, sp⟩
    · rintro bytes ps _ ⟨rfl, _, sp⟩
      exact .endOfMessage sp
    · intro _ _ _ _ _ _ broken
      cases broken.1
  | chunked =>
    obtain ⟨ms, -, -, out⟩ := Decoder.feed_chunked top [bytes]
    rw [List.flatten_singleton] at out
    refine ⟨_, _, .chunked out, ?_⟩
    rintro pieces rfl
    have fa := Decoder.Stands.faithful top
    exact (fa.pushes (.new limit) (Outcome.stream []) pieces).delivers fa .chunked
      (Outcome.eq_of_byte top) out

/-- A message with the payload `ok`, and bytes with which no other one begins. -/
def spoiltStream : Bytes :=
  encodeChunk [0x6f, 0x6b] ++ endOfChunks ++ [lf, 0x58]

/-- In one piece the stream gives its violation only, and cut after its message this as well. -/
theorem pushes_deliver_spoilt :
    4 ≤ absoluteMaxChunkSize ∧
      (∀ pieces, pieces.flatten = spoiltStream →
        Delivers 4 .chunked pieces [[0x6f, 0x6b]] (some .malformedChunkHeader)) ∧
      (Decoder.new .chunked 4).pushes [spoiltStream] = [.error ⟨11, .malformedChunkHeader⟩] ∧
      (Decoder.new .chunked 4).pushes [spoiltStream.take 10, spoiltStream.drop 10] =
        [.ok [[0x6f, 0x6b]], .error ⟨11, .malformedChunkHeader⟩] := by
  have top : 4 ≤ absoluteMaxChunkSize := by decide
  have read : Header.read 4 0 [lf, 0x58] = .violated 1 .malformedChunkHeader := by decide
  let m : Message 4 := ⟨[⟨[0x6f, 0x6b], by decide, by decide⟩], by decide⟩
  have out : @Outcome 4 spoiltStream [m] (some .malformedChunkHeader) :=
    .intro [] (by decide) (.violated read)
  obtain ⟨payloads, v, holds, delivers⟩ := pushes_deliver top .chunked spoiltStream
  obtain ⟨rfl, rfl⟩ := holds.unique top (.chunked out)
  exact ⟨top, delivers, by decide +kernel, by decide +kernel⟩

end Netconf.Framing
