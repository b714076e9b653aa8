import Mathlib.Tactic.Lemma
import Netconf.Framing.Decoder

/-!
# Feeding a decoder

The bytes of a stream come in pieces, and a decoder is asked for messages in between. What it
stands for is told by a relation between the bytes received, the messages handed out and its state,
and what the bytes come to by a relation that does not know of the decoder. `Faithful` says when two
such relations describe a decoder. Then the results do not depend on the pieces (`Faithful.feed`) or
on when it is asked (`Faithful.run`).
-/

namespace Netconf.Framing

namespace Decoder

/-- The bytes that were received and not taken. -/
def pending (d : Decoder) : Bytes :=
  d.buffered ++ d.arrived.reverse

/-- Bytes that come in are held behind the others. -/
@[simp]
lemma pending_extend (d : Decoder) (more : Bytes) :
    (d.extend more).pending = d.pending ++ more := by
  simp [pending, extend, List.reverseAux_eq]

/-- Where nothing has arrived, all that is held is in the buffer. -/
lemma pending_eq {d : Decoder} (all : d.arrived = []) : d.pending = d.buffered := by
  simp [pending, all]

/-- A decoder gathers all that it holds into its buffer. -/
lemma gather_eq (d : Decoder) : d.gather = { d with arrived := [], buffered := d.pending } := by
  obtain ⟨arrived, _⟩ := d
  cases arrived with
  | nil => simp [gather, pending]
  | cons => rfl

/-- Before its first violation a decoder that is asked takes a message from all that it holds. -/
lemma next_eq {d : Decoder} (going : d.failed = none) :
    d.next = extract { d with arrived := [], buffered := d.pending } := by
  simp only [next, going, gather_eq]

section

variable {d d' : Decoder}

/-- A decoder whose move needs more bytes has no message. -/
lemma extract_of_wait (eq : d.move = .wait d') : d.extract = (.ok none, d') := by
  rw [extract]
  split <;> simp_all

/-- A decoder whose move completes a message hands it out. -/
lemma extract_of_message {p : Bytes} (eq : d.move = .message p d') :
    d.extract = (.ok (some p), d') := by
  rw [extract]
  split <;> simp_all

end

/-- A decoder that met a violation keeps it. -/
lemma failed_of_next {d d' : Decoder} {e : FramingError} (eq : d.next = (.error e, d')) :
    d'.failed = some e := by
  have kept {d d' : Decoder} (eq : d.extract = (.error e, d')) : d'.failed = some e := by
    fun_induction extract d with
    | case1 => cases eq
    | case2 _ _ _ _ ih => exact ih eq
    | case3 => cases eq
    | case4 => cases eq; rfl
  unfold next at eq
  split at eq
  · next fail =>
    cases eq
    exact fail
  · exact kept eq

/-- What a decoder gave when asked some times, and what becomes of it. -/
structure Yield where
  payloads : List Bytes
  /-- The first violation. -/
  error : Option FramingError
  decoder : Decoder

/-- Asks for messages until none is complete or a violation is met. -/
def exhaust (d : Decoder) : Yield :=
  match h : d.next with
  | (.ok (some payload), d) =>
    have := backlog_lt_of_next h
    let later := exhaust d
    { later with payloads := payload :: later.payloads }
  | (.ok none, d) => ⟨[], none, d⟩
  | (.error e, d) => ⟨[], some e, d⟩
termination_by d.backlog

/-- Takes the pieces of a stream in, and asks after each of them for all messages. -/
def feed (d : Decoder) : List Bytes → Yield
  | [] => ⟨[], none, d⟩
  | piece :: pieces =>
    let now := (d.extend piece).exhaust
    let later := feed now.decoder pieces
    ⟨now.payloads ++ later.payloads, now.error.or later.error, later.decoder⟩

/-- What can be done with a decoder. -/
inductive Call where
  | extend (bytes : Bytes)
  | ask

/-- The bytes that a call brings in. -/
def Call.bytes : Call → Bytes
  | extend bytes => bytes
  | ask => []

/-- Calls a decoder in any order. -/
def run (d : Decoder) : List Call → Yield
  | [] => ⟨[], none, d⟩
  | .extend bytes :: calls => run (d.extend bytes) calls
  | .ask :: calls =>
    let (answer, d) := d.next
    let later := run d calls
    match answer with
    | .ok (some payload) => { later with payloads := payload :: later.payloads }
    | .ok none => later
    | .error e => { later with error := some e }

/-- `Stands` tells the state of a decoder after the bytes, of which it handed out the messages, and
`Comes` tells what bytes come to, whatever decoder they are for. -/
structure Faithful {F : Type} (payload : F → Bytes) (Stands : Bytes → List F → Decoder → Prop)
    (Comes : Bytes → List F → Option Violation → Prop) : Prop where
  extend {bytes fs d} (more : Bytes) :
    Stands bytes fs d → Stands (bytes ++ more) fs (d.extend more)
  message {bytes fs d p d'} :
    Stands bytes fs d → d.next = (.ok (some p), d') →
    ∃ f, payload f = p ∧ Stands bytes (fs ++ [f]) d'
  wait {bytes fs d d'} :
    Stands bytes fs d → d.next = (.ok none, d') →
    Stands bytes fs d' ∧ Comes bytes fs none
  violated {bytes fs d e d'} :
    Stands bytes fs d → d.next = (.error e, d') →
    Stands bytes fs d' ∧ Comes bytes fs (some e.violation)
  append {bytes fs violation} (more : Bytes) :
    Comes bytes fs (some violation) → Comes (bytes ++ more) fs (some violation)
  unique {bytes fs gs v w} :
    Comes bytes fs v → Comes bytes gs w → fs = gs ∧ v = w

namespace Faithful

variable {F : Type} {payload : F → Bytes} {Stands : Bytes → List F → Decoder → Prop}
  {Comes : Bytes → List F → Option Violation → Prop} {bytes : Bytes} {fs : List F} {d : Decoder}

/-- Asked for all messages, a decoder gives those to which the bytes come. -/
lemma exhaust (fa : Faithful payload Stands Comes) (st : Stands bytes fs d) :
    ∃ gs, d.exhaust.payloads = gs.map payload ∧ Stands bytes (fs ++ gs) d.exhaust.decoder ∧
      Comes bytes (fs ++ gs) (d.exhaust.error.map FramingError.violation) := by
  fun_induction Decoder.exhaust d generalizing fs with
  | case1 d p d' eq =>
    rename_i ih
    obtain ⟨f, rfl, st⟩ := fa.message st eq
    obtain ⟨gs, all, st, co⟩ := ih st
    rw [List.append_assoc] at st co
    exact ⟨f :: gs, congrArg (payload f :: ·) all, st, co⟩
  | case2 d d' eq =>
    obtain ⟨st, co⟩ := fa.wait st eq
    exact ⟨[], rfl, by simpa using st, by simpa using co⟩
  | case3 d e d' eq =>
    obtain ⟨st, co⟩ := fa.violated st eq
    exact ⟨[], rfl, by simpa using st, by simpa using co⟩

/-- A decoder that gave all messages to which its bytes come waits for more bytes. -/
lemma waits (fa : Faithful payload Stands Comes) (st : Stands bytes fs d)
    (co : Comes bytes fs none) : ∃ d', d.next = (.ok none, d') ∧ Stands bytes fs d' := by
  match eq : d.next with
  | (.ok (some p), d') =>
    obtain ⟨f, -, st⟩ := fa.message st eq
    obtain ⟨gs, -, -, co'⟩ := fa.exhaust st
    rw [List.append_assoc] at co'
    simpa using (fa.unique co co').1
  | (.ok none, d') => exact ⟨d', rfl, (fa.wait st eq).1⟩
  | (.error e, d') => cases (fa.unique co (fa.violated st eq).2).2

/-- However a stream is cut, its pieces give the messages to which it comes. -/
lemma feed (fa : Faithful payload Stands Comes) (st : Stands bytes fs d) {v : Option Violation}
    (co : Comes bytes fs v) (pieces : List Bytes) :
    ∃ gs, (d.feed pieces).payloads = gs.map payload ∧
      Stands (bytes ++ pieces.flatten) (fs ++ gs) (d.feed pieces).decoder ∧
      Comes (bytes ++ pieces.flatten) (fs ++ gs)
        (v.or ((d.feed pieces).error.map FramingError.violation)) := by
  induction pieces generalizing bytes fs d v with
  | nil => exact ⟨[], rfl, by simpa [Decoder.feed] using st, by simpa [Decoder.feed] using co⟩
  | cons piece pieces ih =>
    obtain ⟨gs, now, st, here⟩ := fa.exhaust (fa.extend piece st)
    obtain ⟨hs, later, st, there⟩ := ih st here
    refine ⟨gs ++ hs, by simp [Decoder.feed, now, later], ?_, ?_⟩
    · simpa [Decoder.feed] using st
    · -- A violation that was met before is still what the bytes come to.
      have first : v.or ((d.extend piece).exhaust.error.map FramingError.violation) =
          (d.extend piece).exhaust.error.map FramingError.violation := by
        cases v with
        | none => rfl
        | some w => exact (fa.unique (fa.append piece co) here).2
      simp only [Decoder.feed, Option.map_or, ← Option.or_assoc, first]
      simpa using there

/-- Whenever a decoder is asked, it gives messages to which the bytes come. -/
lemma run (fa : Faithful payload Stands Comes) (st : Stands bytes fs d)
    (never : ∀ {bytes fs violation}, ¬Comes bytes fs (some violation)) (calls : List Call) :
    ∃ gs, (d.run calls).payloads = gs.map payload ∧ (d.run calls).error = none ∧
      Stands (bytes ++ calls.flatMap Call.bytes) (fs ++ gs) (d.run calls).decoder := by
  induction calls generalizing bytes fs d with
  | nil => exact ⟨[], rfl, rfl, by simpa [Decoder.run] using st⟩
  | cons call calls ih =>
    cases call with
    | extend more =>
      obtain ⟨gs, all, ok, st⟩ := ih (fa.extend more st)
      exact ⟨gs, all, ok, by simpa [Call.bytes, Decoder.run] using st⟩
    | ask =>
      simp only [Decoder.run, List.flatMap_cons, Call.bytes, List.nil_append]
      match eq : d.next with
      | (.ok (some p), d') =>
        obtain ⟨f, rfl, st⟩ := fa.message st eq
        obtain ⟨gs, all, ok, st⟩ := ih st
        rw [List.append_assoc] at st
        exact ⟨f :: gs, congrArg (payload f :: ·) all, ok, st⟩
      | (.ok none, d') => exact ih (fa.wait st eq).1
      | (.error e, d') => exact absurd (fa.violated st eq).2 never

end Faithful

end Decoder

end Netconf.Framing
