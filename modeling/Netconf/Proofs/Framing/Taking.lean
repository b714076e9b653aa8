import Netconf.Proofs.Framing.Following

/-!
# Taking what a transport gives

A transport may cut a stream in any way, and then end it or fail to read. Asked for a message, a
reader takes the answers up to the one with which a message is complete, and those up to the end or
the failure if none is (`Reader.takes`). So what it comes to depends on the bytes before that alone
(`Read.heard`).
-/

namespace Netconf.Framing

namespace Read

/-- The bytes that come before the end of the stream and before the first read that fails. -/
def heard : List Read → Bytes
  | .data (b :: bytes) :: rest => b :: bytes ++ heard rest
  | _ => []

/-- The first answer without bytes: the end of the stream, or a read that fails. -/
def stop? : List Read → Option Read
  | [] => none
  | .data (_ :: _) :: rest => stop? rest
  | read :: _ => some read

/-- Of the script the bytes have come, and the answers are left. -/
structure After (script : List Read) (bytes : Bytes) (left : List Read) : Prop where
  heard : heard script = bytes ++ heard left
  stop : stop? script = stop? left

variable {script used left : List Read} {bytes : Bytes} {read : Read}

/-- Bytes that are handed out are added to those that have come of the script. -/
lemma After.take (af : After script bytes (used ++ left)) (flows : Flows used) :
    After script (bytes ++ stream used) left := by
  induction used generalizing bytes with
  | nil =>
    rw [stream, List.flatMap_nil, List.append_nil]
    exact af
  | cons read used ih =>
    obtain ⟨⟨piece, some, rfl⟩, later⟩ := List.forall_mem_cons.mp flows
    have next : After script (bytes ++ piece) (used ++ left) := by
      obtain ⟨heard, stop⟩ := af
      cases piece with
      | nil => exact absurd rfl some
      | cons b piece => exact ⟨heard.trans (List.append_assoc _ _ _).symm, stop⟩
    have all : bytes ++ piece ++ stream used = bytes ++ stream (.data piece :: used) :=
      List.append_assoc _ _ _
    exact all ▸ ih next later

/-- At an answer without bytes all that is heard has come. -/
lemma After.stops (af : After script bytes (read :: left)) (nothing : read.bytes = []) :
    Read.heard script = bytes ∧ stop? script = some read := by
  obtain ⟨heard, stop⟩ := af
  cases read with
  | failed => exact ⟨heard.trans (List.append_nil _), stop⟩
  | data piece =>
    obtain rfl : piece = [] := nothing
    exact ⟨heard.trans (List.append_nil _), stop⟩

end Read

/-! ## Readers -/

namespace Reader

variable {F : Type} {payload : F → Bytes} {Stands : Bytes → List F → Decoder → Prop}
  {Comes : Bytes → List F → Option Violation → Prop}

/-- What a reader comes to, after the bytes and the messages, and what it takes for that. -/
inductive Takes (payload : F → Bytes) (Stands : Bytes → List F → Decoder → Prop)
    (Comes : Bytes → List F → Option Violation → Prop) (bytes : Bytes) (fs : List F)
    (reads : List Read) : Reading × Reader × List Read → Prop where
  | message {f used left r} :
    Read.Flows used → reads = used ++ left →
    Stands (bytes ++ Read.stream used) (fs ++ [f]) r.decoder → r.ended = false →
    Takes payload Stands Comes bytes fs reads (.message (payload f), r, left)
  | waiting {r} :
    Read.Flows reads → Stands (bytes ++ Read.stream reads) fs r.decoder → r.ended = false →
    Comes (bytes ++ Read.stream reads) fs none →
    Takes payload Stands Comes bytes fs reads (.waiting, r, [])
  | ended {used left r} :
    Read.Flows used → reads = used ++ .data [] :: left →
    Comes (bytes ++ Read.stream used) fs none →
    Takes payload Stands Comes bytes fs reads (.ended, r, left)
  | failed {used reason left r} :
    Read.Flows used → reads = used ++ .failed reason :: left →
    Comes (bytes ++ Read.stream used) fs none →
    Takes payload Stands Comes bytes fs reads (.failed (.transport reason), r, left)
  | violated {used left e r} :
    Read.Flows used → reads = used ++ left →
    Comes (bytes ++ Read.stream used) fs (some e.violation) →
    Takes payload Stands Comes bytes fs reads (.failed (.framing e), r, left)

variable {bytes : Bytes} {fs : List F} {r : Reader} {reads : List Read}

/-- Bytes that are taken first are taken with the others. -/
lemma Takes.cons {piece : Bytes} (some : piece ≠ []) {result : Reading × Reader × List Read}
    (ta : Takes payload Stands Comes (bytes ++ piece) fs reads result) :
    Takes payload Stands Comes bytes fs (.data piece :: reads) result := by
  have all (used : List Read) :
      bytes ++ piece ++ Read.stream used = bytes ++ Read.stream (.data piece :: used) :=
    List.append_assoc _ _ _
  have flows {used : List Read} (flows : Read.Flows used) : Read.Flows (.data piece :: used) :=
    List.forall_mem_cons.mpr ⟨⟨piece, some, rfl⟩, flows⟩
  cases ta with
  | message fl eq st going =>
    rw [all] at st
    exact .message (flows fl) (congrArg (_ :: ·) eq) st going
  | waiting fl st going co =>
    rw [all] at st co
    exact .waiting (flows fl) st going co
  | ended fl eq co =>
    rw [all] at co
    exact .ended (flows fl) (congrArg (_ :: ·) eq) co
  | failed fl eq co =>
    rw [all] at co
    exact .failed (flows fl) (congrArg (_ :: ·) eq) co
  | violated fl eq co =>
    rw [all] at co
    exact .violated (flows fl) (congrArg (_ :: ·) eq) co

/-- What its decoder has for it, a reader gives without taking anything. -/
lemma Takes.answer (fa : Decoder.Faithful payload Stands Comes) (st : Stands bytes fs r.decoder)
    (going : r.ended = false)
    (wait : ∀ {d}, r.decoder.next = (.ok none, d) → Stands bytes fs d → Comes bytes fs none →
      Takes payload Stands Comes bytes fs reads (r.next reads)) :
    Takes payload Stands Comes bytes fs reads (r.next reads) := by
  have nothing : bytes ++ Read.stream [] = bytes := List.append_nil bytes
  match eq : r.decoder.next with
  | (.ok (some p), d) =>
    obtain ⟨f, rfl, st⟩ := fa.message st eq
    rw [next_of_message eq]
    rw [← nothing] at st
    exact .message (List.forall_mem_nil _) rfl st going
  | (.error e, d) =>
    obtain ⟨-, co⟩ := fa.violated st eq
    rw [next_of_violated eq]
    rw [← nothing] at co
    exact .violated (List.forall_mem_nil _) rfl co
  | (.ok none, d) =>
    obtain ⟨st, co⟩ := fa.wait st eq
    exact wait eq st co

/-- A reader that is not at the end of its stream takes what the transport gives until it comes to
something. -/
lemma takes (fa : Decoder.Faithful payload Stands Comes) (st : Stands bytes fs r.decoder)
    (going : r.ended = false) (reads : List Read) :
    Takes payload Stands Comes bytes fs reads (r.next reads) := by
  induction reads generalizing r bytes with
  | nil =>
    refine .answer fa st going ?_
    intro d eq st co
    rw [next.eq_def, eq]
    simp only [going, Bool.false_eq_true, if_false]
    rw [← List.append_nil bytes] at st co
    exact .waiting (List.forall_mem_nil _) st rfl co
  | cons read reads ih =>
    refine .answer fa st going ?_
    intro d eq st co
    -- The decoder waits, so it depends on the first answer what comes next.
    have here := co
    rw [← List.append_nil bytes] at here
    cases read with
    | failed reason =>
      rw [next_of_failed eq going]
      exact .failed (List.forall_mem_nil _) rfl here
    | data piece =>
      by_cases some : piece = []
      · rw [some, next_of_end eq going]
        exact .ended (List.forall_mem_nil _) rfl here
      · rw [next_of_data eq going some]
        exact .cons some (ih (fa.extend piece st) going)

end Reader

/-! ## Across the change of framing -/

/-- Bytes that begin with a payload come to what a decoder makes of the others. -/
lemma Decoder.told_feed {limit : Nat} (top : limit ≤ absoluteMaxChunkSize) (first : Delimited)
    (tail : Bytes) (mode : Mode) :
    Told limit first (first.wire ++ tail) ((new mode limit).feed [tail]).payloads
      (((new mode limit).feed [tail]).error.map FramingError.violation) mode := by
  cases mode with
  | endOfMessage =>
    obtain ⟨ps, payloads, none, rest, sp⟩ := feed_endOfMessage limit [tail]
    rw [List.flatten_singleton] at sp
    refine .marked ⟨congrArg _ none, rest, ?_, sp.free⟩ payloads
    rw [sp.eq, ← List.append_assoc]
    rfl
  | chunked =>
    obtain ⟨ms, payloads, -, out⟩ := feed_chunked top [tail]
    rw [List.flatten_singleton] at out
    exact .chunked rfl out payloads

end Netconf.Framing
