import Netconf.Proofs.Framing.Switch

/-!
# Following a stream that goes on

A reader is asked for messages while bytes of a stream arrive that is not yet at its end. If no
violation is in what the stream will come to, it gives the next message or waits, and has taken from
its transport what it used (`Reader.follows`). This holds across the change of framing after the
first message as well (`Decoder.Hears.faithful`).
-/

namespace Netconf.Framing

/-- The transport hands out bytes and nothing else. -/
def Read.Flows (reads : List Read) : Prop :=
  ∀ read ∈ reads, ∃ bytes, bytes ≠ [] ∧ read = .data bytes

/-! ## Readers -/

/-- The messages that were handed out are the first ones to which the stream will come. -/
lemma Decoder.Faithful.all_of_stands {F : Type} {payload : F → Bytes}
    {Stands : Bytes → List F → Decoder → Prop} {Comes : Bytes → List F → Option Violation → Prop}
    {bytes more : Bytes} {fs all : List F} {d : Decoder} {v : Option Violation}
    (fa : Faithful payload Stands Comes) (st : Stands bytes fs d)
    (co : Comes (bytes ++ more) all v) : ∃ rest, all = fs ++ rest := by
  obtain ⟨gs, -, -, co'⟩ := fa.exhaust (fa.extend more st)
  exact ⟨gs, (fa.unique co co').1⟩

namespace Reader

variable {F : Type} {payload : F → Bytes} {Stands : Bytes → List F → Decoder → Prop}
  {Comes : Bytes → List F → Option Violation → Prop}

/-- What a reader comes to, after the bytes and the messages, in a stream with all the messages. -/
inductive Follows (payload : F → Bytes) (Stands : Bytes → List F → Decoder → Prop) (bytes : Bytes)
    (fs all : List F) (reads : List Read) : Reading × Reader × List Read → Prop where
  | message {f rest used left r} :
    all = fs ++ f :: rest → reads = used ++ left →
    Stands (bytes ++ Read.stream used) (fs ++ [f]) r.decoder → r.ended = false →
    Follows payload Stands bytes fs all reads (.message (payload f), r, left)
  | waiting {r} :
    Stands (bytes ++ Read.stream reads) fs r.decoder → r.ended = false →
    Follows payload Stands bytes fs all reads (.waiting, r, [])

variable {bytes more : Bytes} {fs all : List F} {r : Reader} {reads : List Read}

/-- A piece that is read first is read with the others. -/
lemma Follows.cons {piece : Bytes} {result : Reading × Reader × List Read}
    (fo : Follows payload Stands (bytes ++ piece) fs all reads result) :
    Follows payload Stands bytes fs all (.data piece :: reads) result := by
  cases fo with
  | @message f rest used left r eq split st going =>
    refine @Follows.message _ _ _ _ _ _ _ _ _ (.data piece :: used) _ _ eq ?_ ?_ going
    · rw [split, List.cons_append]
    · rw [List.append_assoc] at st
      exact st
  | waiting st going =>
    rw [List.append_assoc] at st
    exact .waiting st going

/-- What its decoder has for it, a reader gives without reading. -/
lemma Follows.answer (fa : Decoder.Faithful payload Stands Comes)
    (st : Stands bytes fs r.decoder) (going : r.ended = false)
    (co : Comes (bytes ++ more) all none)
    (wait : ∀ {d}, r.decoder.next = (.ok none, d) → Stands bytes fs d →
      Follows payload Stands bytes fs all reads (r.next reads)) :
    Follows payload Stands bytes fs all reads (r.next reads) := by
  match eq : r.decoder.next with
  | (.ok (some p), d) =>
    obtain ⟨f, rfl, st⟩ := fa.message st eq
    obtain ⟨rest, rfl⟩ := fa.all_of_stands st co
    rw [next_of_message eq]
    refine @Follows.message _ _ _ _ _ _ _ f rest [] _ _ ?_ rfl ?_ going
    · rw [List.append_assoc]
      rfl
    · rw [Read.stream, List.flatMap_nil, List.append_nil]
      exact st
  | (.error e, d) =>
    have broken := fa.append more (fa.violated st eq).2
    cases (fa.unique co broken).2
  | (.ok none, d) => exact wait eq (fa.wait st eq).1

/-- A reader follows a stream, whatever pieces of it arrive. -/
lemma follows (fa : Decoder.Faithful payload Stands Comes) (st : Stands bytes fs r.decoder)
    (going : r.ended = false) (flows : Read.Flows reads)
    (co : Comes (bytes ++ (Read.stream reads ++ more)) all none) :
    Follows payload Stands bytes fs all reads (r.next reads) := by
  induction reads generalizing r bytes with
  | nil =>
    refine .answer fa st going co ?_
    intro d eq st
    rw [next.eq_def, eq]
    simp only [going, Bool.false_eq_true, if_false]
    refine .waiting ?_ rfl
    rw [Read.stream, List.flatMap_nil, List.append_nil]
    exact st
  | cons read reads ih =>
    refine .answer fa st going co ?_
    intro d eq st
    -- The decoder waits, so the first piece is taken.
    obtain ⟨⟨piece, some, rfl⟩, later⟩ := List.forall_mem_cons.mp flows
    rw [next_of_data eq going some]
    refine .cons (ih (fa.extend piece st) going later ?_)
    rw [List.append_assoc, ← List.append_assoc piece]
    exact co

end Reader

/-! ## Across the change of framing -/

namespace Decoder

variable {limit : Nat} {first : Delimited} {mode : Mode} {bytes more : Bytes}
  {heard all : List Bytes} {d d' : Decoder} {v : Option Violation}

/-- The decoder has handed out the first payload, gone over to the framing, and then handed out the
others. -/
inductive Hears (limit : Nat) (first : Delimited) (bytes : Bytes) (heard : List Bytes)
    (d : Decoder) : Mode → Prop where
  | marked {ps} :
    Scanned limit bytes (first :: ps) d → heard = ps.map Delimited.payload →
    Hears limit first bytes heard d .endOfMessage
  | chunked {tail} {ms : List (Message limit)} :
    bytes = first.wire ++ tail → Stands tail ms d → heard = ms.map Message.payload →
    Hears limit first bytes heard d .chunked

/-- After the first payload the bytes come to the others, in the framing. -/
inductive Told (limit : Nat) (first : Delimited) (bytes : Bytes) (all : List Bytes)
    (v : Option Violation) : Mode → Prop where
  | marked {ps} :
    Delimited.Comes bytes (first :: ps) v → all = ps.map Delimited.payload →
    Told limit first bytes all v .endOfMessage
  | chunked {tail} {ms : List (Message limit)} :
    bytes = first.wire ++ tail → Outcome tail ms v → all = ms.map Message.payload →
    Told limit first bytes all v .chunked

/-- Before and after the change of framing a decoder is faithful to what the bytes after the first
payload come to. -/
lemma Hears.faithful (top : limit ≤ absoluteMaxChunkSize) (first : Delimited) (mode : Mode) :
    Faithful id (fun bytes heard d => Hears limit first bytes heard d mode)
      (fun bytes all v => Told limit first bytes all v mode) where
  -- Either framing has a faithful decoder, so every law is that of the framing in use.
  extend more he := by
    cases he with
    | marked sc eq => exact .marked (sc.extend more) eq
    | chunked split st eq =>
      refine .chunked ?_ (st.extend more) eq
      rw [split, List.append_assoc]
  message he eq := by
    cases he with
    | marked sc heard =>
      obtain ⟨p, rfl, sc⟩ := (Scanned.faithful limit).message sc eq
      rw [List.cons_append] at sc
      exact ⟨_, rfl, .marked sc (by rw [heard, List.map_append]; rfl)⟩
    | chunked split st heard =>
      obtain ⟨m, rfl, st⟩ := (Stands.faithful top).message st eq
      exact ⟨_, rfl, .chunked split st (by rw [heard, List.map_append]; rfl)⟩
  wait he eq := by
    cases he with
    | marked sc heard =>
      obtain ⟨sc, co⟩ := (Scanned.faithful limit).wait sc eq
      exact ⟨.marked sc heard, .marked co heard⟩
    | chunked split st heard =>
      obtain ⟨st, out⟩ := (Stands.faithful top).wait st eq
      exact ⟨.chunked split st heard, .chunked split out heard⟩
  violated he eq := by
    cases he with
    | marked sc heard =>
      obtain ⟨sc, co⟩ := (Scanned.faithful limit).violated sc eq
      exact ⟨.marked sc heard, .marked co heard⟩
    | chunked split st heard =>
      obtain ⟨st, out⟩ := (Stands.faithful top).violated st eq
      exact ⟨.chunked split st heard, .chunked split out heard⟩
  append more told := by
    cases told with
    | marked co eq => exact .marked ((Scanned.faithful limit).append more co) eq
    | chunked split out eq =>
      refine .chunked ?_ (out.append more) eq
      rw [split, List.append_assoc]
  unique told told' := by
    cases told with
    | marked co eq =>
      cases told' with
      | marked co' eq' =>
        obtain ⟨same, rfl⟩ := (Scanned.faithful limit).unique co co'
        obtain ⟨-, rfl⟩ := List.cons.inj same
        exact ⟨eq.trans eq'.symm, rfl⟩
    | chunked split out eq =>
      cases told' with
      | chunked split' out' eq' =>
        obtain rfl := List.append_cancel_left (split.symm.trans split')
        obtain ⟨rfl, rfl⟩ := out.unique top out'
        exact ⟨eq.trans eq'.symm, rfl⟩

/-- A decoder that has handed out the first payload can go over to either framing. -/
lemma Scanned.hears (sc : Scanned limit bytes [first] d) (mode : Mode) :
    ∃ d', d.setMode mode = .ok d' ∧ Hears limit first bytes [] d' mode := by
  cases mode with
  | endOfMessage =>
    refine ⟨d, ?_, .marked sc rfl⟩
    simp only [Decoder.setMode, Decoder.mode, sc.phase]
  | chunked =>
    obtain ⟨d', tail, eq, split, st⟩ := sc.setMode
    refine ⟨d', eq, .chunked ?_ st rfl⟩
    rw [split]
    simp [Delimited.stream]

end Decoder

/-- Bytes that begin with a payload come to it first. -/
lemma Delimited.comes_cons (first : Delimited) (tail : Bytes) :
    ∃ ps, Comes (first.wire ++ tail) (first :: ps) none := by
  obtain ⟨ps, -, -, rest, split⟩ := Decoder.feed_endOfMessage 0 [tail]
  rw [List.flatten_singleton] at split
  refine ⟨ps, rfl, rest, ?_, split.free⟩
  rw [split.eq, ← List.append_assoc]
  rfl

end Netconf.Framing
