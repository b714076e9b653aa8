import Netconf.Framing.Decoder

/-!
# Reading messages from a transport

A reader asks its decoder for a message and reads from the transport only when none is complete.
What the transport does is given as the list of its answers to the coming read calls.
-/

namespace Netconf.Framing

/-- The answer of a transport to one read call. -/
inductive Read where
  /-- Some bytes; none at all means that the stream is at its end. -/
  | data (bytes : Bytes)
  /-- The call fails, with the given text. -/
  | failed (reason : String)
  deriving DecidableEq, Repr

/-- The answers to read calls for at most `size` bytes that hand out the given ones. A size of zero
counts as one. -/
def Read.split (size : Nat) : List Read → List Read
  | [] => []
  | .data [] :: rest => .data [] :: split size rest
  | .data bytes :: rest => (pieces size bytes).map .data ++ split size rest
  | .failed reason :: rest => .failed reason :: split size rest

/-- The bytes in an answer. -/
def Read.bytes : Read → Bytes
  | .data bytes => bytes
  | .failed _ => []

/-- Why no message could be read. -/
inductive ReadError where
  | framing (error : FramingError)
  | transport (reason : String)
  deriving DecidableEq, Repr

/-- What a reader comes to when asked for a message. -/
inductive Reading where
  | message (payload : Bytes)
  /-- The stream is at its end. Bytes of an incomplete message do not count. -/
  | ended
  | failed (error : ReadError)
  /-- The transport has not answered yet. -/
  | waiting
  deriving DecidableEq, Repr

/-- State of reading messages. -/
structure Reader where
  decoder : Decoder
  /-- Whether the end of the stream was read. -/
  ended : Bool
  deriving DecidableEq, Repr

namespace Reader

/-- A reader at the start of a stream, in end-of-message framing. -/
def new (limit : Nat) : Reader :=
  ⟨.new .endOfMessage limit, false⟩

/-- Goes over to another framing for the messages to come. -/
def setMode (r : Reader) (mode : Mode) : Except FramingError Reader :=
  (r.decoder.setMode mode).map fun d => { r with decoder := d }

/-- Asks for the next message; the answers of the transport that were not used are left. -/
def next (r : Reader) (reads : List Read) : Reading × Reader × List Read :=
  match r.decoder.next with
  | (.ok (some payload), d) => (.message payload, { r with decoder := d }, reads)
  | (.error e, d) => (.failed (.framing e), { r with decoder := d }, reads)
  | (.ok none, d) =>
    if r.ended then (.ended, { r with decoder := d }, reads)
    else
      match reads with
      | [] => (.waiting, { r with decoder := d }, [])
      | .failed reason :: rest => (.failed (.transport reason), { r with decoder := d }, rest)
      | .data [] :: rest => (.ended, { r with decoder := d, ended := true }, rest)
      | .data bytes :: rest => next { r with decoder := d.extend bytes } rest
termination_by structural reads

/-- The number of bytes that have not been taken when the given answers are to come. -/
def backlog (r : Reader) (reads : List Read) : Nat :=
  r.decoder.backlog + (reads.flatMap Read.bytes).length

/-- With each message there is less left to be read. -/
theorem backlog_lt_of_next {r r' : Reader} {reads rest : List Read} {payload : Bytes}
    (h : r.next reads = (.message payload, r', rest)) : r'.backlog rest < r.backlog reads := by
  induction reads generalizing r with
  | nil =>
    unfold next at h
    have := Decoder.backlog_le_next r.decoder
    split at h
    · next hd =>
      have := Decoder.backlog_lt_of_next hd
      simp only [Prod.mk.injEq, Reading.message.injEq] at h
      obtain ⟨-, rfl, rfl⟩ := h
      simpa [backlog]
    · simp at h
    · split at h <;> simp at h
  | cons read reads ih =>
    unfold next at h
    have hle := Decoder.backlog_le_next r.decoder
    split at h
    · next hd =>
      have := Decoder.backlog_lt_of_next hd
      simp only [Prod.mk.injEq, Reading.message.injEq] at h
      obtain ⟨-, rfl, rfl⟩ := h
      simp only [backlog]
      omega
    · simp at h
    · next hd =>
      simp only [hd] at hle
      split at h
      · simp at h
      · split at h
        · contradiction
        · simp at h
        · simp at h
        · next hcons =>
          simp only [List.cons.injEq] at hcons
          obtain ⟨rfl, rfl⟩ := hcons
          -- The bytes only went over from the transport to the decoder.
          have := ih h
          simp only [backlog, Decoder.backlog, Decoder.extend, List.flatMap_cons, Read.bytes,
            List.length_append, List.reverseAux_eq, List.length_reverse] at this hle ⊢
          omega

end Reader

end Netconf.Framing
