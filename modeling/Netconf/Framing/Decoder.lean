import Netconf.Framing.Wire
import Netconf.Marker

/-!
# Decoding a framed stream

A decoder takes the bytes of a stream as they come and hands out the payloads of the complete
messages in it. In end-of-message framing it looks for the leftmost marker, and sets aside the bytes
with which none can begin. In chunked framing it alternates between chunk headers and the bytes of
chunks. A violation is final: the decoder answers with it from then on.
-/

namespace Netconf.Framing

/-- What a decoder waits for. -/
inductive Phase where
  /-- The marker at the end of the message. -/
  | marker
  /-- The header of a chunk, or the end of the chunks. -/
  | header
  /-- `remaining` more bytes of a chunk. -/
  | chunk (remaining : Nat)
  deriving DecidableEq, Repr

/-- State of decoding a stream. -/
structure Decoder where
  /-- Bytes received since the decoder was last asked, the last one first. -/
  arrived : Bytes
  /-- Bytes received before and not taken. -/
  buffered : Bytes
  /-- Bytes taken for the current message, the last one first. -/
  assembled : Bytes
  /-- Complete chunks of the current message. -/
  chunks : Nat
  phase : Phase
  /-- Bytes received. -/
  received : Nat
  /-- Bytes consumed: those of chunk headers, chunks and whole messages. -/
  offset : Nat
  /-- Greatest size of a chunk. -/
  limit : Nat
  /-- The violation that was met. -/
  failed : Option FramingError
  deriving DecidableEq, Repr

/-- What the head of the buffer says where a chunk header is due. -/
inductive Header where
  /-- More bytes are needed. -/
  | incomplete
  /-- A header of the given length announces a chunk of the given size. -/
  | size (size length : Nat)
  | endOfChunks
  /-- The byte with index `position` shows a violation. -/
  | violated (position : Nat) (violation : Violation)
  deriving DecidableEq, Repr

/-- Whether a byte is an ASCII digit. -/
def isDigit (b : UInt8) : Bool :=
  0x30 ≤ b && b ≤ 0x39

/-- The number written by decimal digits. -/
def value (digits : Bytes) : Nat :=
  digits.foldl (fun n b => n * 10 + (b.toNat - 0x30)) 0

/-- The header whose size field and what follows it are given. The field ends with a line feed; its
bytes so far are judged before that is there. -/
def Header.ofField (limit : Nat) (bytes : Bytes) : Header :=
  let field := bytes.takeWhile (· != lf)
  match field.findIdx? (!isDigit ·) with
  | some i => .violated (2 + i) .invalidChunkSize
  | none =>
    if maxChunkSizeDigits < field.length then .violated (2 + maxChunkSizeDigits) .invalidChunkSize
    else if (bytes.dropWhile (· != lf)).isEmpty then .incomplete
    else
      match field with
      | [] => .violated 2 .invalidChunkSize
      | [0x30] => .violated 2 .zeroChunk
      | 0x30 :: _ => .violated 2 .invalidChunkSize
      | field =>
        if limit < value field then .violated 2 (.oversizedChunk (value field) limit)
        else .size (value field) (2 + field.length + 1)

/-- The header at the head of the buffer after `chunks` chunks of the message. -/
def Header.read (limit chunks : Nat) : Bytes → Header
  | [] => .incomplete
  | first :: rest =>
    if first ≠ lf then .violated 0 .malformedChunkHeader
    else
      match rest with
      | [] => .incomplete
      | second :: rest =>
        if second ≠ hash then .violated 1 .malformedChunkHeader
        else
          match rest with
          | [] => .incomplete
          | third :: rest =>
            if third = hash then
              match rest with
              | [] => .incomplete
              | fourth :: _ =>
                if fourth ≠ lf then .violated 3 .malformedEndOfChunks
                else if chunks = 0 then .violated 0 .emptyMessage
                else .endOfChunks
            else Header.ofField limit (third :: rest)

/-- What one move of a decoder comes to. -/
inductive Move where
  /-- More bytes are needed. -/
  | wait (d : Decoder)
  /-- Bytes were consumed, and no message is complete. -/
  | go (d : Decoder)
  | message (payload : Bytes) (d : Decoder)
  | violated (e : FramingError)

namespace Decoder

/-- A decoder at the start of a stream. -/
def new (mode : Mode) (limit : Nat) : Decoder where
  arrived := []
  buffered := []
  assembled := []
  chunks := 0
  phase := match mode with
    | .endOfMessage => .marker
    | .chunked => .header
  received := 0
  offset := 0
  limit := limit
  failed := none

/-- The framing in use. -/
def mode (d : Decoder) : Mode :=
  match d.phase with
  | .marker => .endOfMessage
  | .header | .chunk _ => .chunked

/-- Number of the bytes received and not consumed. -/
def size (d : Decoder) : Nat :=
  d.received - d.offset

/-- Goes over to another framing between messages. What was not consumed is then read in the new
framing. There is no way back from chunked framing. -/
def setMode (d : Decoder) (mode : Mode) : Except FramingError Decoder :=
  match d.mode, mode with
  | .endOfMessage, .chunked =>
    .ok { d with
      buffered := d.assembled.reverseAux d.buffered
      assembled := []
      phase := .header }
  | .chunked, .endOfMessage => .error ⟨d.offset, .modeDowngrade⟩
  | .endOfMessage, .endOfMessage | .chunked, .chunked => .ok d

/-- Takes in more bytes. -/
def extend (d : Decoder) (bytes : Bytes) : Decoder :=
  { d with
    arrived := bytes.reverseAux d.arrived
    received := d.received + bytes.length }

/-- Puts the bytes that arrived behind those in the buffer. -/
def gather (d : Decoder) : Decoder :=
  match d.arrived with
  | [] => d
  | arrived => { d with arrived := [], buffered := d.buffered ++ arrived.reverse }

/-- The decoder after its first `n` buffered bytes were consumed. -/
def consume (d : Decoder) (n : Nat) : Decoder :=
  { d with buffered := d.buffered.drop n, offset := d.offset + n }

/-- Number of the buffered bytes with which no marker begins, if there is no marker in the buffer. -/
def scanned (d : Decoder) : Nat :=
  d.buffered.length - (endOfMessageMarker.length - 1)

/-- One move of a decoder. -/
def move (d : Decoder) : Move :=
  match d.phase with
  | .marker =>
    match Marker.cut? endOfMessageMarker d.buffered with
    | some (head, rest) =>
      let payload := d.assembled.reverseAux head
      .message payload { d with
        buffered := rest
        assembled := []
        offset := d.offset + payload.length + endOfMessageMarker.length }
    | none =>
      .wait { d with
        buffered := d.buffered.drop d.scanned
        assembled := (d.buffered.take d.scanned).reverseAux d.assembled }
  | .header =>
    match Header.read d.limit d.chunks d.buffered with
    | .incomplete => .wait d
    | .violated position violation => .violated ⟨d.offset + position, violation⟩
    | .size size length => .go { d.consume length with phase := .chunk size }
    | .endOfChunks =>
      .message d.assembled.reverse
        { d.consume endOfChunks.length with assembled := [], chunks := 0 }
  | .chunk remaining =>
    if d.buffered.isEmpty then .wait d
    else
      let data := d.buffered.take remaining
      let d := { d.consume data.length with assembled := data.reverseAux d.assembled }
      if data.length = remaining then .go { d with chunks := d.chunks + 1, phase := .header }
      else .go { d with phase := .chunk (remaining - data.length) }

/-- Number of the bytes that were received and not taken. -/
def backlog (d : Decoder) : Nat :=
  d.arrived.length + d.buffered.length

/-- A bound on the moves a decoder can make before it waits for bytes. -/
def weight (d : Decoder) : Nat :=
  2 * d.buffered.length +
    match d.phase with
    | .chunk _ => 1
    | _ => 0

end Decoder

/-- A size that is read takes at least one byte, and at most the whole field with the two bytes in
front of it. -/
theorem Header.length_le_of_ofField {limit size length : Nat} {bytes : Bytes}
    (h : Header.ofField limit bytes = .size size length) :
    0 < length ∧ length ≤ bytes.length + 2 := by
  simp only [Header.ofField] at h
  split at h
  · contradiction
  split at h
  · contradiction
  split at h
  · contradiction
  next hended =>
    have hrest : 0 < (bytes.dropWhile (· != lf)).length := by
      rw [List.length_pos_iff]
      simpa using hended
    have hall := congrArg List.length
      (List.takeWhile_append_dropWhile (p := (· != lf)) (l := bytes))
    rw [List.length_append] at hall
    split at h
    · contradiction
    · contradiction
    · contradiction
    · split at h
      · contradiction
      · simp only [Header.size.injEq] at h
        omega

/-- A header with a size takes at least one byte, and at most those that are there. -/
theorem Header.length_le_of_read {limit chunks size length : Nat} {bytes : Bytes}
    (h : Header.read limit chunks bytes = .size size length) :
    0 < length ∧ length ≤ bytes.length := by
  unfold Header.read at h
  repeat' split at h
  all_goals try contradiction
  simpa using Header.length_le_of_ofField h

/-- The header that ends the chunks takes four bytes. -/
theorem Header.four_le_of_read {limit chunks : Nat} {bytes : Bytes}
    (h : Header.read limit chunks bytes = .endOfChunks) : 4 ≤ bytes.length := by
  unfold Header.read at h
  repeat' split at h
  all_goals try contradiction
  · simp only [List.length_cons]
    omega
  · simp only [Header.ofField] at h
    repeat' split at h
    all_goals contradiction

namespace Decoder

/-- A move that goes on lessens the weight. -/
theorem weight_lt_of_go {d d' : Decoder} (h : d.move = .go d') : d'.weight < d.weight := by
  unfold move at h
  split at h
  · split at h <;> contradiction
  · next hphase =>
    split at h
    all_goals try contradiction
    next hread =>
      have := Header.length_le_of_read hread
      simp only [Move.go.injEq] at h
      subst h
      simp only [weight, consume, List.length_drop, hphase]
      omega
  · next hphase =>
    split at h
    · contradiction
    · next hne =>
      have : 0 < d.buffered.length := by
        rw [List.length_pos_iff]
        simpa using hne
      simp only [List.length_take] at h
      split at h <;>
      · simp only [Move.go.injEq] at h
        subst h
        simp only [weight, consume, List.length_drop, hphase]
        omega

/-- Gathering what has arrived leaves as many bytes to be handed out. -/
theorem backlog_gather (d : Decoder) : d.gather.backlog = d.backlog := by
  unfold gather
  split
  · rfl
  · simp only [backlog, List.length_append, List.length_reverse, List.length_nil]
    omega

/-- The move that gives a message lessens the backlog. -/
theorem backlog_lt_of_message {d d' : Decoder} {payload : Bytes}
    (h : d.move = .message payload d') : d'.backlog < d.backlog := by
  unfold move at h
  split at h
  · split at h
    · next hcut =>
      have := Marker.length_of_cut? hcut
      simp only [Move.message.injEq] at h
      obtain ⟨-, rfl⟩ := h
      simp only [endOfMessageMarker, List.length_cons, List.length_nil, backlog] at this ⊢
      omega
    · contradiction
  · split at h
    all_goals try contradiction
    next hread =>
      have := Header.four_le_of_read hread
      simp only [Move.message.injEq] at h
      obtain ⟨-, rfl⟩ := h
      simp only [endOfChunks, List.length_cons, List.length_nil, List.length_drop, consume,
        backlog]
      omega
  · split at h
    · contradiction
    · simp only [List.length_take] at h
      split at h <;> contradiction

/-- A move that goes on does not add to the backlog. -/
theorem backlog_le_of_go {d d' : Decoder} (h : d.move = .go d') : d'.backlog ≤ d.backlog := by
  unfold move at h
  split at h
  · split at h <;> contradiction
  · split at h
    all_goals try contradiction
    simp only [Move.go.injEq] at h
    subst h
    simp [backlog, consume]
  · split at h
    · contradiction
    · simp only [List.length_take] at h
      split at h <;>
      · simp only [Move.go.injEq] at h
        subst h
        simp [backlog, consume]

/-- A move that waits does not add to the backlog. -/
theorem backlog_le_of_wait {d d' : Decoder} (h : d.move = .wait d') :
    d'.backlog ≤ d.backlog := by
  unfold move at h
  split at h
  · split at h
    · contradiction
    · simp only [Move.wait.injEq] at h
      simp [← h, backlog]
  · split at h
    all_goals try contradiction
    simp only [Move.wait.injEq] at h
    simp [← h]
  · split at h
    · simp only [Move.wait.injEq] at h
      simp [← h]
    · simp only [List.length_take] at h
      split at h <;> contradiction

/-- Moves until a message is complete, bytes are missing, or a violation is met. -/
def extract (d : Decoder) : Except FramingError (Option Bytes) × Decoder :=
  match h : d.move with
  | .wait d => (.ok none, d)
  | .go d =>
    have := weight_lt_of_go h
    extract d
  | .message payload d => (.ok (some payload), d)
  | .violated e => (.error e, { d with failed := some e })
termination_by d.weight

/-- The next complete message, or none if more bytes are needed. -/
def next (d : Decoder) : Except FramingError (Option Bytes) × Decoder :=
  match d.failed with
  | some e => (.error e, d)
  | none => d.gather.extract

/-- Extracting a message lessens the backlog. -/
theorem backlog_lt_of_extract {d d' : Decoder} {payload : Bytes}
    (h : d.extract = (.ok (some payload), d')) : d'.backlog < d.backlog := by
  fun_induction extract d with
  | case1 => simp at h
  | case2 d d'' hmove _ ih =>
    have := ih h
    have := backlog_le_of_go hmove
    omega
  | case3 d payload' d'' hmove =>
    simp only [Prod.mk.injEq, Except.ok.injEq, Option.some.injEq] at h
    obtain ⟨rfl, rfl⟩ := h
    exact backlog_lt_of_message hmove
  | case4 => simp at h

/-- Extracting does not add to the backlog, whatever it comes to. -/
theorem backlog_le_extract (d : Decoder) : d.extract.2.backlog ≤ d.backlog := by
  fun_induction extract d with
  | case1 d d' hmove => exact backlog_le_of_wait hmove
  | case2 d d' hmove _ ih =>
    have := backlog_le_of_go hmove
    omega
  | case3 d payload d' hmove => exact Nat.le_of_lt (backlog_lt_of_message hmove)
  | case4 => simp [backlog]

/-- Asking for a message does not add to the backlog. -/
theorem backlog_le_next (d : Decoder) : d.next.2.backlog ≤ d.backlog := by
  unfold next
  split
  · simp
  · exact backlog_gather d ▸ backlog_le_extract d.gather

/-- Asking for a message lessens the backlog if there is one. -/
theorem backlog_lt_of_next {d d' : Decoder} {payload : Bytes}
    (h : d.next = (.ok (some payload), d')) : d'.backlog < d.backlog := by
  unfold next at h
  split at h
  · simp at h
  · exact backlog_gather d ▸ backlog_lt_of_extract h

/-- Takes out messages until bytes are missing. A violation takes the place of the messages before
it; `done` holds those taken out so far, the last first. -/
def drain (done : List Bytes) (d : Decoder) : Except FramingError (List Bytes) × Decoder :=
  match h : d.next with
  | (.ok (some payload), d) =>
    have := backlog_lt_of_next h
    drain (payload :: done) d
  | (.ok none, d) => (.ok done.reverse, d)
  | (.error e, d) => (.error e, d)
termination_by d.backlog

/-- Takes in bytes and hands out all messages that are complete. -/
def push (d : Decoder) (bytes : Bytes) : Except FramingError (List Bytes) × Decoder :=
  (d.extend bytes).drain []

end Decoder

end Netconf.Framing
