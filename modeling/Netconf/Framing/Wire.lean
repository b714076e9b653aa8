import Netconf.Framing.Violation
import Netconf.Text.Utf8

/-!
# Framed messages

The two ways to mark off messages in a stream of bytes. In end-of-message framing a marker follows
the payload. In chunked framing a message is one or more chunks, each with its size before it, and
an end-of-chunks mark.
-/

namespace Netconf.Framing

/-- A framing. -/
inductive Mode where
  | endOfMessage
  | chunked
  deriving DecidableEq, Repr, Inhabited

/-- The byte of a line feed. -/
def lf : UInt8 := 0x0a

/-- The byte of a number sign. -/
def hash : UInt8 := 0x23

/-- What follows a payload in end-of-message framing: `]]>]]>`. -/
def endOfMessageMarker : Bytes :=
  [0x5d, 0x5d, 0x3e, 0x5d, 0x5d, 0x3e]

/-- What follows the last chunk of a message: a line feed, two number signs, a line feed. -/
def endOfChunks : Bytes :=
  [lf, hash, hash, lf]

/-- The greatest size of a chunk. -/
def absoluteMaxChunkSize : Nat :=
  UInt32.size - 1

/-- The greatest size of an inbound chunk unless set otherwise. -/
def defaultMaxChunkSize : Nat :=
  16 * 1024 * 1024

/-- The size of outbound chunks unless set otherwise. -/
def defaultOutboundChunkSize : Nat :=
  8 * 1024

/-- The greatest number of digits in the size of a chunk. -/
def maxChunkSizeDigits : Nat :=
  10

/-- The decimal digits of a number. -/
def decimal (n : Nat) : Bytes :=
  (Nat.toDigits 10 n).map fun c => .ofNat c.toNat

/-- A chunk with its header. -/
def encodeChunk (chunk : Bytes) : Bytes :=
  [lf, hash] ++ decimal chunk.length ++ lf :: chunk

/-- A list cut into pieces of the given size, which counts as one if it is zero. The last piece
may be shorter. -/
def pieces (size : Nat) (bytes : Bytes) : List Bytes :=
  match bytes with
  | [] => []
  | b :: rest => (b :: rest).take (max size 1) :: pieces size ((b :: rest).drop (max size 1))
termination_by bytes.length
decreasing_by
  simp only [List.length_drop, List.length_cons]
  omega

/-- A payload as it goes over the wire, in chunks of at most the given size. -/
def encode (mode : Mode) (chunkSize : Nat) (payload : Bytes) : Except FramingError Bytes :=
  match mode with
  | .endOfMessage => .ok (payload ++ endOfMessageMarker)
  | .chunked =>
    if payload.isEmpty then .error ⟨0, .emptyPayload⟩
    else
      let chunks := pieces (min chunkSize absoluteMaxChunkSize) payload
      .ok (chunks.flatMap encodeChunk ++ endOfChunks)

end Netconf.Framing
