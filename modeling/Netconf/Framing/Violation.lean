/-!
# Violations of the framing

What can be wrong with framed bytes, and where.
-/

namespace Netconf.Framing

/-- A way to violate the framing. -/
inductive Violation where
  /-- No chunk begins where one has to. -/
  | malformedChunkHeader
  /-- The size of a chunk is no decimal number in its shortest form, or has too many digits. -/
  | invalidChunkSize
  | zeroChunk
  | oversizedChunk (size max : Nat)
  /-- A message ends before its first chunk. -/
  | emptyMessage
  | malformedEndOfChunks
  /-- End-of-message framing was asked for after chunked framing. -/
  | modeDowngrade
  /-- A payload without bytes has no chunked form. -/
  | emptyPayload
  deriving DecidableEq, Repr

/-- The wording of a violation. -/
def Violation.message : Violation → String
  | malformedChunkHeader => "malformed chunk header"
  | invalidChunkSize => "invalid chunk size"
  | zeroChunk => "zero-length chunk"
  | oversizedChunk size max =>
    "chunk size " ++ toString size ++ " exceeds maximum " ++ toString max
  | emptyMessage => "chunked message without chunks"
  | malformedEndOfChunks => "malformed end-of-chunks marker"
  | modeDowngrade => "framing cannot be downgraded after switching to chunked"
  | emptyPayload => "cannot frame an empty payload"

/-- A violation with the position in the stream that shows it. -/
structure FramingError where
  offset : Nat
  violation : Violation
  deriving DecidableEq, Repr

/-- The wording of a framing error. -/
def FramingError.message (e : FramingError) : String :=
  "Framing error at byte " ++ toString e.offset ++ ": " ++ e.violation.message

end Netconf.Framing
