import Netconf.Error
import Netconf.Framing.Wire
import Netconf.Json

/-!
# Session configuration

The limits of a session, their defaults, and their written form: a JSON object that names the
limits it sets, or an array that gives them in order.
-/

namespace Netconf

/-- The limits of a session. -/
structure Config where
  /-- The greatest size of an inbound chunk. -/
  maxChunkSize : Nat
  /-- The size of outbound chunks. -/
  outboundChunkSize : Nat
  /-- The greatest number of bytes that are read at once. -/
  readBufferSize : Nat
  /-- The number of outbound messages from which on senders wait. -/
  maxPendingFrames : Nat
  /-- The number of messages that the queue to the writer holds. -/
  channelCapacity : Nat
  /-- How many milliseconds a sender waits. -/
  backpressureTimeout : Nat
  deriving DecidableEq, Repr

namespace Config

/-- The number of bytes that are read at once unless set otherwise. -/
def defaultReadBufferSize : Nat :=
  64 * 1024

/-- The limits unless set otherwise. -/
def default : Config where
  maxChunkSize := Framing.defaultMaxChunkSize
  outboundChunkSize := Framing.defaultOutboundChunkSize
  readBufferSize := defaultReadBufferSize
  maxPendingFrames := 1024
  channelCapacity := 1024
  backpressureTimeout := 5000

/-! ## The limits by name -/

/-- A limit. -/
inductive Field where
  | maxChunkSize
  | outboundChunkSize
  | readBufferSize
  | maxPendingFrames
  | channelCapacity
  | backpressureTimeout
  deriving DecidableEq, Repr

/-- The limits in order. -/
def Field.all : List Field :=
  [maxChunkSize, outboundChunkSize, readBufferSize, maxPendingFrames, channelCapacity,
    backpressureTimeout]

/-- The name of a limit. -/
def Field.name : Field → String
  | maxChunkSize => "max_chunk_size"
  | outboundChunkSize => "outbound_chunk_size"
  | readBufferSize => "read_buffer_size"
  | maxPendingFrames => "max_pending_frames"
  | channelCapacity => "channel_capacity"
  | backpressureTimeout => "backpressure_timeout_ms"

/-- A limit is less than this. -/
def Field.bound : Field → Nat
  | maxChunkSize => UInt32.size
  | _ => UInt64.size

/-- Whether a limit has to be positive. -/
def Field.isPositive : Field → Bool
  | backpressureTimeout => false
  | _ => true

/-- The value of a limit. -/
def get (c : Config) : Field → Nat
  | .maxChunkSize => c.maxChunkSize
  | .outboundChunkSize => c.outboundChunkSize
  | .readBufferSize => c.readBufferSize
  | .maxPendingFrames => c.maxPendingFrames
  | .channelCapacity => c.channelCapacity
  | .backpressureTimeout => c.backpressureTimeout

/-- The configuration with another value of a limit. -/
def set (c : Config) (f : Field) (n : Nat) : Config :=
  match f with
  | .maxChunkSize => { c with maxChunkSize := n }
  | .outboundChunkSize => { c with outboundChunkSize := n }
  | .readBufferSize => { c with readBufferSize := n }
  | .maxPendingFrames => { c with maxPendingFrames := n }
  | .channelCapacity => { c with channelCapacity := n }
  | .backpressureTimeout => { c with backpressureTimeout := n }

/-- Setting a limit changes that limit and no other. -/
theorem get_set (c : Config) (f g : Field) (n : Nat) :
    (c.set f n).get g = if g = f then n else c.get g := by
  cases f <;> cases g <;> rfl

/-- Passes a configuration whose limits can be used. -/
def validate (c : Config) : Except Error Unit :=
  match Field.all.find? fun f => f.isPositive && c.get f == 0 with
  | some f => .error (.protocol (f.name ++ " must be positive"))
  | none => .ok ()

/-- How long a sender waits, in seconds and nanoseconds. -/
def timeout (c : Config) : Nat × Nat :=
  (c.backpressureTimeout / 1000, c.backpressureTimeout % 1000 * 1000000)

/-! ## The written form -/

/-- A limit with its value. -/
def renderField (c : Config) (f : Field) : String :=
  "\x22" ++ f.name ++ "\x22:" ++ toString (c.get f)

/-- The configuration as a JSON object. -/
def render (c : Config) : String :=
  "\x7b" ++ ",".intercalate (Field.all.map c.renderField) ++ "\x7d"

/-- Reads the members of an object. Only the limits that are left can be set, so that none is set
twice. -/
def members (left : List Field) (first : Bool) (c : Config) (cs : List Char) :
    Except Json.Fault (Config × List Char) :=
  match Json.nextName first cs with
  | .error e => .error e
  | .ok (.closed rest) => .ok (c, rest)
  | .ok (.item name rest) =>
    match h : left.find? fun f => f.name.toList == name with
    | none => .error .unfit
    | some f =>
      match (Json.colon rest).bind (Json.natural f.bound) with
      | .error e => .error e
      | .ok (n, rest) =>
        have : (left.erase f).length < left.length := by
          have hmem := List.mem_of_find?_eq_some h
          have := List.length_pos_of_mem hmem
          rw [List.length_erase_of_mem hmem]
          omega
        members (left.erase f) false (c.set f n) rest
termination_by left.length

/-- Reads the elements of an array, which set the limits that are left in order. -/
def elements (left : List Field) (first : Bool) (c : Config) (cs : List Char) :
    Except Json.Fault (Config × List Char) :=
  match left with
  | [] => (Json.closeArray cs).map fun rest => (c, rest)
  | f :: left =>
    match Json.nextElement first cs with
    | .error e => .error e
    | .ok (.closed rest) => .ok (c, rest)
    | .ok (.item _ rest) =>
      match Json.natural f.bound rest with
      | .error e => .error e
      | .ok (n, rest) => elements left false (c.set f n) rest

/-- The configuration that a JSON text writes, without a judgement on the limits. -/
def read (text : List Char) : Except Json.Fault Config := do
  let (c, rest) ← match Json.skipBlank text with
    | '\x7b' :: rest => members Field.all true default rest
    | '[' :: rest => elements Field.all true default rest
    | cs => .error (Json.misfit cs)
  Json.finish rest
  return c

/-- Why a text gives no configuration. -/
inductive ReadError where
  | json (fault : Json.Fault)
  /-- A limit cannot be used. -/
  | invalid (error : Error)
  deriving DecidableEq, Repr

/-- The configuration that a JSON text writes. -/
def ofJson (text : String) : Except ReadError Config := do
  let c ← (read text.toList).mapError .json
  c.validate.mapError .invalid
  return c

end Config

end Netconf
