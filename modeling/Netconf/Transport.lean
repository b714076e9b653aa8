import Netconf.Framing.Reader
import Netconf.Outbound
import Netconf.Queue

/-!
# A transport in memory

Two streams of bytes between a session and its peer, seen from the session's end, with the faults
that a transport can have. The outbound stream may hold a limited number of bytes until the peer
takes them.
-/

namespace Netconf

/-- Why a transport takes no bytes. -/
inductive WriteFault where
  /-- Every write call fails, with the given text. -/
  | broken (reason : String)
  /-- Every write call takes no bytes. -/
  | stalled
  deriving DecidableEq, Repr

/-- A transport in memory. -/
structure Transport where
  /-- Bytes from the peer that were not read. -/
  inbound : Queue UInt8
  /-- With this text reading fails after the inbound bytes. -/
  readFault : Option String
  /-- Whether the stream from the peer is at its end after the inbound bytes. -/
  ended : Bool
  /-- Bytes for the peer that it has not taken. -/
  outbound : Queue UInt8
  /-- How many more outbound bytes the transport takes, if there is a limit. -/
  room : Option Nat
  writeFault : Option WriteFault
  /-- Whether the session has ended its stream to the peer. -/
  shut : Bool
  deriving DecidableEq, Repr

namespace Transport

/-- A transport without bytes and faults. -/
def new : Transport where
  inbound := .empty
  readFault := none
  ended := false
  outbound := .empty
  room := none
  writeFault := none
  shut := false

/-! ## The end of the session -/

/-- The answers to the coming read calls for at most `size` bytes. -/
def reads (t : Transport) (size : Nat) : List Framing.Read :=
  (Framing.pieces size t.inbound.toList).map .data ++
    match t.readFault with
    | some reason => [.failed reason]
    | none => if t.ended then [.data []] else []

/-- The transport when the given answers are left of the coming ones. -/
def unread (t : Transport) (left : List Framing.Read) : Transport :=
  { t with inbound := .ofList (left.flatMap Framing.Read.bytes) }

/-- The first `n` bytes of several slices. -/
def firstBytes : (n : Nat) → (slices : List Bytes) → Bytes
  | 0, _ => []
  | _, [] => []
  | n, slice :: rest =>
    let head := slice.take n
    head ++ firstBytes (n - head.length) rest

/-- The bytes that a write call takes of those offered: as many as there is room for. -/
def accepted (t : Transport) (slices : List Bytes) : Bytes :=
  match t.room with
  | none => slices.flatten
  | some room => firstBytes room slices

/-- Answers a write call. -/
def write (slices : List Bytes) (t : Transport) : Written × Transport :=
  match t.writeFault with
  | some (.broken reason) => (.failed reason, t)
  | some .stalled => (.accepted 0, t)
  | none =>
    match t.accepted slices with
    | [] => (.blocked, t)
    | bytes =>
      (.accepted bytes.length, { t with
        outbound := t.outbound.pushAll bytes
        room := t.room.map (· - bytes.length) })

/-- The first bytes of some slices are those of all their bytes. -/
theorem firstBytes_eq (n : Nat) (slices : List Bytes) :
    firstBytes n slices = slices.flatten.take n := by
  induction slices generalizing n with
  | nil => cases n <;> simp [firstBytes]
  | cons slice rest ih =>
    cases n with
    | zero => simp [firstBytes]
    | succ n =>
      rw [firstBytes, ih, List.flatten_cons, List.take_append, List.length_take]
      · congr 2
        omega
      · simp

/-- Answers a call to flush. There is nothing to do for it, as what was taken is there for the
peer. -/
def flush (t : Transport) : Option String × Transport :=
  (none, t)

/-- Ends the stream to the peer. -/
def shutDown (t : Transport) : Transport :=
  { t with shut := true }

/-! ## The end of the peer -/

/-- The peer sends bytes. -/
def deliver (t : Transport) (bytes : Bytes) : Transport :=
  { t with inbound := t.inbound.pushAll bytes }

/-- The peer takes at most `n` bytes. -/
def take (t : Transport) (n : Nat) : Bytes × Transport :=
  let (taken, outbound) := t.outbound.popMany n
  (taken, { t with outbound := outbound, room := t.room.map (· + taken.length) })

/-- The peer takes all bytes. -/
def takeAll (t : Transport) : Bytes × Transport :=
  let taken := t.outbound.toList
  (taken, { t with outbound := .empty, room := t.room.map (· + taken.length) })

end Transport

end Netconf
