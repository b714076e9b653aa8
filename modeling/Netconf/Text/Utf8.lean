/-!
# UTF-8

Texts as byte sequences. The decoder is a machine over single bytes that knows which continuation
bytes a begun character still needs. It tells where and how a sequence that is not UTF-8 breaks off.
-/

namespace Netconf

/-- A sequence of bytes. -/
abbrev Bytes := List UInt8

namespace Utf8

/-- The bytes of a text. -/
def encodeChars (cs : List Char) : Bytes :=
  cs.flatMap String.utf8EncodeChar

/-- The bytes of a text. -/
def encode (s : String) : Bytes :=
  encodeChars s.toList

/-- Why a byte sequence is no UTF-8. `index` counts the bytes of the well-formed part. -/
inductive Defect where
  /-- `length` bytes begin a character that the next byte cannot continue. -/
  | invalid (length index : Nat)
  /-- The sequence ends inside a character. -/
  | incomplete (index : Nat)
  deriving DecidableEq, Repr

/-- The wording of a defect. -/
def Defect.message : Defect → String
  | .invalid length index =>
    "invalid utf-8 sequence of " ++ toString length ++ " bytes from index " ++ toString index
  | .incomplete index => "incomplete utf-8 byte sequence from index " ++ toString index

/-- A character of which at least one byte was read and at least one is due. -/
structure Begun where
  /-- Continuation bytes due. -/
  due : Nat
  /-- Least value of the next byte. -/
  low : UInt8
  /-- Greatest value of the next byte. -/
  high : UInt8
  /-- Code point given by the bytes read. -/
  value : Nat
  /-- Bytes read. -/
  read : Nat

/-- What the first byte of a character says about the rest of it; none for a byte that begins no
character of more than one byte. -/
def Begun.ofLead (b : UInt8) : Option Begun :=
  if 0xc2 ≤ b ∧ b ≤ 0xdf then some ⟨1, 0x80, 0xbf, b.toNat - 0xc0, 1⟩
  else if b = 0xe0 then some ⟨2, 0xa0, 0xbf, 0, 1⟩
  else if b = 0xed then some ⟨2, 0x80, 0x9f, 0xd, 1⟩
  else if 0xe1 ≤ b ∧ b ≤ 0xef then some ⟨2, 0x80, 0xbf, b.toNat - 0xe0, 1⟩
  else if b = 0xf0 then some ⟨3, 0x90, 0xbf, 0, 1⟩
  else if 0xf1 ≤ b ∧ b ≤ 0xf3 then some ⟨3, 0x80, 0xbf, b.toNat - 0xf0, 1⟩
  else if b = 0xf4 then some ⟨3, 0x80, 0x8f, 4, 1⟩
  else none

/-- Reads on at byte `index`, where the current character starts. `done` holds the characters read,
the last one first. -/
def decodeFrom (done : List Char) (index : Nat) : Option Begun → Bytes → Except Defect (List Char)
  | none, [] => .ok done.reverse
  | some _, [] => .error (.incomplete index)
  | none, b :: rest =>
    if b < 0x80 then decodeFrom (Char.ofNat b.toNat :: done) (index + 1) none rest
    else
      match Begun.ofLead b with
      | some begun => decodeFrom done index (some begun) rest
      | none => .error (.invalid 1 index)
  | some begun, b :: rest =>
    if begun.low ≤ b ∧ b ≤ begun.high then
      let value := begun.value * 0x40 + (b.toNat - 0x80)
      let read := begun.read + 1
      if begun.due ≤ 1 then decodeFrom (Char.ofNat value :: done) (index + read) none rest
      else decodeFrom done index (some ⟨begun.due - 1, 0x80, 0xbf, value, read⟩) rest
    else .error (.invalid begun.read index)

/-- The characters of a byte sequence. -/
def decodeChars (bytes : Bytes) : Except Defect (List Char) :=
  decodeFrom [] 0 none bytes

/-- The text of a byte sequence. -/
def decode (bytes : Bytes) : Except Defect String :=
  (decodeChars bytes).map .ofList

end Utf8

end Netconf
