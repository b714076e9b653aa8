import Netconf.Text.Number
import Netconf.Xml.Char

/-!
# Character data and attribute values

Raw text of a document is a sequence of literal characters and references. Resolving it replaces
the references, and normalises line ends in character data and white space in attribute values;
what comes out of a reference is left alone. Escaping is the way back.
-/

namespace Netconf.Xml

/-- A piece of raw text. -/
inductive Piece where
  /-- A character as it stands. -/
  | literal (c : Char)
  /-- The character a reference stands for. -/
  | reference (c : Char)
  deriving DecidableEq, Repr

/-- The character with the given number. A number that belongs to no character stands for the
replacement character, and the character has to be one of a document. -/
def charOfNumber? (n : Nat) : Option Char :=
  let c := if n.isValidChar then Char.ofNat n else '\ufffd'
  if isXmlChar c then some c else none

/-- The character meant by what stands between the ampersand and the semicolon of a reference. The
number of a character has 32 bits. -/
def referenced? : List Char → Option Char
  | '#' :: 'x' :: digits => (Text.digits? 16 UInt32.size Text.hexDigit? digits).bind charOfNumber?
  | '#' :: digits => (Text.digits? 10 UInt32.size Text.digit? digits).bind charOfNumber?
  | name =>
    match String.ofList name with
    | "amp" => some '&'
    | "lt" => some '<'
    | "gt" => some '>'
    | "quot" => some '\x22'
    | "apos" => some '\x27'
    | _ => none

/-- The pieces of raw text; `body` is the reversed beginning of a reference that is being read.
None if a reference is malformed, unknown or not ended. -/
def piecesFrom : (body : Option (List Char)) → List Char → Option (List Piece)
  | none, [] => some []
  | some _, [] => none
  | none, c :: rest =>
    if c = '&' then piecesFrom (some []) rest else (piecesFrom none rest).map (.literal c :: ·)
  | some body, c :: rest =>
    if c = ';' then do
      let target ← referenced? body.reverse
      return .reference target :: (← piecesFrom none rest)
    else piecesFrom (some (c :: body)) rest

/-- The pieces of raw text. -/
def pieces? (raw : List Char) : Option (List Piece) :=
  piecesFrom none raw

/-- Character data with its line ends normalised: a carriage return that stands in the document
becomes a line feed, and swallows a line feed that stands next to it. It stays only directly
before a reference, or as the last character directly after one. -/
def joinText (afterReference : Bool) : List Piece → List Char
  | [] => []
  | .reference c :: rest => c :: joinText true rest
  | .literal '\r' :: [] => [if afterReference then '\r' else '\n']
  | .literal '\r' :: .literal '\n' :: rest => '\n' :: joinText false rest
  | .literal '\r' :: .literal c :: rest => '\n' :: joinText false (.literal c :: rest)
  | .literal c :: rest => c :: joinText false rest

/-- An attribute value with its white space normalised: a line end, carriage return or tab that
stands in the document becomes a space. -/
def joinValue : List Piece → List Char
  | [] => []
  | .reference c :: rest => c :: joinValue rest
  | .literal '\r' :: .literal '\n' :: rest => ' ' :: joinValue rest
  | .literal c :: rest =>
    (if c = '\n' ∨ c = '\r' ∨ c = '\t' then ' ' else c) :: joinValue rest

/-- The characters that raw character data stands for. -/
def resolveText? (raw : List Char) : Option (List Char) :=
  (pieces? raw).map (joinText false)

/-- The characters of a section without references. -/
def resolveSection (raw : List Char) : List Char :=
  joinText false (raw.map .literal)

/-- The characters that a raw attribute value stands for. -/
def resolveValue? (raw : List Char) : Option (List Char) :=
  (pieces? raw).map joinValue

/-- How a character is written in character data. -/
def escapeTextChar (c : Char) : List Char :=
  if c = '&' then ['&', 'a', 'm', 'p', ';']
  else if c = '<' then ['&', 'l', 't', ';']
  else if c = '>' then ['&', 'g', 't', ';']
  else if c = '\r' then ['&', '#', '1', '3', ';']
  else [c]

/-- How a character is written in an attribute value in double quotes. -/
def escapeValueChar (c : Char) : List Char :=
  if c = '\x22' then ['&', 'q', 'u', 'o', 't', ';']
  else if c = '\n' then ['&', '#', '1', '0', ';']
  else if c = '\t' then ['&', '#', '9', ';']
  else escapeTextChar c

/-- Raw character data for the given characters. -/
def escapeText (cs : List Char) : List Char :=
  cs.flatMap escapeTextChar

/-- A raw attribute value for the given characters. -/
def escapeValue (cs : List Char) : List Char :=
  cs.flatMap escapeValueChar

end Netconf.Xml
