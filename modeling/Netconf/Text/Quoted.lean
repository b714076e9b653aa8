import Netconf.Text.Unprintable

/-!
# Quoted text

The form in which a diagnostic shows a text: in double quotes, with an escape for the quote, the
backslash, the usual control characters and every character that does not print.
-/

namespace Netconf.Text

/-- A code point in lower case hexadecimal without leading zeros. -/
def hex (n : Nat) : List Char :=
  Nat.toDigits 16 n

/-- How a character stands inside the quotes. -/
def quoteChar (c : Char) : List Char :=
  if c = '\x22' ∨ c = '\\' then ['\\', c]
  else if c = '\t' then ['\\', 't']
  else if c = '\r' then ['\\', 'r']
  else if c = '\n' then ['\\', 'n']
  else if c = '\x00' then ['\\', '0']
  else if isUnprintable c then ['\\', 'u', '\x7b'] ++ hex c.toNat ++ ['\x7d']
  else [c]

/-- A text in quotes. -/
def quoted (s : String) : String :=
  .ofList ('\x22' :: s.toList.flatMap quoteChar ++ ['\x22'])

/-- An optional text as `Some(..)` around the quoted text, or `None`. -/
def quotedOption : Option String → String
  | none => "None"
  | some s => "Some(" ++ quoted s ++ ")"

end Netconf.Text
