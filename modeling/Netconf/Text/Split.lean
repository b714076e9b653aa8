/-!
# Cutting a text at a character
-/

namespace Netconf.Text

/-- The pieces of a text between the occurrences of a separator; always at least one. -/
def splitOn (separator : Char) : List Char → List (List Char)
  | [] => [[]]
  | c :: cs =>
    if c = separator then [] :: splitOn separator cs
    else
      match splitOn separator cs with
      | [] => [[c]]
      | piece :: pieces => (c :: piece) :: pieces

/-- What stands before the first occurrence of a separator, all of the text without one. -/
def upTo (separator : Char) (cs : List Char) : List Char :=
  cs.takeWhile (· != separator)

/-- What follows the first occurrence of a separator, nothing without one. -/
def after (separator : Char) (cs : List Char) : List Char :=
  (cs.dropWhile (· != separator)).drop 1

end Netconf.Text
