/-!
# Blank characters

White space in the sense of the Unicode property `White_Space`, and the trimming of a text at
both ends. The zero width space and the byte order mark are not in the class.
-/

namespace Netconf.Text

/-- The characters with the Unicode property `White_Space`. -/
def isBlank (c : Char) : Bool :=
  let n := c.toNat
  (0x09 ≤ n && n ≤ 0x0d) || n == 0x20 || n == 0x85 || n == 0xa0 || n == 0x1680 ||
    (0x2000 ≤ n && n ≤ 0x200a) || n == 0x2028 || n == 0x2029 || n == 0x202f || n == 0x205f ||
    n == 0x3000

/-- The characters of a text between its first and its last character that is not blank. -/
def trimChars (cs : List Char) : List Char :=
  ((cs.dropWhile isBlank).reverse.dropWhile isBlank).reverse

/-- A text without the blank characters at its two ends. -/
def trim (s : String) : String :=
  .ofList (trimChars s.toList)

/-- A text is blank if it has blank characters only. -/
def allBlank (s : String) : Bool :=
  s.toList.all isBlank

end Netconf.Text
