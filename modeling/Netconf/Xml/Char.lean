/-!
# Character classes of XML

The characters a document may hold, its white space, and the characters of names. The name classes
are those of the fifth edition of XML 1.0.
-/

namespace Netconf.Xml

/-- A character that may stand in a document. -/
def isXmlChar (c : Char) : Bool :=
  let n := c.toNat
  if n < 0x20 then n == 0x9 || n == 0xa || n == 0xd else n != 0xfffe && n != 0xffff

/-- White space between the parts of a tag. -/
def isSpace (c : Char) : Bool :=
  c == ' ' || c == '\t' || c == '\n' || c == '\r'

/-- Ranges above ASCII of the characters that may begin a name. -/
def nameStartRanges : List (Nat × Nat) :=
  [(0xc0, 0xd6), (0xd8, 0xf6), (0xf8, 0x2ff), (0x370, 0x37d), (0x37f, 0x1fff), (0x200c, 0x200d),
    (0x2070, 0x218f), (0x2c00, 0x2fef), (0x3001, 0xd7ff), (0xf900, 0xfdcf), (0xfdf0, 0xfffd),
    (0x10000, 0xeffff)]

/-- Ranges above ASCII of the characters that may continue a name but not begin it. -/
def nameRestRanges : List (Nat × Nat) :=
  [(0xb7, 0xb7), (0x300, 0x36f), (0x203f, 0x2040)]

/-- Whether a code point lies in one of the ranges. -/
def inRanges (ranges : List (Nat × Nat)) (n : Nat) : Bool :=
  ranges.any fun (first, last) => first ≤ n && n ≤ last

/-- A character that may begin a name. The colon is one of them. -/
def isNameStart (c : Char) : Bool :=
  c.isAlpha || c == ':' || c == '_' || inRanges nameStartRanges c.toNat

/-- A character that may stand in a name. -/
def isNameChar (c : Char) : Bool :=
  isNameStart c || c.isDigit || c == '-' || c == '.' || inRanges nameRestRanges c.toNat

/-- The namespace to which `xml` is bound in every document. -/
def xmlUri : String :=
  "http://www.w3.org/XML/1998/namespace"

/-- The namespace of namespace declarations, which no document may declare. -/
def xmlnsUri : String :=
  "http://www.w3.org/2000/xmlns/"

end Netconf.Xml
