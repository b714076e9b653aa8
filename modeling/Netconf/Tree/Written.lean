import Netconf.Text.Blank
import Netconf.Text.Utf8
import Netconf.Tree.Node
import Netconf.Xml.Element

/-!
# The written form of nodes

A node is written as an element. It declares its namespace as the default one where that differs
from its parent's, and gives the namespaces of its attributes the prefixes `a0`, `a1` and so on.
A document is read back through its elements: comments, processing instructions and the white
space beside child elements are dropped, and text beside child elements is refused.
-/

namespace Netconf

/-- Why a payload is no node. -/
inductive PayloadError where
  | notUtf8 (defect : Utf8.Defect)
  /-- The text is not a well-formed document with namespaces. -/
  | notWellFormed
  /-- An element, given by its local name, has text beside child elements. -/
  | mixedContent (element : String)
  | shape (error : ShapeError)
  deriving DecidableEq, Repr

/-- The wording of a payload error. -/
def PayloadError.message : PayloadError → String
  | notUtf8 defect => "payload is not UTF-8: " ++ defect.message
  | notWellFormed => "the document is not well-formed"
  | mixedContent element => "element <" ++ element ++ "> mixes text and child elements"
  | shape error => error.message

namespace Node

open Xml

/-! ## Writing -/

/-- A name without a prefix. -/
def bareTag (name : String) : TagName :=
  ⟨[], name.toList⟩

/-- The generated prefix with the given number. -/
def generated (n : Nat) : List Char :=
  'a' :: (toString n).toList

/-- The namespaces of attributes for which an element declares prefixes, in the order of their
first use. -/
def attributeSpaces (attributes : List Attribute) : List String :=
  ((attributes.map (·.name.uri)).filter fun uri => uri != "" && uri != xmlUri).eraseDups

/-- The name under which an attribute is written when prefixes are declared for `spaces`. -/
def attributeTag (spaces : List String) (name : QName) : TagName :=
  let qualifier :=
    if name.uri = xmlUri then xmlWord
    else if name.uri ∈ spaces then generated (spaces.idxOf name.uri)
    else []
  ⟨qualifier, name.localName.toList⟩

/-- An attribute with the given value, escaped. -/
def rawAttribute (tag : TagName) (value : String) : RawAttribute :=
  ⟨tag, escapeValue value.toList⟩

/-- The namespace declarations and attributes in the start tag of a node whose parent is in the
namespace `inherited`. -/
def tagAttributes (inherited : String) (name : QName) (attributes : List Attribute) :
    List RawAttribute :=
  let spaces := attributeSpaces attributes
  (if name.uri = inherited then [] else [rawAttribute (bareTag "xmlns") name.uri]) ++
    spaces.mapIdx (fun i uri => rawAttribute ⟨xmlnsWord, generated i⟩ uri) ++
    attributes.map fun a => rawAttribute (attributeTag spaces a.name) a.value

mutual

/-- The tokens of a node whose parent is in the namespace `inherited`, before those in `rest`. -/
def tokensOnto (inherited : String) (n : Node) (rest : List Token) : List Token :=
  match n with
  | leaf name attributes none =>
    .start (bareTag name.localName) (tagAttributes inherited name attributes) true :: rest
  | leaf name attributes (some text) =>
    .start (bareTag name.localName) (tagAttributes inherited name attributes) false ::
      .text (escapeText text.toList) :: .stop (bareTag name.localName) :: rest
  | container name attributes children =>
    .start (bareTag name.localName) (tagAttributes inherited name attributes) false ::
      tokensAllOnto name.uri children (.stop (bareTag name.localName) :: rest)

/-- The tokens of several nodes in a row, before those in `rest`. -/
def tokensAllOnto (inherited : String) (ns : List Node) (rest : List Token) : List Token :=
  match ns with
  | [] => rest
  | n :: ns => tokensOnto inherited n (tokensAllOnto inherited ns rest)

end

/-- The tokens of a node whose parent is in the namespace `inherited`. -/
def tokens (inherited : String) (n : Node) : List Token :=
  tokensOnto inherited n []

/-- The tokens of several nodes in a row. -/
def tokensAll (inherited : String) (ns : List Node) : List Token :=
  tokensAllOnto inherited ns []

mutual

/-- Putting the tokens of a node before others is appending these to them. -/
theorem tokensOnto_eq (inherited : String) (n : Node) (rest : List Token) :
    tokensOnto inherited n rest = tokens inherited n ++ rest := by
  match n with
  | leaf name attributes none => simp [tokens, tokensOnto]
  | leaf name attributes (some text) => simp [tokens, tokensOnto]
  | container name attributes children =>
    simp only [tokens, tokensOnto]
    rw [tokensAllOnto_eq, tokensAllOnto_eq name.uri children [_]]
    simp

/-- Putting the tokens of some nodes before others is appending these to them. -/
theorem tokensAllOnto_eq (inherited : String) (ns : List Node) (rest : List Token) :
    tokensAllOnto inherited ns rest = tokensAll inherited ns ++ rest := by
  match ns with
  | [] => simp [tokensAll, tokensAllOnto]
  | n :: ns =>
    simp only [tokensAll, tokensAllOnto]
    rw [tokensOnto_eq, tokensAllOnto_eq, tokensOnto_eq inherited n (tokensAllOnto _ ns [])]
    simp [tokensAll]

end

/-- A container is written as its start tag, its children and its end tag. -/
theorem tokens_container (inherited : String) (name : QName) (attributes : List Attribute)
    (children : List Node) :
    tokens inherited (container name attributes children) =
      .start (bareTag name.localName) (tagAttributes inherited name attributes) false ::
        (tokensAll name.uri children ++ [.stop (bareTag name.localName)]) := by
  rw [tokens, tokensOnto, tokensAllOnto_eq]

/-- Nodes are written one after the other. -/
theorem tokensAll_cons (inherited : String) (n : Node) (ns : List Node) :
    tokensAll inherited (n :: ns) = tokens inherited n ++ tokensAll inherited ns := by
  rw [tokensAll, tokensAllOnto, tokensOnto_eq]
  rfl

/-- The characters of the written form. -/
def renderChars (n : Node) : List Char :=
  (tokens "" n).flatMap Token.render

/-- The written form of a node. -/
def render (n : Node) : String :=
  .ofList n.renderChars

/-- The bytes of the written form. -/
def encode (n : Node) : Bytes :=
  Utf8.encodeChars n.renderChars

/-! ## Reading -/

/-- The text of a piece of content that is text. -/
def textOf? : Content → Option String
  | .text value => some value
  | .element .. => none

/-- The text between the tags of an element, its child elements left out. -/
def contentText (content : List Content) : String :=
  .join (content.filterMap textOf?)

/-- A name of a document as a name of a node, where no namespace and the empty one are the same. -/
def nameOf (name : ExpandedName) : QName :=
  ⟨name.uri.getD "", name.localName⟩

/-- The node of an element, given its text and the nodes of its child elements. Blank text beside
child elements is dropped. -/
def assemble (name : ExpandedName) (attributes : List ExpandedAttribute) (text : String)
    (children : List Node) : Except PayloadError Node :=
  let attributes := attributes.map fun a => Attribute.mk (nameOf a.name) a.value
  if children.isEmpty then
    (build (nameOf name) attributes text []).mapError .shape
  else if Text.trim text = "" then
    (build (nameOf name) attributes "" children).mapError .shape
  else
    .error (.mixedContent name.localName)

/-- The nodes of the child elements among the content of an element. -/
def ofContent? : List Content → Except PayloadError (List Node)
  | [] => .ok []
  | .text _ :: rest => ofContent? rest
  | .element name attributes content :: rest => do
    let node ← assemble name attributes (contentText content) (← ofContent? content)
    return node :: (← ofContent? rest)

/-- The node of an element. -/
def ofElement? (e : Element) : Except PayloadError Node := do
  assemble e.name e.attributes (contentText e.content) (← ofContent? e.content)

/-- The node that a document of the given characters stands for. -/
def parseChars? (document : List Char) : Except PayloadError Node :=
  match Element.ofDocument? document with
  | some e => ofElement? e
  | none => .error .notWellFormed

/-- The node that a document stands for. -/
def parse? (document : String) : Except PayloadError Node :=
  parseChars? document.toList

/-- The node that a payload stands for. -/
def decode? (payload : Bytes) : Except PayloadError Node :=
  match Utf8.decodeChars payload with
  | .ok document => parseChars? document
  | .error defect => .error (.notUtf8 defect)

end Node

end Netconf
