import Netconf.Distinct
import Netconf.Tree.Name

/-!
# Nodes

The payload tree: a named node with attributes is either a leaf, with or without text, or a
container of child nodes. Equality of nodes does not look at the order of attributes.
-/

namespace Netconf

/-- A named value on a node. -/
structure Attribute where
  name : QName
  value : String
  deriving DecidableEq, Repr, Inhabited

/-- A node of a payload tree. -/
inductive Node where
  /-- A node without children. -/
  | leaf (name : QName) (attributes : List Attribute) (text : Option String)
  /-- A node with children. -/
  | container (name : QName) (attributes : List Attribute) (children : List Node)
  deriving Repr, Inhabited

/-- Why given parts do not make a node. -/
inductive ShapeError where
  /-- The node, shown by its qualified name, would have both text and children. -/
  | mixedContent (node : String)
  /-- An attribute name occurs twice; node and attribute are shown by their local names. -/
  | duplicateAttribute (node attr : String)
  deriving DecidableEq, Repr

/-- The wording of a shape error. -/
def ShapeError.message : ShapeError → String
  | .mixedContent node => "node " ++ node ++ " has both text and children"
  | .duplicateAttribute node attr => "duplicate attribute " ++ attr ++ " on node " ++ node

namespace Node

/-- Qualified name of a node. -/
def name : Node → QName
  | leaf name _ _ => name
  | container name _ _ => name

/-- Attributes of a node in the order they were given. -/
def attributes : Node → List Attribute
  | leaf _ attributes _ => attributes
  | container _ attributes _ => attributes

/-- Children of a node, none for a leaf. -/
def children : Node → List Node
  | leaf _ _ _ => []
  | container _ _ children => children

/-- Text of a node, if it is a leaf that has text. -/
def text : Node → Option String
  | leaf _ _ text => text
  | container _ _ _ => none

/-- Local name of a node. -/
def localName (n : Node) : String :=
  n.name.localName

/-- Namespace URI of a node. -/
def uri (n : Node) : String :=
  n.name.uri

/-- Whether the node has no children. -/
def isLeaf : Node → Bool
  | leaf _ _ _ => true
  | container _ _ _ => false

/-- Whether the node has children. -/
def isContainer (n : Node) : Bool :=
  !n.isLeaf

/-- Whether the node has attributes. -/
def hasAttributes (n : Node) : Bool :=
  !n.attributes.isEmpty

/-- Value of the first attribute with the given local name, in whatever namespace. -/
def attribute? (n : Node) (localName : String) : Option String :=
  (n.attributes.find? (·.name.localName == localName)).map (·.value)

/-- First child with the given local name. -/
def child? (n : Node) (localName : String) : Option Node :=
  n.children.find? (·.localName == localName)

/-- The children with the given local name. -/
def childrenNamed (n : Node) (localName : String) : List Node :=
  n.children.filter (·.localName == localName)

/-- A text as leaf content: an empty one is the same as none. -/
def leafText (text : String) : Option String :=
  if text = "" then none else some text

/-- A leaf with the given text and no attributes. -/
def ofText (name : QName) (text : String) : Node :=
  leaf name [] (leafText text)

/-- A leaf with neither text nor attributes. -/
def empty (name : QName) : Node :=
  leaf name [] none

/-- The node with the given children, a leaf without text if there are none. -/
def ofChildren (name : QName) (attributes : List Attribute) : List Node → Node
  | [] => leaf name attributes none
  | child :: rest => container name attributes (child :: rest)

/-- The node made of the given parts. Attribute names have to be distinct, and a node has text or
children but not both; an empty text counts as none. -/
def build (name : QName) (attributes : List Attribute) (text : String) (children : List Node) :
    Except ShapeError Node :=
  match repeated? (attributes.map (·.name)) with
  | some again => .error (.duplicateAttribute name.localName again.localName)
  | none =>
    match leafText text, children with
    | some _, _ :: _ => .error (.mixedContent name.display)
    | text, [] => .ok (leaf name attributes text)
    | none, child :: rest => .ok (container name attributes (child :: rest))

/-- Whether two attribute lists have the same length and every attribute of the first is in the
second. For lists with distinct names this says that they hold the same attributes. -/
def sameAttributes (a b : List Attribute) : Bool :=
  a.length == b.length && a.all (b.contains ·)

mutual

/-- Whether two nodes agree in name, attributes, and text or children. -/
def same : Node → Node → Bool
  | leaf name attributes text, leaf name' attributes' text' =>
    name == name' && text == text' && sameAttributes attributes attributes'
  | container name attributes children, container name' attributes' children' =>
    name == name' && sameAll children children' && sameAttributes attributes attributes'
  | _, _ => false

/-- Whether two lists of nodes agree one by one. -/
def sameAll : List Node → List Node → Bool
  | [], [] => true
  | a :: as, b :: bs => same a b && sameAll as bs
  | _, _ => false

end

instance : BEq Node := ⟨same⟩

end Node

end Netconf
