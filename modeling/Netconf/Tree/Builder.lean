import Netconf.Tree.Node

/-!
# Building nodes

A builder is given the parts of a node one after the other, and whether they make a node is seen at
the end. A node that is there can be copied with other children or attributes, which is not checked.
-/

namespace Netconf

/-- The parts of a node so far. -/
structure Builder where
  name : QName
  attributes : List Attribute
  children : List Node
  text : Option String

namespace Builder

/-- A name and no other parts. -/
def new (name : QName) : Builder :=
  ⟨name, [], [], none⟩

/-- Puts the node in a namespace. -/
def setUri (b : Builder) (uri : String) : Builder :=
  { b with name := ⟨uri, b.name.localName⟩ }

def addAttribute (b : Builder) (name : QName) (value : String) : Builder :=
  { b with attributes := b.attributes ++ [⟨name, value⟩] }

def addChild (b : Builder) (child : Node) : Builder :=
  { b with children := b.children ++ [child] }

def addChildren (b : Builder) (children : List Node) : Builder :=
  { b with children := b.children ++ children }

/-- Sets the text, or takes it back if it is empty. -/
def setText (b : Builder) (text : String) : Builder :=
  { b with text := Node.leafText text }

/-- The node of these parts. -/
def build (b : Builder) : Except ShapeError Node :=
  Node.build b.name b.attributes (b.text.getD "") b.children

end Builder

namespace Node

/-- The node with other children. -/
def withChildren (n : Node) (children : List Node) : Node :=
  .ofChildren n.name n.attributes children

/-- The node with the attributes of another one. -/
def withAttributesOf (n other : Node) : Node :=
  match n with
  | leaf name _ text => leaf name other.attributes text
  | container name _ children => container name other.attributes children

/-- Attributes with another value for one without a namespace, which is added if it is not there. -/
def setAttribute (localName value : String) : List Attribute → List Attribute
  | [] => [⟨.unqualified localName, value⟩]
  | a :: rest =>
    if !a.name.isQualified && a.name.localName == localName then ⟨a.name, value⟩ :: rest
    else a :: setAttribute localName value rest

/-- The node with another value of an attribute without a namespace. -/
def withAttribute (n : Node) (localName value : String) : Node :=
  match n with
  | leaf name attributes text => leaf name (setAttribute localName value attributes) text
  | container name attributes children =>
    container name (setAttribute localName value attributes) children

end Node

end Netconf
