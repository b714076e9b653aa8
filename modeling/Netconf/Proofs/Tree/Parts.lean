import Netconf.Proofs.Tree.RoundTrip

/-!
# Nodes made of parts

The parts of nodes that were put together, and when a document can hold such nodes: the envelopes
and elements of the protocol bring nothing that it could not hold.
-/

namespace Netconf

open Xml

/-- The base namespace can be declared. -/
lemma isDeclarable_baseUri : IsDeclarable baseUri := by
  decide

/-- The namespace of notifications can be declared. -/
lemma isDeclarable_notificationUri : IsDeclarable notificationUri := by
  decide

/-- An attribute without a namespace can be held if its value can. -/
lemma Attribute.IsWritable.unqualified {name value : String} (isName : IsName name.toList)
    (ne : name ≠ "xmlns") (chars : IsXmlText value) :
    (Attribute.mk (.unqualified name) value).IsWritable where
  name := isName
  ne_xmlns := ne
  uri := (by decide : IsXmlText "")
  uri_ne := fun eq => absurd eq (by decide : "" ≠ xmlnsUri)
  value := chars

namespace Node

section

variable {name : QName} {attributes : List Attribute} {text : String} {children : List Node}

/-- A node of children has the name that is given. -/
lemma name_ofChildren : (ofChildren name attributes children).name = name := by
  cases children <;> rfl

/-- A node of children has the attributes that are given. -/
lemma attributes_ofChildren : (ofChildren name attributes children).attributes = attributes := by
  cases children <;> rfl

/-- A node of children has no text. -/
lemma text_ofChildren : (ofChildren name attributes children).text = none := by
  cases children <;> rfl

/-- A node of children has the children that are given. -/
lemma children_ofChildren : (ofChildren name attributes children).children = children := by
  cases children <;> rfl

/-- A node can be built of children if its attributes have different names. -/
lemma build_ofChildren (distinct : (attributes.map (·.name)).Nodup) :
    build name attributes "" children = .ok (ofChildren name attributes children) := by
  cases children with
  | nil => exact build_leaf distinct
  | cons child rest => exact build_container distinct (List.cons_ne_nil _ _)

/-- A document can hold a leaf with a name that is one, a namespace that can be declared, and a text
of its characters. -/
lemma kept_ofText (isName : IsName name.localName.toList) (uri : IsDeclarable name.uri)
    (chars : IsXmlText text) : (ofText name text).Everywhere Kept :=
  kept_of_build (build_leaf .nil) isName uri (List.forall_mem_nil _) chars (List.forall_mem_nil _)

/-- A document can hold an element if it can hold its name, its attributes and its children. -/
lemma kept_ofChildren (isName : IsName name.localName.toList) (uri : IsDeclarable name.uri)
    (distinct : (attributes.map (·.name)).Nodup) (writable : ∀ a ∈ attributes, a.IsWritable)
    (below : ∀ child ∈ children, child.Everywhere Kept) :
    (ofChildren name attributes children).Everywhere Kept :=
  kept_of_build (build_ofChildren distinct) isName uri writable (List.forall_mem_nil _) below

/-- An element without attributes can be held if its children can. -/
lemma kept_element (isName : IsName name.localName.toList) (uri : IsDeclarable name.uri)
    (below : ∀ child ∈ children, child.Everywhere Kept) :
    (ofChildren name [] children).Everywhere Kept :=
  kept_ofChildren isName uri .nil (List.forall_mem_nil _) below

end

/-- A request can be held if its identifier and its operation can. -/
lemma kept_rpc {id : String} {operation : Node} (chars : IsXmlText id)
    (kept : operation.Everywhere Kept) : (rpc id operation).Everywhere Kept := by
  have writable : (Attribute.mk (.unqualified "message-id") id).IsWritable :=
    .unqualified (by decide) (by decide) chars
  have distinct : ([Attribute.mk (.unqualified "message-id") id].map (·.name)).Nodup :=
    List.nodup_singleton _
  exact kept_of_build (build_container distinct (List.cons_ne_nil _ _)) (by decide)
    isDeclarable_baseUri (List.forall_mem_singleton.mpr writable) (List.forall_mem_nil _)
    (List.forall_mem_singleton.mpr kept)

end Node

end Netconf
