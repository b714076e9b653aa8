import Netconf.Proofs.Tree.Parts
import Netconf.Reply

/-!
# Replies that an application builds

Whatever an application answers to a request, the reply has the number of the request
(`Response.messageId?_build`), and a document can hold it if it can hold the request and what the
application puts in (`Response.kept_build`).
-/

namespace Netconf

open Xml

/-- What an application answers to a request. -/
inductive Response where
  | content (nodes : List Node)
  | data (nodes : List Node)
  | errors (errors : List RpcError)

/-! ## Errors -/

namespace RpcError

/-- A document can hold the texts of the error. -/
structure IsXml (e : RpcError) : Prop where
  layer : IsXmlText e.layer
  tag : IsXmlText e.tag
  appTag : ∀ text ∈ e.appTag, IsXmlText text
  path : ∀ text ∈ e.path, IsXmlText text
  message : ∀ text ∈ e.message, IsXmlText text

/-- The name of a severity can stand in a document. -/
lemma isXmlText_severity (severity : Severity) : IsXmlText severity.name := by
  cases severity <;> decide

/-- An element with a text can stand in a document if its name is one and its text can. -/
lemma kept_textElement {name text : String} (isName : IsName name.toList) (chars : IsXmlText text) :
    (Operation.textElement name text).Everywhere Node.Kept :=
  Node.kept_ofText isName isDeclarable_baseUri chars

/-- The element of an optional text can stand in a document if its name is one and the text can. -/
lemma kept_optional {name : String} {text : Option String} (isName : IsName name.toList)
    (chars : ∀ t ∈ text, IsXmlText t) :
    ∀ n ∈ (text.map (Operation.textElement name)).toList, n.Everywhere Node.Kept := by
  cases text with
  | none => exact List.forall_mem_nil _
  | some text => exact List.forall_mem_singleton.mpr (kept_textElement isName (chars text rfl))

/-- An error can stand in a document if its texts can. -/
lemma kept_toNode {e : RpcError} (xml : e.IsXml) : e.toNode.Everywhere Node.Kept := by
  rw [toNode, Operation.element]
  refine Node.kept_element (by decide) isDeclarable_baseUri ?_
  iterate 3 rw [List.forall_mem_append]
  refine ⟨⟨⟨?_, ?_⟩, ?_⟩, ?_⟩
  · refine List.forall_mem_cons.mpr ⟨kept_textElement (by decide) xml.layer, ?_⟩
    refine List.forall_mem_cons.mpr ⟨kept_textElement (by decide) xml.tag, ?_⟩
    exact List.forall_mem_singleton.mpr
      (kept_textElement (by decide) (isXmlText_severity e.severity))
  · exact kept_optional (by decide) xml.appTag
  · exact kept_optional (by decide) xml.path
  · exact kept_optional (by decide) xml.message

end RpcError

/-! ## Replies -/

namespace Response

/-- The reply to a request. -/
def build (request : Node) : Response → Node
  | content nodes => Reply.build request nodes
  | data nodes => Reply.buildData request nodes
  | errors reported => Reply.buildErrors request reported

/-- A document can hold what the application puts in. -/
inductive IsXml : Response → Prop where
  | content {nodes} :
    (∀ n ∈ nodes, n.Everywhere Node.Kept) → IsXml (.content nodes)
  | data {nodes} :
    (∀ n ∈ nodes, n.Everywhere Node.Kept) → IsXml (.data nodes)
  | errors {errors : List RpcError} :
    (∀ e ∈ errors, e.IsXml) → IsXml (.errors errors)

section

variable {request : Node}

/-- Every response is built as a reply that holds some nodes. -/
lemma build_eq (response : Response) (request : Node) :
    ∃ nodes, response.build request = Reply.build request nodes := by
  cases response with
  | content nodes => exact ⟨nodes, rfl⟩
  | data nodes => exact ⟨[Operation.element "data" nodes], rfl⟩
  | errors reported => exact ⟨reported.map (·.toNode), rfl⟩

/-- A response has the number of its request. -/
lemma messageId?_build (response : Response) (request : Node) :
    (response.build request).messageId? = request.messageId? := by
  obtain ⟨nodes, eq⟩ := response.build_eq request
  rw [eq, Node.messageId?, Node.attribute?, Reply.build, Node.attributes_ofChildren]
  rfl

/-- A reply can stand in a document if its request and what it holds can. -/
lemma kept_replyBuild (kept : request.Everywhere Node.Kept) {nodes : List Node}
    (below : ∀ n ∈ nodes, n.Everywhere Node.Kept) :
    (Reply.build request nodes).Everywhere Node.Kept := by
  obtain ⟨shaped, writable⟩ := kept.here
  refine Node.kept_ofChildren (by decide) isDeclarable_baseUri shaped.distinct
    writable.attributes ?_
  split
  · refine List.forall_mem_singleton.mpr ?_
    exact Node.kept_element (by decide) isDeclarable_baseUri (List.forall_mem_nil _)
  · exact below

/-- A response can stand in a document if its request and what it says can. -/
lemma kept_build {response : Response} (kept : request.Everywhere Node.Kept)
    (xml : response.IsXml) : (response.build request).Everywhere Node.Kept := by
  cases xml with
  | content below => exact kept_replyBuild kept below
  | data below =>
    refine kept_replyBuild kept (List.forall_mem_singleton.mpr ?_)
    exact Node.kept_element (by decide) isDeclarable_baseUri below
  | errors xml =>
    refine kept_replyBuild kept (List.forall_mem_map.mpr ?_)
    exact fun e mem => RpcError.kept_toNode (xml e mem)

end

end Response

end Netconf
