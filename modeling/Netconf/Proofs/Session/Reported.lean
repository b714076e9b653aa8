import Netconf.Proofs.Session.Response

/-!
# What a reply says to the other side

An application builds the reply to a request, the peer reads it from its bytes. The peer gets what
was put in (`Reply.arrives_as_built`): the errors one by one, the data, or that all is well, with
the number and the attributes of the request. Errors come back as they are if the blank ends, which
a reader drops, are not there, and if no optional text is empty, as an empty text is none.
-/

namespace Netconf

namespace RpcError

/-- No text of the error has blank ends, and what is optional is not empty. -/
structure IsPlain (e : RpcError) : Prop where
  layer : Text.trim e.layer = e.layer
  tag : Text.trim e.tag = e.tag
  appTag : ∀ text ∈ e.appTag, text ≠ "" ∧ Text.trim text = text
  path : ∀ text ∈ e.path, text ≠ "" ∧ Text.trim text = text
  message : ∀ text ∈ e.message, text ≠ "" ∧ Text.trim text = text

/-! ## The elements of an error -/

/-- The elements with the given names and texts, where some have no text and are left out. -/
def entries (es : List (String × Option String)) : List Node :=
  es.flatMap fun e => (e.2.map (Operation.textElement e.1)).toList

/-- What the element of an error says, by name. -/
def fields (e : RpcError) : List (String × Option String) :=
  [("error-type", some e.layer), ("error-tag", some e.tag),
    ("error-severity", some e.severity.name), ("error-app-tag", e.appTag),
    ("error-path", e.path), ("error-message", e.message)]

/-- An error is written as the entries of its fields. -/
lemma toNode_eq (e : RpcError) : e.toNode = Operation.element "rpc-error" (entries e.fields) := by
  simp [toNode, entries, fields]

/-- Each entry has the name of one of the fields. -/
lemma localName_mem_of_entries {es : List (String × Option String)} {n : Node}
    (mem : n ∈ entries es) : n.localName ∈ es.map (·.1) := by
  obtain ⟨e, inside, here⟩ := List.mem_flatMap.mp mem
  obtain ⟨text, -, rfl⟩ := Option.map_eq_some_iff.mp (Option.mem_toList.mp here)
  exact List.mem_map_of_mem inside

/-- As the names are different, the first element of a name is the only one. -/
lemma find?_entries {es : List (String × Option String)} (distinct : (es.map (·.1)).Nodup)
    {name : String} {text : Option String} (mem : (name, text) ∈ es) :
    (entries es).find? (·.localName == name) = text.map (Operation.textElement name) := by
  have absent {es : List (String × Option String)} (fresh : name ∉ es.map (·.1)) :
      (entries es).find? (·.localName == name) = none :=
    List.find?_eq_none.mpr fun n mem named =>
      fresh (eq_of_beq named ▸ localName_mem_of_entries mem)
  induction es with
  | nil => cases mem
  | cons e es ih =>
    rw [List.map_cons, List.nodup_cons] at distinct
    have split : entries (e :: es) = entries [e] ++ entries es := by simp [entries]
    rw [split, List.find?_append]
    rcases List.mem_cons.mp mem with rfl | mem
    · rw [absent distinct.1, Option.or_none]
      cases text with
      | none => rfl
      | some text => exact List.find?_cons_of_pos (beq_self_eq_true name)
    · have other : name ∉ [e].map (·.1) := by
        rintro (_ | ⟨_, ⟨⟩⟩)
        exact distinct.1 (List.mem_map.mpr ⟨_, mem, rfl⟩)
      rw [absent other, Option.none_or, ih distinct.2 mem]

/-- Under a name the reader finds the text that was put in, trimmed, unless it was empty. -/
lemma field?_toNode {e : RpcError} {name : String} {text : Option String}
    (mem : (name, text) ∈ e.fields) :
    field? e.toNode name = (text.bind Node.leafText).map Text.trim := by
  have distinct : (e.fields.map (·.1)).Nodup :=
    (by decide : ["error-type", "error-tag", "error-severity", "error-app-tag", "error-path",
      "error-message"].Nodup)
  rw [field?, toNode_eq, Node.child?, Operation.element, Node.children_ofChildren,
    find?_entries distinct mem]
  cases text <;> rfl

/-! ## Reading an error back -/

/-- A text without blanks at its ends is read back, also where it is empty. -/
lemma getD_leafText {text : String} (trimmed : Text.trim text = text) :
    ((Node.leafText text).map Text.trim).getD "" = text := by
  rw [Node.leafText]
  split
  · next empty => exact empty.symm
  · exact trimmed

/-- A text that is neither empty nor blank at an end is read back if there is one. -/
lemma bind_leafText {text : Option String}
    (plain : ∀ t ∈ text, t ≠ "" ∧ Text.trim t = t) :
    (text.bind Node.leafText).map Text.trim = text := by
  cases text with
  | none => rfl
  | some text =>
    obtain ⟨nonempty, trimmed⟩ := plain text rfl
    rw [Option.bind_some, Node.leafText, if_neg nonempty, Option.map_some, trimmed]

/-- A severity is read back from its name. -/
lemma ofName_name (severity : Severity) :
    (if some severity.name = some "warning" then Severity.warning else .error) = severity := by
  cases severity <;> decide

/-- An error comes back from its element. -/
lemma ofNode_toNode {e : RpcError} (plain : e.IsPlain) : ofNode e.toNode = e := by
  have layer : field? e.toNode "error-type" = _ := field?_toNode (.head _)
  have tag : field? e.toNode "error-tag" = _ := field?_toNode (.tail _ (.head _))
  have severity : field? e.toNode "error-severity" = some e.severity.name := by
    refine (field?_toNode (.tail _ (.tail _ (.head _)))).trans ?_
    cases e.severity <;> decide
  have appTag : field? e.toNode "error-app-tag" = e.appTag :=
    (field?_toNode (by simp [fields])).trans (bind_leafText plain.appTag)
  have path : field? e.toNode "error-path" = e.path :=
    (field?_toNode (by simp [fields])).trans (bind_leafText plain.path)
  have message : field? e.toNode "error-message" = e.message :=
    (field?_toNode (by simp [fields])).trans (bind_leafText plain.message)
  rw [ofNode, layer, tag, severity, appTag, path, message, Option.bind_some, Option.bind_some,
    getD_leafText plain.layer, getD_leafText plain.tag, ofName_name]

end RpcError

/-! ## Replies -/

namespace Reply

/-- The peer reads the node from its bytes and gets the reply. -/
def Arrives (n : Node) (r : Reply) : Prop :=
  ∃ m, Node.decode? n.encode = .ok m ∧ ofNode m = .ok r

/-- The reply has the number and the attributes of the request. -/
structure Answers (request : Node) (r : Reply) : Prop where
  messageId : r.messageId? = request.messageId?
  attributes : r.node.attributes = request.attributes

section

variable {request : Node} {nodes : List Node}

/-- What is built is understood as a reply. -/
lemma ofNode_build : ofNode (build request nodes) = .ok ⟨build request nodes⟩ := by
  have kind : (build request nodes).messageKind = .rpcReply := by
    rw [build, Node.messageKind]
    simp only [Node.isNamed, Node.localName, Node.uri, Node.name_ofChildren]
    decide
  rw [ofNode, if_pos kind]

/-- What is built answers its request. -/
lemma answers_build : Answers request ⟨build request nodes⟩ where
  messageId := Response.messageId?_build (.content nodes) request
  attributes := by rw [build, Node.attributes_ofChildren]

/-- A reply holds the nodes with which it is built. -/
lemma children_build (some : nodes ≠ []) : (build request nodes).children = nodes := by
  rw [build, Node.children_ofChildren, if_neg (by simpa using some)]

/-- The peer gets the reply as it was built. -/
lemma arrives_build (kept : request.Everywhere Node.Kept)
    (below : ∀ n ∈ nodes, n.Everywhere Node.Kept) :
    Arrives (build request nodes) ⟨build request nodes⟩ :=
  ⟨_, Node.decode?_of_kept (Response.kept_replyBuild kept below), ofNode_build⟩

end

variable {request : Node} {errors : List RpcError} {data : List Node}

/-- The errors with which a reply is built are read back. -/
lemma errors_buildErrors (some : errors ≠ []) (plain : ∀ e ∈ errors, e.IsPlain) :
    Reply.errors ⟨buildErrors request errors⟩ = errors := by
  have named : ∀ n ∈ errors.map (·.toNode), (n.localName == "rpc-error") = true := by
    refine List.forall_mem_map.mpr fun e _ => ?_
    rw [RpcError.toNode_eq, Operation.element, Node.localName, Node.name_ofChildren]
    rfl
  have filled : errors.map (·.toNode) ≠ [] := by simpa using some
  rw [Reply.errors, buildErrors, Node.childrenNamed, children_build filled,
    List.filter_eq_self.mpr named, List.map_map]
  exact (List.map_congr_left fun e mem => RpcError.ofNode_toNode (plain e mem)).trans
    (List.map_id errors)

/-- What an application answers to a request comes to the peer from the bytes of the reply: just the
errors that were reported, in their order, or an element with just the data that was asked for, or
that all is well, and nothing else besides. -/
theorem arrives_as_built (shaped : request.WellShaped) (writable : request.Writable)
    (some : errors ≠ []) (plain : ∀ e ∈ errors, e.IsXml ∧ e.IsPlain)
    (below : ∀ n ∈ data, n.WellShaped ∧ n.Writable) :
    (∃ r, Arrives (buildErrors request errors) r ∧ r.errors = errors ∧
      (r.hasErrors = true ↔ ∃ e ∈ errors, e.severity = .error) ∧ r.Answers request) ∧
    (∃ r element, Arrives (buildData request data) r ∧ r.data? = .some element ∧
      element.children = data ∧ r.errors = [] ∧ r.isOk = false ∧ r.Answers request) ∧
    ∃ r, Arrives (build request []) r ∧ r.isOk = true ∧ r.errors = [] ∧ r.data? = none ∧
      r.Answers request := by
  have kept := shaped.and writable
  have texts : ∀ n ∈ errors.map (·.toNode), n.Everywhere Node.Kept :=
    List.forall_mem_map.mpr fun e mem => RpcError.kept_toNode (plain e mem).1
  have held : ∀ n ∈ data, n.Everywhere Node.Kept :=
    fun n mem => (below n mem).1.and (below n mem).2
  have element : (Operation.element "data" data).Everywhere Node.Kept :=
    Node.kept_element (by decide) isDeclarable_baseUri held
  have named : (Operation.element "data" data).localName = "data" :=
    congrArg QName.localName Node.name_ofChildren
  refine ⟨⟨_, arrives_build kept texts, ?_, ?_, answers_build⟩,
    ⟨_, Operation.element "data" data, arrives_build kept (List.forall_mem_singleton.mpr element),
      ?_, Node.children_ofChildren, ?_, ?_, answers_build⟩,
    ⟨_, arrives_build kept (List.forall_mem_nil _), rfl, rfl, rfl, answers_build⟩⟩
  · exact errors_buildErrors some fun e mem => (plain e mem).2
  · have all : Reply.errors ⟨buildErrors request errors⟩ = errors :=
      errors_buildErrors some fun e mem => (plain e mem).2
    change List.any (Reply.errors ⟨buildErrors request errors⟩) _ = true ↔ _
    simp [all]
  · simp [data?, Node.child?, children_build, named]
  · simp [Reply.errors, Node.childrenNamed, children_build, named]
  · simp [isOk, Node.child?, children_build, named]

/-- A request with an attribute of its own in a namespace, before its number. -/
def noted : Node :=
  .container ⟨baseUri, "rpc"⟩ [⟨⟨"urn:notes", "note"⟩, "a<b"⟩, ⟨.unqualified "message-id", "17"⟩]
    [.leaf ⟨baseUri, "get"⟩ [] none]

/-- An error with all that is optional but one, and a warning without a type. -/
def mishaps : List RpcError :=
  [⟨"protocol", "in-use", .error, none, some "/top/a", some "held by <4> & not free"⟩,
    ⟨"", "partial", .warning, some "late", none, none⟩]

/-- Mishaps, data and success arrive as they were built for a request with a note. -/
theorem arrives_as_built_mishaps :
    noted.WellShaped ∧ noted.Writable ∧ mishaps ≠ [] ∧ (∀ e ∈ mishaps, e.IsXml ∧ e.IsPlain) ∧
      (∀ n ∈ [Node.leaf ⟨"urn:a", "a"⟩ [] (some " 1 ")], n.WellShaped ∧ n.Writable) ∧
      (∃ r, Arrives (buildErrors noted mishaps) r ∧ r.errors = mishaps ∧ r.hasErrors = true ∧
        r.messageId? = some "17") ∧
      (∃ r element, Arrives (buildData noted [.leaf ⟨"urn:a", "a"⟩ [] (some " 1 ")]) r ∧
        r.data? = some element ∧ element.children = [.leaf ⟨"urn:a", "a"⟩ [] (some " 1 ")]) ∧
      ∃ r, Arrives (build noted []) r ∧ r.isOk = true := by
  have shaped : noted.WellShaped :=
    .intro (by decide) (List.forall_mem_singleton.mpr (.leaf (by decide)))
  have writable : noted.Writable :=
    .intro (by decide) (List.forall_mem_singleton.mpr (.leaf (by decide)))
  have plain : ∀ e ∈ mishaps, e.IsXml ∧ e.IsPlain := by
    refine List.forall_mem_cons.mpr ⟨?_, List.forall_mem_singleton.mpr ?_⟩
    · exact ⟨⟨by decide, by decide, by decide, by decide, by decide⟩,
        ⟨by decide, by decide, by decide, by decide, by decide⟩⟩
    · exact ⟨⟨by decide, by decide, by decide, by decide, by decide⟩,
        ⟨by decide, by decide, by decide, by decide, by decide⟩⟩
  have below : ∀ n ∈ [Node.leaf ⟨"urn:a", "a"⟩ [] (some " 1 ")], n.WellShaped ∧ n.Writable :=
    List.forall_mem_singleton.mpr ⟨.leaf (by decide), .leaf (by decide)⟩
  have some : mishaps ≠ [] := List.cons_ne_nil _ _
  obtain ⟨⟨r, arrives, all, severe, answers⟩, ⟨r', element, arrives', data, inside, -⟩,
    ⟨r'', arrives'', ok, -⟩⟩ := arrives_as_built shaped writable some plain below
  refine ⟨shaped, writable, some, plain, below, ⟨r, arrives, all, ?_, answers.messageId.trans rfl⟩,
    ⟨r', element, arrives', data, inside⟩, ⟨r'', arrives'', ok⟩⟩
  exact severe.mpr ⟨_, List.mem_cons_self, rfl⟩

end Reply

end Netconf
