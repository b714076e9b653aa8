import Netconf.Proofs.Filter.Idempotent
import Netconf.Proofs.Tree.Parts
import Netconf.Proofs.Tree.Recoding
import Netconf.Reply
import Netconf.Tree.Builder

/-!
# Nodes that can be made

Nodes come from builders, from documents, from the functions that put together requests, replies and
hellos, and from filters; each of these takes nodes that were made before. Only builders check their
parts. The others keep what was checked, so all nodes are well shaped, whatever they were made of
(`made_wellShaped`).
-/

namespace Netconf

/-- What holds of an element for anything that may be there holds of the elements that are. -/
lemma forall_mem_map_toList {α : Type} {P : Node → Prop} {element : α → Node} {a? : Option α}
    (each : ∀ a ∈ a?, P (element a)) : ∀ n ∈ (a?.map element).toList, P n := by
  intro n mem
  obtain ⟨a, here, rfl⟩ := Option.map_eq_some_iff.mp (Option.mem_toList.mp mem)
  exact each a here

namespace Node

section

variable {name : QName} {attributes : List Attribute} {text : String} {children : List Node}
  {n other : Node}

/-! ## Builders -/

/-- A text is the content of the leaf that it makes, where no content is the empty text. -/
lemma getD_leafText (text : String) : (leafText text).getD "" = text := by
  rw [leafText]
  split
  · next none => exact none.symm
  · rfl

/-- A node that is built of well-shaped children is well shaped. -/
lemma wellShaped_of_build (eq : build name attributes text children = .ok n)
    (below : ∀ child ∈ children, child.WellShaped) : n.WellShaped := by
  obtain ⟨-, -, -, rfl, shaped⟩ := of_build eq
  exact .intro shaped below

/-- A node that a document can hold, and that can be built, is well shaped. -/
lemma wellShaped_of_kept (kept : n.Everywhere Kept) : n.WellShaped := by
  induction kept with
  | intro here _ ih => exact .intro here.1 ih

/-- A leaf with a text is well shaped. -/
lemma wellShaped_ofText (name : QName) (text : String) : (ofText name text).WellShaped :=
  wellShaped_of_build (build_leaf .nil) (List.forall_mem_nil _)

/-- An empty leaf is well shaped. -/
lemma wellShaped_empty (name : QName) : (empty name).WellShaped :=
  wellShaped_ofText name ""

/-! ## Copies -/

/-- A node is well shaped if its attributes have different names and its children are well shaped.
-/
lemma wellShaped_ofChildren (distinct : (attributes.map (·.name)).Nodup)
    (below : ∀ child ∈ children, child.WellShaped) :
    (ofChildren name attributes children).WellShaped :=
  wellShaped_of_build (build_ofChildren distinct) below

/-- A well-shaped node stays so with other well-shaped children. -/
lemma WellShaped.withChildren (shaped : n.WellShaped)
    (below : ∀ child ∈ children, child.WellShaped) : (n.withChildren children).WellShaped :=
  wellShaped_ofChildren shaped.here.distinct below

/-- A well-shaped node stays so with the attributes of another one. -/
lemma WellShaped.withAttributesOf (shaped : n.WellShaped) (shaped' : other.WellShaped) :
    (n.withAttributesOf other).WellShaped := by
  have distinct := shaped'.here.distinct
  obtain ⟨⟨-, text, children⟩, below⟩ := shaped
  cases n with
  | leaf => exact .intro ⟨distinct, text, children⟩ below
  | container => exact .intro ⟨distinct, text, children⟩ below

/-- A name without a namespace is told by its local name. -/
lemma eq_unqualified_iff {q : QName} {localName : String} :
    (!q.isQualified && q.localName == localName) = true ↔ q = .unqualified localName := by
  obtain ⟨uri, name⟩ := q
  simp [QName.isQualified, QName.unqualified]

/-- Setting an attribute adds its name and no other. -/
lemma mem_setAttribute {localName value : String} {q : QName} :
    q ∈ (setAttribute localName value attributes).map (·.name) ↔
      q ∈ attributes.map (·.name) ∨ q = .unqualified localName := by
  induction attributes with
  | nil => simp [setAttribute]
  | cons a rest ih =>
    rw [setAttribute]
    split
    · next here => simp [eq_unqualified_iff.mp here, or_right_comm]
    · simp only [List.map_cons, List.mem_cons, ih, or_assoc]

/-- A name that is set is there once. -/
lemma nodup_setAttribute (localName value : String)
    (distinct : (attributes.map (·.name)).Nodup) :
    ((setAttribute localName value attributes).map (·.name)).Nodup := by
  induction attributes with
  | nil => exact List.nodup_singleton _
  | cons a rest ih =>
    rw [setAttribute]
    split
    · exact distinct
    · next other =>
      obtain ⟨fresh, distinct⟩ := List.nodup_cons.mp distinct
      refine List.nodup_cons.mpr ⟨?_, ih distinct⟩
      rw [mem_setAttribute, not_or]
      exact ⟨fresh, mt eq_unqualified_iff.mpr other⟩

/-- A well-shaped node stays so when an attribute of it is set. -/
lemma WellShaped.withAttribute (shaped : n.WellShaped) (localName value : String) :
    (n.withAttribute localName value).WellShaped := by
  obtain ⟨⟨distinct, text, children⟩, below⟩ := shaped
  have distinct := nodup_setAttribute localName value distinct
  cases n with
  | leaf => exact .intro ⟨distinct, text, children⟩ below
  | container => exact .intro ⟨distinct, text, children⟩ below

end

/-! ## Requests and replies -/

/-- The request for an operation, as a builder makes it. -/
def wrap (messageId : String) (operation : Node) : Except ShapeError Node :=
  (((Builder.new ⟨baseUri, "rpc"⟩).addAttribute (.unqualified "message-id") messageId).addChild
    operation).build

/-- The request that a builder makes is the one that is sent, and the builder does not fail. -/
lemma wrap_eq (messageId : String) (operation : Node) :
    wrap messageId operation = .ok (.rpc messageId operation) := by
  have distinct : ([Attribute.mk (.unqualified "message-id") messageId].map (·.name)).Nodup :=
    List.nodup_singleton _
  exact build_container distinct (List.cons_ne_nil _ _)

end Node

/-- The message of a hello, as builders make it. -/
def Hello.compose (h : Hello) : Except ShapeError Node := do
  let capabilities ← ((Builder.new ⟨baseUri, "capabilities"⟩).addChildren
    (h.capabilities.items.map fun c => .ofText ⟨baseUri, "capability"⟩ c.uri)).build
  let hello := (Builder.new ⟨baseUri, "hello"⟩).addChild capabilities
  match h.sessionId with
  | some id => (hello.addChild (.ofText ⟨baseUri, "session-id"⟩ (toString id))).build
  | none => hello.build

/-- The hello that builders make is the one that is sent, and they do not fail. -/
lemma Hello.compose_eq (h : Hello) : h.compose = .ok h.toNode := by
  obtain ⟨capabilities, sessionId⟩ := h
  have distinct : (([] : List Attribute).map (·.name)).Nodup := .nil
  have listing : ((Builder.new ⟨baseUri, "capabilities"⟩).addChildren
      (capabilities.items.map fun c => .ofText ⟨baseUri, "capability"⟩ c.uri)).build =
      .ok (.ofChildren ⟨baseUri, "capabilities"⟩ []
        (capabilities.items.map fun c => .ofText ⟨baseUri, "capability"⟩ c.uri)) :=
    Node.build_ofChildren distinct
  rw [compose, listing]
  simp only [bind, Except.bind]
  cases sessionId <;> exact Node.build_ofChildren distinct

/-- A hello is well shaped. -/
lemma Hello.wellShaped_toNode (h : Hello) : h.toNode.WellShaped := by
  have texts {uris : List Capability} :
      ∀ n ∈ uris.map fun c => Node.ofText ⟨baseUri, "capability"⟩ c.uri, n.WellShaped := by
    intro n mem
    obtain ⟨c, -, rfl⟩ := List.mem_map.mp mem
    exact Node.wellShaped_ofText _ _
  refine Node.wellShaped_ofChildren .nil (List.forall_mem_cons.mpr
    ⟨Node.wellShaped_ofChildren .nil texts, ?_⟩)
  exact forall_mem_map_toList fun _ _ => Node.wellShaped_ofText _ _

namespace Operation

open Node

section

variable {uri : String} {filter : Option Node} {children : List Node}

/-- An element of an operation is well shaped if its children are. -/
lemma wellShaped_element (name : String) (below : ∀ child ∈ children, child.WellShaped) :
    (element name children).WellShaped :=
  (wellShaped_empty ⟨baseUri, name⟩).withChildren below

/-- An element with a text is well shaped. -/
lemma wellShaped_textElement (name text : String) : (textElement name text).WellShaped :=
  wellShaped_ofText _ _

/-- The element that names a datastore is well shaped. -/
lemma wellShaped_datastore (role : String) (d : Datastore) : (datastore role d).WellShaped :=
  wellShaped_element role (List.forall_mem_singleton.mpr
    (wellShaped_element d.name (List.forall_mem_nil _)))

/-- The element that names a source is well shaped if a configuration in it is. -/
lemma wellShaped_source {source : ConfigSource}
    (shaped : ∀ config, source = .config config → config.WellShaped) :
    (Operation.source source).WellShaped := by
  cases source with
  | datastore d => exact wellShaped_datastore "source" d
  | config config =>
    exact wellShaped_element "source" (List.forall_mem_singleton.mpr
      (wellShaped_element "config" (shaped config rfl).children))

/-- A subtree filter has the children of the filter, and its type as an attribute. -/
lemma subtreeFilter_eq (uri : String) (filter : Node) :
    subtreeFilter uri filter =
      ((empty ⟨uri, "filter"⟩).withChildren filter.children).withAttribute "type" "subtree" := by
  rw [subtreeFilter, withChildren]
  cases filter.children <;> rfl

/-- The subtree filter of a well-shaped filter, if there is one, is well shaped. -/
lemma wellShaped_subtreeFilter (uri : String) (shaped : ∀ f ∈ filter, f.WellShaped) :
    ∀ n ∈ (filter.map (subtreeFilter uri)).toList, n.WellShaped := by
  refine forall_mem_map_toList fun f mem => ?_
  rw [subtreeFilter_eq]
  exact ((wellShaped_empty _).withChildren (shaped f mem).children).withAttribute _ _

/-- The operation that edits a configuration is well shaped if the configuration is. -/
lemma wellShaped_editConfig {config : Node} (target : Datastore) (default : DefaultOperation)
    (shaped : config.WellShaped) : (editConfig target config default).WellShaped := by
  refine wellShaped_element "edit-config" (List.forall_mem_cons.mpr
    ⟨wellShaped_datastore "target" target, List.forall_mem_append.mpr ⟨?_, ?_⟩⟩)
  · split
    · exact List.forall_mem_nil _
    · exact List.forall_mem_singleton.mpr (wellShaped_textElement _ _)
  · exact List.forall_mem_singleton.mpr (wellShaped_element "config" shaped.children)

/-- The operation that subscribes is well shaped if its filter is. -/
lemma wellShaped_createSubscription (stream : Option String) (shaped : ∀ f ∈ filter, f.WellShaped) :
    (createSubscription stream filter).WellShaped := by
  refine (wellShaped_empty ⟨notificationUri, "create-subscription"⟩).withChildren
    (List.forall_mem_append.mpr ⟨?_, wellShaped_subtreeFilter notificationUri shaped⟩)
  exact forall_mem_map_toList fun _ _ => wellShaped_ofText _ _

/-- The operation that starts compression is well shaped. -/
lemma wellShaped_startExi : startExi.WellShaped :=
  (wellShaped_empty ⟨exiUri, "start-exi"⟩).withChildren
    (List.forall_mem_singleton.mpr (wellShaped_ofText _ _))

end

end Operation

namespace Reply

open Node

/-- A reply has the content that is given, or says that all went well, and the attributes of the
request. -/
lemma build_eq_withAttributesOf (request : Node) (content : List Node) :
    build request content = ((empty ⟨baseUri, "rpc-reply"⟩).withChildren
      (if content.isEmpty then [empty ⟨baseUri, "ok"⟩] else content)).withAttributesOf request := by
  cases content <;> rfl

/-- A reply to a well-shaped request is well shaped if its content is. -/
lemma wellShaped_build {request : Node} {content : List Node} (shaped : request.WellShaped)
    (below : ∀ n ∈ content, n.WellShaped) : (build request content).WellShaped := by
  rw [build_eq_withAttributesOf]
  refine ((wellShaped_empty _).withChildren ?_).withAttributesOf shaped
  split
  · exact List.forall_mem_singleton.mpr (wellShaped_empty _)
  · exact below

end Reply

/-- The node of an error is well shaped. -/
lemma RpcError.wellShaped_toNode (e : RpcError) : e.toNode.WellShaped := by
  have texts (name : String) (text : Option String) :
      ∀ n ∈ (text.map (Operation.textElement name)).toList, n.WellShaped :=
    forall_mem_map_toList fun text _ => Operation.wellShaped_textElement name text
  refine Operation.wellShaped_element "rpc-error" ?_
  simp only [List.forall_mem_append, List.forall_mem_cons]
  exact ⟨⟨⟨⟨Operation.wellShaped_textElement _ _, Operation.wellShaped_textElement _ _,
    Operation.wellShaped_textElement _ _, List.forall_mem_nil _⟩, texts _ _⟩, texts _ _⟩, texts _ _⟩

/-! ## Filtered data -/

namespace Filter.Pick

mutual

/-- Of a well-shaped node a pick leaves a well-shaped node. -/
lemma wellShaped_restrict (p : Pick) (d : Node) (shaped : d.WellShaped) :
    (p.restrict d).WellShaped := by
  match p, d with
  | nothing, d => rwa [restrict]; nofun
  | whole, d => rwa [restrict]; nofun
  | within ps, .leaf .. => rwa [restrict]; nofun
  | within ps, .container name attributes ds =>
    rw [restrict]
    exact Node.wellShaped_ofChildren shaped.here.distinct
      (wellShaped_restrictAll ps ds shaped.children)

/-- Of well-shaped nodes picks leave well-shaped nodes. -/
lemma wellShaped_restrictAll (ps : List Pick) (ds : List Node)
    (shaped : ∀ d ∈ ds, d.WellShaped) : ∀ n ∈ restrictAll ps ds, n.WellShaped := by
  match ps, ds with
  | [], ds => simp [restrictAll]
  | p :: ps, [] => simp [restrictAll]
  | p :: ps, d :: ds =>
    obtain ⟨first, rest⟩ := List.forall_mem_cons.mp shaped
    cases some : p.isNothing with
    | true =>
      rw [nothing_of_isNothing some, restrictAll_nothing]
      exact wellShaped_restrictAll ps ds rest
    | false =>
      rw [restrictAll_cons _ _ _ some]
      exact List.forall_mem_cons.mpr
        ⟨wellShaped_restrict p d first, wellShaped_restrictAll ps ds rest⟩

end

end Filter.Pick

/-- Of well-shaped data a filter leaves a well-shaped node. -/
lemma Filter.wellShaped_apply {data n : Node} {filter : Option Node} (shaped : data.WellShaped)
    (left : apply data filter = .ok (some n)) : n.WellShaped := by
  cases filter with
  | none =>
    cases left
    exact shaped
  | some filter =>
    obtain ⟨-, -, rfl⟩ := apply_eq_some.mp left
    exact Pick.wellShaped_restrict _ data shaped

/-! ## Nodes that can be made -/

mutual

/-- Nodes that can be made, of others that were made before. -/
inductive Made : Node → Prop where
  | built {b n} :
    Begun b → b.build = .ok n →
    Made n
  | leaf {name text} :
    Made (.ofText name text)
  | empty {name} :
    Made (.empty name)
  | decoded {payload n} :
    Node.decode? payload = .ok n →
    Made n
  /-- The parts of a node can be used by themselves. -/
  | child {n c} :
    Made n → c ∈ n.children →
    Made c
  | filtered {data filter n} :
    Made data → (∀ f ∈ filter, Made f) → Filter.apply data filter = .ok (some n) →
    Made n
  | request {messageId operation n} :
    Made operation → Node.wrap messageId operation = .ok n →
    Made n
  | hello {h n} :
    Hello.compose h = .ok n →
    Made n
  | reply {request content} :
    Made request → (∀ c ∈ content, Made c) →
    Made (Reply.build request content)
  | dataReply {request data} :
    Made request → (∀ d ∈ data, Made d) →
    Made (Reply.buildData request data)
  | errorReply {request errors} :
    Made request →
    Made (Reply.buildErrors request errors)
  | get {filter} :
    (∀ f ∈ filter, Made f) →
    Made (Operation.get filter)
  | getConfig {source filter} :
    (∀ f ∈ filter, Made f) →
    Made (Operation.getConfig source filter)
  | editConfig {target config default} :
    Made config →
    Made (Operation.editConfig target config default)
  | copyConfig {target source} :
    (∀ config, source = .config config → Made config) →
    Made (Operation.copyConfig target source)
  | deleteConfig {target} :
    Made (Operation.deleteConfig target)
  | lock {target} :
    Made (Operation.lock target)
  | unlock {target} :
    Made (Operation.unlock target)
  | commit :
    Made Operation.commit
  | discardChanges :
    Made Operation.discardChanges
  | validate {source} :
    (∀ config, source = .config config → Made config) →
    Made (Operation.validate source)
  | closeSession :
    Made Operation.closeSession
  | killSession {sessionId} :
    Made (Operation.killSession sessionId)
  | createSubscription {stream filter} :
    (∀ f ∈ filter, Made f) →
    Made (Operation.createSubscription stream filter)
  | startExi :
    Made Operation.startExi

/-- Builders that were given nodes that were made. -/
inductive Begun : Builder → Prop where
  | new {name} :
    Begun (.new name)
  | setUri {b uri} :
    Begun b →
    Begun (b.setUri uri)
  | addAttribute {b name value} :
    Begun b →
    Begun (b.addAttribute name value)
  | addChild {b child} :
    Begun b → Made child →
    Begun (b.addChild child)
  | addChildren {b children} :
    Begun b → (∀ child ∈ children, Made child) →
    Begun (b.addChildren children)
  | setText {b text} :
    Begun b →
    Begun (b.setText text)

end

mutual

/-- A node that can be made is well shaped. -/
lemma Made.wellShaped {n : Node} (made : Made n) : n.WellShaped := by
  match made with
  | .built begun eq =>
    rw [Builder.build] at eq
    exact Node.wellShaped_of_build eq begun.wellShaped
  | .leaf => exact Node.wellShaped_ofText _ _
  | .empty => exact Node.wellShaped_empty _
  | .decoded eq => exact Node.wellShaped_of_kept (Node.kept_of_decode? eq)
  | .child made mem => exact made.wellShaped.children _ mem
  | .filtered data _ eq => exact Filter.wellShaped_apply data.wellShaped eq
  | .request operation eq =>
    rw [Node.wrap, Builder.build] at eq
    exact Node.wellShaped_of_build eq (List.forall_mem_singleton.mpr operation.wellShaped)
  | .hello eq =>
    cases (Hello.compose_eq _).symm.trans eq
    exact Hello.wellShaped_toNode _
  | .reply request content =>
    exact Reply.wellShaped_build request.wellShaped fun c mem => (content c mem).wellShaped
  | .dataReply request data =>
    exact Reply.wellShaped_build request.wellShaped (List.forall_mem_singleton.mpr
      (Operation.wellShaped_element "data" fun d mem => (data d mem).wellShaped))
  | .errorReply request =>
    refine Reply.wellShaped_build request.wellShaped (List.forall_mem_map.mpr fun e _ => ?_)
    exact e.wellShaped_toNode
  | .get filter =>
    exact Operation.wellShaped_element "get"
      (Operation.wellShaped_subtreeFilter _ fun f mem => (filter f mem).wellShaped)
  | .getConfig filter =>
    exact Operation.wellShaped_element "get-config" (List.forall_mem_cons.mpr
      ⟨Operation.wellShaped_datastore "source" _,
        Operation.wellShaped_subtreeFilter _ fun f mem => (filter f mem).wellShaped⟩)
  | .editConfig config => exact Operation.wellShaped_editConfig _ _ config.wellShaped
  | .copyConfig source =>
    have source := Operation.wellShaped_source fun config eq => (source config eq).wellShaped
    exact Operation.wellShaped_element "copy-config" (List.forall_mem_cons.mpr
      ⟨Operation.wellShaped_datastore "target" _, List.forall_mem_singleton.mpr source⟩)
  | .deleteConfig | .lock | .unlock =>
    exact Operation.wellShaped_element _
      (List.forall_mem_singleton.mpr (Operation.wellShaped_datastore "target" _))
  | .commit | .discardChanges | .closeSession => exact Node.wellShaped_empty _
  | .validate source =>
    exact Operation.wellShaped_element "validate" (List.forall_mem_singleton.mpr
      (Operation.wellShaped_source fun config eq => (source config eq).wellShaped))
  | .killSession =>
    exact Operation.wellShaped_element "kill-session"
      (List.forall_mem_singleton.mpr (Operation.wellShaped_textElement "session-id" _))
  | .createSubscription filter =>
    exact Operation.wellShaped_createSubscription _ fun f mem => (filter f mem).wellShaped
  | .startExi => exact Operation.wellShaped_startExi

/-- The children that a builder was given are well shaped. -/
lemma Begun.wellShaped {b : Builder} (begun : Begun b) :
    ∀ child ∈ b.children, child.WellShaped := by
  match begun with
  | .new => exact List.forall_mem_nil _
  | .setUri begun => exact begun.wellShaped
  | .addAttribute begun => exact begun.wellShaped
  | .addChild begun child =>
    exact List.forall_mem_append.mpr
      ⟨begun.wellShaped, List.forall_mem_singleton.mpr child.wellShaped⟩
  | .addChildren begun children =>
    exact List.forall_mem_append.mpr
      ⟨begun.wellShaped, fun child mem => (children child mem).wellShaped⟩
  | .setText begun => exact begun.wellShaped

end

section

variable {name : QName} {attributes : List Attribute} {text : String} {children : List Node}
  {n : Node}

/-- A builder can be given any attributes. -/
lemma begun_attributes (name : QName) (attributes : List Attribute) :
    Begun ⟨name, attributes, [], none⟩ := by
  induction attributes using List.reverseRecOn with
  | nil => exact .new
  | append_singleton attributes a ih => exact .addAttribute ih

/-- A builder can be given any parts. -/
lemma Made.of_build (eq : Node.build name attributes text children = .ok n)
    (below : ∀ child ∈ children, Made child) : Made n := by
  have begun : Begun ((Builder.mk name attributes [] none).addChildren children |>.setText text) :=
    .setText (.addChildren (begun_attributes name attributes) below)
  refine .built begun ?_
  simp only [Builder.build, Builder.addChildren, Builder.setText, List.nil_append,
    Node.getD_leafText, eq]

/-- Nothing but its shape keeps a node from being made. -/
theorem made_iff_wellShaped : Made n ↔ n.WellShaped := by
  refine ⟨Made.wellShaped, fun shaped => ?_⟩
  induction shaped with
  | intro here _ ih => exact .of_build (Node.isShaped_iff_build.mp here) ih

end

/-- All nodes that can be made are well shaped, with all nodes below them. Builders never fail to
make a request or a hello of them, and the replies, which no builder checks, are well shaped too. -/
theorem made_wellShaped {n : Node} (made : Made n) :
    n.WellShaped ∧
      (∀ messageId, Node.wrap messageId n = .ok (.rpc messageId n)) ∧
      (∀ h, Hello.compose h = .ok h.toNode) ∧
      (∀ content, (∀ c ∈ content, Made c) →
        (Reply.build n content).WellShaped ∧ (Reply.buildData n content).WellShaped) ∧
      ∀ errors, (Reply.buildErrors n errors).WellShaped := by
  refine ⟨made.wellShaped, fun id => Node.wrap_eq id n, Hello.compose_eq, ?_, ?_⟩
  · exact fun content parts =>
      ⟨(Made.reply made parts).wellShaped, (Made.dataReply made parts).wellShaped⟩
  · exact fun errors => (Made.errorReply made).wellShaped

/-- A filtered reply to a request that carries a filter is made and well shaped. -/
theorem made_wellShaped_roleOf :
    let data := Filter.users [Filter.user "alice" "1" "admin", Filter.user "bob" "2" "ops"]
    let bob := .container ⟨"urn:users", "user"⟩ []
      [.leaf ⟨"urn:users", "name"⟩ [] (some "bob"), .leaf ⟨"urn:users", "role"⟩ [] (some "ops")]
    let request := .rpc "1" (Operation.get (some (Filter.roleOf "bob")))
    Filter.apply data (some (Filter.roleOf "bob")) = .ok (some (Filter.users [bob])) ∧
      Made request ∧ (Reply.buildData request [Filter.users [bob]]).WellShaped := by
  intro data bob request
  have left : Filter.apply data (some (Filter.roleOf "bob")) =
      .ok (some (Filter.users [bob])) := by rfl
  have leaf (name text : String) : Made (.ofText ⟨"urn:users", name⟩ text) := .leaf
  have begun : Begun (.new ⟨"urn:users", "user"⟩) := .new
  have entry (name id role : String) :=
    ((begun.addChild (leaf "name" name)).addChild (leaf "id" id)).addChild (leaf "role" role)
  have alice : Made (Filter.user "alice" "1" "admin") := .built (entry "alice" "1" "admin") rfl
  have whole : Made (Filter.user "bob" "2" "ops") := .built (entry "bob" "2" "ops") rfl
  have made : Made data := .built (.addChild (.addChild (.addAttribute .new) alice) whole) rfl
  have role : Made (.leaf (.unqualified "role") [] none) := .empty
  have keyed : Made (.container ⟨"urn:users", "user"⟩ [⟨.unqualified "name", "bob"⟩]
      [.leaf (.unqualified "role") [] none]) :=
    .built (.addChild (.addAttribute .new) role) rfl
  have filter : Made (Filter.roleOf "bob") := .built (.addChild .new keyed) rfl
  have asked : Made request :=
    .request (.get fun f mem => Option.mem_some.mp mem ▸ filter) (Node.wrap_eq _ _)
  obtain ⟨-, -, -, replies, -⟩ := made_wellShaped asked
  have result : Made (Filter.users [bob]) :=
    .filtered made (fun f mem => Option.mem_some.mp mem ▸ filter) left
  exact ⟨left, asked, (replies _ (List.forall_mem_singleton.mpr result)).2⟩

end Netconf
