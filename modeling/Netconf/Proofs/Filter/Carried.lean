import Netconf.Operation
import Netconf.Proofs.Filter.Pruning
import Netconf.Proofs.Tree.Parts

/-!
# Filters in requests

A filter means the same to the one who sends it and to the one who receives it (`apply_carried`).
An operation takes the children of a filter under another root. They come back from the written
request as they were, and what a filter picks depends on nothing else of it.
-/

namespace Netconf.Filter

open Xml Node

section

variable {data filter filter' : Node}

/-- A root without text but white space makes no filter invalid. -/
lemma validate_of_blank (blank : ∀ t ∈ filter.text, Text.allBlank t = true) :
    validate filter = checkNodes filter.children := by
  unfold validate
  split
  · next t eq => rw [if_pos (blank t eq)]
  · rfl

/-- Two filters with the same children pick the same. -/
lemma apply_congr (blank : ∀ t ∈ filter.text, Text.allBlank t = true)
    (blank' : ∀ t ∈ filter'.text, Text.allBlank t = true)
    (same : filter.children = filter'.children) :
    apply data (some filter) = apply data (some filter') := by
  simp only [apply, validate_of_blank blank, validate_of_blank blank', evaluate, same]

end

/-- The operations that take a filter to the server. -/
inductive Carrier where
  | get
  | getConfig (source : Datastore)
  | createSubscription (stream : Option String)

namespace Carrier

/-- The operation with a filter. -/
def operation (filter : Node) : Carrier → Node
  | get => Operation.get (some filter)
  | getConfig source => Operation.getConfig source (some filter)
  | createSubscription stream => Operation.createSubscription stream (some filter)

/-- The namespace in which the operation has its filter. -/
def uri : Carrier → String
  | get => baseUri
  | getConfig _ => baseUri
  | createSubscription _ => notificationUri

/-- A document can hold what the operation says beside its filter. -/
def IsWritable : Carrier → Prop
  | get => True
  | getConfig _ => True
  | createSubscription stream => ∀ s ∈ stream, IsXmlText s

/-- Each of the namespaces that carry a filter can be declared. -/
lemma isDeclarable_uri (carrier : Carrier) : IsDeclarable carrier.uri := by
  cases carrier with
  | get => exact isDeclarable_baseUri
  | getConfig => exact isDeclarable_baseUri
  | createSubscription => exact isDeclarable_notificationUri

/-- The filter of the operation is found by its name. -/
lemma child?_operation (carrier : Carrier) (filter : Node) :
    (carrier.operation filter).child? "filter" =
      some (Operation.subtreeFilter carrier.uri filter) := by
  have named (uri : String) :
      ((Operation.subtreeFilter uri filter).localName == "filter") = true := by
    rw [localName, Operation.subtreeFilter, name_ofChildren]
    rfl
  cases carrier with
  | get => exact List.find?_cons_of_pos (named _)
  | getConfig =>
    refine (List.find?_cons_of_neg Bool.false_ne_true).trans ?_
    exact List.find?_cons_of_pos (named _)
  | createSubscription stream =>
    cases stream with
    | none => exact List.find?_cons_of_pos (named _)
    | some stream =>
      refine (List.find?_cons_of_neg Bool.false_ne_true).trans ?_
      exact List.find?_cons_of_pos (named _)

end Carrier

/-! ## Filters that a document can hold -/

section

variable {filter : Node} {uri : String}

/-- A subtree filter fits a document if the filter in it does. -/
lemma kept_subtreeFilter (declarable : IsDeclarable uri) (kept : filter.Everywhere Node.Kept) :
    (Operation.subtreeFilter uri filter).Everywhere Node.Kept := by
  have isName : IsName "filter".toList := by decide
  have writable : (Attribute.mk (.unqualified "type") "subtree").IsWritable := by decide
  exact kept_ofChildren isName declarable (List.nodup_singleton _)
    (List.forall_mem_singleton.mpr writable) kept.children

/-- The element that names a datastore fits a document if the name of its role is one. -/
lemma kept_datastore (role : String) (isName : IsName role.toList) (source : Datastore) :
    (Operation.datastore role source).Everywhere Node.Kept := by
  refine kept_element isName isDeclarable_baseUri (List.forall_mem_singleton.mpr ?_)
  refine kept_element ?_ isDeclarable_baseUri (List.forall_mem_nil _)
  cases source <;> decide

/-- An operation can be held if its filter and all else that it says can. -/
lemma kept_operation {carrier : Carrier} (writable : carrier.IsWritable)
    (kept : filter.Everywhere Node.Kept) :
    (carrier.operation filter).Everywhere Node.Kept := by
  have filter := kept_subtreeFilter carrier.isDeclarable_uri kept
  cases carrier with
  | get =>
    exact kept_element (by decide) isDeclarable_baseUri (List.forall_mem_singleton.mpr filter)
  | getConfig source =>
    have source := kept_datastore "source" (by decide) source
    rw [Carrier.operation, Operation.getConfig, Operation.element]
    refine kept_element (by decide) isDeclarable_baseUri ?_
    exact List.forall_mem_cons.mpr ⟨source, List.forall_mem_singleton.mpr filter⟩
  | createSubscription stream =>
    rw [Carrier.operation, Operation.createSubscription]
    refine kept_element (by decide) isDeclarable_notificationUri ?_
    cases stream with
    | none => exact List.forall_mem_singleton.mpr filter
    | some stream =>
      have stream : (ofText ⟨notificationUri, "stream"⟩ stream).Everywhere Node.Kept :=
        kept_ofText (by decide) isDeclarable_notificationUri (writable stream rfl)
      exact List.forall_mem_cons.mpr ⟨stream, List.forall_mem_singleton.mpr filter⟩

end

/-- The filter that comes out of a written request leaves of any data what the filter that went in
leaves of it, and is invalid in the same way if that one is. -/
theorem apply_carried {carrier : Carrier} {id : String} {filter : Node}
    (writable : carrier.IsWritable) (isText : IsXmlText id) (shaped : filter.WellShaped)
    (holdable : filter.Writable) (blank : ∀ t ∈ filter.text, Text.allBlank t = true)
    (data : Node) :
    ∃ request operation carried,
      decode? (rpc id (carrier.operation filter)).encode = .ok request ∧
      request.children = [operation] ∧ operation.child? "filter" = some carried ∧
      apply data (some carried) = apply data (some filter) := by
  have kept := kept_operation writable (shaped.and holdable)
  refine ⟨_, _, _, decode?_of_kept (kept_rpc isText kept), rfl, carrier.child?_operation filter, ?_⟩
  refine apply_congr ?_ blank children_ofChildren
  rw [Operation.subtreeFilter, text_ofChildren]
  exact nofun

/-- The example filter is well shaped. -/
lemma wellShaped_roleOf : (roleOf "bob").WellShaped := by
  refine .intro (by decide) (List.forall_mem_singleton.mpr ?_)
  refine .intro (by decide) (List.forall_mem_singleton.mpr ?_)
  exact .leaf (by decide)

/-- The example filter is writable. -/
lemma writable_roleOf : (roleOf "bob").Writable := by
  refine .intro (by decide) (List.forall_mem_singleton.mpr ?_)
  refine .intro (by decide) (List.forall_mem_singleton.mpr ?_)
  exact .leaf (by decide)

/-- A subscription carries the example filter, which prunes the data on arrival as it did before. -/
theorem apply_carried_createSubscription :
    Carrier.IsWritable (.createSubscription (some "NETCONF")) ∧ IsXmlText "7" ∧
      (roleOf "bob").WellShaped ∧ (roleOf "bob").Writable ∧
      (∀ t ∈ (roleOf "bob").text, Text.allBlank t = true) ∧
      let data := users [user "alice" "1" "admin", user "bob" "2" "ops"]
      let bob := .container ⟨"urn:users", "user"⟩ []
        [.leaf ⟨"urn:users", "name"⟩ [] (some "bob"), .leaf ⟨"urn:users", "role"⟩ [] (some "ops")]
      ∃ request operation carried,
        decode? (rpc "7" (Operation.createSubscription (some "NETCONF")
          (some (roleOf "bob")))).encode = .ok request ∧
        request.children = [operation] ∧ operation.child? "filter" = some carried ∧
        apply data (some carried) = .ok (some (users [bob])) := by
  have writable : Carrier.IsWritable (.createSubscription (some "NETCONF")) := by
    rintro s ⟨⟩
    decide
  have isText : IsXmlText "7" := by decide
  have blank : ∀ t ∈ (roleOf "bob").text, Text.allBlank t = true := nofun
  refine ⟨writable, isText, wellShaped_roleOf, writable_roleOf, blank, ?_⟩
  obtain ⟨request, operation, carried, eq, one, found, same⟩ :=
    apply_carried writable isText wellShaped_roleOf writable_roleOf blank
      (users [user "alice" "1" "admin", user "bob" "2" "ops"])
  exact ⟨request, operation, carried, eq, one, found, same.trans rfl⟩

/-- What was written with a character that XML does not know is not read. -/
lemma decode?_of_foreign {n : Node} (foreign : n.renderChars.all isXmlChar = false) :
    decode? n.encode = .error .notWellFormed := by
  rw [decode?, encode, Utf8.decodeChars_encodeChars]
  simp [parseChars?, Element.ofDocument?, tokens?, foreign]

/-- No document can hold a stream whose name has a character that XML does not know, and so there is
no filter to read out of the request, however well formed it was. -/
theorem decode?_unwritable_stream :
    (roleOf "bob").WellShaped ∧ (roleOf "bob").Writable ∧
      (∀ t ∈ (roleOf "bob").text, Text.allBlank t = true) ∧
      (∃ result, apply (users [user "bob" "2" "ops"]) (some (roleOf "bob")) = .ok (some result)) ∧
      ¬∃ request, decode? (rpc "7" (Operation.createSubscription (some "\x00")
        (some (roleOf "bob")))).encode = .ok request := by
  refine ⟨wellShaped_roleOf, writable_roleOf, nofun, ⟨_, rfl⟩, ?_⟩
  rintro ⟨request, eq⟩
  rw [decode?_of_foreign (by decide +kernel)] at eq
  cases eq

end Netconf.Filter
