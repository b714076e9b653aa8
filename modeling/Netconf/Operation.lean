import Netconf.Message

/-!
# Operations

The operations a client can ask for, each as the element that goes into a request.
-/

namespace Netconf

/-- A configuration datastore. -/
inductive Datastore where
  | running
  | candidate
  | startup
  deriving DecidableEq, Repr

/-- The element name of a datastore. -/
def Datastore.name : Datastore → String
  | running => "running"
  | candidate => "candidate"
  | startup => "startup"

/-- What to do with configuration for which an edit names no operation. -/
inductive DefaultOperation where
  | merge
  | replace
  | none
  deriving DecidableEq, Repr

/-- The name of a default operation. -/
def DefaultOperation.name : DefaultOperation → String
  | merge => "merge"
  | replace => "replace"
  | none => "none"

/-- Where configuration comes from. -/
inductive ConfigSource where
  | datastore (name : Datastore)
  /-- The children of the node are the configuration. -/
  | config (node : Node)

namespace Operation

/-- An element of the protocol with the given children. -/
def element (name : String) (children : List Node) : Node :=
  .ofChildren ⟨baseUri, name⟩ [] children

/-- An element of the protocol with the given text. -/
def textElement (name text : String) : Node :=
  .ofText ⟨baseUri, name⟩ text

/-- A datastore inside an element that says what it is for. -/
def datastore (role : String) (d : Datastore) : Node :=
  element role [element d.name []]

/-- A configuration source. -/
def source : ConfigSource → Node
  | .datastore d => datastore "source" d
  | .config node => element "source" [element "config" node.children]

/-- The children of a filter inside an element for subtree filters in the given namespace. -/
def subtreeFilter (uri : String) (filter : Node) : Node :=
  .ofChildren ⟨uri, "filter"⟩ [⟨.unqualified "type", "subtree"⟩] filter.children

/-- Retrieves configuration and state. -/
def get (filter : Option Node) : Node :=
  element "get" (filter.map (subtreeFilter baseUri)).toList

/-- Retrieves the configuration of a datastore. -/
def getConfig (source : Datastore) (filter : Option Node) : Node :=
  element "get-config" (datastore "source" source :: (filter.map (subtreeFilter baseUri)).toList)

/-- Applies the children of `config` to a datastore. -/
def editConfig (target : Datastore) (config : Node) (default : DefaultOperation) : Node :=
  element "edit-config" (datastore "target" target ::
    (if default = .merge then [] else [textElement "default-operation" default.name]) ++
    [element "config" config.children])

/-- Replaces a datastore by a configuration. -/
def copyConfig (target : Datastore) (source : ConfigSource) : Node :=
  element "copy-config" [datastore "target" target, Operation.source source]

/-- Deletes a datastore. -/
def deleteConfig (target : Datastore) : Node :=
  element "delete-config" [datastore "target" target]

/-- Locks a datastore. -/
def lock (target : Datastore) : Node :=
  element "lock" [datastore "target" target]

/-- Unlocks a datastore. -/
def unlock (target : Datastore) : Node :=
  element "unlock" [datastore "target" target]

/-- Makes the candidate configuration the running one. -/
def commit : Node :=
  element "commit" []

/-- Drops the changes of the candidate configuration. -/
def discardChanges : Node :=
  element "discard-changes" []

/-- Validates a configuration. -/
def validate (source : ConfigSource) : Node :=
  element "validate" [Operation.source source]

/-- Ends the own session. -/
def closeSession : Node :=
  element "close-session" []

/-- Ends another session. -/
def killSession (sessionId : Nat) : Node :=
  element "kill-session" [textElement "session-id" (toString sessionId)]

/-- Subscribes to the notifications of a stream. -/
def createSubscription (stream : Option String) (filter : Option Node) : Node :=
  .ofChildren ⟨notificationUri, "create-subscription"⟩ []
    ((stream.map (.ofText ⟨notificationUri, "stream"⟩ ·)).toList ++
      (filter.map (subtreeFilter notificationUri)).toList)

/-- Goes over to EXI with byte-aligned alignment. -/
def startExi : Node :=
  .ofChildren ⟨exiUri, "start-exi"⟩ [] [.ofText ⟨exiUri, "alignment"⟩ "byte-aligned"]

end Operation

end Netconf
