import Netconf.Text.Blank
import Netconf.Text.Split

/-!
# Capabilities

A capability is a URI, which may carry parameters after a question mark. What stands before the
question mark identifies it. A capability set keeps the first capability offered under each
identity, in the order of the offers.
-/

namespace Netconf

/-- What identifies a URI: the part before its first question mark. -/
def identityOf (uri : String) : String :=
  .ofList (Text.upTo '?' uri.toList)

/-- A capability. `ofUri` makes them, without blank ends. -/
structure Capability where
  uri : String
  /-- The URI without its parameters. -/
  identity : String
  identity_eq : identity = identityOf uri
  deriving DecidableEq, Repr

namespace Capability

/-- The capability with the given URI, of which blank characters at the ends are dropped. -/
def ofUri (uri : String) : Capability :=
  let uri := Text.trim uri
  ⟨uri, identityOf uri, rfl⟩

instance : Inhabited Capability :=
  ⟨ofUri ""⟩

/-- A parameter, which has an empty value if it has no equals sign. -/
def parameterOf (piece : List Char) : String × String :=
  (.ofList (Text.upTo '=' piece), .ofList (Text.after '=' piece))

/-- The parameters in the order of the URI. -/
def parameters (c : Capability) : List (String × String) :=
  ((Text.splitOn '&' (Text.after '?' c.uri.toList)).filter (!·.isEmpty)).map parameterOf

/-- The value of the first parameter of that name. -/
def parameter? (c : Capability) (name : String) : Option String :=
  c.parameters.lookup name

/-! ## Well-known capabilities -/

/-- The protocol in its first version, with end-of-message framing. -/
def base10 : String := "urn:ietf:params:netconf:base:1.0"

/-- The protocol in its second version, with chunked framing. -/
def base11 : String := "urn:ietf:params:netconf:base:1.1"

def exi : String := "urn:ietf:params:netconf:capability:exi:1.0"

def notification : String := "urn:ietf:params:netconf:capability:notification:1.0"

def interleave : String := "urn:ietf:params:netconf:capability:interleave:1.0"

def candidate : String := "urn:ietf:params:netconf:capability:candidate:1.0"

def startup : String := "urn:ietf:params:netconf:capability:startup:1.0"

def writableRunning : String := "urn:ietf:params:netconf:capability:writable-running:1.0"

def validate : String := "urn:ietf:params:netconf:capability:validate:1.1"

def rollbackOnError : String := "urn:ietf:params:netconf:capability:rollback-on-error:1.0"

end Capability

/-- Capabilities in the order in which they were offered. -/
structure CapabilitySet where
  items : List Capability
  deriving Repr, Inhabited

namespace CapabilitySet

/-- The set without capabilities. -/
def empty : CapabilitySet :=
  ⟨[]⟩

/-- The capability under the identity of a URI. -/
def get? (s : CapabilitySet) (uri : String) : Option Capability :=
  let identity := identityOf uri
  s.items.find? (·.identity == identity)

/-- Whether there is a capability under the identity of a URI. -/
def contains (s : CapabilitySet) (uri : String) : Bool :=
  (s.get? uri).isSome

/-- Whether a capability can join the set: it is not blank, and its identity is free. -/
def admits (s : CapabilitySet) (c : Capability) : Bool :=
  c.uri != "" && !s.contains c.identity

/-- The set with a capability, if it admits it. -/
def insert (s : CapabilitySet) (c : Capability) : CapabilitySet :=
  if s.admits c then ⟨s.items ++ [c]⟩ else s

/-- The set of the given capabilities. -/
def ofList (cs : List Capability) : CapabilitySet :=
  cs.foldl insert empty

/-- The set of the capabilities with the given URIs. -/
def ofUris (uris : List String) : CapabilitySet :=
  ofList (uris.map .ofUri)

/-- The URIs in order. -/
def uris (s : CapabilitySet) : List String :=
  s.items.map (·.uri)

/-- Whether the set is without capabilities. -/
def isEmpty (s : CapabilitySet) : Bool :=
  s.items.isEmpty

/-- Number of capabilities. -/
def size (s : CapabilitySet) : Nat :=
  s.items.length

/-- The capabilities of `s` whose identity is also in `t`, as they are in `s`. -/
def intersect (s t : CapabilitySet) : CapabilitySet :=
  ofList (s.items.filter fun c => t.contains c.identity)

/-- Whether the sets have the same number of capabilities and `t` has every identity of `s`. -/
def same (s t : CapabilitySet) : Bool :=
  s.size == t.size && s.items.all fun c => t.contains c.identity

instance : BEq CapabilitySet := ⟨same⟩

end CapabilitySet

end Netconf
