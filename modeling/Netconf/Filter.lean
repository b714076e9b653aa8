import Netconf.Error

/-!
# Subtree filters

A filter is a tree of its own: a leaf with text asks for that text, a node with children or
attributes asks for a container whose content it describes, and a bare leaf asks for whatever has
its name. The children of a filter's root are matched against the children of the data's root. What
they pick is found first, as a tree over the data, and copied then.
-/

namespace Netconf.Filter

/-! ## Valid filters -/

/-- Whether a name can stand in a filter: a local name, without colon and blank characters, and a
namespace without blank characters. -/
def isWellFormed (q : QName) : Bool :=
  q.localName != "" && q.localName.toList.all (fun c => c != ':' && !Text.isBlank c) &&
    !q.uri.toList.any Text.isBlank

/-- Passes a name that can stand in a filter. -/
def checkName (q : QName) : Except FilterError Unit :=
  if isWellFormed q then .ok () else .error (.illFormedName q.display)

/-- Passes attributes whose names can stand in a filter. -/
def checkAttributes : List Attribute → Except FilterError Unit
  | [] => .ok ()
  | a :: rest => do
    checkName a.name
    checkAttributes rest

mutual

/-- Passes a node of a filter, below its root. -/
def checkNode : Node → Except FilterError Unit
  | .leaf name attributes _ => do
    checkName name
    checkAttributes attributes
  | .container name attributes children => do
    checkName name
    checkAttributes attributes
    checkNodes children

/-- Passes nodes of a filter. -/
def checkNodes : List Node → Except FilterError Unit
  | [] => .ok ()
  | n :: rest => do
    checkNode n
    checkNodes rest

end

/-- Passes a valid filter: its root has no text but white space, and all names below it are well
formed. -/
def validate (filter : Node) : Except FilterError Unit :=
  match filter.text with
  | some text =>
    if Text.allBlank text then checkNodes filter.children
    else .error (.textOnFilterRoot filter.name.display)
  | none => checkNodes filter.children

/-! ## Picks -/

/-- What a node of a filter asks for. -/
inductive Kind where
  /-- Whatever has the name. -/
  | selection
  /-- A leaf with the text. -/
  | contentMatch (text : String)
  /-- A container with certain content. -/
  | containment
  deriving DecidableEq, Repr

/-- What a node of a filter asks for. -/
def kind : Node → Kind
  | .leaf _ _ (some text) => .contentMatch text
  | .leaf _ [] none => .selection
  | .leaf _ (_ :: _) none => .containment
  | .container .. => .containment

/-- Whether a node of a filter asks for a text. -/
def isContentMatch (f : Node) : Bool :=
  match kind f with
  | .contentMatch _ => true
  | _ => false

/-- What is picked of a data node. -/
inductive Pick where
  | nothing
  | whole
  /-- The node with what is picked of each of its children. -/
  | within (children : List Pick)
  deriving Repr, Inhabited

namespace Pick

/-- Whether nothing is picked. -/
def isNothing : Pick → Bool
  | nothing => true
  | _ => false

/-- The node with what is picked of its children, unless that is nothing. -/
def ofChildren (children : List Pick) : Pick :=
  if children.all isNothing then nothing else within children

mutual

/-- What is picked by one of two picks of the same node. -/
def union : Pick → Pick → Pick
  | nothing, p => p
  | p, nothing => p
  | within children, within children' => within (unionAll children children')
  | _, _ => whole

/-- What is picked by one of two picks of each of several nodes. -/
def unionAll : List Pick → List Pick → List Pick
  | p :: ps, q :: qs => union p q :: unionAll ps qs
  | [], qs => qs
  | ps, [] => ps

end

mutual

/-- The data node as far as it is picked. -/
def restrict (p : Pick) (d : Node) : Node :=
  match p, d with
  | .within picks, .container name attributes children =>
    .ofChildren name attributes (restrictAll picks children)
  | _, d => d

/-- The data nodes as far as they are picked. -/
def restrictAll (ps : List Pick) (ds : List Node) : List Node :=
  match ps, ds with
  | .nothing :: ps, _ :: ds => restrictAll ps ds
  | p :: ps, d :: ds => restrict p d :: restrictAll ps ds
  | _, _ => []

end

end Pick

/-! ## Matching -/

/-- Whether a data node is a leaf that the name covers, with the given text. -/
def isLeafWith (name : QName) (text : String) (d : Node) : Bool :=
  name.covers d.name && d.text == some text

/-- Whether every text that the filter nodes ask for is in one of the data nodes. -/
def holds (fs ds : List Node) : Bool :=
  fs.all fun f =>
    match kind f with
    | .contentMatch text => ds.any (isLeafWith f.name text)
    | _ => true

/-- The name of the data leaf that an attribute of a filter node stands for. An attribute without a
namespace is in that of its node. -/
def keyName (node attr : QName) : QName :=
  if attr.isQualified then attr else ⟨node.uri, attr.localName⟩

/-- The positions of the first data leaves that have the names and values of the attributes of a
filter node; none if one has no such leaf. -/
def keys? (node : QName) (attributes : List Attribute) (ds : List Node) : Option (List Nat) :=
  attributes.mapM fun a => ds.findIdx? (isLeafWith (keyName node a.name) a.value)

/-- Picks with those at the given positions picked whole if they were not picked before. -/
def withKeys (keys : List Nat) (picks : List Pick) : List Pick :=
  picks.mapIdx fun i p => if p.isNothing && keys.contains i then .whole else p

mutual

/-- What a filter node picks of a data node, given that its group holds. -/
def pick (f d : Node) : Pick :=
  match f with
  | .leaf name _ (some text) => if isLeafWith name text d then .whole else .nothing
  | .leaf name attributes none =>
    if !name.covers d.name then .nothing
    else if attributes.isEmpty then .whole
    else if d.isLeaf then .nothing
    else
      match keys? name attributes d.children with
      | none => .nothing
      | some _ => .whole
  | .container name attributes children =>
    if !name.covers d.name || d.isLeaf then .nothing
    else
      match keys? name attributes d.children with
      | none => .nothing
      | some keys =>
        if !holds children d.children then .nothing
        else if children.all isContentMatch then .whole
        else .ofChildren (withKeys keys (d.children.map (pickAny children)))

/-- What one of several filter nodes picks of a data node. -/
def pickAny (fs : List Node) (d : Node) : Pick :=
  match fs with
  | [] => .nothing
  | f :: rest => (pick f d).union (pickAny rest d)

end

/-- What a valid filter picks of the data. A filter without children picks nothing. -/
def evaluate (data filter : Node) : Pick :=
  let fs := filter.children
  if fs.isEmpty || !holds fs data.children then .nothing
  else if fs.all isContentMatch then .whole
  else .ofChildren (data.children.map (pickAny fs))

/-- The data as far as the filter picks it, all of it without a filter, or none if nothing is
picked. -/
def apply (data : Node) (filter : Option Node) : Except FilterError (Option Node) :=
  match filter with
  | none => .ok (some data)
  | some filter =>
    (validate filter).map fun _ =>
      match evaluate data filter with
      | .nothing => none
      | p => some (p.restrict data)

/-- Whether a filter picks something of the data. -/
def selects (data filter : Node) : Except FilterError Bool :=
  (validate filter).map fun _ => !(evaluate data filter).isNothing

end Netconf.Filter
