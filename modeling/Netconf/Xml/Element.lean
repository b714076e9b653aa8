import Netconf.Distinct
import Netconf.Xml.CharData
import Netconf.Xml.Token

/-!
# Elements of a document

What a document says once its spelling is forgotten: elements and attributes under their expanded
names, and the character data between them. `Element.ofTokens?` matches the tags of a document,
resolves the prefixes of its names by the namespace declarations in scope, and resolves its
character data.
-/

namespace Netconf.Xml

/-- A name with its namespace, if it has one. -/
structure ExpandedName where
  uri : Option String
  localName : String
  deriving DecidableEq, Repr, Inhabited

namespace ExpandedName

/-- Order by namespace, then by local name. -/
instance : Ord ExpandedName :=
  ⟨compareLex (compareOn uri) (compareOn localName)⟩

instance : Std.TransOrd ExpandedName :=
  inferInstanceAs (Std.TransCmp (compareLex (compareOn uri) (compareOn localName)))

instance : Std.LawfulEqOrd ExpandedName where
  eq_of_compare {a b} h := by
    change compareLex (compareOn uri) (compareOn localName) a b = .eq at h
    simp only [compareLex_eq_eq, compareOn, Std.LawfulEqCmp.compare_eq_iff_eq] at h
    obtain ⟨uri, localName⟩ := a
    obtain ⟨rfl, rfl⟩ := h
    rfl

end ExpandedName

/-- An attribute under its expanded name. -/
structure ExpandedAttribute where
  name : ExpandedName
  value : String
  deriving DecidableEq, Repr, Inhabited

/-- What stands between the tags of an element. -/
inductive Content where
  | element (name : ExpandedName) (attributes : List ExpandedAttribute) (content : List Content)
  | text (value : String)
  deriving Repr, Inhabited

/-- An element with all that it holds. -/
structure Element where
  name : ExpandedName
  attributes : List ExpandedAttribute
  content : List Content
  deriving Repr, Inhabited

/-! ## Namespaces -/

/-- The namespaces that prefixes stand for, each prefix at most once. The empty prefix stands for the
default namespace. -/
abbrev Scope := List (List Char × String)

/-- The namespace bound to a prefix. -/
def Scope.find? (scope : Scope) (qualifier : List Char) : Option String :=
  scope.lookup qualifier

/-- The scope inside an element with the given declarations, which hide those of the same prefix
around it. -/
def Scope.enter (scope : Scope) : (declared : Scope) → Scope
  | [] => scope
  | d :: declared =>
    d :: declared ++
      scope.filter fun (qualifier, _) => (Scope.find? (d :: declared) qualifier).isNone

/-- Attributes of a start tag, parted into namespace declarations and the others, the last ones
first. -/
structure Parted where
  declared : Scope
  attributes : List (TagName × String)

/-- The first word of a namespace declaration. -/
def xmlnsWord : List Char :=
  ['x', 'm', 'l', 'n', 's']

/-- The prefix that is bound in every document. -/
def xmlWord : List Char :=
  ['x', 'm', 'l']

/-- Takes in one more attribute. A prefix is declared at most once per tag, of several default
namespaces the first one counts, the prefix `xml` is declared only as what it is, and nothing else
may get one of the two reserved namespaces. -/
def Parted.add? (p : Parted) (name : TagName) (value : String) : Option Parted :=
  if name.qualifier = xmlnsWord then
    if value = xmlnsUri then none
    else if name.base = xmlWord then
      if value = xmlUri then some p else none
    else if value = xmlUri ∨ (p.declared.find? name.base).isSome then none
    else some { p with declared := (name.base, value) :: p.declared }
  else if name.base = xmlnsWord then
    if value = xmlUri ∨ value = xmlnsUri then none
    else if (p.declared.find? []).isSome then some p
    else some { p with declared := ([], value) :: p.declared }
  else some { p with attributes := (name, value) :: p.attributes }

/-- The attributes of a start tag with their values resolved and the declarations parted off. -/
def Parted.ofRaw? (attributes : List RawAttribute) : Option Parted :=
  attributes.foldlM (fun p a => do p.add? a.name (.ofList (← resolveValue? a.value))) ⟨[], []⟩

/-- The expanded name of an attribute: without a prefix it is in no namespace. -/
def Scope.attributeName? (scope : Scope) (name : TagName) : Option ExpandedName :=
  if name.qualifier = [] then some ⟨none, .ofList name.base⟩
  else if name.qualifier = xmlWord then some ⟨some xmlUri, .ofList name.base⟩
  else (scope.find? name.qualifier).map fun uri => ⟨some uri, .ofList name.base⟩

/-- The expanded name of an element: without a prefix it is in the default namespace. -/
def Scope.elementName? (scope : Scope) (name : TagName) : Option ExpandedName :=
  if name.qualifier = [] then some ⟨scope.find? [], .ofList name.base⟩
  else if name.qualifier = xmlnsWord then none
  else (scope.find? name.qualifier).map fun uri => ⟨some uri, .ofList name.base⟩

/-- Attributes under their expanded names, of which none may occur twice. -/
def Scope.expand? (scope : Scope) (attributes : List (TagName × String)) :
    Option (List ExpandedAttribute) := do
  let attributes ← attributes.mapM fun (name, value) =>
    (scope.attributeName? name).map fun name => ExpandedAttribute.mk name value
  if (repeated? (attributes.map (·.name))).isNone then some attributes else none

/-! ## Tags -/

/-- An element whose end tag is still to come. -/
structure OpenElement where
  /-- The name in the start tag. -/
  tag : TagName
  /-- Namespaces in scope. -/
  scope : Scope
  name : ExpandedName
  attributes : List ExpandedAttribute
  /-- What was read of the content, the last first. -/
  content : List Content

/-- The element as it is when its end is reached. -/
def OpenElement.finish (o : OpenElement) : Element :=
  ⟨o.name, o.attributes, o.content.reverse⟩

/-- The element with one more piece of content. -/
def OpenElement.add (o : OpenElement) (c : Content) : OpenElement :=
  { o with content := c :: o.content }

/-- Opens the element of a start tag in the given scope. -/
def OpenElement.ofTag? (scope : Scope) (tag : TagName) (attributes : List RawAttribute) :
    Option OpenElement := do
  let parted ← Parted.ofRaw? attributes
  let scope := scope.enter parted.declared
  return ⟨tag, scope, ← scope.elementName? tag, ← scope.expand? parted.attributes.reverse, []⟩

/-- How far the tokens of a document were read. -/
inductive Progress where
  /-- Before the root element. -/
  | before
  /-- Inside `inner`, which lies in the elements `outer`, from the inside outwards. -/
  | inside (inner : OpenElement) (outer : List OpenElement)
  /-- After the root element. -/
  | after (root : Element)

/-- Where reading stands after an element ended that lay in `outer`. -/
def Progress.close (e : Element) : List OpenElement → Progress
  | [] => after e
  | o :: outer => inside (o.add (.element e.name e.attributes e.content)) outer

/-- Where reading stands after the next token. Outside the root there is room for white space and
asides only, and an end tag has to repeat the name of its start tag. -/
def Progress.step : Progress → Token → Option Progress
  | p, .aside => some p
  | before, .start tag attributes closed => do
    let o ← OpenElement.ofTag? [] tag attributes
    return if closed then close o.finish [] else inside o []
  | inside inner outer, .start tag attributes closed => do
    let o ← OpenElement.ofTag? inner.scope tag attributes
    return if closed then close o.finish (inner :: outer) else inside o (inner :: outer)
  | inside inner outer, .stop tag =>
    if tag = inner.tag then some (close inner.finish outer) else none
  | inside inner outer, .text raw =>
    (resolveText? raw).map fun cs => inside (inner.add (.text (.ofList cs))) outer
  | inside inner outer, .cdata content =>
    some (inside (inner.add (.text (.ofList (resolveSection content)))) outer)
  | before, .text raw => if raw.all isSpace then some before else none
  | after root, .text raw => if raw.all isSpace then some (after root) else none
  | _, _ => none

/-- The root element of the document that consists of the given tokens. -/
def Element.ofTokens? (tokens : List Token) : Option Element :=
  match tokens.foldlM Progress.step .before with
  | some (.after root) => some root
  | _ => none

/-- The root element of a document. -/
def Element.ofDocument? (document : List Char) : Option Element :=
  (tokens? document).bind Element.ofTokens?

end Netconf.Xml
