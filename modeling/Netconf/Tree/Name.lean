/-!
# Qualified names

A local name with the namespace it belongs to; the empty URI stands for no namespace.
-/

namespace Netconf

/-- A name in a namespace. -/
structure QName where
  /-- Namespace URI, empty for a name in no namespace. -/
  uri : String
  /-- Name within the namespace. -/
  localName : String
  deriving DecidableEq, Repr, Inhabited

namespace QName

/-- A name in no namespace. -/
def unqualified (name : String) : QName :=
  ⟨"", name⟩

/-- Whether the name belongs to a namespace. -/
def isQualified (q : QName) : Bool :=
  q.uri != ""

/-- The local name, after the namespace in braces if there is one. -/
def display (q : QName) : String :=
  if q.uri = "" then q.localName else "\x7b" ++ q.uri ++ "\x7d" ++ q.localName

/-- Whether `q`, used as a pattern, covers `name`: the local names agree, and so do the namespaces
unless the pattern has none. -/
def covers (q name : QName) : Bool :=
  q.localName == name.localName && (q.uri == "" || q.uri == name.uri)

/-- Order by namespace, then by local name. -/
instance : Ord QName :=
  ⟨compareLex (compareOn uri) (compareOn localName)⟩

instance : Std.TransOrd QName :=
  inferInstanceAs (Std.TransCmp (compareLex (compareOn uri) (compareOn localName)))

instance : Std.LawfulEqOrd QName where
  eq_of_compare {a b} h := by
    change compareLex (compareOn uri) (compareOn localName) a b = .eq at h
    simp only [compareLex_eq_eq, compareOn, Std.LawfulEqCmp.compare_eq_iff_eq] at h
    obtain ⟨uri, localName⟩ := a
    obtain ⟨rfl, rfl⟩ := h
    rfl

end QName

end Netconf
