/-!
# Names with a namespace

A name may carry the name of a namespace before a colon.  Namespaces only decide whether a document
is accepted: elements and attributes are known by their local names.
-/

namespace DeclarativeBuild
namespace Markup

/-- A name as written: what stands before the colon, empty if nothing does, and the rest. -/
structure QualifiedName where
  qualifier : String
  localName : String
deriving DecidableEq

structure Attribute where
  name : QualifiedName
  value : String

/-- The namespaces in scope, each with its identifier. -/
abbrev Namespaces := List (String × String)

def xmlIdentifier : String := "http://www.w3.org/XML/1998/namespace"

def xmlnsIdentifier : String := "http://www.w3.org/2000/xmlns/"

def Namespaces.initial : Namespaces := [("xml", xmlIdentifier)]

/-- The namespaces that the attributes of one element declare, or nothing if one may not be
declared so. -/
def declared? : List Attribute → Namespaces → Option Namespaces
  | [], own => some own
  | a :: rest, own =>
    if a.name.qualifier == "xmlns" then
      let reserved := a.value == xmlIdentifier
      if a.value == xmlnsIdentifier || (a.name.localName == "xml") != reserved then none
      else if own.any (·.1 == a.name.localName) then none
      else declared? rest (if reserved then own else (a.name.localName, a.value) :: own)
    else if a.name.localName == "xmlns" then
      if a.value == xmlIdentifier || a.value == xmlnsIdentifier then none else declared? rest own
    else declared? rest own

def Attribute.isDeclaration (a : Attribute) : Bool :=
  a.name.qualifier == "xmlns" || a.name.localName == "xmlns"

/-- A name without a qualifier belongs to no namespace; any other needs one in scope. -/
def resolves (scope : Namespaces) (name : QualifiedName) : Bool :=
  name.qualifier == "" || (scope.lookup name.qualifier).isSome

/-- What tells the attributes of one element apart. -/
def expanded (scope : Namespaces) (name : QualifiedName) : Option String × String :=
  (if name.qualifier == "" then none else scope.lookup name.qualifier, name.localName)

/-- Whether every name has a namespace in scope and no two attributes have the same name. -/
def distinctNames (scope : Namespaces) (attributes : List Attribute) : Bool :=
  attributes.all (resolves scope ·.name) &&
    decide (attributes.map (expanded scope ·.name)).Nodup

/-- Whether a qualifier belongs to attributes alone. -/
def isAttributeQualifier (qualifier : String) : Bool :=
  qualifier == "xml" || qualifier == "xmlns"

/-- The scope and attributes of an element that is accepted inside `outer`. -/
def enter? (outer : Namespaces) (name : QualifiedName) (attributes : List Attribute) :
    Option (Namespaces × List (String × String)) := do
  let own ← declared? attributes []
  let scope := own ++ outer
  let plain := attributes.filter (!·.isDeclaration)
  if !isAttributeQualifier name.qualifier && resolves scope name && distinctNames scope plain
  then some (scope, plain.map fun a => (a.name.localName, a.value))
  else none

end Markup
end DeclarativeBuild
