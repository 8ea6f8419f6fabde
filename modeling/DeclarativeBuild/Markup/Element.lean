/-!
# Elements

An element of a build description: a tag, attributes, the elements inside it and its leading text.
-/

namespace DeclarativeBuild

inductive Element where
  | mk (tag : String) (attributes : List (String × String)) (children : List Element)
      (text? : Option String)
deriving Inhabited, Repr

namespace Element

def tag : Element → String
  | mk t _ _ _ => t

def attributes : Element → List (String × String)
  | mk _ as _ _ => as

def children : Element → List Element
  | mk _ _ cs _ => cs

/-- The text before the first inner element, if there is any. -/
def text? : Element → Option String
  | mk _ _ _ t => t

/-- The value of an attribute; of two with one name the first counts. -/
def attribute? (e : Element) (name : String) : Option String :=
  e.attributes.lookup name

def has (e : Element) (name : String) : Bool :=
  (e.attribute? name).isSome

def childrenNamed (e : Element) (tag : String) : List Element :=
  e.children.filter (·.tag == tag)

end Element

end DeclarativeBuild
