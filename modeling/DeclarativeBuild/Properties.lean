import DeclarativeBuild.Markup.Element
import DeclarativeBuild.Template

/-!
# Properties

Names with values that descriptions can refer to.  `declare` keeps the first value of a name, which
is what lets the command line and outer files prevail over inner ones.
-/

namespace DeclarativeBuild

/-- The variables of a process. -/
abbrev Environment := List (String × String)

/-- The variables of a process that is given `changes` beside those it inherits: the last value of a
name counts.  A name that holds an equals sign ends there. -/
def Environment.changed (inherited : Environment) (changes : List (String × String)) :
    Environment :=
  let kept := inherited.filter fun (name, _) => !changes.any (·.1 == name)
  let last := changes.foldl (fun found (name, value) =>
    found.filter (·.1 != name) ++ [(name, value)]) []
  (kept ++ last).map fun (name, value) =>
    match Text.cutFirst '=' (name ++ "=" ++ value).toList with
    | some (n, v) => (String.ofList n, String.ofList v)
    | none => (name, value)

/-- An attribute that must be there. -/
def Element.require (e : Element) (name : String) : Except Failure String :=
  match e.attribute? name with
  | some value => .ok value
  | none => .error (.missingAttribute e.tag name)

/-- Properties in the order in which their names came up. -/
structure Properties where
  entries : List (String × String) := []

namespace Properties

def empty : Properties := {}

def get? (p : Properties) (name : String) : Option String :=
  p.entries.lookup name

def contains (p : Properties) (name : String) : Bool :=
  (p.get? name).isSome

/-- Adds a property unless its name has a value, and says whether it did. -/
def declare (p : Properties) (name value : String) : Bool × Properties :=
  if p.contains name then (false, p) else (true, ⟨p.entries ++ [(name, value)]⟩)

/-- Gives a name a value, whether or not it has one. -/
def set (p : Properties) (name value : String) : Properties :=
  if p.contains name then
    ⟨p.entries.map fun (n, v) => if n = name then (n, value) else (n, v)⟩
  else ⟨p.entries ++ [(name, value)]⟩

def remove (p : Properties) (name : String) : Properties :=
  ⟨p.entries.filter (·.1 != name)⟩

/-- A name's former state: a value, or none. -/
def restore (p : Properties) (name : String) : Option String → Properties
  | some value => p.set name value
  | none => p.remove name

def size (p : Properties) : Nat :=
  p.entries.length

/-- The properties by increasing bytes of their names. -/
def toList (p : Properties) : List (String × String) :=
  p.entries.mergeSort fun a b => decide (a.1 ≤ b.1)

/-- The user's home directory and name. -/
def builtin (environment : Environment) : Properties :=
  let home := (environment.lookup "HOME").getD ""
  let user := (environment.lookup "USER" <|> environment.lookup "USERNAME").getD ""
  ⟨[("user.home", home), ("user.name", user)]⟩

def expand (p : Properties) (text : String) : Except Failure String :=
  Template.expand p.get? text

/-- A property that a condition compares. -/
def compared (p : Properties) (name : String) : Except Failure String :=
  match p.get? name with
  | some value => .ok value
  | none => .error (.undefinedProperty name)

/-- Whether an element's condition holds: a property is declared, has a value, or has another. -/
def holds (p : Properties) (e : Element) : Except Failure Bool :=
  match e.attribute? "if" with
  | none => .ok true
  | some name =>
    match e.attribute? "eq", e.attribute? "neq" with
    | some expected, _ => (p.compared name).map (· == expected)
    | none, some unexpected => (p.compared name).map (· != unexpected)
    | none, none => .ok (p.contains name)

/-- Steps that declare properties; what is declared before a failure stays declared. -/
abbrev Declaring := ExceptT Failure (StateM Properties)

/-- Declares an element's own property, if it has a value and its name has none. -/
def declareOwn (name : String) (e : Element) : Declaring Unit := do
  match e.attribute? "value" with
  | none => pure ()
  | some template =>
    if (← get).contains name then pure ()
    else
      let value ← (← get).expand template
      modify fun p => (p.declare name value).2

mutual

/-- Declares the property of an element and those inside it, whose names continue its own.  An
element whose condition fails is skipped with all it holds. -/
def declareElement (outer : String) : Element → Declaring Unit
  | .mk tag attributes children text? => do
    let e := Element.mk tag attributes children text?
    if ← (← get).holds e then
      let name := outer ++ (← e.require "name")
      declareOwn name e
      declareChildren (name ++ ".") children
    else pure ()

def declareChildren (outer : String) : List Element → Declaring Unit
  | [] => pure ()
  | e :: rest => do
    if e.tag == "property" then declareElement outer e else pure ()
    declareChildren outer rest

end

end Properties

end DeclarativeBuild
