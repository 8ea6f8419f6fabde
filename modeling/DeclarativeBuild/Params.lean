import DeclarativeBuild.Properties

/-!
# Compile and link parameters

A bundle of parameters and how one is put on top of another: the inner flag prevails where it is
set, lists are joined with the outer one first.
-/

namespace DeclarativeBuild

structure Params where
  debugSymbols? : Option Bool := none
  forShlib? : Option Bool := none
  includes : List String := []
  defines : List String := []
  opts : List String := []
deriving DecidableEq, Inhabited, Repr

namespace Params

def empty : Params := {}

/-- Whether debug information is asked for. -/
def debugSymbols (p : Params) : Bool :=
  p.debugSymbols?.getD false

/-- Whether objects are built for a shared library. -/
def forShlib (p : Params) : Bool :=
  p.forShlib?.getD false

/-- The parameters `inner` on top of `outer`. -/
def merge (outer inner : Params) : Params where
  debugSymbols? := inner.debugSymbols?.or outer.debugSymbols?
  forShlib? := inner.forShlib?.or outer.forShlib?
  includes := outer.includes ++ inner.includes
  defines := outer.defines ++ inner.defines
  opts := outer.opts ++ inner.opts

def forcedForShlib (p : Params) : Params :=
  { p with forShlib? := some true }

@[simp] theorem merge_empty (p : Params) : p.merge empty = p := by
  simp [merge, empty]

@[simp] theorem empty_merge (p : Params) : empty.merge p = p := by
  simp [merge, empty]

theorem merge_assoc (p q r : Params) : (p.merge q).merge r = p.merge (q.merge r) := by
  simp [merge, Option.or_assoc]

/-- A flag attribute, which is `true` or `false` if it is there. -/
def flag (e : Element) (name : String) : Except Failure (Option Bool) :=
  match e.attribute? name with
  | none => .ok none
  | some "true" => .ok (some true)
  | some "false" => .ok (some false)
  | some other => .error (.badDescription (.badFlag e.tag name other))

/-- The expanded values of one attribute of the inner elements with one tag. -/
def values (props : Properties) (e : Element) (tag name : String) : Except Failure (List String) :=
  (e.childrenNamed tag).mapM fun child => do props.expand (← child.require name)

/-- The parameters written on an element.  Relative include directories start at `base`. -/
def ofElement (props : Properties) (base : Path) (e : Element) : Except Failure Params := do
  let debugSymbols? ← flag e "debug-symbols"
  let forShlib? ← flag e "for-shlib"
  let dirs ← values props e "include" "dir"
  let defines ← values props e "define" "key"
  let opts ← values props e "opt" "value"
  return { debugSymbols?, forShlib?, includes := dirs.map fun dir => (base.join ⟨dir⟩).text,
           defines, opts }

end Params

end DeclarativeBuild
