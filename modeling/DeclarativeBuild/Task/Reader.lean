import DeclarativeBuild.Task.Basic

/-!
# Reading tasks

Tasks from the elements of a target, in the scope of what the description declares before it.
-/

namespace DeclarativeBuild

/-- What the elements of a target can refer to, and the directory their paths start at. -/
structure Scope where
  world : World
  props : Properties
  filesets : List Fileset
  toolchain : Toolchain
  base : Path

namespace Scope

def path (s : Scope) (template : String) : Except Failure Path := do
  return s.base.join ⟨← s.props.expand template⟩

/-- The compiler that an element chooses; one that chooses none takes the one around it. -/
def compiler (s : Scope) (e : Element) (outer? : Option Compiler) : Except Failure Compiler :=
  match e.attribute? "compiler", e.attribute? "lang", outer? with
  | none, none, some c => .ok c
  | name?, tag?, _ => s.toolchain.find name? tag?

def filesetFiles (s : Scope) (name : String) : Except Failure (List Path) :=
  match s.filesets.find? (·.name == name) with
  | none => .error (.unknownFileset name)
  | some f => f.files s.world

end Scope

namespace ObjectTask

/-- Old names of attributes are refused. -/
def checkDeprecated (e : Element) : Except Failure Unit :=
  if e.has "source" then .error (.badDescription (.deprecatedAttribute "source" "src"))
  else if e.has "source-set" then
    .error (.badDescription (.deprecatedAttribute "source-set" "src-set"))
  else .ok ()

def readSources (s : Scope) (e : Element) : Except Failure (List Path) :=
  match e.attribute? "src", e.attribute? "src-set" with
  | some template, _ => (s.path template).map ([·])
  | none, some name => s.filesetFiles name
  | none, none => .ok []

/-- The objects of the sources: the file itself, the one given, or the compiler's choice. -/
def readOutputs (s : Scope) (e : Element) (sources : List Path) (file? : Option Path)
    (c : Compiler) : Except Failure (List Path) :=
  match file?, e.attribute? "output" with
  | some file, _ => .ok [file]
  | none, some template =>
    if sources.length ≠ 1 then .error (.badDescription (.outputNeedsOneSource sources.length))
    else (s.path template).map ([·])
  | none, none =>
    if sources.isEmpty && !e.has "src-set" then .error (.badDescription .objectWithoutSource)
    else .ok (sources.map c.defaultObject)

/-- An object task; inside a binary, `outer?` is the binary's compiler. -/
def ofElement (s : Scope) (outer? : Option Compiler) (e : Element) :
    Except Failure ObjectTask := do
  checkDeprecated e
  let sources ← readSources s e
  let file? ← (e.attribute? "file").mapM s.path
  let compiler ← s.compiler e outer?
  let outputs ← readOutputs s e sources file? compiler
  let params ← Params.ofElement s.props s.base e
  return { sources, file?, outputs, compiler, preset? := e.attribute? "preset", params,
           forShlib := false }

end ObjectTask

/-- A binary task; the objects of a shared library are built for one. -/
def BinaryTask.ofElement (s : Scope) (mode : LinkMode) (e : Element) :
    Except Failure BinaryTask := do
  let output ← s.path (← e.require "output")
  let compiler ← s.compiler e none
  let objects ← (e.childrenNamed "object").mapM fun child => do
    let object ← ObjectTask.ofElement s (some compiler) child
    return { object with forShlib := mode == .sharedLibrary }
  let libraries ← (e.childrenNamed "link").mapM fun child => do
    s.path (← child.require "libpath")
  let params ← Params.ofElement s.props s.base e
  return { mode, output, objects, libraries, compiler, preset? := e.attribute? "preset", params }

namespace Task

/-- The tags of the elements that are tasks. -/
def tags : List String :=
  ["echo", "exec", "object", "executable", "shared-library"]

def ofElement (s : Scope) (e : Element) : Except Failure Task := do
  match e.tag with
  | "echo" => return .echo (← s.props.expand (e.text?.getD ""))
  | "exec" => return .exec (← s.props.expand (e.text?.getD "")) s.base
  | "object" => return .object (← ObjectTask.ofElement s none e)
  | "executable" => return .binary (← BinaryTask.ofElement s .executable e)
  | "shared-library" => return .binary (← BinaryTask.ofElement s .sharedLibrary e)
  | other => .error (.badDescription (.unknownTask other))

end Task

def Target.ofElement (s : Scope) (e : Element) : Except Failure Target := do
  let name ← e.require "name"
  let tasks ← e.children.mapM (Task.ofElement s)
  return { name, tasks }

end DeclarativeBuild
