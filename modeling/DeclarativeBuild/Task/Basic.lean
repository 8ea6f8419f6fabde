import DeclarativeBuild.Compiler.Toolchain
import DeclarativeBuild.Fileset

/-!
# Tasks and targets

What a target is made of.  Paths, sources and compilers are settled when a description is read;
presets are only named, and looked up when a task runs.
-/

namespace DeclarativeBuild

/-- Sources that are compiled to one object each, or an object that is there already. -/
structure ObjectTask where
  sources : List Path
  file? : Option Path
  outputs : List Path
  compiler : Compiler
  preset? : Option String
  params : Params
  forShlib : Bool
deriving DecidableEq, Repr

/-- The sources with their objects; none for an object that is there already. -/
def ObjectTask.units (o : ObjectTask) : List (Path × Path) :=
  if o.file?.isSome then [] else o.sources.zip o.outputs

/-- Objects and libraries that are linked together. -/
structure BinaryTask where
  mode : LinkMode
  output : Path
  objects : List ObjectTask
  libraries : List Path
  compiler : Compiler
  preset? : Option String
  params : Params
deriving DecidableEq, Repr

/-- All objects that are linked, in declaration order. -/
def BinaryTask.objectFiles (b : BinaryTask) : List Path :=
  b.objects.flatMap ObjectTask.outputs

inductive Task where
  | echo (text : String)
  | exec (command : String) (directory : Path)
  | object (task : ObjectTask)
  | binary (task : BinaryTask)
deriving DecidableEq, Repr

structure Target where
  name : String
  tasks : List Task
deriving DecidableEq, Repr

def joinPaths (paths : List Path) : String :=
  ", ".intercalate (paths.map Path.text)

def BinaryTask.display (b : BinaryTask) : String :=
  b.mode.tag ++ "([" ++ joinPaths b.objectFiles ++ "] -> " ++ b.output.text ++ ")"

def ObjectTask.display (o : ObjectTask) : String :=
  match o.file? with
  | some file => file.text
  | none =>
    let units := o.units.map fun (source, output) => source.text ++ " -> " ++ output.text
    "compile(" ++ ", ".intercalate units ++ ")"

def Task.display : Task → String
  | .echo text => "echo(\"" ++ text ++ "\")"
  | .exec command _ => "exec(\"" ++ command ++ "\")"
  | .object o => o.display
  | .binary b => b.display

end DeclarativeBuild
