import DeclarativeBuild.Language
import DeclarativeBuild.Params
import DeclarativeBuild.Run.Action

/-!
# Drivers on the host

Compilers that take the usual options of `gcc` and `clang`.
-/

namespace DeclarativeBuild

/-- What the objects of a binary are linked into. -/
inductive LinkMode where
  | executable
  | sharedLibrary
deriving DecidableEq, Inhabited, Repr

def LinkMode.tag : LinkMode → String
  | .executable => "executable"
  | .sharedLibrary => "shared-library"

inductive GnuFamily where
  | gcc
  | clang
deriving DecidableEq, Inhabited, Repr

structure GnuDriver where
  name : String
  language : Language
  family : GnuFamily
  program : Path
deriving DecidableEq, Inhabited, Repr

/-- The directory and the file name of a library. -/
def splitLibrary (library : Path) : String × String :=
  let directory := match library.parent? with
    | some p => if p.text == "" then "." else p.text
    | none => "."
  (directory, library.fileName?.getD "")

namespace GnuDriver

def includeArgs (p : Params) : List String :=
  p.includes.flatMap fun directory => ["-I", directory]

def defineArgs (p : Params) : List String :=
  p.defines.flatMap fun definition => ["-D", definition]

/-- The library is found at run time where it is found now, and by its exact file name. -/
def libraryArgs (library : Path) : List String :=
  let (directory, file) := splitLibrary library
  ["-Wl,-rpath," ++ directory, "-L", directory, "-l:" ++ file]

def optional (condition : Bool) (arg : String) : List String :=
  if condition then [arg] else []

/-- The command that compiles one source. -/
def objectCommand (d : GnuDriver) (output source : Path) (p : Params) : Invocation where
  program := d.program
  args := ["-o", output.text, "-c"] ++ optional p.debugSymbols "-g" ++
    optional p.forShlib "-fPIC" ++ [source.text] ++ includeArgs p ++ defineArgs p ++ p.opts

/-- The command that links objects and libraries. -/
def linkCommand (d : GnuDriver) (mode : LinkMode) (output : Path) (objects libraries : List Path)
    (p : Params) : Invocation where
  program := d.program
  args := optional (mode == .sharedLibrary) "-shared" ++ optional p.debugSymbols "-g" ++
    ["-o", output.text] ++ objects.map Path.text ++ includeArgs p ++ defineArgs p ++
    libraries.flatMap libraryArgs ++ p.opts

end GnuDriver

end DeclarativeBuild
