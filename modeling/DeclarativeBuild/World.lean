import DeclarativeBuild.Disk.Change
import DeclarativeBuild.Failure
import DeclarativeBuild.Markup.Reader
import DeclarativeBuild.Properties

/-!
# The world outside

What a description can depend on beside its own text: the files, the working directory and the
environment.
-/

namespace DeclarativeBuild

structure World where
  disk : Disk
  cwd : Path
  environment : Environment

namespace World

/-- A path from the root, seen from the working directory. -/
def absolute (w : World) (p : Path) : Except Failure Path :=
  match p.absolute? w.cwd with
  | some q => .ok q
  | none => .error (.system (.resolve p) .emptyPath)

def readText (w : World) (p : Path) : Except SystemError String :=
  w.disk.readText w.cwd p

def isFile (w : World) (p : Path) : Bool :=
  w.disk.isFile w.cwd p

end World

/-- Reads a document whose text came from `path`. -/
def Element.ofSource (path : Path) (source : String) : Except Failure Element :=
  match Markup.readDocument source with
  | some root => .ok root
  | none => .error (.badMarkup path "the document is not well-formed")

/-- Reads the document in a file. -/
def World.readDocument (w : World) (path : Path) : Except Failure Element :=
  match w.readText path with
  | .error cause => .error (.system (.read path) cause)
  | .ok source => Element.ofSource path source

end DeclarativeBuild
