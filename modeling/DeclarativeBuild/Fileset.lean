import DeclarativeBuild.Wildcard.Matches
import DeclarativeBuild.World

/-!
# Filesets

Named lists of files and wildcards.  Wildcards are looked up when the files are asked for.
-/

namespace DeclarativeBuild

inductive FileSource where
  | file (path : Path)
  | wildcard (pattern : String)
deriving DecidableEq, Repr

def World.ground (w : World) : Wildcard.Ground :=
  ⟨w.disk, w.cwd⟩

/-- The path of a match; an obstacle is a failure. -/
def Wildcard.Sighting.path (pattern : String) : Wildcard.Sighting → Except Failure Path
  | .ok place => .ok place.path
  | .error obstacle => .error (.system (.expand pattern obstacle.directory) obstacle.cause)

/-- The files of one source.  Those of a wildcard are in order, up to the first obstacle. -/
def FileSource.files (w : World) : FileSource → Except Failure (List Path)
  | .file path => .ok [path]
  | .wildcard pattern =>
    match w.ground.expand pattern with
    | .ok sightings => sightings.mapM (Wildcard.Sighting.path pattern)
    | .error fault => .error (.badDescription (.badWildcard pattern fault))

structure Fileset where
  name : String
  sources : List FileSource
deriving DecidableEq, Repr

namespace Fileset

/-- A source of a fileset; its path starts at `base`. -/
def sourceOfElement (props : Properties) (base : Path) (e : Element) :
    Except Failure FileSource := do
  match e.tag with
  | "file" =>
    let path ← props.expand (← e.require "path")
    return .file (base.join ⟨path⟩)
  | "wildcard" =>
    let pattern ← props.expand (← e.require "pattern")
    return .wildcard (base.join ⟨pattern⟩).text
  | other => .error (.badDescription (.unexpectedElement other "fileset"))

def ofElement (props : Properties) (base : Path) (e : Element) : Except Failure Fileset := do
  let sources ← e.children.mapM (sourceOfElement props base)
  let name ← e.require "name"
  return { name, sources }

/-- All files, in the order of the sources. -/
def files (w : World) (f : Fileset) : Except Failure (List Path) := do
  let lists ← f.sources.mapM (FileSource.files w)
  return lists.flatten

end Fileset

end DeclarativeBuild
