import DeclarativeBuild.Project.Import
import DeclarativeBuild.Project.Listing

/-!
# Loading projects

A build file is read after the configuration files of the directories above its own.  Of those, the
ones that are other documents are passed over.
-/

namespace DeclarativeBuild

/-- The name of the configuration file of a directory. -/
def configFileName : String := "config.xml"

/-- The configuration files above a directory, from the root down. -/
def World.configFiles (w : World) (directory : Path) : List Path :=
  ((directory.parents.map (·.join ⟨configFileName⟩)).filter w.isFile).reverse

namespace Project

open Import

/-- Imports a configuration file unless a document turns out not to be a description. -/
def importConfig (w : World) (depth : Nat) (file : Path) : Import Unit := do
  note .trace ("importing config file `" ++ file.text ++ "`")
  tryCatch (discard (importFile w depth file)) fun
    | .failed (.foreignDocument path tag) =>
      note .warn ("config file `" ++ path.text ++ "` is not a buildcc file (root is `" ++ tag ++
        "`), ignoring")
    | fault => throw fault

/-- Reports the built-in properties that an override hides. -/
def noteHidden (s : Session) (w : World) : Import Unit :=
  (Properties.builtin w.environment).toList.forM fun (name, _) =>
    if s.overrides.any (·.1 == name) then
      note .trace ("property `" ++ name ++ "` already declared, keeping first value")
    else pure ()

def loadInto (w : World) (depth : Nat) (s : Session) (buildFile directory : Path) : Import Unit := do
  noteHidden s w
  if s.discovers then (w.configFiles directory).forM (importConfig w depth)
  importMain w depth buildFile
  let p ← Import.project
  note .trace ("resolved project:\n" ++ p.listing w)

/-- The project of a build file, with all there is to report about loading it.  Imports may be nested
`depth` deep: it stands for the stack of the process. -/
def load (w : World) (depth : Nat) (s : Session) (buildFile : Path) :
    Except ImportFault Project × List LogLine :=
  let buildFile := s.resolve buildFile
  let directory := buildFile.parent?.getD s.cwd
  let (result, l) :=
    ((loadInto w depth s buildFile directory).run).run { project := start w s directory }
  (result.map fun _ => l.project, l.journal)

end Project

end DeclarativeBuild
