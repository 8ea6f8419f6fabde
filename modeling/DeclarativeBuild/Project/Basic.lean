import DeclarativeBuild.Run.Stages
import DeclarativeBuild.Session
import DeclarativeBuild.Task.Reader

/-!
# Projects

Everything that a description and the files it imports declare.  Properties and presets keep their
first declaration; filesets and targets are replaced by later ones of the same name.
-/

namespace DeclarativeBuild

structure Project where
  name : Option String := none
  defaultTarget : Option String := none
  props : Properties := {}
  presets : PresetTable := {}
  filesets : List Fileset := []
  targets : List Target := []
  toolchain : Toolchain := {}

/-- Puts an item in the place of the one with its key, or at the end. -/
def putBy (key : α → String) (item : α) (items : List α) : List α :=
  if items.any (key · == key item) then
    items.map fun old => if key old = key item then item else old
  else items ++ [item]

namespace Project

/-- A project without declarations but the session's overrides and the built-in properties, in this
order.  The emulated compiler works on `root`. -/
def start (w : World) (s : Session) (root : Path) : Project :=
  let given := s.overrides.foldl (fun (p : Properties) (n, v) => (p.declare n v).2) Properties.empty
  let props := (Properties.builtin w.environment).toList.foldl
    (fun (p : Properties) (n, v) => (p.declare n v).2) given
  { props, toolchain := Toolchain.builtin s.settings.programs root }

def putFileset (p : Project) (f : Fileset) : Project :=
  { p with filesets := putBy Fileset.name f p.filesets }

def putTarget (p : Project) (t : Target) : Project :=
  { p with targets := putBy Target.name t p.targets }

def fileset? (p : Project) (name : String) : Option Fileset :=
  p.filesets.find? (·.name == name)

/-- The target of a name, or the default target. -/
def target (p : Project) (name? : Option String) : Except Failure Target :=
  match name?.or p.defaultTarget with
  | none => .error (.badDescription .noDefaultTarget)
  | some name =>
    match p.targets.find? (·.name == name) with
    | some t => .ok t
    | none => .error (.unknownTarget name (p.targets.map Target.name))

/-- The stages of a target, worked out with what is known of the presets. -/
def stages (p : Project) (name? : Option String) (jobs : Nat) : Except Failure (List Stage) :=
  (p.target name?).map fun t => (t.stages jobs p.presets).1

end Project

end DeclarativeBuild
