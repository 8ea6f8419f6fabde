import DeclarativeBuild.Settings

/-!
# Sessions

What holds for everything done on behalf of one command line: the directory it was given in, the
settings in force and the properties that override a description.
-/

namespace DeclarativeBuild

structure Session where
  cwd : Path
  /-- From 0, warnings only, to 3, everything. -/
  verbosity : Nat := 1
  jobs : Nat := 1
  /-- Names with values, in the order in which the names were first given. -/
  overrides : List (String × String) := []
  /-- Whether the descriptions in the directories above are imported. -/
  discovers : Bool := true
  settings : Settings := {}

namespace Session

def maxVerbosity : Nat := 3

/-- The largest count that the command line can add to the verbosity. -/
def maxCount : Nat := 255

def setVerbosity (s : Session) (n : Nat) : Session :=
  { s with verbosity := min n maxVerbosity }

def increaseVerbosity (s : Session) (n : Nat) : Session :=
  s.setVerbosity (min (s.verbosity + n) maxCount)

def setJobs (s : Session) (n : Nat) : Session :=
  { s with jobs := max n 1 }

def setDiscovers (s : Session) (on : Bool) : Session :=
  { s with discovers := on }

/-- Gives an override its value; a name that is known keeps its place. -/
def addOverride (s : Session) (name value : String) : Session :=
  if s.overrides.any (·.1 == name) then
    { s with overrides := s.overrides.map fun (n, v) => if n = name then (n, value) else (n, v) }
  else { s with overrides := s.overrides ++ [(name, value)] }

/-- Replaces the settings, and what they say about verbosity and jobs. -/
def setSettings (s : Session) (settings : Settings) : Session :=
  let s := match settings.build.verbosity with
    | some n => s.setVerbosity n
    | none => s
  let s := match settings.build.jobs with
    | some n => s.setJobs n
    | none => s
  { s with settings }

/-- Takes the settings of the user and of a project. -/
def loadSettings (s : Session) (w : World) (root : Path) : Session :=
  s.setSettings (Settings.combined w (Settings.userPath? w.environment) (Settings.projectPath root))

/-- A path of the command line. -/
def resolve (s : Session) (p : Path) : Path :=
  if p.isAbsolute then p else s.cwd.join p

end Session

/-- Reads a name with an optional value after an equals sign; the name must be one that templates
can refer to. -/
def readPropertyArgument (arg : String) : Except String (String × String) :=
  let (name, value) := (Text.cutFirst '=' arg.toList).getD (arg.toList, [])
  if name.isEmpty || !name.all Template.isNameChar then
    .error ("invalid property name `" ++ String.ofList name ++ "` in `" ++ arg ++ "`")
  else .ok (String.ofList name, String.ofList value)

end DeclarativeBuild
