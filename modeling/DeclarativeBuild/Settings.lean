import DeclarativeBuild.Compiler.Toolchain
import DeclarativeBuild.Toml.Reader

/-!
# Settings

What users and projects set once for all builds.  A project's settings prevail over the user's, key
by key; a file that is missing or malformed counts as empty.
-/

namespace DeclarativeBuild

structure BuildSettings where
  verbosity : Option Nat := none
  jobs : Option Nat := none
deriving DecidableEq, Inhabited, Repr

structure Settings where
  build : BuildSettings := {}
  programs : ProgramSettings := {}
deriving DecidableEq, Inhabited, Repr

/-- Why a settings file was not read. -/
inductive SettingsFault where
  | unreadable (path : Path)
  | malformed (path : Path)
deriving DecidableEq, Repr

def SettingsFault.message : SettingsFault → String
  | .unreadable path => "failed to read config file: " ++ path.text
  | .malformed path => "failed to parse config file: " ++ path.text

namespace Settings

/-- A setting of a group, by name or, in a group written as an array, by position. -/
def member? (group : Toml.Value) (name : String) (position : Nat) : Option Toml.Value :=
  match group with
  | .table _ entries => entries.lookup name
  | .array items | .tables items => items[position]?
  | _ => none

/-- Whether a value can be read as a group.  A date or time can: it is a group without settings. -/
def isGroup : Toml.Value → Bool
  | .table _ _ | .array _ | .tables _ | .moment _ => true
  | _ => false

/-- A setting that need not be there but must have the right type if it is. -/
def optional (read : Toml.Value → Option α) : Option Toml.Value → Option (Option α)
  | none => some none
  | some v => (read v).map some

def naturalBelow (bound : Nat) : Toml.Value → Option Nat
  | .integer n => if 0 ≤ n ∧ n < bound then some n.toNat else none
  | _ => none

def text : Toml.Value → Option String
  | .string s => some s
  | _ => none

def texts : Toml.Value → Option (List String)
  | .array items | .tables items => items.mapM text
  | _ => none

def buildOf (group : Toml.Value) : Option BuildSettings := do
  if !isGroup group then none
  let verbosity ← optional (naturalBelow 256) (member? group "verbosity" 0)
  let jobs ← optional (naturalBelow Toml.integerBound) (member? group "jobs" 1)
  some { verbosity, jobs }

def programsOf (group : Toml.Value) : Option ProgramSettings := do
  if !isGroup group then none
  let path (name : String) (position : Nat) :=
    optional (fun v => (text v).map Path.mk) (member? group name position)
  let clang ← path "clang" 0
  let clangxx ← path "clangxx" 1
  let gcc ← path "gcc" 2
  let gxx ← path "gxx" 3
  let dosbox ← path "dosbox" 4
  let dosboxArgs ← optional texts (member? group "dosbox_args" 5)
  let wcl ← optional text (member? group "wcl" 6)
  some { clang, clangxx, gcc, gxx, dosbox, dosboxArgs := dosboxArgs.getD [], wcl }

/-- The settings in a table; unknown keys are passed over. -/
def ofEntries (entries : Toml.Entries) : Option Settings := do
  let build ← optional buildOf (entries.lookup "build")
  let programs ← optional programsOf (entries.lookup "toolchain")
  some { build := build.getD {}, programs := programs.getD {} }

def ofSource (source : String) : Option Settings :=
  (Toml.read source).bind ofEntries

/-- Settings that prevail over others where they are set. -/
def override (base top : Settings) : Settings where
  build :=
    { verbosity := top.build.verbosity.or base.build.verbosity
      jobs := top.build.jobs.or base.build.jobs }
  programs := base.programs.override top.programs

/-- The settings in a file. -/
def load (w : World) (path : Path) : Except SettingsFault Settings :=
  match w.readText path with
  | .error _ => .error (.unreadable path)
  | .ok source =>
    match ofSource source with
    | some s => .ok s
    | none => .error (.malformed path)

/-- The settings in a file, or none if it cannot be read. -/
def loadOrDefault (w : World) (path : Path) : Settings :=
  if w.disk.contains w.cwd path then
    match load w path with
    | .ok s => s
    | .error _ => {}
  else {}

/-- The project's settings on top of the user's. -/
def combined (w : World) (user? : Option Path) (project : Path) : Settings :=
  let user := match user? with
    | some path => Settings.override {} (loadOrDefault w path)
    | none => {}
  user.override (loadOrDefault w project)

/-- Where a project keeps its settings. -/
def projectPath (root : Path) : Path :=
  (root.join ⟨".buildcc"⟩).join ⟨"config.toml"⟩

/-- Where a user keeps settings. -/
def userPath? (environment : Environment) : Option Path :=
  (environment.lookup "HOME").map fun home => projectPath ⟨home⟩

end Settings

end DeclarativeBuild
