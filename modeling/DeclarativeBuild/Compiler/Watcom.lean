import DeclarativeBuild.Compiler.Gnu
import DeclarativeBuild.Compiler.ShortName

/-!
# The compiler in the emulator

A compiler that runs in an emulated machine with one directory of the host as its drive.  It sees
short names only and writes to fixed files, which are moved to where they are wanted.
-/

namespace DeclarativeBuild

structure WatcomDriver where
  emulator : Path
  emulatorArgs : List String
  driver : String
  mount : Path
deriving DecidableEq, Inhabited, Repr

namespace WatcomDriver

/-- The drive letter of the mounted directory. -/
def drive : String := "W"

def objectOutput : String := "OUT.OBJ"

def executableOutput : String := "OUT.EXE"

/-- The steps from the mounted directory to a path; a relative path starts there. -/
def stepsToward (d : WatcomDriver) (p : Path) : List Component :=
  if p.isAbsolute && d.mount.isAbsolute then
    (Path.stepsBetween d.mount.components p.components).getD p.components
  else p.components

/-- The names along the steps, if none of them leaves the mounted directory. -/
def namesOf? : List Component → Option (List String)
  | [] => some []
  | .name n :: rest => (namesOf? rest).map (n :: ·)
  | .here :: rest => namesOf? rest
  | _ => none

/-- The path on the drive. -/
def drivePath (d : WatcomDriver) (p : Path) : Except Failure String :=
  match namesOf? (d.stepsToward p) with
  | some names => ShortName.ofPath ("/".intercalate names)
  | none => .error (.incompatiblePath p.text (.outsideMount d.mount))

def drivePaths (d : WatcomDriver) (paths : List Path) : Except Failure (List String) :=
  paths.mapM d.drivePath

/-- The line that compiles one source into the fixed object file. -/
def objectLine (d : WatcomDriver) (source : Path) (p : Params) : Except Failure String := do
  let operand ← d.drivePath source
  let includes ← d.drivePaths (p.includes.map Path.mk)
  return " ".intercalate ([d.driver, "/c", operand, "/fo=" ++ objectOutput] ++
    GnuDriver.optional p.debugSymbols "/d2" ++ p.defines.map ("/d" ++ ·) ++
    includes.map ("/i=" ++ ·) ++ p.opts)

/-- The line that links objects and libraries into the fixed executable. -/
def executableLine (d : WatcomDriver) (objects libraries : List Path) (p : Params) :
    Except Failure String := do
  let objects ← d.drivePaths objects
  let libraries ← d.drivePaths libraries
  return " ".intercalate ([d.driver, "/l=dos", "/fe=" ++ executableOutput] ++
    GnuDriver.optional p.debugSymbols "/d2" ++ objects ++ libraries ++ p.opts)

/-- The emulator run that executes one line on the drive. -/
def emulatorCommand (d : WatcomDriver) (line : String) : Invocation where
  program := d.emulator
  args := d.emulatorArgs ++
    ["mount " ++ drive ++ " \"" ++ d.mount.text ++ "\"", drive ++ ":", line, "exit"].flatMap
      fun command => ["-c", command]
  directory := some d.mount

/-- Runs a line and moves the fixed file to `output`. -/
def runLine (d : WatcomDriver) (fixed : String) (output : Path) :
    Except Failure String → List Action
  | .error failure => [.fail failure]
  | .ok line =>
    [.log ⟨.debug, line⟩, .log ⟨.trace, "DOSBox command: " ++ (d.emulatorCommand line).display⟩,
      .run (d.emulatorCommand line), .move (d.mount.join ⟨fixed⟩) output]

end WatcomDriver

end DeclarativeBuild
