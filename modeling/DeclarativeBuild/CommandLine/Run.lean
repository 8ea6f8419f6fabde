import DeclarativeBuild.CommandLine.Reader
import DeclarativeBuild.ObjectTags
import DeclarativeBuild.Project.Build
import DeclarativeBuild.Project.Load
import DeclarativeBuild.Run.PlanText

/-!
# Running command lines

A command line runs on a machine and ends with an exit code, unless imports are nested deeper than
the process can follow them.  Results go to standard output, log lines and errors to standard error.
-/

namespace DeclarativeBuild
namespace CommandLine

def versionText : String := "buildcc 0.1.0\n"

/-- The exit code of a command that failed. -/
def failureCode : Int := 1

/-- The exit code of a command line that cannot be read. -/
def misuseCode : Int := 2

/-- How a process ends: with an exit code, or by a signal once its stack is used up. -/
inductive Ending where
  | exited (code : Int)
  | aborted
deriving DecidableEq, Repr

/-- The session of a request: settings come from beside the description, and the options prevail. -/
def session (w : World) (options : Options) : Session :=
  let s : Session := { cwd := w.cwd }
  let s := match (s.resolve (options.file?.getD defaultFile)).parent? with
    | some directory => s.loadSettings w directory
    | none => s
  let s := if options.quiet then s.setVerbosity 0
    else if options.verbose > 0 then s.increaseVerbosity options.verbose
    else s
  options.properties.foldl (fun s (name, value) => s.addOverride name value)
    (s.setDiscovers !options.noConfig)

/-- Loads the project and reports on it. -/
def loadProject (depth : Nat) (s : Session) (file : Path) (m : Machine) :
    Except ImportFault Project × Machine :=
  let (result, journal) := Project.load m.world depth s file
  (result, journal.foldl (fun m line => Host.machine.log line m) m)

def showSteps (steps : List Step) : String :=
  String.join (steps.map fun step => step.display ++ "\n")

def runBuild (s : Session) (p : Project) (target? : Option String) (mode : BuildMode)
    (m : Machine) : Except ImportFault Unit × Machine :=
  let request : BuildRequest := { target?, rehearse := mode != .run }
  match p.build s request m with
  | (.error failure, m) => (.error (.failed failure), m)
  | (.ok (.ran target), m) =>
    (.ok (), Host.machine.log ⟨.info, "target `" ++ target ++ "` finished"⟩ m)
  | (.ok (.planned _ steps), m) =>
    (.ok (), m.write (if mode = .showPlan then planText steps ++ "\n" else showSteps steps))

/-- A line for each target, with the names filled up to the longest, counted in bytes. -/
def targetTable (p : Project) : String :=
  if p.targets.isEmpty then "no targets\n"
  else
    let width := (p.targets.map (·.name.utf8ByteSize)).foldl max 0
    String.join <| p.targets.map fun t =>
      let count := t.tasks.length
      t.name ++ String.ofList (List.replicate (width - t.name.length) ' ') ++ "  " ++
        toString count ++ (if count = 1 then " task" else " tasks") ++
        (if p.defaultTarget == some t.name then " (default)" else "") ++ "\n"

def compilerTable (w : World) (p : Project) : String :=
  String.join <| "compilers:\n" :: (p.toolchain.availability w).map fun (name, found?) =>
    "\t" ++ name ++ "\t= " ++ (found?.map Path.text).getD "not found" ++ "\n"

/-- Shows something about the project. -/
def showProject (depth : Nat) (s : Session) (file : Path) (view : World → Project → String)
    (m : Machine) : Except ImportFault Unit × Machine :=
  match loadProject depth s file m with
  | (.error fault, m) => (.error fault, m)
  | (.ok p, m) => (.ok (), m.write (view m.world p))

def runCommand (depth : Nat) (s : Session) (file : Path) (command : Command) (m : Machine) :
    Except ImportFault Unit × Machine :=
  match command with
  | .build target? mode jobs? =>
    let s := match jobs? with
      | some n => s.setJobs n
      | none => s
    match loadProject depth s file m with
    | (.error fault, m) => (.error fault, m)
    | (.ok p, m) => runBuild s p target? mode m
  | .targets => showProject depth s file (fun _ p => targetTable p) m
  | .dump => showProject depth s file (fun w p => p.listing w ++ compilerTable w p) m
  | .objectTags directory =>
    match m.world.objectTags (s.resolve directory) with
    | .error failure => (.error (.failed failure), m)
    | .ok tags => (.ok (), m.write (String.join (tags.map (· ++ "\n"))))

/-- Runs a request and tells how the process ends. -/
def runRequest (depth : Nat) (r : Request) (m : Machine) : Ending × Machine :=
  let s := session m.world r.options
  let file := s.resolve (r.options.file?.getD defaultFile)
  let m := { m with console := { m.console with verbosity := s.verbosity } }
  match runCommand depth s file r.command m with
  | (.ok _, m) => (.exited 0, m)
  | (.error (.failed failure), m) =>
    (.exited failureCode, m.complain (failure.diagnostic.render false))
  | (.error (.tooDeep _), m) => (.aborted, m)

/-- Runs the words after the program's own name, in a process that can follow imports nested `depth`
deep. -/
def run (depth : Nat) (words : List String) (m : Machine) : Ending × Machine :=
  match read words with
  | .request r => runRequest depth r m
  | .version => (.exited 0, m.write versionText)
  | .misuse => (.exited misuseCode, m)

end CommandLine
end DeclarativeBuild
