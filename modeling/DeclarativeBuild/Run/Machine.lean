import DeclarativeBuild.Run.Host
import DeclarativeBuild.Shell.Evaluate

/-!
# Running on a world

The host on which commands do what they say: they run on the files of a world and write to a
console.
-/

namespace DeclarativeBuild

structure Machine where
  world : World
  console : Console := {}

/-- The world as a command sees it, in its own directory and with its own environment. -/
def World.forCommand (w : World) (command : Invocation) : Except SystemError World :=
  let w := { w with environment := Environment.changed w.environment command.environment }
  match command.directory with
  | none => .ok w
  | some directory =>
    match w.disk.locate true w.cwd directory with
    | .error cause => .error cause
    | .ok loc =>
      match w.disk.lookup loc with
      | some .directory => .ok { w with cwd := Disk.pathOf loc }
      | some _ => .error .notADirectory
      | none => .error .notFound

/-- Whether a NUL byte, which ends a text for the system, stands in any part of a command. -/
def Invocation.holdsNul (command : Invocation) : Bool :=
  let texts := command.program.text :: command.args ++
    command.environment.flatMap (fun (name, value) => [name, value]) ++
    (command.directory.map Path.text).toList
  texts.any (·.toList.contains '\x00')

/-- Whether a command is looked up on a search path of its own, as the shell does it: a file in no
known form is then read by the shell. -/
def Invocation.setsSearchPath (command : Invocation) : Bool :=
  command.environment.any (·.1 == "PATH") && !command.program.text.toList.contains '/'

/-- The process of a command, in the world that it sees. -/
def World.launch (w : World) (command : Invocation) : Except SystemError (World × Process) := do
  if command.holdsNul then .error .nulInData
  let w ← w.forCommand command
  let file ← locateProgram w command.program
  let self := command.program.text
  let process ← if command.setsSearchPath then loadOrInterpret w self file command.args
    else loadProgram w interpreterLimit self file command.args
  return (w, process)

/-- The exit code of a process that has ended; it is negative if a signal ended it. -/
def Shell.State.exitCode (s : Shell.State) : Int :=
  match s.leaving with
  | some (.exit code) => code
  | some (.killed _) => -1
  | _ => s.status

namespace Machine

/-- Adds to standard output. -/
def write (m : Machine) (text : String) : Machine :=
  { m with console := { m.console with output := m.console.output ++ text } }

/-- Adds to standard error. -/
def complain (m : Machine) (text : String) : Machine :=
  { m with console := { m.console with errors := m.console.errors ++ text } }

/-- Runs a command to its end and keeps what it changed and wrote. -/
def execute (command : Invocation) (m : Machine) : Except Failure Int × Machine :=
  match m.world.launch command with
  | .error cause => (.error (.notLaunched command.program cause), m)
  | .ok (w, process) =>
    let ended := Shell.runProcess Shell.maxLevels { world := w } process
    let m := { m with world := { m.world with disk := ended.world.disk } }
    (.ok ended.exitCode, (m.write (ended.streams.textAt 1)).complain (ended.streams.textAt 2))

/-- Moves a file that a command produced to its place. -/
def move (source target : Path) (m : Machine) : Except Failure Unit × Machine :=
  if m.world.disk.contains m.world.cwd source then
    match m.world.disk.rename m.world.cwd source target with
    | .ok disk => (.ok (), { m with world := { m.world with disk } })
    | .error cause => (.error (.system (.move source target) cause), m)
  else (.error (.missingOutput source), m)

end Machine

def Host.machine : Host Machine where
  execute := Machine.execute
  move := Machine.move
  say line m := { m with console := m.console.say line }
  log line m := { m with console := m.console.log line }

end DeclarativeBuild
