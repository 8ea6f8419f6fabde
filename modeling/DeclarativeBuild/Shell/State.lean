import DeclarativeBuild.Shell.Stream
import DeclarativeBuild.Shell.Token

/-!
# The state of a shell

What a shell knows while it runs, and how it writes and complains.
-/

namespace DeclarativeBuild
namespace Shell

/-- Why the commands that follow are passed over. -/
inductive Leaving where
  | exit (code : Nat)
  | killed (signal : Nat)
  | function
  /-- Leaves a number of loops; the outermost of them goes on if `again` is set. -/
  | loops (count : Nat) (again : Bool)
deriving DecidableEq, Repr

/-- What `set` can switch on. -/
structure Options where
  stopsOnFailure : Bool := false
  needsValues : Bool := false
  keepsWildcards : Bool := false
  shows : Bool := false
  keepsFiles : Bool := false
  shares : Bool := false
  runsNothing : Bool := false
deriving DecidableEq, Repr

structure State where
  world : World
  scriptName : String := "sh"
  /-- The builtin that runs, which complaints name. -/
  caller : Option String := none
  line : Nat := 1
  /-- The line that the reader of commands has reached. -/
  readLine : Nat := 1
  args : List String := []
  bindings : List (String × String) := []
  /-- Names of variables that programs see. -/
  exported : List String := []
  /-- Names of variables that keep their values. -/
  fixed : List String := []
  functions : List (String × Command) := []
  options : Options := {}
  /-- Whether a failure is looked at by the command around, so that it stops nothing. -/
  guarded : Bool := false
  isInFunction : Bool := false
  /-- How many loops surround the command. -/
  loops : Nat := 0
  /-- The values that local variables of the function had outside of it. -/
  outer : List (String × Option String) := []
  /-- What runs when a signal comes, or at the end for the number zero. -/
  traps : List (Nat × String) := []
  /-- Signals that have come and wait to be dealt with. -/
  pending : List Nat := []
  /-- Whether the shell is a copy of another one. -/
  isCopy : Bool := false
  /-- Commands that ran beside the shell, by their process numbers, with their statuses. -/
  jobs : List (Nat × Nat) := []
  /-- The word and the place in it up to which options have been read. -/
  optionPlace : Nat × Nat := (1, 0)
  mask : Nat := 18
  status : Nat := 0
  /-- The status of the latest command whose output was put into a word. -/
  innerStatus : Option Nat := none
  streams : Streams := {}
  leaving : Option Leaving := none

/-- The process number that a shell sees as its own. -/
def processId : String := "4711"

namespace State

def setDisk (s : State) (d : Disk) : State :=
  { s with world := { s.world with disk := d } }

/-- Writes to a descriptor; what is written to one that is closed is lost. -/
def writeTo (s : State) (descriptor : Nat) (text : String) : State :=
  match s.streams.position? descriptor with
  | none => s
  | some position =>
    match s.streams.all[position]? with
    | some (.sink _) => { s with streams := s.streams.append position text }
    | some (.file loc offset appends) =>
      match s.world.disk.lookup loc with
      | some (.file old executable) =>
        let bytes := text.toUTF8
        let offset := if appends then old.size else offset
        let all := s.streams.all.setIfInBounds position (.file loc (offset + bytes.size) appends)
        { s.setDisk (s.world.disk.insert loc (.file (overwritten old offset bytes) executable)) with
          streams := { s.streams with all } }
      | _ => s
    | _ => s

def write (s : State) (text : String) : State :=
  s.writeTo 1 text

def complain (s : State) (text : String) : State :=
  s.writeTo 2 text

/-- What commands can still read. -/
def input (s : State) : String :=
  s.streams.unread 0

def withInput (s : State) (rest : String) : State :=
  { s with streams := s.streams.leave 0 rest }

def withStatus (s : State) (status : Nat) : State :=
  { s with status }

/-- Ends a command with a complaint under the script's name. -/
def fail (s : State) (status : Nat) (text : String) : State :=
  let start := s.scriptName ++ ": " ++ toString s.line ++ ": "
  let start := match s.caller with
    | some name => start ++ name ++ ": "
    | none => start
  (s.complain (start ++ text ++ "\n")).withStatus status

/-- Ends the shell with a complaint. -/
def abort (s : State) (status : Nat) (text : String) : State :=
  { s.fail status text with leaving := some (.exit status) }

def isLeaving (s : State) : Bool :=
  s.leaving.isSome

def value? (s : State) (name : String) : Option String :=
  s.bindings.lookup name

/-- Gives a variable a value, whether or not it is fixed. -/
def bind (s : State) (name value : String) : State :=
  { s with bindings := (name, value) :: s.bindings.filter (·.1 != name) }

def unbind (s : State) (name : String) : State :=
  { s with bindings := s.bindings.filter (·.1 != name) }

/-- Lets programs see a variable. -/
def share (s : State) (name : String) : State :=
  if s.exported.contains name then s else { s with exported := s.exported ++ [name] }

/-- Gives a variable a value; the shell ends if it is fixed. -/
def setVariable (s : State) (name value : String) : State :=
  if s.fixed.contains name then s.abort 2 (name ++ ": is read only")
  else if s.options.shares then (s.bind name value).share name
  else s.bind name value

/-- The variables that programs see. -/
def environment (s : State) : Environment :=
  s.exported.filterMap fun name => (s.value? name).map fun value => (name, value)

/-- The world that programs see. -/
def innerWorld (s : State) : World :=
  { s.world with environment := s.environment }

/-- The characters that divide values into fields. -/
def separators (s : State) : List Char :=
  match s.value? "IFS" with
  | some text => text.toList
  | none => [' ', '\t', '\n']

/-- Options as one text of letters. -/
def optionLetters (s : State) : String :=
  let letters := [('e', s.options.stopsOnFailure), ('f', s.options.keepsWildcards),
    ('n', s.options.runsNothing), ('x', s.options.shows), ('C', s.options.keepsFiles),
    ('a', s.options.shares), ('u', s.options.needsValues)]
  String.ofList ((letters.filter (·.2)).map Prod.fst)

/-- The value of a parameter, if it is set. -/
def parameter? (s : State) (name : String) : Option String :=
  match name with
  | "#" => some (toString s.args.length)
  | "?" => some (toString s.status)
  | "$" => some processId
  | "!" => s.jobs.head?.map fun (number, _) => toString number
  | "-" => some s.optionLetters
  | "0" => some s.scriptName
  | "@" => some (" ".intercalate s.args)
  | "*" =>
    let glue := match s.separators with
      | c :: _ => String.ofList [c]
      | [] => ""
    some (glue.intercalate s.args)
  | _ =>
    match name.toNat? with
    | some n => s.args[n - 1]?
    | none => s.value? name

/-- A shell that starts in a world and takes over its variables; the last value of a name counts. -/
def start (w : World) : State :=
  let s := w.environment.foldl (fun (s : State) (name, value) =>
    if isName name then (s.bind name value).share name else s) { world := w }
  let known := [("IFS", " \t\n"), ("OPTIND", "1"), ("PS2", "> "), ("PS4", "+ ")]
  let s := known.foldl (fun (s : State) (name, value) =>
    if name == "IFS" || (s.value? name).isNone then s.bind name value else s) s
  (s.bind "PWD" w.cwd.text).share "PWD"

end State

end Shell
end DeclarativeBuild
