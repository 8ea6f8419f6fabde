import DeclarativeBuild.Shell.Builtin
import DeclarativeBuild.Shell.Inputs
import DeclarativeBuild.Shell.Record.Fields
import DeclarativeBuild.Shell.Record.Table

/-!
# The state of rules

What rules know while they run: their variables and tables, the record, and the files and commands
that they read from and write to.
-/

namespace DeclarativeBuild
namespace Shell
namespace Record

/-- Runs a command line in the place of a process. -/
abbrev Runner := String → State → State

/-- What a variable holds. -/
inductive Cell where
  /-- Neither a value nor a table yet; if it becomes a table, it is the one of another variable. -/
  | free (other : Option Nat)
  | value (v : Value)
  | table (t : Table)
deriving Inhabited

/-- Something that is read from or written to under a name. -/
inductive Channel where
  | source (rest : List Char)
  | file (descriptor : Nat)
  /-- A command that is given a text at the end. -/
  | command (written : String)

/-- Why the statements that follow are passed over. -/
inductive Leaving where
  | loop
  | turn
  | record
  | file
  | function (v : Value)
  | exit
  /-- Ends everything at once. -/
  | fault

structure Machine where
  shell : State
  functions : List (String × Function) := []
  cells : Array Cell := #[]
  globals : List (String × Nat) := []
  locals : List (String × Nat) := []
  record : String := ""
  fields : List String := []
  /-- What is left of the main input, if it is open. -/
  rest : Option (List Char) := none
  /-- The place of the next file name among the arguments. -/
  argument : Nat := 1
  /-- Whether a file name has been found among the arguments. -/
  anyFile : Bool := false
  channels : List (String × Channel) := []
  nextDescriptor : Nat := 100
  /-- The rules whose ranges have been entered. -/
  entered : List Nat := []
  seed : Value := .number 0
  code : Nat := 0
  leaving : Option Leaving := none

namespace Machine

def isLeaving (m : Machine) : Bool :=
  m.leaving.isSome

/-- The cell of a variable, which is made if there is none. -/
def cellOf (m : Machine) (name : String) : Machine × Nat :=
  match m.locals.lookup name with
  | some i => (m, i)
  | none =>
    match m.globals.lookup name with
    | some i => (m, i)
    | none =>
      let i := m.cells.size
      ({ m with cells := m.cells.push (.free none), globals := (name, i) :: m.globals }, i)

/-- The cell that holds the table of a variable. -/
def tableCell (m : Machine) (i : Nat) : Nat :=
  match m.cells[i]? with
  | some (.free (some j)) => if j < i then m.tableCell j else i
  | _ => i

def valueAt (m : Machine) (i : Nat) : Value :=
  match m.cells[i]? with
  | some (.value v) => v
  | _ => .unset

def tableAt (m : Machine) (i : Nat) : Table :=
  match m.cells[m.tableCell i]? with
  | some (.table t) => t
  | _ => {}

def setCell (m : Machine) (i : Nat) (c : Cell) : Machine :=
  { m with cells := m.cells.setIfInBounds i c }

def setTable (m : Machine) (i : Nat) (t : Table) : Machine :=
  m.setCell (m.tableCell i) (.table t)

/-- The value of a global variable. -/
def global (m : Machine) (name : String) : Value :=
  ((m.globals.lookup name).map m.valueAt).getD .unset

def setGlobal (m : Machine) (name : String) (v : Value) : Machine :=
  let (m, i) := { m with locals := [] }.cellOf name
  m.setCell i (.value v)

/-- How numbers with fractions become texts. -/
def convert (m : Machine) : String :=
  (m.global "CONVFMT").toText "%.6g"

def shown (m : Machine) (v : Value) : String :=
  v.toText m.convert

/-- The text of a global variable. -/
def globalText (m : Machine) (name : String) : String :=
  m.shown (m.global name)

/-- Ends everything with a complaint. -/
def fail (m : Machine) (complaint : String) : Machine :=
  let shell := m.shell.complain (m.shell.scriptName ++ ": " ++ complaint ++ "\n")
  { m with shell, code := 2, leaving := some .fault }

/-- Sets a global variable whatever the local ones are called. -/
def note (m : Machine) (name : String) (v : Value) : Machine :=
  { m.setGlobal name v with locals := m.locals }

/-- The fields of a text by the separator that holds now. -/
def fieldsOf (m : Machine) (text : String) : List String :=
  let byLines := (m.globalText "RS").isEmpty
  let separator := match Separator.ofText (m.globalText "FS"), byLines with
    | .char c, true =>
      .pattern (.choice (.char c) (.char '\n'))
    | .pattern e, true => .pattern (.choice e (.char '\n'))
    | separator, _ => separator
  splitFields separator text.toList

def setFieldCount (m : Machine) : Machine :=
  m.note "NF" (.ofNat m.fields.length)

/-- Makes a text the record. -/
def setRecord (m : Machine) (text : String) : Machine :=
  { m with record := text, fields := m.fieldsOf text }.setFieldCount

/-- Makes the record out of its fields. -/
def joinFields (m : Machine) : Machine :=
  { m with record := (m.globalText "OFS").intercalate m.fields }

/-- The record or one of its fields. -/
def field (m : Machine) (n : Nat) : Value :=
  if n == 0 then .input m.record
  else match m.fields[n - 1]? with
    | some text => .input text
    | none => .unset

def setField (m : Machine) (n : Nat) (text : String) : Machine :=
  if n == 0 then m.setRecord text
  else
    let fields := m.fields ++ List.replicate (n - m.fields.length) ""
    { m with fields := fields.set (n - 1) text }.setFieldCount.joinFields

/-- Cuts or fills the fields to a number of them. -/
def setSize (m : Machine) (n : Nat) : Machine :=
  { m with fields := m.fields.take n ++ List.replicate (n - m.fields.length) "" }.joinFields

/-- Where a value can be put. -/
inductive Spot where
  | cell (i : Nat)
  | element (i : Nat) (key : Key)
  | field (n : Nat)

/-- The value at a spot; an element is made if there is none. -/
def load (m : Machine) : Spot → Machine × Value
  | .cell i => (m, m.valueAt i)
  | .element i key =>
    let (v, t) := (m.tableAt i).fetch key
    (m.setTable i t, v)
  | .field n => (m, m.field n)

def store (m : Machine) (spot : Spot) (v : Value) : Machine :=
  match spot with
  | .cell i =>
    let m := m.setCell i (.value v)
    if m.globals.lookup "NF" == some i then m.setSize (wholeOf v.toNumber).toNat else m
  | .element i key => m.setTable i ((m.tableAt i).insert key v)
  | .field n => m.setField n (m.shown v)

/-- The key that some subscripts make. -/
def keyOf (m : Machine) (subscripts : List Value) : Key :=
  match subscripts with
  | [.number x] =>
    if x.floor == x && x.abs < 9000000000000000.0 then .number (wholeOf x)
    else .text (m.shown (.number x))
  | vs => .text ((m.globalText "SUBSEP").intercalate (vs.map m.shown))

/-- Assigns what an argument or an option assigns. -/
def assignText (m : Machine) (name text : String) : Machine :=
  let value := ((scanText (text.toList ++ ['"'])).map Prod.fst).getD text.toList
  let (m, i) := m.cellOf name
  m.store (.cell i) (.input (String.ofList value))

/-- Opens the next file among the arguments, or the input if none is named. -/
def openNext (m : Machine) (left : Nat) : Machine :=
  match left with
  | 0 => m
  | left + 1 =>
    let (m, arguments) := { m with locals := [] }.cellOf "ARGV"
    let count := (wholeOf (m.global "ARGC").toNumber).toNat
    let take (m : Machine) (file : String) : Machine :=
      match Shell.textOf m.shell file with
      | .ok (shell, text) => { m with shell, rest := some text.toList }
      | .error e => m.fail ("cannot open \"" ++ file ++ "\" (" ++ reason e ++ ")")
    if count ≤ m.argument then
      if m.anyFile then m else take { m with anyFile := true } "-"
    else
      let word := m.shown (((m.tableAt arguments).find? (.number m.argument)).elim .unset Prod.fst)
      let m := { m with argument := m.argument + 1 }
      match splitAssignment word with
      | (name, some value) =>
        if isName name then (m.assignText name value).openNext left
        else ((take { m with anyFile := true } word).note "FILENAME" (.text word))
      | _ =>
        if word == "" then m.openNext left
        else
          ((take { m with anyFile := true } word).note "FILENAME" (.text word)).note "FNR" (.number 0)

/-- The next record of the main input. -/
def nextMain (m : Machine) (files : Nat) : Machine × Option String :=
  match files with
  | 0 => (m, none)
  | files + 1 =>
    if m.isLeaving then (m, none)
    else match m.rest with
      | none =>
        let opened := { m.openNext 1000 with locals := m.locals }
        if opened.rest.isNone then (opened, none) else opened.nextMain files
      | some rest =>
        match nextRecord? (m.globalText "RS") rest with
        | some (text, rest) =>
          let count (m : Machine) (name : String) :=
            m.note name (.number ((m.global name).toNumber + 1))
          (count (count { m with rest := some rest } "NR") "FNR", some text)
        | none => { m with rest := none }.nextMain files

/-- How many files the main input may have. -/
def maxFiles : Nat := 10000

/-- Writes to a channel, which is opened if it is not open. -/
def send (m : Machine) (kind : OutputKind) (name text : String) : Machine :=
  if kind != .command && (name == "/dev/stdout" || name == "-") then
    { m with shell := m.shell.write text }
  else if kind != .command && name == "/dev/stderr" then
    { m with shell := m.shell.complain text }
  else
    match m.channels.lookup name with
    | some (.file descriptor) => { m with shell := m.shell.writeTo descriptor text }
    | some (.command written) =>
      { m with channels := m.channels.map fun (n, c) =>
          (n, if n == name then .command (written ++ text) else c) }
    | _ =>
      if kind == .command then { m with channels := m.channels ++ [(name, .command text)] }
      else
        match openOutput m.shell m.nextDescriptor name (kind == .append) true with
        | .ok shell =>
          { m with
            shell := shell.writeTo m.nextDescriptor text, nextDescriptor := m.nextDescriptor + 1
            channels := m.channels ++ [(name, .file m.nextDescriptor)] }
        | .error _ =>
          m.fail ("cannot open \"" ++ name ++ "\" for output (No such file or directory)")

/-- Gives a command the text that was written for it. -/
def feed (runner : Runner) (m : Machine) (command written : String) : Machine × Nat :=
  let before := m.shell
  let after := runner command (attach before 0 (.source written))
  let shell := { after with streams := after.streams.reattach before.streams 0 }
  ({ m with shell := shell.withStatus 0 }, after.status)

/-- Closes a channel; the status is that of a command, and there is none if it was not open. -/
def close (runner : Runner) (m : Machine) (name : String) : Machine × Option Nat :=
  let without := { m with channels := m.channels.filter (·.1 != name) }
  match m.channels.lookup name with
  | none => (m, none)
  | some (.command written) =>
    let (m, status) := feed runner without name written
    (m, some status)
  | some _ => (without, some 0)

/-- Closes all channels at the end. -/
def closeAll (runner : Runner) (m : Machine) : Machine :=
  m.channels.foldl (fun m (name, _) => (close runner m name).1) m

/-- The channel that a file or the output of a command is read from. -/
def source? (runner : Runner) (m : Machine) (isCommand : Bool) (name : String) :
    Machine × Option (List Char) :=
  match m.channels.lookup name with
  | some (.source rest) => (m, some rest)
  | some _ => (m, none)
  | none =>
    if isCommand then
      let (inside, position) := m.shell.captured
      let after := runner name inside
      let text := (after.streams.textAt position).toList
      let shell := { after with streams := after.streams.reattach m.shell.streams 1 }
      ({ m with shell := shell.withStatus 0 }, some text)
    else
      match Shell.textOf m.shell name with
      | .ok (shell, text) => ({ m with shell }, some text.toList)
      | .error _ => (m, none)

/-- The next record of a file or of the output of a command: it, or none at the end, where even a
file that cannot be read has an end if `none` is given back as a whole. -/
def nextFrom (runner : Runner) (m : Machine) (isCommand : Bool) (name : String) :
    Machine × Option (Option String) :=
  match source? runner m isCommand name with
  | (m, none) => (m, none)
  | (m, some rest) =>
    let found := nextRecord? (m.globalText "RS") rest
    let left := (found.map Prod.snd).getD []
    let channels := (name, Channel.source left) :: m.channels.filter (·.1 != name)
    ({ m with channels }, some (found.map Prod.fst))

/-- The machine that a program starts on, with its words and the variables of its process. -/
def start (shell : State) (functions : List (String × Function)) (words : List String) :
    Machine :=
  let known : List (String × Value) := [("NF", .number 0), ("NR", .number 0), ("FNR", .number 0),
    ("FS", .text " "), ("OFS", .text " "), ("ORS", .text "\n"), ("RS", .text "\n"),
    ("FILENAME", .text ""), ("SUBSEP", .text "\x1c"), ("RSTART", .number 0),
    ("RLENGTH", .number (-1)), ("CONVFMT", .text "%.6g"), ("OFMT", .text "%.6g"),
    ("ARGC", .ofNat words.length)]
  let m := known.foldl (fun m (name, v) => m.setGlobal name v) ({ shell, functions } : Machine)
  let (m, arguments) := m.cellOf "ARGV"
  let table := (words.zipIdx).foldl (fun (t : Table) (word, i) =>
    t.insert (.number i) (.input word)) {}
  let (m, environment) := (m.setTable arguments table).cellOf "ENVIRON"
  m.setTable environment (shell.world.environment.foldl (fun (t : Table) (name, value) =>
    t.insert (.text name) (.input value)) {})

end Machine

end Record
end Shell
end DeclarativeBuild
