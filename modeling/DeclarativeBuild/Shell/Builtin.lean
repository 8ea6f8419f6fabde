import DeclarativeBuild.Shell.Expansion
import DeclarativeBuild.Shell.Options
import DeclarativeBuild.Shell.Signal
import DeclarativeBuild.Shell.Utility

/-!
# Builtins

Commands that change the shell itself: its variables, options and directory, and where it goes on.
-/

namespace DeclarativeBuild
namespace Shell

def otherBuiltins : List String :=
  ["alias", "bg", "cd", "chdir", "command", "echo", "false", "fg", "getopts", "hash", "jobs",
    "kill", "printf", "pwd", "read", "test", "[", "true", "type", "ulimit", "umask", "unalias",
    "wait"]

/-- A number in the first word, or another one if there is no word. -/
def withNumber (s : State) (args : List String) (usual : Nat) (go : Nat → State) : State :=
  match args with
  | [] => go usual
  | word :: _ =>
    match word.toNat? with
    | some n => go n
    | none => s.abort 2 ("Illegal number: " ++ word)

def leaveLoops (s : State) (again : Bool) (args : List String) : State :=
  withNumber s args 1 fun n =>
    if n == 0 then s.abort 2 "Illegal number: 0"
    else if s.loops == 0 then s.withStatus 0
    else { s.withStatus 0 with leaving := some (.loops (min n s.loops) again) }

/-- Changes the directory; links on the way stay in its name. -/
def changeDirectory (s : State) (args : List String) : State :=
  let words := args.filter fun a => a != "-L" && a != "-P" && a != "--"
  let here := (s.value? "PWD").getD s.world.cwd.text
  let back := words.head? == some "-"
  let target := match words with
    | [] => (s.value? "HOME").getD ""
    | "-" :: _ => (s.value? "OLDPWD").getD here
    | word :: _ => word
  let logical := plainSteps (Path.join ⟨here⟩ ⟨target⟩)
  match s.world.disk.locate true s.world.cwd ⟨logical⟩ with
  | .ok loc =>
    if (s.world.disk.lookup loc).any Entry.isDirectory then
      let moved := { s with world := { s.world with cwd := Disk.pathOf loc } }
      let named := ((moved.bind "OLDPWD" here).share "OLDPWD").bind "PWD" logical
      (if back then named.write (logical ++ "\n") else named).withStatus 0
    else s.fail 2 ("can't cd to " ++ target)
  | .error _ => s.fail 2 ("can't cd to " ++ target)

/-- A word as a name and the value that it assigns. -/
def splitAssignment (word : String) : String × Option String :=
  match Text.cutFirst '=' word.toList with
  | some (name, value) => (String.ofList name, some (String.ofList value))
  | none => (word, none)

/-- Variables as commands that give them their values, in the order of their names. -/
def declarations (s : State) (start : String) (names : List String) : String :=
  String.join ((Disk.sortNames names).map fun name =>
    start ++ name ++ ((s.value? name).map fun v => "=" ++ inQuotes v).getD "" ++ "\n")

/-- Assigns and marks each of some variables, or lists those that are marked. -/
def markVariables (s : State) (utility : String) (mark : State → String → State)
    (marked : List String) (args : List String) : State :=
  let names := args.filter (!·.startsWith "-")
  if names.isEmpty || args.head? == some "-p" then
    (s.write (declarations s (utility ++ " ") marked)).withStatus 0
  else
    names.foldl (fun (s : State) word =>
      if s.isLeaving then s
      else
        let (name, value?) := splitAssignment word
        if !isName name then s.abort 2 (name ++ ": bad variable name")
        else
          let s := match value? with
            | some value => s.setVariable name value
            | none => s
          mark s name) (s.withStatus 0)

def unset (s : State) (args : List String) : State :=
  let names := args.filter (!·.startsWith "-")
  if args.head? == some "-f" then
    { s.withStatus 0 with functions := s.functions.filter fun (n, _) => !names.contains n }
  else
    names.foldl (fun s name =>
      if s.isLeaving then s
      else if !isName name then s.abort 2 (name ++ ": bad variable name")
      else if s.fixed.contains name then s.abort 2 (name ++ ": is read only")
      else { s.unbind name with exported := s.exported.filter (· != name) }) (s.withStatus 0)

/-- Switches options and replaces the arguments, or lists options or variables. -/
def setOptions (s : State) (args : List String) : State :=
  if args.isEmpty then
    (s.write (declarations s "" (s.bindings.map Prod.fst))).withStatus 0
  else
    match readOptions s.options args with
    | .refused option => s.abort 2 ("Illegal option " ++ option)
    | .listed asCommands => (s.write (optionList s.options asCommands)).withStatus 0
    | .switched options args => { s.withStatus 0 with options, args := args.getD s.args }

/-- The first line of the input, as characters that are escaped or not, whether a line end closes
it, and what follows. -/
def takeLine (raw : Bool) : List Char → List Mark × Bool × List Char
  | [] => ([], false, [])
  | '\n' :: rest => ([], true, rest)
  | '\\' :: c :: rest =>
    if raw then
      if c == '\n' then ([('\\', false)], true, rest)
      else
        let (line, closed, after) := takeLine raw rest
        (('\\', false) :: (c, false) :: line, closed, after)
    else
      let (line, closed, after) := takeLine raw rest
      (if c == '\n' then line else (c, true) :: line, closed, after)
  | c :: rest =>
    let (line, closed, after) := takeLine raw rest
    ((c, false) :: line, closed, after)

/-- Divides a line into a number of values, of which the last takes all that is left. -/
def divideLine (separators : List Char) : Nat → List Mark → List String
  | 0, _ => []
  | n + 1, line =>
    let splits (m : Mark) := !m.2 && separators.contains m.1
    let isGap (m : Mark) := splits m && Fields.isBlank m.1
    let line := line.dropWhile isGap
    if n == 0 then [plainText (line.reverse.dropWhile isGap).reverse]
    else
      let value := line.takeWhile (!splits ·)
      let rest := (line.drop value.length).dropWhile isGap
      let rest := match rest with
        | m :: more => if splits m then more else rest
        | [] => []
      plainText value :: divideLine separators n rest

/-- Reads a line of the input into variables. -/
def readVariables (s : State) (args : List String) : State :=
  let w := Words.ofArgs ['p', 't', 'n', 'd'] args
  match w.operands with
  | [] => s.fail 2 "arg count"
  | names =>
    let (line, closed, rest) := takeLine (w.has 'r') s.input.toList
    let values := divideLine s.separators names.length line
    let s := s.withInput (String.ofList rest)
    ((names.zip values).foldl (fun s (name, value) => s.setVariable name value) s).withStatus
      (if closed then 0 else 1)

/-- Makes variables local to a function. -/
def makeLocal (s : State) (args : List String) : State :=
  if !s.isInFunction then s.abort 2 "not in a function"
  else
    args.foldl (fun s word =>
      let (name, value?) := splitAssignment word
      let s := { s with outer := (name, s.value? name) :: s.outer }
      match value? with
      | some value => s.setVariable name value
      | none => s) (s.withStatus 0)

/-- The permissions that new files do not get, as digits or as those that they do get. -/
def maskText (mask : Nat) (symbolic : Bool) : String :=
  let digits := [mask / 64 % 8, mask / 8 % 8, mask % 8]
  if symbolic then
    let row (who : String) (d : Nat) := who ++ "=" ++ (if d / 4 == 0 then "r" else "") ++
      (if d / 2 % 2 == 0 then "w" else "") ++ if d % 2 == 0 then "x" else ""
    ",".intercalate (List.zipWith row ["u", "g", "o"] digits)
  else String.join ("0" :: digits.map toString)

def setMask (s : State) (args : List String) : State :=
  match args.filter (· != "-S") with
  | [] => (s.write (maskText s.mask (!args.isEmpty) ++ "\n")).withStatus 0
  | mode :: _ =>
    if mode.toList.all isOctal then
      { s.withStatus 0 with
        mask := mode.toList.foldl (fun n c => n * 8 + Arithmetic.digitValue c) 0 % 512 }
    else if (mode.toList.head?).any Char.isDigit then s.fail 2 ("Illegal number: " ++ mode)
    else s.fail 2 ("Illegal mode: " ++ mode)

/-- Waits for commands that ran beside the shell, which have all ended. -/
def wait (s : State) (args : List String) : State :=
  match args.getLast? with
  | none => s.withStatus 0
  | some word =>
    match word.toNat? with
    | some n => s.withStatus ((s.jobs.lookup n).getD 127)
    | none => s.fail 2 ("Illegal number: " ++ word)

/-- What a command's name stands for. -/
inductive CommandKind where
  | keyword
  | function
  | special
  | builtin
  | program (file : Path)

def commandKind? (s : State) (name : String) : Option CommandKind :=
  if keywords.contains name then some .keyword
  else if (s.functions.lookup name).isSome then some .function
  else if specialBuiltins.contains name then some .special
  else if otherBuiltins.contains name then some .builtin
  else
    match locateProgram s.innerWorld ⟨name⟩ with
    | .ok p => if s.innerWorld.isProgram p then some (.program p) else none
    | .error _ => none

/-- Tells what a command's name stands for, in words or by the word to call it by. -/
def describe (verbose : Bool) (s : State) (name : String) : State :=
  match commandKind? s name with
  | none => (if verbose then s.write (name ++ ": not found\n") else s).withStatus 127
  | some kind =>
    let shown := match kind with
      | .program p => if verbose then name ++ " is " ++ p.text else p.text
      | .keyword => if verbose then name ++ " is a shell keyword" else name
      | .function => if verbose then name ++ " is a shell function" else name
      | .special => if verbose then name ++ " is a special shell builtin" else name
      | .builtin => if verbose then name ++ " is a shell builtin" else name
    s.write (shown ++ "\n")

/-- Commands that need nothing but the shell's state. -/
def builtin? (s : State) (name : String) (args : List String) : Option State :=
  match name with
  | ":" | "times" | "alias" | "unalias" | "hash" | "jobs" | "ulimit" => some (s.withStatus 0)
  | "fg" | "bg" => some (s.fail 2 "No current job")
  | "wait" => some (wait s args)
  | "umask" => some (setMask s args)
  | "exit" => some (withNumber s args s.status fun n =>
      { s with leaving := some (.exit (n % 256)), status := n % 256 })
  | "return" => some (withNumber s args s.status fun n =>
      { s.withStatus n with leaving := some .function })
  | "break" => some (leaveLoops s false args)
  | "continue" => some (leaveLoops s true args)
  | "shift" => some (withNumber s args 1 fun n =>
      if n ≤ s.args.length then { s with args := s.args.drop n }.withStatus 0
      else s.abort 2 "can't shift that many")
  | "cd" | "chdir" => some (changeDirectory s args)
  | "export" => some (markVariables s name State.share s.exported args)
  | "readonly" =>
    some (markVariables s name (fun s n => { s with fixed := n :: s.fixed }) s.fixed args)
  | "unset" => some (unset s args)
  | "set" => some (setOptions s args)
  | "local" => some (makeLocal s args)
  | "read" => some (readVariables s args)
  | "getopts" => some (getOption s args)
  | "kill" => some (kill s args)
  | "trap" => some (setTraps s args)
  | "type" => some (args.foldl (describe true) (s.withStatus 0))
  | _ => builtinUtility? s name args

end Shell
end DeclarativeBuild
