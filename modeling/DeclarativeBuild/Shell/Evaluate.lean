import DeclarativeBuild.Shell.Call
import DeclarativeBuild.Shell.Parser
import DeclarativeBuild.Shell.Record.Call

/-!
# Running shell commands

Commands run on the state of a shell, and words are expanded on it, since expanding may run commands
and assign variables.  A script may call itself for ever, so running takes a number of levels of
nested calls it may use, and loops a number of turns.
-/

namespace DeclarativeBuild
namespace Shell

/-- How many levels of nested calls a process may use. -/
def maxLevels : Nat := 4000

/-- How many turns a loop may take. -/
def maxTurns : Nat := 1000000

/-- The state of a process that has used up its levels or turns. -/
def exhausted (s : State) : State :=
  { s with leaving := some (.killed 11) }

/-- The text without the line ends at its end. -/
def trimLineEnds (text : String) : String :=
  String.ofList (text.toList.reverse.dropWhile (· == '\n')).reverse

/-- Whether the shell needs a parameter to be set that is not. -/
def lacks (s : State) (name : String) : Bool :=
  s.options.needsValues && (s.parameter? name).isNone && !(["@", "*", "!"].contains name)

/-- Ends the shell because a parameter is not set. -/
def reportUnset (s : State) (name : String) : State :=
  s.abort 2 (name ++ ": parameter not set")

/-- Adds the value of a parameter; that of all arguments makes a field each. -/
def addParameter (s : State) (f : Fields) (name : String) (quoted : Bool) : Fields :=
  if name == "@" || (name == "*" && !quoted) then f.addEach quoted s.args
  else f.addValue quoted ((s.parameter? name).getD "")

/-- Works out an expression and assigns what it assigns. -/
def evaluateSum (s : State) (expression : String) : State × String :=
  let text (name : String) := (s.parameter? name).getD ""
  match (Arithmetic.parse expression).bind (Arithmetic.eval text []) with
  | .ok (n, assigned) =>
    (assigned.reverse.foldl (fun s (name, value) => s.setVariable name (toString value)) s,
      toString n)
  | .error e => (s.abort 2 (e.message expression), "")

/-- Ends the shell after a failure that nothing looks at, if it is set to. -/
def checkFailure (s : State) : State :=
  if s.options.stopsOnFailure && !s.guarded && s.status != 0 && !s.isLeaving then
    { s with leaving := some (.exit s.status) }
  else s

/-- Runs a step whose failure is looked at by what is around. -/
def guarding (s : State) (step : State → State) : State :=
  { step { s with guarded := true } with guarded := s.guarded }

/-- The state after a turn of a loop, and whether there may be another one. -/
def afterTurn (s : State) : State × Bool :=
  match s.leaving with
  | none => (s, true)
  | some (.loops count again) =>
    if 1 < count then ({ s with leaving := some (.loops (count - 1) again) }, false)
    else ({ s with leaving := none }, again)
  | some _ => (s, false)

/-- Assigns variables for one step and gives them their old values back. -/
def withTemporary (s : State) (extra : List (String × String)) (step : State → State) : State :=
  if extra.isEmpty then step s
  else
    let inside := extra.foldl (fun (s : State) (name, value) =>
      (s.setVariable name value).share name) s
    let after := if inside.isLeaving then inside else step inside
    let restored := extra.foldl (fun (after : State) (name, _) =>
      match s.value? name with
      | some old => after.bind name old
      | none => after.unbind name) after
    { restored with exported := s.exported }

/-- The state after a function: its arguments and local variables are gone. -/
def leaveFunction (s after : State) : State :=
  let restored := after.outer.foldl (fun (t : State) (name, old) =>
    match old with
    | some value => t.bind name value
    | none => t.unbind name) after
  { restored with
    args := s.args, outer := s.outer, loops := s.loops, isInFunction := s.isInFunction
    leaving := if after.leaving == some .function then none else after.leaving }

/-- Shows a command before it runs, if the shell is set to. -/
def trace (s : State) (words : List String) : State :=
  if s.options.shows then
    s.complain ((s.value? "PS4").getD "+ " ++ " ".intercalate words ++ "\n")
  else s

/-- Notes a command that ran beside the shell. -/
def noteJob (s : State) (status : Nat) : State :=
  let number := (s.jobs.head?.map Prod.fst).getD 4711 + 1
  { s with jobs := (number, status) :: s.jobs, status := 0 }

/-- The complaint about a program that cannot be run, and the status that it leaves. -/
def missing (name : String) : SystemError → Nat × String
  | .notFound | .notADirectory => (127, name ++ ": not found")
  | .nameTooLong => (127, name ++ ": " ++ reason .nameTooLong)
  | .tooManyLinks => (127, name ++ ": " ++ reason .tooManyLinks)
  | e => (126, name ++ ": " ++ reason e)

/-- The process that runs for a name. -/
def processFor (w : World) (name : String) (args : List String) : Except SystemError Process := do
  let file ← locateProgram w ⟨name⟩
  loadOrInterpret w name file args

/-- The file that a name stands for whose commands are to be run here. -/
def sourceFile? (s : State) (file : String) : Option Path :=
  if file.toList.contains '/' then some ⟨file⟩
  else (s.innerWorld.searchPath.map (·.join ⟨file⟩)).find? s.world.isFile

mutual

/-- Adds a piece of a word to the fields. -/
def expandPiece (levels : Nat) (p : Piece) (s : State) (f : Fields) : State × Fields :=
  match levels with
  | 0 => (exhausted s, f)
  | levels + 1 =>
    match p with
    | .text t quoted =>
      (s, if f.splitsText && !quoted then f.addSplit t.toList else f.add (marks quoted t))
    | .unknown _ => (s.abort 2 "Bad substitution", f)
    | .broken _ => (s, f)
    | .parameter name quoted =>
      if lacks s name then (reportUnset s name, f) else (s, addParameter s f name quoted)
    | .size name quoted =>
      if lacks s name then (reportUnset s name, f)
      else
        let size := ((s.parameter? name).getD "").utf8ByteSize
        (s, f.addValue quoted (toString size))
    | .output commands _ quoted =>
      match parseInner commands with
      | .error _ => (s, f)
      | .ok c =>
        let (inside, position) := State.captured { s with status := 0 }
        let joined := rejoin s (runCopy levels c inside)
        ({ joined with status := s.status, innerStatus := some joined.status },
          f.addValue quoted (trimLineEnds (joined.streams.textAt position)))
    | .sum expression quoted =>
      let (s, text) := expandWhole levels expression s
      if s.isLeaving then (s, f)
      else
        let (s, value) := evaluateSum s (plainText text)
        (s, f.addValue quoted value)
    | .altered name how emptyCounts operand quoted =>
      let value? := s.parameter? name
      let isThere := value?.any fun v => !(emptyCounts && v == "")
      match how with
      | .fallback =>
        if isThere then (s, addParameter s f name quoted)
        else
          let (s, g) := expandPieces levels operand s { f with splitsText := true }
          (s, { g with splitsText := f.splitsText })
      | .replaced =>
        if isThere then
          let (s, g) := expandPieces levels operand s { f with splitsText := true }
          (s, { g with splitsText := f.splitsText })
        else if lacks s name then (reportUnset s name, f)
        else (s, f)
      | .assigned =>
        if isThere then (s, addParameter s f name quoted)
        else
          let (s, text) := expandWhole levels operand s
          let value := plainText text
          if s.isLeaving then (s, f) else (s.setVariable name value, f.addValue quoted value)
      | .required =>
        if isThere then (s, addParameter s f name quoted)
        else
          let (s, text) := expandWhole levels operand s
          let complaint := if operand.isEmpty then
              "parameter not set" ++ if emptyCounts then " or null" else ""
            else plainText text
          (s.abort 2 (name ++ ": " ++ complaint), f)
      | .trimmed atStart longest =>
        if lacks s name then (reportUnset s name, f)
        else
          let (s, pattern) := expandWhole levels operand s
          (s, f.addValue quoted (trimValue atStart longest pattern (value?.getD "")))
termination_by (levels, 0)

/-- Adds pieces to the fields, as long as the shell goes on. -/
def expandPieces (levels : Nat) (w : Word) (s : State) (f : Fields) : State × Fields :=
  match levels with
  | 0 => (exhausted s, f)
  | levels + 1 =>
    w.foldl (fun (s, f) p => if s.isLeaving then (s, f) else expandPiece levels p s f) (s, f)
termination_by (levels, 0)

/-- A word as one text, whose quoted characters are marked. -/
def expandWhole (levels : Nat) (w : Word) (s : State) : State × List Mark :=
  match levels with
  | 0 => (exhausted s, [])
  | levels + 1 =>
    let (start, w) := match homeStart? w with
      | some rest => (marks true ((s.value? "HOME").getD "~"), rest)
      | none => ([], w)
    let (s, f) := expandPieces levels w s { isWhole := true, separators := [] }
    (s, start ++ f.whole)
termination_by (levels, 0)

/-- All fields of some words. -/
def expandWords (levels : Nat) (words : List Word) (s : State) : State × List String :=
  match levels with
  | 0 => (exhausted s, [])
  | levels + 1 =>
    words.foldl (fun (s, found) w =>
      if s.isLeaving then (s, found)
      else
        let start : Fields := { isWhole := false, separators := s.separators }
        let (start, w) := match homeStart? w with
          | some rest => (start.add (marks true ((s.value? "HOME").getD "~")), rest)
          | none => (start, w)
        let (s, f) := expandPieces levels w s start
        let names := f.finish.flatMap fun field =>
          if s.options.keepsWildcards then [plainText field] else fieldNames s.innerWorld field
        (s, found ++ names)) (s, [])
termination_by (levels, 0)

/-- The redirections of a command with their targets. -/
def expandRedirects (levels : Nat) (redirects : List Redirect) (s : State) :
    State × List (Redirect × String) :=
  match levels with
  | 0 => (exhausted s, [])
  | levels + 1 =>
    redirects.foldl (fun (s, found) r =>
      if s.isLeaving then (s, found)
      else
        let (s, text) := expandWhole levels r.target s
        let target := plainText text
        if isPossible r target then (s, found ++ [(r, target)])
        else
          let fault := "Syntax error: " ++ FaultKind.descriptor.message
          ({ s with line := s.readLine }.abort 2 fault, found)) (s, [])
termination_by (levels, 0)

/-- The values that are assigned in front of a command. -/
def expandAssignments (levels : Nat) (assignments : List (String × Word)) (s : State) :
    State × List (String × String) :=
  match levels with
  | 0 => (exhausted s, [])
  | levels + 1 =>
    assignments.foldl (fun (s, found) (name, w) =>
      if s.isLeaving then (s, found)
      else
        let (s, text) := expandWhole levels w s
        (s, found ++ [(name, plainText text)])) (s, [])
termination_by (levels, 0)

/-- Runs a command unless the shell is leaving. -/
def run (levels : Nat) (c : Command) (s : State) : State :=
  if s.isLeaving || s.options.runsNothing then s
  else
    match levels with
    | 0 => exhausted s
    | levels + 1 =>
      match c with
      | .nothing => s
      | .sequence first second => run levels second (run levels first s)
      | .background c =>
        let joined := rejoin s (runCopy levels c (attach s 0 (.source "")))
        noteJob joined joined.status
      | .both left right =>
        let s := guarding s (run levels left)
        if s.status == 0 then run levels right s else s
      | .either left right =>
        let s := guarding s (run levels left)
        if s.status == 0 then s else run levels right s
      | .negated c =>
        let s := guarding s (run levels c)
        s.withStatus (if s.status == 0 then 1 else 0)
      | .conditional condition body otherwise =>
        let s := guarding s (run levels condition)
        if s.status == 0 then run levels body s else run levels otherwise (s.withStatus 0)
      | .loop stopOn condition body =>
        { runLoop levels maxTurns stopOn condition body 0 { s with loops := s.loops + 1 } with
          loops := s.loops }
      | .each name words body =>
        let (s, values) := match words with
          | some words => expandWords levels words s
          | none => (s, s.args)
        { runEach levels name body values { s.withStatus 0 with loops := s.loops + 1 } with
          loops := s.loops }
      | .choose subject branches =>
        let (s, text) := expandWhole levels subject s
        runBranch levels (plainText text).toList branches (s.withStatus 0)
      | .subshell c => checkFailure (rejoin s (runCopy levels c s))
      | .redirected c redirects =>
        let (s, targets) := expandRedirects levels redirects s
        checkFailure (withStreams s targets false (run levels c))
      | .define name body =>
        { s.withStatus 0 with functions := (name, body) :: s.functions.filter (·.1 != name) }
      | .pipe left right =>
        let (inside, position) := s.captured
        let between := rejoin s (runCopy levels left inside)
        if between.isLeaving then between
        else
          let fed := attach between 0 (.source (between.streams.textAt position))
          checkFailure (rejoin between (runCopy levels right fed))
      | .simple line assignments words redirects =>
        let (s, fields) := expandWords levels words { s with line, innerStatus := none }
        let (s, targets) := expandRedirects levels redirects s
        let (s, values) := if s.isLeaving then (s, []) else expandAssignments levels assignments s
        if s.isLeaving then s
        else
          let s := trace s (values.map (fun (n, v) => n ++ "=" ++ v) ++ fields)
          match fields with
          | [] =>
            let assign (s : State) := values.foldl (fun s (n, v) => s.setVariable n v)
              (s.withStatus (s.innerStatus.getD 0))
            checkFailure (withStreams s targets false assign)
          | ["exec"] =>
            match redirect s targets with
            | .ok s => values.foldl (fun s (n, v) => s.setVariable n v) (s.withStatus 0)
            | .error s => { s with leaving := some (.exit 2) }
          | name :: args =>
            let special := specialBuiltins.contains name
            let after := withStreams s targets special (invoke levels values name args)
            checkFailure (serveSignals levels after)
termination_by (levels, 0)

/-- A loop's body runs while the condition's outcome is not the one to stop on. -/
def runLoop (levels turns : Nat) (stopOn : Bool) (condition body : Command) (last : Nat)
    (s : State) : State :=
  match levels, turns with
  | 0, _ | _, 0 => exhausted s
  | levels + 1, turns + 1 =>
    let (tested, goesOn) := afterTurn (guarding s (run levels condition))
    if !goesOn then tested
    else if (tested.status == 0) == stopOn then tested.withStatus last
    else
      let (after, goesOn) := afterTurn (run levels body tested)
      if goesOn then runLoop (levels + 1) turns stopOn condition body after.status after else after
termination_by (levels, turns)

/-- Runs a body for each of some values of a variable. -/
def runEach (levels : Nat) (name : String) (body : Command) (values : List String) (s : State) :
    State :=
  match levels, values with
  | 0, _ => exhausted s
  | _, [] => s
  | levels + 1, value :: rest =>
    if s.isLeaving then s
    else
      let (after, goesOn) := afterTurn (run levels body (s.setVariable name value))
      if goesOn then runEach (levels + 1) name body rest after else after
termination_by (levels, values.length)

/-- Runs the first branch with a pattern that matches. -/
def runBranch (levels : Nat) (text : List Char) (branches : List (List Word × Command))
    (s : State) : State :=
  match levels, branches with
  | 0, _ => exhausted s
  | _, [] => s
  | levels + 1, (patterns, body) :: rest =>
    let (s, found) := patterns.foldl (fun (s, found) p =>
      if found || s.isLeaving then (s, found)
      else
        let (s, field) := expandWhole levels p s
        (s, matchesField field text)) (s, false)
    if found then run levels body s else runBranch (levels + 1) text rest s
termination_by (levels, branches.length)

/-- Runs a command by its name, with variables that are assigned for it. -/
def invoke (levels : Nat) (extra : List (String × String)) (name : String) (args : List String)
    (s : State) : State :=
  match levels with
  | 0 => exhausted s
  | levels + 1 =>
    if specialBuiltins.contains name then
      let s := extra.foldl (fun s (n, v) => s.setVariable n v) s
      if s.isLeaving then s else runBuiltin levels name args s
    else
      match s.functions.lookup name with
      | some body =>
        withTemporary s extra fun s =>
          leaveFunction s (run levels body
            { s with args, loops := 0, outer := [], isInFunction := true })
      | none => withTemporary s extra (runBuiltin levels name args)
termination_by (levels, 0)

/-- Runs a builtin, or a program if there is none. -/
def runBuiltin (levels : Nat) (name : String) (args : List String) (s : State) : State :=
  match levels with
  | 0 => exhausted s
  | levels + 1 =>
    let called (name : String) (step : State → State) : State :=
      { step { s with caller := some name } with caller := s.caller }
    match name, args with
    | "eval", words =>
      called name fun s => runTokens levels (tokens (" ".intercalate words)) (s.withStatus 0)
    | ".", [] => s.withStatus 0
    | ".", file :: _ =>
      match sourceFile? s file with
      | none => called name fun s => s.abort 2 (file ++ ": not found")
      | some path =>
        match s.world.readText path with
        | .ok source => called path.text fun s =>
          let after := runTokens levels (tokens source) (s.withStatus 0)
          if after.leaving == some .function then { after with leaving := none } else after
        | .error .isADirectory => s.withStatus 0
        | .error _ => called name fun s => s.abort 2 ("cannot open " ++ file ++ ": No such file")
    | "exec", [] => s.withStatus 0
    | "exec", name :: args =>
      match processFor s.innerWorld name args with
      | .error e =>
        let (status, why) := missing name e
        called "exec" fun s => { s.abort status why with traps := [] }
      | .ok process =>
        let start : State := { world := s.innerWorld, streams := s.streams }
        let after := runProcess levels start process
        let leaving : Leaving := match after.leaving with
          | some (.killed signal) => if s.isCopy then .exit (128 + signal) else .killed signal
          | _ => .exit after.finalStatus
        { absorb (if s.isCopy then reportEnd s after else s) after with
          leaving := some leaving, traps := [] }
    | "command", "-v" :: word :: _ => describe false (s.withStatus 0) word
    | "command", "-V" :: word :: _ => describe true (s.withStatus 0) word
    | "command", "-p" :: name :: args => runBuiltin levels name args s
    | "command", "--" :: name :: args => runBuiltin levels name args s
    | "command", name :: args => runBuiltin levels name args s
    | "command", [] => s.withStatus 0
    | name, args =>
      match builtin? { s with caller := some name } name args with
      | some after => { after with caller := s.caller }
      | none => runProgram levels name args s
termination_by (levels, 0)

/-- Runs a program from the shell and keeps what remains of it. -/
def runProgram (levels : Nat) (name : String) (args : List String) (s : State) : State :=
  match levels with
  | 0 => exhausted s
  | levels + 1 =>
    match processFor s.innerWorld name args with
    | .ok process =>
      let after := runProcess levels { world := s.innerWorld, streams := s.streams } process
      reportEnd (absorb s after) after
    | .error e =>
      let (status, why) := missing name e
      s.fail status why
termination_by (levels, 0)

/-- Runs a program for another one, which complains if there is no such program. -/
def runFor (levels : Nat) (utility : String) (command : List String) (s : State) : State :=
  match levels, command with
  | 0, _ => exhausted s
  | _, [] => s
  | levels + 1, name :: args =>
    match processFor s.world name args with
    | .ok process =>
      absorb s (runProcess levels { world := s.world, streams := s.streams } process)
    | .error e =>
      let shown := if utility == "xargs" then name else quotedName name
      (s.complain (utility ++ ": " ++ shown ++ ": " ++ reason e ++ "\n")).withStatus
        (if e == .notFound then 127 else 126)
termination_by (levels, 0)

/-- Runs a process to its end.  Its state knows no more than the world and the input. -/
def runProcess (levels : Nat) (start : State) (p : Process) : State :=
  match levels with
  | 0 => exhausted start
  | levels + 1 =>
    match p.program with
    | "sh" | "dash" | "bash" =>
      let call := Call.ofArgs {} p.args
      let shell := { State.start start.world with
        streams := start.streams, options := call.options, scriptName := p.self }
      match call.givenLine, call.operands with
      | true, [] => { shell with line := 0 }.fail 2 "-c requires an argument"
      | true, line :: rest =>
        runShell levels line { shell with scriptName := rest.headD p.self, args := rest.drop 1 }
      | false, [] => runShell levels start.input (shell.withInput "")
      | false, file :: rest =>
        match start.world.readText ⟨file⟩ with
        | .ok source => runShell levels source { shell with scriptName := file, args := rest }
        | .error _ => { shell with line := 0 }.fail 2 ("cannot open " ++ file ++ ": No such file")
    | "env" =>
      let (environment, command) := environmentOf start.world.environment p.args
      let inside := { start with world := { start.world with environment } }
      if command.isEmpty then showEnvironment inside [] else runFor levels "env" command inside
    | "awk" | "mawk" | "nawk" =>
      let runLine (line : String) (s : State) := runFor levels p.program ["/bin/sh", "-c", line] s
      Record.process runLine { start with scriptName := p.program } p.args
    | "find" => find (fun command s => runFor levels "find" command s) start p.args
    | "xargs" =>
      let r := Repetition.ofArgs {} p.args
      match r.commands start.input with
      | .error why => (start.complain ("xargs: " ++ why ++ "\n")).withStatus 1
      | .ok commands =>
        (commands.foldl (fun (s, stopped) command =>
          if stopped then (s, true)
          else
            let told := if r.tells then s.complain (" ".intercalate command ++ "\n") else s
            let after := runFor levels "xargs" command told
            let (status, stops) := afterRepeated s.status after.status
            (after.withStatus status, stops)) (start.withInput "", false)).1
    | name =>
      match wrapped? name p.args with
      | some [] => misused name "missing operand" start
      | some command => runFor levels name command start
      | none => (programUtility? { start with scriptName := name } name p.args).getD start
termination_by (levels, 0)

/-- Runs the lines of a script or of a call, and at the end what was asked to run then. -/
def runShell (levels : Nat) (source : String) (s : State) : State :=
  match levels with
  | 0 => exhausted s
  | levels + 1 => sayFarewell levels (runTokens levels (tokens source) s)
termination_by (levels, 0)

/-- Runs a command on a copy of the shell to its end. -/
def runCopy (levels : Nat) (c : Command) (s : State) : State :=
  match levels with
  | 0 => exhausted s
  | levels + 1 => sayFarewell levels (run levels c (fork s))
termination_by (levels, 0)

/-- Runs what was asked to run at the end of a shell. -/
def sayFarewell (levels : Nat) (after : State) : State :=
  match levels with
  | 0 => exhausted after
  | levels + 1 =>
    match after.leaving, after.traps.lookup 0 with
    | some (.killed _), _ | _, none => after
    | _, some action =>
      let code := after.finalStatus
      let last := runTokens levels (tokens action)
        { after with leaving := none, traps := [], caller := none, status := code }
      if last.isLeaving then last else last.withStatus code
termination_by (levels, 0)

/-- Runs what was asked to run for the signals that have come. -/
def serveSignals (levels : Nat) (s : State) : State :=
  match levels with
  | 0 => exhausted s
  | levels + 1 =>
    s.pending.foldl (fun s signal =>
      match s.traps.lookup signal with
      | some action =>
        let after := runTokens levels (tokens action) s
        if after.isLeaving then after else after.withStatus s.status
      | none => s) { s with pending := [] }
termination_by (levels, 0)

/-- Runs commands line by line; lines below one that cannot be read do not count. -/
def runTokens (levels : Nat) (ts : List Token) (s : State) : State :=
  match levels with
  | 0 => exhausted s
  | levels + 1 =>
    let unread := skipNewlines ts
    if s.isLeaving || unread.head?.all Token.isStop then s
    else
      match parseLine unread with
      | .error fault => { s with line := fault.line }.abort 2 ("Syntax error: " ++ fault.kind.message)
      | .ok (c, rest) =>
        let after := run levels c { s with readLine := lineOf rest }
        if rest.length < ts.length then runTokens (levels + 1) rest after else after
termination_by (levels, ts.length)

end

end Shell
end DeclarativeBuild
