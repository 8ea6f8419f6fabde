import DeclarativeBuild.Shell.Record.Machine

/-!
# Running rules

Expressions and statements are run on the state of the rules.  A function may call itself for ever,
so running takes a number of levels of nested calls it may use, and loops a number of turns.
-/

namespace DeclarativeBuild
namespace Shell
namespace Record

/-- How many levels of nested calls a program may use. -/
def maxLevels : Nat := 6000

/-- How many turns a loop may take. -/
def maxTurns : Nat := 1000000

/-- The state of a program that has used up its levels or turns. -/
def exhausted (m : Machine) : Machine :=
  m.fail "program limit exceeded: eval stack size=1024"

/-- The value of a function of the values of its arguments. -/
def pure? (m : Machine) (name : String) (args : List Value) : Option Value :=
  let text (i : Nat) := m.shown ((args[i]?).getD .unset)
  let number (i : Nat) := ((args[i]?).getD .unset).toNumber
  match name, args.length with
  | "length", 0 => some (.ofNat m.record.utf8ByteSize)
  | "length", _ => some (.ofNat (text 0).utf8ByteSize)
  | "substr", n =>
    let length? := if n < 3 then none else some (number 2)
    some (.text (String.ofList (substring (text 0).toList (number 1) length?)))
  | "index", _ => some (.ofNat (indexIn (text 1).toList (text 0).toList))
  | "tolower", _ => some (.text (String.ofList ((text 0).toList.map Char.toLower)))
  | "toupper", _ => some (.text (String.ofList ((text 0).toList.map Char.toUpper)))
  | "sin", _ => some (.number (number 0).sin)
  | "cos", _ => some (.number (number 0).cos)
  | "atan2", _ => some (.number (Float.atan2 (number 0) (number 1)))
  | "exp", _ => some (.number (number 0).exp)
  | "log", _ => some (.number (number 0).log)
  | "sqrt", _ => some (.number (number 0).sqrt)
  | "int", _ => some (.number (truncated (number 0)))
  | "rand", _ => some (.number 0.5)
  | "fflush", _ => some (.number 0)
  | _, _ => none

/-- The pattern that a text is, or a fault. -/
def dynamicPattern (m : Machine) (source : String) : Machine × Regex :=
  match patternOf source.toList with
  | some e => (m, e)
  | none =>
    (m.fail ("line 1: regular expression compile failed\n" ++ source), .empty)

/-- Notes where a pattern matches a text, which is the value. -/
def noteMatch (m : Machine) (e : Regex) (text : String) : Machine × Value :=
  let (start, length) : Nat × Float := match e.search false none text.toList with
    | some found => (found.before.length + 1, Float.ofNat found.found.length)
    | none => (0, -1)
  ((m.note "RSTART" (.ofNat start)).note "RLENGTH" (.number length), .ofNat start)

/-- Takes a record into a place, or as the record, and tells how that went. -/
def takeRecord (m : Machine) (spot : Option Machine.Spot) (found : Option (Option String)) :
    Machine × Value :=
  match found, spot with
  | some (some text), some spot => (m.store spot (.input text), .number 1)
  | some (some text), none => (m.setRecord text, .number 1)
  | some none, _ => (m, .number 0)
  | none, _ => (m, .number (-1))

/-- The state of a function at its start: its parameters are cells of their own, the ones without
arguments free. -/
def enterFunction (m : Machine) (f : Function) (args : List Cell) : Machine :=
  let cells := f.parameters.zipIdx.map fun (name, i) => (name, (args[i]?).getD (.free none))
  { m with
    cells := m.cells ++ (cells.map Prod.snd).toArray
    locals := cells.zipIdx.map fun ((name, _), i) => (name, m.cells.size + i) }

/-- The state after a turn of a loop, and whether there may be another one. -/
def afterTurn (m : Machine) : Machine × Bool :=
  match m.leaving with
  | none => (m, true)
  | some .loop => ({ m with leaving := none }, false)
  | some .turn => ({ m with leaving := none }, true)
  | some _ => (m, false)

/-- A format and its values as a text. -/
def formatted (m : Machine) (vs : List Value) : Machine × Value :=
  let format := m.shown (vs.headD .unset)
  match sprintf m.convert format.toList (vs.drop 1) with
  | (text, true) => (m, .text (String.ofList text))
  | (text, false) =>
    (m.fail ("run time error: not enough arguments passed to printf(\"" ++ format ++ "\")"),
      .text (String.ofList text))

mutual

/-- The value of an expression. -/
def eval (runner : Runner) (levels : Nat) (e : Expr) (m : Machine) : Machine × Value :=
  match levels with
  | 0 => (exhausted m, .unset)
  | levels + 1 =>
    match e with
    | .number x => (m, .number x)
    | .text s => (m, .text s)
    | .pattern e => (m, .ofBool (e.matchesIn false m.record.toList))
    | .place p =>
      let (m, spot) := locate runner levels p m
      m.load spot
    | .assign p operator e =>
      let (m, spot) := locate runner levels p m
      let (m, v) := eval runner levels e m
      match operator with
      | none =>
        let v := match spot with
          | .field _ => .input (m.shown v)
          | _ => v
        (m.store spot v, v)
      | some o =>
        let (m, old) := m.load spot
        let v := Value.number (arithmetic o old.toNumber v.toNumber)
        (m.store spot v, v)
    | .step p up yieldsOld =>
      let (m, spot) := locate runner levels p m
      let (m, old) := m.load spot
      let x := old.toNumber
      let y := if up then x + 1 else x - 1
      (m.store spot (.number y), .number (if yieldsOld then x else y))
    | .unary o e =>
      let (m, v) := eval runner levels e m
      (m, match o with
        | "!" => .ofBool !v.isTrue
        | "-" => .number (0 - v.toNumber)
        | _ => .number v.toNumber)
    | .binary o left right =>
      let (m, a) := eval runner levels left m
      let (m, b) := eval runner levels right m
      (m,
        if o == "" then .text (m.shown a ++ m.shown b)
        else if ["<", "<=", ">", ">=", "==", "!="].contains o then
          .ofBool (Value.compare m.convert o a b)
        else .number (arithmetic o a.toNumber b.toNumber))
    | .both left right =>
      let (m, a) := eval runner levels left m
      if !a.isTrue then (m, .ofBool false)
      else
        let (m, b) := eval runner levels right m
        (m, .ofBool b.isTrue)
    | .either left right =>
      let (m, a) := eval runner levels left m
      if a.isTrue then (m, .ofBool true)
      else
        let (m, b) := eval runner levels right m
        (m, .ofBool b.isTrue)
    | .choice condition yes no =>
      let (m, v) := eval runner levels condition m
      eval runner levels (if v.isTrue then yes else no) m
    | .matching negated subject pattern =>
      let (m, v) := eval runner levels subject m
      let (m, e) := patternFrom runner levels pattern m
      (m, .ofBool (e.matchesIn false (m.shown v).toList != negated))
    | .member subscripts table =>
      let (m, vs) := evalAll runner levels subscripts m
      let (m, i) := m.cellOf table
      let (found, t) := (m.tableAt i).contains (m.keyOf vs)
      (m.setTable i t, .ofBool found)
    | .call function args => call runner levels function args m
    | .builtin name args => builtin runner levels name args m
    | .readMain target =>
      let (m, spot) := locate? runner levels target m
      let (m, found) := m.nextMain Machine.maxFiles
      takeRecord m spot (some found)
    | .readFile target file =>
      let (m, spot) := locate? runner levels target m
      let (m, v) := eval runner levels file m
      let (m, found) := Machine.nextFrom runner m false (m.shown v)
      takeRecord m spot found
    | .readCommand target command =>
      let (m, v) := eval runner levels command m
      let (m, spot) := locate? runner levels target m
      let (m, found) := Machine.nextFrom runner m true (m.shown v)
      takeRecord m spot found
    | .list es =>
      let (m, vs) := evalAll runner levels es m
      (m, (vs.getLast?).getD .unset)
termination_by (levels, 0)

/-- The values of some expressions. -/
def evalAll (runner : Runner) (levels : Nat) (es : List Expr) (m : Machine) :
    Machine × List Value :=
  match levels with
  | 0 => (exhausted m, [])
  | levels + 1 =>
    es.foldl (fun (m, vs) e =>
      let (m, v) := eval runner levels e m
      (m, vs ++ [v])) (m, [])
termination_by (levels, 0)

/-- The pattern that an expression stands for where one is wanted. -/
def patternFrom (runner : Runner) (levels : Nat) (e : Expr) (m : Machine) : Machine × Regex :=
  match levels with
  | 0 => (exhausted m, .empty)
  | levels + 1 =>
    match e with
    | .pattern e | .list [.pattern e] => (m, e)
    | e =>
      let (m, v) := eval runner levels e m
      dynamicPattern m (m.shown v)
termination_by (levels, 0)

/-- The spot of a place. -/
def locate (runner : Runner) (levels : Nat) (p : Place) (m : Machine) : Machine × Machine.Spot :=
  match levels with
  | 0 => (exhausted m, .field 0)
  | levels + 1 =>
    match p with
    | .variable name =>
      let (m, i) := m.cellOf name
      (m, .cell i)
    | .element table subscripts =>
      let (m, vs) := evalAll runner levels subscripts m
      let (m, i) := m.cellOf table
      (m, .element i (m.keyOf vs))
    | .field index =>
      let (m, v) := eval runner levels index m
      let n := wholeOf v.toNumber
      if n < 0 then
        (m.fail ("run time error: negative field index $" ++ toString n), .field 0)
      else (m, .field n.toNat)
termination_by (levels, 0)

/-- The spot of a place, if there is one. -/
def locate? (runner : Runner) (levels : Nat) (p : Option Place) (m : Machine) :
    Machine × Option Machine.Spot :=
  match levels, p with
  | 0, _ => (exhausted m, none)
  | _, none => (m, none)
  | levels + 1, some p =>
    let (m, spot) := locate runner levels p m
    (m, some spot)
termination_by (levels, 0)

/-- Calls a function; a variable that is no value yet is handed on, as it may become a table. -/
def call (runner : Runner) (levels : Nat) (name : String) (args : List Expr) (m : Machine) :
    Machine × Value :=
  match levels with
  | 0 => (exhausted m, .unset)
  | levels + 1 =>
    match m.functions.lookup name with
    | none => (m.fail ("function " ++ name ++ " never defined"), .unset)
    | some f =>
      let (m, cells) := args.foldl (fun (m, cells) e =>
        match e with
        | .place (.variable name) =>
          let (m, i) := m.cellOf name
          match m.cells[i]? with
          | some (.value v) => (m, cells ++ [Cell.value v])
          | _ => (m, cells ++ [.free (some (m.tableCell i))])
        | e =>
          let (m, v) := eval runner levels e m
          (m, cells ++ [.value v])) (m, [])
      if m.isLeaving then (m, .unset)
      else
        let after := run runner levels f.body (enterFunction m f cells)
        let restored := { after with locals := m.locals }
        match after.leaving with
        | some (.function v) => ({ restored with leaving := none }, v)
        | _ => (restored, .unset)
termination_by (levels, 0)

/-- Calls a function that is always there. -/
def builtin (runner : Runner) (levels : Nat) (name : String) (args : List Expr) (m : Machine) :
    Machine × Value :=
  match levels with
  | 0 => (exhausted m, .unset)
  | levels + 1 =>
    match name, args with
    | "length", [.place (.variable v)] =>
      let (m, i) := m.cellOf v
      match m.cells[m.tableCell i]? with
      | some (.table t) => (m, .ofNat t.size)
      | _ => (m, .ofNat (m.shown (m.valueAt i)).utf8ByteSize)
    | "split", subject :: .place (.variable table) :: more =>
      let (m, v) := eval runner levels subject m
      let (m, separator) := match more with
        | [] => (m, none)
        | .pattern e :: _ => (m, some (Separator.pattern e))
        | e :: _ =>
          let (m, v) := eval runner levels e m
          (m, some (Separator.ofText (m.shown v)))
      let text := m.shown v
      let pieces := match separator with
        | some separator => splitFields separator text.toList
        | none => m.fieldsOf text
      let (m, i) := m.cellOf table
      (m.setTable i (.ofList (pieces.map .input)), .ofNat pieces.length)
    | "sub", pattern :: replacement :: target | "gsub", pattern :: replacement :: target =>
      let (m, e) := patternFrom runner levels pattern m
      let (m, r) := eval runner levels replacement m
      let (m, spot) := match target with
        | .place p :: _ => locate runner levels p m
        | _ => (m, .field 0)
      let (m, old) := m.load spot
      let pieces := replacementOf (m.shown r).toList
      let (text, count) :=
        replaceMatches e pieces (name == "gsub") false none (m.shown old).toList
      (if count == 0 then m else m.store spot (.text (String.ofList text)), .ofNat count)
    | "match", subject :: pattern :: _ =>
      let (m, v) := eval runner levels subject m
      let (m, e) := patternFrom runner levels pattern m
      noteMatch m e (m.shown v)
    | "sprintf", es =>
      let (m, vs) := evalAll runner levels es m
      formatted m vs
    | "close", es =>
      let (m, vs) := evalAll runner levels es m
      let (m, status) := Machine.close runner m (m.shown (vs.headD .unset))
      (m, .number (status.elim (-1) Float.ofNat))
    | "system", es =>
      let (m, vs) := evalAll runner levels es m
      let shell := runner (m.shown (vs.headD .unset)) m.shell
      let status := if 128 < shell.status then shell.status + 128 else shell.status
      ({ m with shell := shell.withStatus 0 }, .ofNat status)
    | "srand", es =>
      let (m, vs) := evalAll runner levels es m
      ({ m with seed := (vs.head?).getD (.number 0) }, m.seed)
    | name, es =>
      let (m, vs) := evalAll runner levels es m
      match pure? m name vs with
      | some v => (m, v)
      | none => (m.fail ("line 1: wrong number of arguments in call to " ++ name), .unset)
termination_by (levels, 0)

/-- Runs a statement unless others are passed over. -/
def run (runner : Runner) (levels : Nat) (s : Statement) (m : Machine) : Machine :=
  if m.isLeaving then m
  else
    match levels with
    | 0 => exhausted m
    | levels + 1 =>
      match s with
      | .expression e => (eval runner levels e m).1
      | .print isFormatted args target =>
        let (m, vs) := evalAll runner levels args m
        let (m, name?) := match target with
          | none => (m, none)
          | some (kind, e) =>
            let (m, v) := eval runner levels e m
            (m, some (kind, m.shown v))
        if m.isLeaving then m
        else
          let (after, text) := if isFormatted then
              let (m, v) := formatted m vs
              (m, m.shown v)
            else
              let format := m.globalText "OFMT"
              let words := if args.isEmpty then [m.record] else vs.map (·.toText format)
              (m, (m.globalText "OFS").intercalate words ++ m.globalText "ORS")
          match name? with
          | none => { after with shell := after.shell.write text }
          | some (kind, name) => after.send kind name text
      | .block body => body.foldl (fun m s => run runner levels s m) m
      | .conditional condition yes no =>
        let (m, v) := eval runner levels condition m
        run runner levels (if v.isTrue then yes else no) m
      | .loop testsFirst condition step body =>
        runLoop runner levels maxTurns testsFirst condition step body m
      | .each name table body =>
        let (m, i) := m.cellOf table
        let (keys, t) := (m.tableAt i).keys
        let (m, key) := (m.setTable i t).cellOf name
        runEach runner levels key body keys m
      | .delete table subscripts =>
        let (m, vs) := evalAll runner levels subscripts m
        let (m, i) := m.cellOf table
        m.setTable i ((m.tableAt i).erase (m.keyOf vs))
      | .clear table =>
        let (m, i) := m.cellOf table
        m.setTable i {}
      | .leaveLoop => { m with leaving := some .loop }
      | .nextTurn => { m with leaving := some .turn }
      | .nextRecord => { m with leaving := some .record }
      | .nextFile => { m with leaving := some .file }
      | .exit code =>
        match code with
        | none => { m with leaving := some .exit }
        | some e =>
          let (m, v) := eval runner levels e m
          if m.isLeaving then m
          else
            { m with leaving := some .exit, code := (wholeOf v.toNumber % 256).toNat }
      | .giveBack value =>
        match value with
        | none => { m with leaving := some (.function .unset) }
        | some e =>
          let (m, v) := eval runner levels e m
          if m.isLeaving then m else { m with leaving := some (.function v) }
termination_by (levels, 0)

/-- Runs a body as long as a condition holds, which is looked at before or after it. -/
def runLoop (runner : Runner) (levels turns : Nat) (testsFirst : Bool) (condition : Option Expr)
    (step body : Statement) (m : Machine) : Machine :=
  match levels, turns with
  | 0, _ | _, 0 => exhausted m
  | levels + 1, turns + 1 =>
    let (m, v) := match condition, testsFirst with
      | some e, true => eval runner levels e m
      | _, _ => (m, .ofBool true)
    if !v.isTrue || m.isLeaving then m
    else
      let (m, goesOn) := afterTurn (run runner levels body m)
      if !goesOn then m
      else
        runLoop runner (levels + 1) turns true condition step body (run runner levels step m)
termination_by (levels, turns)

/-- Runs a body for each of some keys. -/
def runEach (runner : Runner) (levels : Nat) (cell : Nat) (body : Statement)
    (keys : List String) (m : Machine) : Machine :=
  match levels, keys with
  | 0, _ => exhausted m
  | _, [] => m
  | levels + 1, key :: more =>
    let (m, goesOn) :=
      afterTurn (run runner levels body (m.store (.cell cell) (.text key)))
    if goesOn then runEach runner (levels + 1) cell body more m else m
termination_by (levels, keys.length)

end

end Record
end Shell
end DeclarativeBuild
