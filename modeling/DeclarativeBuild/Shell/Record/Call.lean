import DeclarativeBuild.Shell.Record.Run

/-!
# Programs of rules as processes

How `awk` is called, and how its rules are run for every record of its files.
-/

namespace DeclarativeBuild
namespace Shell
namespace Record

/-- Whether a rule's action runs for the record, and the ranges that are entered then. -/
def isChosen (runner : Runner) (m : Machine) (place : Nat) (p : Pattern) : Machine × Bool :=
  match p with
  | .start | .finish => (m, false)
  | .always => (m, true)
  | .condition e =>
    let (m, v) := eval runner maxLevels e m
    (m, v.isTrue)
  | .range first last =>
    let (m, isIn) := if m.entered.contains place then (m, true)
      else
        let (m, v) := eval runner maxLevels first m
        (m, v.isTrue)
    if !isIn then (m, false)
    else
      let (m, v) := eval runner maxLevels last m
      let others := m.entered.filter (· != place)
      ({ m with entered := if v.isTrue then others else place :: others }, true)

/-- Runs the rules for the record. -/
def runRules (runner : Runner) (rules : List (Rule × Nat)) (m : Machine) : Machine :=
  rules.foldl (fun m (r, place) =>
    if m.isLeaving then m
    else
      let (m, chosen) := isChosen runner m place r.pattern
      if chosen then run runner maxLevels r.action m else m) m

/-- Runs the rules for every record, of which there may be so many. -/
def runRecords (runner : Runner) (rules : List (Rule × Nat)) (left : Nat) (m : Machine) : Machine :=
  match left with
  | 0 => m
  | left + 1 =>
    match m.nextMain Machine.maxFiles with
    | (m, none) => m
    | (m, some text) =>
      let after := runRules runner rules (m.setRecord text)
      match after.leaving with
      | some .record => runRecords runner rules left { after with leaving := none }
      | some .file => runRecords runner rules left { after with leaving := none, rest := none }
      | some _ => after
      | none => runRecords runner rules left after

/-- Runs a program to its end. -/
def Program.run (runner : Runner) (p : Program) (m : Machine) : Machine :=
  let runAll (actions : List Statement) (m : Machine) :=
    actions.foldl (fun m s => Record.run runner maxLevels s m) m
  let m := runAll (p.actionsAt true) m
  let m := if m.isLeaving || !p.readsRecords then m
    else runRecords runner p.rules.zipIdx maxTurns m
  let m := match m.leaving with
    | some .fault => m
    | _ => runAll (p.actionsAt false) { m with leaving := none }
  Machine.closeAll runner m

/-- How a program of rules is called. -/
structure Call where
  separator : Option String := none
  assignments : List String := []
  files : List String := []
  operands : List String := []

/-- Reads the words that a program of rules is called with. -/
def Call.ofArgs (c : Call) : List String → Except String Call
  | "-f" :: file :: rest => ofArgs { c with files := c.files ++ [file] } rest
  | "-v" :: word :: rest => ofArgs { c with assignments := c.assignments ++ [word] } rest
  | "-F" :: text :: rest => ofArgs { c with separator := some text } rest
  | "--" :: rest => .ok { c with operands := rest }
  | word :: rest =>
    match word.toList with
    | '-' :: 'f' :: c₁ :: cs =>
      ofArgs { c with files := c.files ++ [String.ofList (c₁ :: cs)] } rest
    | '-' :: 'v' :: c₁ :: cs =>
      ofArgs { c with assignments := c.assignments ++ [String.ofList (c₁ :: cs)] } rest
    | '-' :: 'F' :: c₁ :: cs => ofArgs { c with separator := some (String.ofList (c₁ :: cs)) } rest
    | '-' :: _ :: _ => .error ("not an option: " ++ word)
    | _ => .ok { c with operands := word :: rest }
  | [] => .ok c

/-- The functions that expressions call and nobody defines are faults of the whole program. -/
def undefined? (lexemes : List Lexeme) (p : Program) : Option String :=
  lexemes.findSome? fun (t, _) =>
    match t with
    | .name s true => if (p.functions.lookup s).isNone then some s else none
    | _ => none

/-- Runs a process that is a program of rules. -/
def process (runner : Runner) (s : State) (args : List String) : State :=
  let name := s.scriptName
  let failed (s : State) (complaint : String) := (s.complain complaint).withStatus 2
  match Call.ofArgs {} args with
  | .error why => failed s (name ++ ": " ++ why ++ "\n")
  | .ok c =>
    let (s, source, operands) : State × Except String String × List String :=
      match c.files, c.operands with
      | [], [] => (s, .ok "", [])
      | [], source :: operands => (s, .ok source, operands)
      | files, operands =>
        let (s, source) := files.foldl (fun (s, source) file =>
          match source, textOf s file with
          | .error e, _ => (s, .error e)
          | .ok text, .ok (s, more) => (s, .ok (text ++ more ++ "\n"))
          | .ok _, .error e => (s, .error ("cannot open \"" ++ file ++ "\" (" ++ reason e ++ ")")))
          (s, Except.ok "")
        (s, source, operands)
    match source with
    | .error why => failed s (name ++ ": " ++ why ++ "\n")
    | .ok source =>
      match scan 1 false source.toList, Program.parse source with
      | .error fault, _ | _, .error fault => failed s (fault.message name)
      | .ok lexemes, .ok p =>
        match undefined? lexemes p with
        | some f =>
          failed s (Fault.message name ⟨1, "function " ++ f ++ " never defined"⟩)
        | none =>
          let m := Machine.start s p.functions (name :: operands)
          let m := match c.separator with
            | some text => m.assignText "FS" (if text == "t" then "\t" else text)
            | none => m
          let m := c.assignments.foldl (fun m word =>
            match splitAssignment word with
            | (target, some value) => m.assignText target value
            | _ => m) m
          let m := p.run runner m
          m.shell.withStatus m.code

end Record
end Shell
end DeclarativeBuild
