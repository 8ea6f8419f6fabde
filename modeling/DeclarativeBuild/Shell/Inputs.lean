import DeclarativeBuild.Shell.Files

/-!
# Inputs

What utilities read: the files that they are given, or their input.  A utility that reads its input
takes all of it.
-/

namespace DeclarativeBuild
namespace Shell

/-- The text of a file, or the input for a dash. -/
def textOf (s : State) (file : String) : Except SystemError (State × String) :=
  if file == "-" || file == "/dev/stdin" then .ok (s.withInput "", s.input)
  else if file == "/dev/null" then .ok (s, "")
  else (s.world.readText ⟨file⟩).map fun text => (s, text)

/-- The texts of some files, or of the input if there are none; `tell` says what happens where one
cannot be read. -/
def textsOr (tell : State → String → SystemError → State) (s : State) (files : List String) :
    State × List (String × String) :=
  (if files.isEmpty then ["-"] else files).foldl (fun (s, found) file =>
    match textOf s file with
    | .ok (s, text) => (s, found ++ [(file, text)])
    | .error e => ((tell s file e).withStatus 1, found)) (s.withStatus 0, [])

/-- Likewise, with a complaint for each that cannot be read. -/
def texts (utility : String) (complaint : String → String) (s : State) (files : List String) :
    State × List (String × String) :=
  textsOr (fun s file e =>
    s.complain (utility ++ ": " ++ complaint file ++ ": " ++ reason e ++ "\n")) s files

/-- A utility that turns the text of its files or its input into another one. -/
def filter (utility : String) (s : State) (files : List String)
    (change : List Char → List Char) : State :=
  let (s, found) := texts utility id s files
  s.write (String.ofList (change (found.flatMap fun (_, text) => text.toList)))

/-- Likewise, line by line of the whole text. -/
def filterLines (utility : String) (s : State) (files : List String)
    (change : List Line → List Line) : State :=
  filter utility s files fun text => unlines (change (linesOf text).1)

/-- The number that a suffix multiplies by. -/
def multiplier? (suffix : List Char) : Option Nat :=
  match suffix with
  | [] => some 1
  | ['b'] => some 512
  | ['k'] | ['K'] => some 1024
  | ['k', 'B'] => some 1000
  | ['M'] => some 1048576
  | ['M', 'B'] => some 1000000
  | _ => none

/-- Complains about how a utility was called. -/
def misused (utility complaint : String) (s : State) : State :=
  (s.complain (utility ++ ": " ++ complaint ++ "\nTry '" ++ utility ++
    " --help' for more information.\n")).withStatus 1

/-- Runs a step that needs at least one operand. -/
def needingOperand (utility : String) (operands : List String) (s : State)
    (step : State → State) : State :=
  if operands.isEmpty then misused utility "missing operand" s else step s

end Shell
end DeclarativeBuild
