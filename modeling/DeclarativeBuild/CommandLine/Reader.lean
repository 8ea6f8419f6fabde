import DeclarativeBuild.CommandLine.Argument
import DeclarativeBuild.CommandLine.Basic
import DeclarativeBuild.Session

/-!
# Reading command lines

The arguments before a command's name and those after it are read alike, each up to the first that
cannot be accepted.  An option that holds one value or none may be given once on either side.
-/

namespace DeclarativeBuild
namespace CommandLine

/-- What the arguments on one side of the command's name say. -/
structure Given where
  options : Options := {}
  dryRun : Bool := false
  plan : Bool := false
  jobs? : Option Nat := none
  operands : List String := []

/-- Why no further argument is read. -/
inductive Stop where
  | version
  | misuse
deriving DecidableEq, Repr

/-- The largest number of jobs plus one. -/
def jobsBound : Nat := Nat.pow 2 64

/-- A number in decimal digits, with a plus sign or not. -/
def readJobs (text : String) : Option Nat :=
  let digits := match text.toList with
    | '+' :: cs => cs
    | cs => cs
  if digits.isEmpty || !digits.all Char.isDigit then none
  else
    let n := digits.foldl (fun n c => 10 * n + (c.toNat - '0'.toNat)) 0
    if n < jobsBound then some n else none

namespace Given

/-- Accepts an option unless it was given before. -/
def once (taken : Bool) (g : Given) : Except Stop Given :=
  if taken then .error .misuse else .ok g

def acceptFlag (g : Given) : OptionName → Except Stop Given
  | .verbose =>
    let verbose := min (g.options.verbose + 1) Session.maxCount
    .ok { g with options := { g.options with verbose } }
  | .quiet => once g.options.quiet { g with options := { g.options with quiet := true } }
  | .noConfig => once g.options.noConfig { g with options := { g.options with noConfig := true } }
  | .dryRun => once g.dryRun { g with dryRun := true }
  | .plan => once g.plan { g with plan := true }
  | .version => .error .version
  | .file | .property | .jobs => .error .misuse

def acceptValue (g : Given) (value : String) : OptionName → Except Stop Given
  | .file =>
    if value == "" then .error .misuse
    else once g.options.file?.isSome { g with options := { g.options with file? := some ⟨value⟩ } }
  | .property =>
    match readPropertyArgument value with
    | .ok property =>
      .ok { g with
        options := { g.options with properties := g.options.properties ++ [property] } }
    | .error _ => .error .misuse
  | .jobs =>
    match readJobs value with
    | some n => once g.jobs?.isSome { g with jobs? := some n }
    | none => .error .misuse
  | _ => .error .misuse

def accept (g : Given) : Argument → Except Stop Given
  | .flag name => g.acceptFlag name
  | .valued name value => g.acceptValue value name
  | .operand text => .ok { g with operands := g.operands ++ [text] }
  | .misplaced => .error .misuse

def ofArguments (arguments : List Argument) : Except Stop Given :=
  arguments.foldlM accept {}

/-- Whether no two options exclude each other. -/
def isConsistent (g : Given) : Bool :=
  !(g.options.quiet && g.options.verbose > 0) && !(g.dryRun && g.plan)

def mode (g : Given) : BuildMode :=
  if g.plan then .showPlan else if g.dryRun then .showSteps else .run

end Given

/-- The forms of the options that may follow a command's name. -/
def formsAfter (name : String) : List OptionForm :=
  if name == "build" then buildForms else sharedForms

/-- The command of a name, with its operands. -/
def commandOf (name : String) (g : Given) : Option Command :=
  match name, g.operands with
  | "build", [] => some (.build none g.mode g.jobs?)
  | "build", [target] => some (.build (some target) g.mode g.jobs?)
  | "targets", [] => some .targets
  | "dump", [] => some .dump
  | "objtags", [directory] => if directory == "" then none else some (.objectTags ⟨directory⟩)
  | _, _ => none

def commandNames : List String :=
  ["build", "targets", "dump", "objtags"]

def readRequest (words : List String) : Except Stop Request := do
  let (arguments, rest) := scanOptions mainForms words
  let before ← Given.ofArguments arguments
  match rest with
  | [] => .error .misuse
  | name :: rest =>
    if !commandNames.contains name || !before.operands.isEmpty then .error .misuse
    else
      let after ← Given.ofArguments (scanArguments (formsAfter name) rest)
      if !before.isConsistent || !after.isConsistent then .error .misuse
      else
        match commandOf name after with
        | some command => .ok ⟨before.options.override after.options, command⟩
        | none => .error .misuse

/-- Reads the words after the program's own name. -/
def read (words : List String) : Reading :=
  match readRequest words with
  | .ok r => .request r
  | .error .version => .version
  | .error .misuse => .misuse

end CommandLine
end DeclarativeBuild
