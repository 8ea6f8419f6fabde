import DeclarativeBuild.Failure
import DeclarativeBuild.Invocation
import DeclarativeBuild.Text.Inert

/-!
# Actions

What a target does, as data: lines to show, commands to run and files to move, up to the first
failure that is known before anything runs.
-/

namespace DeclarativeBuild

/-- How much a log line matters, least first. -/
inductive LogLevel where
  | trace
  | debug
  | info
  | warn
deriving DecidableEq, Repr

namespace LogLevel

def label : LogLevel → String
  | trace => "TRACE"
  | debug => "DEBUG"
  | info => " INFO"
  | warn => " WARN"

/-- Whether lines of a level are shown at a verbosity from 0 to 3. -/
def shownAt (verbosity : Nat) : LogLevel → Bool
  | warn => true
  | info => 1 ≤ verbosity
  | debug => 2 ≤ verbosity
  | trace => 3 ≤ verbosity

end LogLevel

structure LogLine where
  level : LogLevel
  text : String
deriving DecidableEq, Repr

def LogLine.render (line : LogLine) : String :=
  line.level.label ++ " " ++ Text.inert line.text ++ "\n"

inductive Action where
  | say (line : String)
  | log (line : LogLine)
  | run (command : Invocation)
  | move (source target : Path)
  | fail (failure : Failure)
deriving DecidableEq, Repr

/-- A step that reaches the outside. -/
inductive Step where
  | run (command : Invocation)
  | move (source target : Path)
deriving DecidableEq, Repr

def Step.display : Step → String
  | .run command => command.display
  | .move source target => "move " ++ source.text ++ " -> " ++ target.text

/-- The actions of a stage happen one after the other, or those of each branch do while the branches
run beside each other. -/
inductive Stage where
  | inOrder (actions : List Action)
  | together (branches : List (List Action))
deriving DecidableEq, Repr

end DeclarativeBuild
