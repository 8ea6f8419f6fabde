import DeclarativeBuild.Path

/-!
# Diagnostics

What a user is shown about an error: the message, where it arose, what is known and what to try.
-/

namespace DeclarativeBuild

inductive Severity where
  | error
  | warning
  | note
deriving DecidableEq, Repr

namespace Severity

def label : Severity → String
  | error => "error"
  | warning => "warning"
  | note => "note"

/-- The label between terminal colour codes. -/
def coloured (s : Severity) : String :=
  let code := match s with
    | error => "31"
    | warning => "33"
    | note => "36"
  "\x1b[1;" ++ code ++ "m" ++ s.label ++ "\x1b[0m"

end Severity

structure Diagnostic where
  severity : Severity
  message : String
  context : List String := []
  suggestions : List String := []
  location : Option Path := none

/-- The lines of a diagnostic: suggestions come last, after an empty line. -/
def Diagnostic.render (colour : Bool) (d : Diagnostic) : String :=
  let head := if colour then d.severity.coloured else d.severity.label
  let location := (d.location.map fun p => "  --> " ++ p.text ++ "\n").getD ""
  let context := d.context.map fun line => "  = " ++ line ++ "\n"
  let suggestions := d.suggestions.map (· ++ "\n")
  head ++ ": " ++ d.message ++ "\n" ++ location ++ String.join context ++
    (if suggestions.isEmpty then "" else "\n" ++ String.join suggestions)

end DeclarativeBuild
