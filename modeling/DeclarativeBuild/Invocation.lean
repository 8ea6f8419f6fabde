import DeclarativeBuild.Path
import DeclarativeBuild.Text.Blank

/-!
# Command invocations

A program with its arguments, and how the command line is shown to a user.
-/

namespace DeclarativeBuild

structure Invocation where
  program : Path
  args : List String := []
  environment : List (String × String) := []
  directory : Option Path := none
deriving DecidableEq, Inhabited, Repr

namespace Invocation

/-- A line that the shell runs. -/
def shell (line : String) : Invocation :=
  { program := ⟨"sh"⟩, args := ["-c", line] }

/-- Quotes a word that is empty or holds blanks or quotes; quotes inside it get a backslash. -/
def quoteWord (word : String) : String :=
  let cs := word.toList
  if cs.isEmpty || cs.any Text.isBlank || cs.contains '"' then
    String.ofList ('"' :: cs.flatMap (fun c => if c = '"' then ['\\', '"'] else [c]) ++ ['"'])
  else word

/-- The command line with its words quoted where needed. -/
def display (i : Invocation) : String :=
  " ".intercalate ((i.program.text :: i.args).map quoteWord)

/-- The command line with its words as they are. -/
def plainLine (i : Invocation) : String :=
  " ".intercalate (i.program.text :: i.args)

end Invocation

end DeclarativeBuild
