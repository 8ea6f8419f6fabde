import DeclarativeBuild.Shell.Pattern
import DeclarativeBuild.Shell.State

/-!
# Fields

What the values in a word become: characters that are quoted or not, divided into fields.
-/

namespace DeclarativeBuild
namespace Shell

/-- The fields that words have filled so far. -/
structure Fields where
  /-- Whether all that is added makes one field. -/
  isWhole : Bool
  /-- Whether text outside quotes is divided too. -/
  splitsText : Bool := false
  /-- Characters that divide values outside quotes. -/
  separators : List Char
  /-- Fields that are complete, last to first. -/
  complete : List (List Mark) := []
  /-- The field that is being filled, if any. -/
  current : Option (List Mark) := none
  /-- Whether a separator that is no blank would end a field that blanks have ended already. -/
  isEnded : Bool := false

namespace Fields

def add (f : Fields) (text : List Mark) : Fields :=
  { f with current := some (f.current.getD [] ++ text), isEnded := false }

def close (f : Fields) : Fields :=
  match f.current with
  | none => f
  | some field => { f with complete := field :: f.complete, current := none }

def isBlank (c : Char) : Bool :=
  c == ' ' || c == '\t' || c == '\n'

/-- Adds a value outside quotes.  Blanks between fields count as one separator, together with one
separator of another kind. -/
def addSplit (f : Fields) : List Char → Fields
  | [] => f
  | c :: cs =>
    let f :=
      if f.isWhole || !f.separators.contains c then f.add [(c, false)]
      else if isBlank c then
        if f.current.isSome then { f.close with isEnded := true } else f
      else if f.current.isSome then { f.close with isEnded := false }
      else if f.isEnded then { f with isEnded := false }
      else { f with complete := [] :: f.complete }
    addSplit f cs

/-- Adds the value of a parameter or the output of a command. -/
def addValue (f : Fields) (quoted : Bool) (value : String) : Fields :=
  if quoted then f.add (marks true value) else f.addSplit value.toList

/-- Adds values that start a field each. -/
def addEach (f : Fields) (quoted : Bool) : List String → Fields
  | [] => if f.current == some [] then { f with current := none } else f
  | [last] => f.addValue quoted last
  | value :: rest =>
    let f := f.addValue quoted value
    addEach (if f.isWhole then f.add (marks quoted " ") else f.close) quoted rest

def finish (f : Fields) : List (List Mark) :=
  f.close.complete.reverse

/-- All that has been added to a word that stays whole. -/
def whole (f : Fields) : List Mark :=
  f.current.getD []

end Fields

/-- The directory that a word starts with a sign for, and the rest of the word. -/
def homeStart? (w : Word) : Option Word :=
  match w with
  | .text t false :: rest =>
    match t.toList with
    | ['~'] => if rest.isEmpty then some [] else none
    | '~' :: '/' :: more => some (.text (String.ofList ('/' :: more)) false :: rest)
    | _ => none
  | _ => none

end Shell
end DeclarativeBuild
