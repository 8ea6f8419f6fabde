import DeclarativeBuild.Failure

/-!
# Templates

A template is a text with references to properties, written as a name between a dollar sign with an
opening brace and a closing brace.  Everything that is no complete reference stands for itself, and
inserted values are not looked at again.
-/

namespace DeclarativeBuild
namespace Template

/-- The characters of property names that can be referred to. -/
def isNameChar (c : Char) : Bool :=
  c.isAlphanum || c == '.' || c == '_' || c == '-'

inductive Segment where
  | char (c : Char)
  | reference (name : List Char)
deriving DecidableEq, Repr

/-- The name of a reference after its opening brace, and what follows the closing one. -/
def scanName (cs : List Char) : Option (List Char × List Char) :=
  let name := cs.takeWhile isNameChar
  if name.isEmpty then none
  else
    match cs.drop name.length with
    | '\x7d' :: rest => some (name, rest)
    | _ => none

theorem length_of_scanName {cs name rest : List Char} (h : scanName cs = some (name, rest)) :
    rest.length < cs.length := by
  simp only [scanName] at h
  split at h
  · simp at h
  · split at h
    · next hd =>
      simp only [Option.some.injEq, Prod.mk.injEq] at h
      have := congrArg List.length hd
      simp only [List.length_drop, List.length_cons] at this
      obtain ⟨rfl, rfl⟩ := h
      omega
    · simp at h

/-- The characters and references of a text, from left to right. -/
def segments (cs : List Char) : List Segment :=
  match cs with
  | [] => []
  | '$' :: '\x7b' :: more =>
    match _h : scanName more with
    | some (name, rest) => .reference name :: segments rest
    | none => .char '$' :: segments ('\x7b' :: more)
  | c :: rest => .char c :: segments rest
termination_by cs.length
decreasing_by
  · have := length_of_scanName (by assumption)
    simp
    omega
  · simp
  · simp

/-- The text with every reference replaced, or the first name without a value. -/
def fill (value? : String → Option String) : List Segment → Except Failure (List Char)
  | [] => .ok []
  | .char c :: rest => (fill value? rest).map (c :: ·)
  | .reference name :: rest =>
    match value? (String.ofList name) with
    | none => .error (.undefinedProperty (String.ofList name))
    | some value => (fill value? rest).map (value.toList ++ ·)

def expand (value? : String → Option String) (text : String) : Except Failure String :=
  (fill value? (segments text.toList)).map String.ofList

end Template
end DeclarativeBuild
