import DeclarativeBuild.Markup.Character
import DeclarativeBuild.Text.Pieces

/-!
# Written text

What the text between tags and the values of attributes stand for: references are replaced and
line ends are made uniform.
-/

namespace DeclarativeBuild
namespace Markup

/-- A prefix of the input and what follows it. -/
def stripPrefix? (expected : List Char) (cs : List Char) : Option (List Char) :=
  if expected.isPrefixOf cs then some (cs.drop expected.length) else none

def numberOf (base : Nat) (digits : List Char) : Nat :=
  digits.foldl (fun n c =>
    let d := if c.isDigit then c.toNat - '0'.toNat else c.toLower.toNat - 'a'.toNat + 10
    n * base + d) 0

def isHexDigit (c : Char) : Bool :=
  c.isDigit || ('a' ≤ c && c ≤ 'f') || ('A' ≤ c && c ≤ 'F')

/-- References are numbers of 32 bits. -/
def numberBound : Nat := Nat.pow 2 32

/-- The character with a given number.  A number of no character stands for the replacement
character; a number beyond 32 bits and a character that no document may hold are refused. -/
def charOfNumber? (n : Nat) : Option Char :=
  if n < numberBound then
    let c := if n.isValidChar then Char.ofNat n else '\ufffd'
    if isDocumentChar c then some c else none
  else none

def namedReferences : List (String × Char) :=
  [("quot", '"'), ("amp", '&'), ("apos", '\''), ("lt", '<'), ("gt", '>')]

/-- The character that the text between an ampersand and a semicolon refers to. -/
def referenced? (body : List Char) : Option Char :=
  match body with
  | '#' :: 'x' :: digits =>
    if digits.isEmpty || !digits.all isHexDigit then none else charOfNumber? (numberOf 16 digits)
  | '#' :: digits =>
    if digits.isEmpty || !digits.all Char.isDigit then none else charOfNumber? (numberOf 10 digits)
  | name => namedReferences.lookup (String.ofList name)

/-- A character as written or as referred to. -/
structure Written where
  char : Char
  byReference : Bool

/-- Reads the references in a text, which fails at the first that refers to nothing. -/
def written (cs : List Char) : Option (List Written) :=
  match cs with
  | [] => some []
  | '&' :: rest =>
    let body := rest.takeWhile (· != ';')
    if body.length < rest.length then
      match referenced? body with
      | some c => (written (rest.drop (body.length + 1))).map (⟨c, true⟩ :: ·)
      | none => none
    else none
  | c :: rest => (written rest).map (⟨c, false⟩ :: ·)
termination_by cs.length
decreasing_by all_goals grind

/-- An attribute's value: a line end or tab as written is a space, one by reference stays. -/
def attributeValue : List Written → List Char
  | [] => []
  | ⟨'\r', false⟩ :: ⟨'\n', false⟩ :: rest => ' ' :: attributeValue rest
  | ⟨c, byReference⟩ :: rest =>
    (if !byReference && isSpace c then ' ' else c) :: attributeValue rest

/-- Adds a written character to a text that is kept last to first.  A carriage return becomes a
line feed as soon as something follows it or the text ends, and swallows a line feed. -/
def pushWritten (last : Bool) (text : List Char) (c : Char) : List Char :=
  match text with
  | '\r' :: before =>
    if last && c == '\r' then '\n' :: '\n' :: before
    else if c == '\n' then '\n' :: before
    else c :: '\n' :: before
  | _ => if last && c == '\r' then '\n' :: text else c :: text

/-- The text between tags, kept last to first.  A character right after a reference is taken as it
is. -/
def textValueFrom (afterReference : Bool) (text : List Char) : List Written → List Char
  | [] => text
  | ⟨c, byReference⟩ :: rest =>
    if byReference || afterReference then textValueFrom byReference (c :: text) rest
    else textValueFrom false (pushWritten rest.isEmpty text c) rest

def textValue (ws : List Written) : List Char :=
  (textValueFrom false [] ws).reverse

end Markup
end DeclarativeBuild
