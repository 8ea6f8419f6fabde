/-!
# Quoted texts of a settings file

Texts on one line or on several, between double quotes with escapes or between single quotes as
they are.  The readers start after the opening quotes and stop after the closing ones.
-/

namespace DeclarativeBuild
namespace Toml

/-- Characters that a text or a comment may hold: controls other than the tab may not. -/
def isTextChar (c : Char) : Bool :=
  c == '\t' || (c.toNat ≥ 0x20 && c.toNat != 0x7f)

def hexValue? (c : Char) : Option Nat :=
  if c.isDigit then some (c.toNat - '0'.toNat)
  else if 'a' ≤ c ∧ c ≤ 'f' then some (c.toNat - 'a'.toNat + 10)
  else if 'A' ≤ c ∧ c ≤ 'F' then some (c.toNat - 'A'.toNat + 10)
  else none

/-- The character of a number in exactly `count` hexadecimal digits, and the text after it. -/
def scanCode (count : Nat) (cs : List Char) : Option (Char × List Char) := do
  let ds := cs.take count
  if ds.length < count then none
  let values ← ds.mapM hexValue?
  let n := values.foldl (fun n d => n * 16 + d) 0
  if n.isValidChar then some (Char.ofNat n, cs.drop count) else none

/-- The character of an escape after its backslash. -/
def scanEscape : List Char → Option (Char × List Char)
  | 'b' :: rest => some ('\x08', rest)
  | 't' :: rest => some ('\t', rest)
  | 'n' :: rest => some ('\n', rest)
  | 'f' :: rest => some ('\x0c', rest)
  | 'r' :: rest => some ('\r', rest)
  | '"' :: rest => some ('"', rest)
  | '\\' :: rest => some ('\\', rest)
  | 'u' :: rest => scanCode 4 rest
  | 'U' :: rest => scanCode 8 rest
  | _ => none

def scanBasic (cs : List Char) : Option (List Char × List Char) :=
  match cs with
  | [] => none
  | '"' :: rest => some ([], rest)
  | '\\' :: rest =>
    match scanEscape rest with
    | none => none
    | some (c, after) =>
      if after.length ≤ rest.length then
        (scanBasic after).map fun (text, after) => (c :: text, after)
      else none
  | c :: rest =>
    if isTextChar c then (scanBasic rest).map fun (text, after) => (c :: text, after) else none
termination_by cs.length
decreasing_by all_goals grind

def scanLiteral : List Char → Option (List Char × List Char)
  | [] => none
  | '\'' :: rest => some ([], rest)
  | c :: rest =>
    if isTextChar c then (scanLiteral rest).map fun (text, after) => (c :: text, after) else none

def isBlankChar (c : Char) : Bool :=
  c == ' ' || c == '\t'

/-- The text after a line end. -/
def skipNewline? : List Char → Option (List Char)
  | '\n' :: rest => some rest
  | '\r' :: '\n' :: rest => some rest
  | _ => none

/-- A line end right after the opening quotes does not count. -/
def dropNewline (cs : List Char) : List Char :=
  (skipNewline? cs).getD cs

/-- Blanks and line ends. -/
def dropBlankLines : List Char → List Char
  | '\r' :: '\n' :: rest => dropBlankLines rest
  | c :: rest => if isBlankChar c || c == '\n' then dropBlankLines rest else c :: rest
  | [] => []

/-- Up to two quotes before the closing three belong to the text. -/
def closingQuotes (quote : Char) (cs : List Char) : Option (List Char × List Char) :=
  let run := (cs.takeWhile (· == quote)).length
  if run < 3 then none
  else
    let extra := min run 5 - 3
    some (List.replicate extra quote, cs.drop (extra + 3))

/-- A text on several lines; a backslash at the end of a line takes the blanks after it away. -/
def scanLongBasic (cs : List Char) : Option (List Char × List Char) :=
  match closingQuotes '"' cs with
  | some found => some found
  | none =>
    match cs with
    | [] => none
    | '\\' :: rest =>
      let line := rest.dropWhile isBlankChar
      match skipNewline? line with
      | some below =>
        if (dropBlankLines below).length ≤ rest.length then scanLongBasic (dropBlankLines below)
        else none
      | none =>
        match scanEscape rest with
        | none => none
        | some (c, after) =>
          if after.length ≤ rest.length then
            (scanLongBasic after).map fun (text, after) => (c :: text, after)
          else none
    | '\r' :: '\n' :: rest => (scanLongBasic rest).map fun (text, after) => ('\n' :: text, after)
    | c :: rest =>
      if isTextChar c || c == '\n' then
        (scanLongBasic rest).map fun (text, after) => (c :: text, after)
      else none
termination_by cs.length
decreasing_by all_goals grind

def scanLongLiteral (cs : List Char) : Option (List Char × List Char) :=
  match closingQuotes '\'' cs with
  | some found => some found
  | none =>
    match cs with
    | [] => none
    | '\r' :: '\n' :: rest => (scanLongLiteral rest).map fun (text, after) => ('\n' :: text, after)
    | c :: rest =>
      if isTextChar c || c == '\n' then
        (scanLongLiteral rest).map fun (text, after) => (c :: text, after)
      else none
termination_by cs.length

end Toml
end DeclarativeBuild
