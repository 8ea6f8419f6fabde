import DeclarativeBuild.Toml.Quote
import DeclarativeBuild.Toml.Scalar

/-!
# Reading settings files

A settings file is read line by line: headers open tables, and keys with values fill the table that
is open.
-/

namespace DeclarativeBuild
namespace Toml

def skipBlanks (cs : List Char) : List Char :=
  cs.dropWhile isBlankChar

def isBareChar (c : Char) : Bool :=
  c.isAlphanum || c == '_' || c == '-'

/-- One part of a key. -/
def scanKeyPart (cs : List Char) : Option (String × List Char) :=
  match cs with
  | '"' :: rest => (scanBasic rest).map fun (text, after) => (String.ofList text, after)
  | '\'' :: rest => (scanLiteral rest).map fun (text, after) => (String.ofList text, after)
  | _ =>
    let bare := cs.takeWhile isBareChar
    if bare.isEmpty then none else some (String.ofList bare, cs.drop bare.length)

/-- The parts of a dotted key, where blanks may stand around the dots. -/
def scanKeyParts (cs : List Char) : Option (List String × List Char) :=
  match scanKeyPart (skipBlanks cs) with
  | none => none
  | some (part, rest) =>
    match skipBlanks rest with
    | '.' :: more =>
      if more.length < cs.length then
        (scanKeyParts more).map fun (parts, after) => (part :: parts, after)
      else none
    | after => some ([part], after)
termination_by cs.length

/-- How deep tables and arrays may be nested by one key, and by the brackets of one value. -/
def maxNesting : Nat := 79

/-- A key, which may be dotted. -/
def scanKey (cs : List Char) : Option (List String × List Char) := do
  let (parts, after) ← scanKeyParts cs
  if parts.length ≤ maxNesting then some (parts, after) else none

/-- The end of a line, after a comment if there is one. -/
def skipLineEnd (cs : List Char) : Option (List Char) :=
  let rest := match skipBlanks cs with
    | '#' :: comment => comment.dropWhile isTextChar
    | rest => rest
  if rest.isEmpty then some [] else skipNewline? rest

/-- Blanks, comments and line ends between the items of an array. -/
def skipGap (cs : List Char) : Option (List Char) :=
  match skipBlanks cs with
  | '\n' :: rest => if rest.length < cs.length then skipGap rest else none
  | '\r' :: '\n' :: rest => if rest.length < cs.length then skipGap rest else none
  | '#' :: rest =>
    match skipNewline? (rest.dropWhile isTextChar) with
    | none => none
    | some below => if below.length < cs.length then skipGap below else none
  | rest => some rest
termination_by cs.length

def isWordChar (c : Char) : Bool :=
  c.isAlphanum || c == '+' || c == '-' || c == '.' || c == '_' || c == ':'

/-- A word, with the time after a date and a blank. -/
def scanWord (cs : List Char) : Option (Value × List Char) :=
  let word := cs.takeWhile isWordChar
  let rest := cs.drop word.length
  let time := match rest with
    | ' ' :: more => if skipDate word == some [] && (twoDigits? more).isSome
      then ' ' :: more.takeWhile isWordChar else []
    | _ => []
  (scalar? (word ++ time)).map fun v => (v, rest.drop time.length)

mutual

def scanValue (nesting : Nat) (cs : List Char) : Option (Value × List Char) :=
  match cs with
  | '"' :: '"' :: '"' :: rest =>
    (scanLongBasic (dropNewline rest)).map fun (text, after) =>
      (.string (String.ofList text), after)
  | '"' :: rest => (scanBasic rest).map fun (text, after) => (.string (String.ofList text), after)
  | '\'' :: '\'' :: '\'' :: rest =>
    (scanLongLiteral (dropNewline rest)).map fun (text, after) =>
      (.string (String.ofList text), after)
  | '\'' :: rest =>
    (scanLiteral rest).map fun (text, after) => (.string (String.ofList text), after)
  | '[' :: rest =>
    match nesting with
    | 0 => none
    | nesting + 1 => (scanItems nesting rest).map fun (items, after) => (.array items, after)
  | '\x7b' :: rest =>
    match nesting with
    | 0 => none
    | nesting + 1 =>
      match skipBlanks rest with
      | '\x7d' :: after => some (.table .inline [], after)
      | start => (scanMembers nesting [] start).map fun (members, after) =>
        (.table .inline members, after)
  | _ => scanWord cs
termination_by (nesting, 0, cs.length)

/-- The items of an array up to its closing bracket. -/
def scanItems (nesting : Nat) (cs : List Char) : Option (List Value × List Char) :=
  match skipGap cs with
  | none => none
  | some (']' :: after) => some ([], after)
  | some start =>
    match scanValue nesting start with
    | none => none
    | some (v, rest) =>
      match skipGap rest with
      | some (',' :: rest) =>
        if rest.length < cs.length then
          (scanItems nesting rest).map fun (items, after) => (v :: items, after)
        else none
      | some (']' :: after) => some ([v], after)
      | _ => none
termination_by (nesting, 1, cs.length)

/-- The members of a table between braces, at least one, on one line. -/
def scanMembers (nesting : Nat) (found : Entries) (cs : List Char) :
    Option (Entries × List Char) :=
  match scanKey cs with
  | some (key, '=' :: rest) =>
    match scanValue nesting (skipBlanks rest) with
    | none => none
    | some (v, rest) =>
      match found.addDotted (key.getLastD "") v key.dropLast, skipBlanks rest with
      | some found, ',' :: rest =>
        if rest.length < cs.length then scanMembers nesting found rest else none
      | some found, '\x7d' :: after => some (found, after)
      | _, _ => none
  | _ => none
termination_by (nesting, 1, cs.length)

end

/-- The tables read so far and the path of the one that is open. -/
structure Reading where
  root : Entries
  path : List String

/-- A header, after its first bracket. -/
def scanHeader (r : Reading) (cs : List Char) : Option (Reading × List Char) := do
  match cs with
  | '[' :: rest =>
    match ← scanKey rest with
    | (key, ']' :: ']' :: after) =>
      let root ← r.root.along (Entries.openNext (key.getLastD "")) key.dropLast
      some (⟨root, key⟩, after)
    | _ => none
  | rest =>
    match ← scanKey rest with
    | (key, ']' :: after) =>
      let root ← r.root.along (Entries.openTable (key.getLastD "")) key.dropLast
      some (⟨root, key⟩, after)
    | _ => none

/-- A key with its value. -/
def scanPair (r : Reading) (cs : List Char) : Option (Reading × List Char) := do
  match ← scanKey cs with
  | (key, '=' :: rest) =>
    let (v, after) ← scanValue maxNesting (skipBlanks rest)
    let add (entries : Entries) := entries.addDotted (key.getLastD "") v key.dropLast
    let root ← r.root.along add r.path
    some ({ r with root }, after)
  | _ => none

/-- One line, which may be empty. -/
def scanLine (r : Reading) (cs : List Char) : Option (Reading × List Char) :=
  match skipBlanks cs with
  | '[' :: rest => scanHeader r rest
  | start =>
    match start with
    | [] | '#' :: _ | '\n' :: _ | '\r' :: _ => some (r, start)
    | _ => scanPair r start

def readLines (r : Reading) (cs : List Char) : Option Reading :=
  if cs.isEmpty then some r
  else
    match scanLine r cs with
    | none => none
    | some (r, rest) =>
      match skipLineEnd rest with
      | none => none
      | some below => if below.length < cs.length then readLines r below else some r
termination_by cs.length

/-- The table that a settings file spells out. -/
def read (source : String) : Option Entries :=
  let cs := source.toList
  let cs := if cs.head? == some '\ufeff' then cs.drop 1 else cs
  (readLines ⟨[], []⟩ cs).map Reading.root

end Toml
end DeclarativeBuild
