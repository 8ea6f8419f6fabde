import DeclarativeBuild.Run.Action
import DeclarativeBuild.Text.Quoted

/-!
# The text of a plan

The steps of a rehearsed run as a JSON document, for other tools to read.
-/

namespace DeclarativeBuild

/-- The JSON values that plans are made of. -/
inductive JsonValue where
  | text (s : String)
  | list (items : List JsonValue)
  | object (members : List (String × JsonValue))

namespace JsonValue

def escapedChar (c : Char) : List Char :=
  match c with
  | '"' => ['\\', '"']
  | '\\' => ['\\', '\\']
  | '\x08' => ['\\', 'b']
  | '\x0c' => ['\\', 'f']
  | '\n' => ['\\', 'n']
  | '\r' => ['\\', 'r']
  | '\t' => ['\\', 't']
  | _ =>
    if c.toNat < 0x20 then
      ['\\', 'u', '0', '0', Text.hexDigit (c.toNat / 16), Text.hexDigit c.toNat]
    else [c]

def quoted (s : String) : String :=
  String.ofList ('"' :: s.toList.flatMap escapedChar ++ ['"'])

/-- Items between brackets, each on a line of its own; no items take no line. -/
def block (opening closing : String) (indent : Nat) (items : List String) : String :=
  if items.isEmpty then opening ++ closing
  else
    let pad := String.ofList (List.replicate (indent + 2) ' ')
    let close := String.ofList (List.replicate indent ' ')
    opening ++ "\n" ++ ",\n".intercalate (items.map (pad ++ ·)) ++ "\n" ++ close ++ closing

mutual

/-- The value over several lines, each level indented by two blanks. -/
def pretty (indent : Nat) : JsonValue → String
  | text s => quoted s
  | list items => block "[" "]" indent (prettyItems (indent + 2) items)
  | object members => block "\x7b" "\x7d" indent (prettyMembers (indent + 2) members)

def prettyItems (indent : Nat) : List JsonValue → List String
  | [] => []
  | v :: rest => v.pretty indent :: prettyItems indent rest

def prettyMembers (indent : Nat) : List (String × JsonValue) → List String
  | [] => []
  | (key, v) :: rest => (quoted key ++ ": " ++ v.pretty indent) :: prettyMembers indent rest

end

mutual

/-- The value on one line without blanks. -/
def compact : JsonValue → String
  | text s => quoted s
  | list items => "[" ++ ",".intercalate (compactItems items) ++ "]"
  | object members => "\x7b" ++ ",".intercalate (compactMembers members) ++ "\x7d"

def compactItems : List JsonValue → List String
  | [] => []
  | v :: rest => v.compact :: compactItems rest

def compactMembers : List (String × JsonValue) → List String
  | [] => []
  | (key, v) :: rest => (quoted key ++ ":" ++ v.compact) :: compactMembers rest

end

end JsonValue

open JsonValue

/-- A step as an object; an empty environment and an unset directory are left out. -/
def Step.toJson : Step → JsonValue
  | .run command =>
    let environment := if command.environment.isEmpty then [] else
      [("env", list (command.environment.map fun (k, v) => list [text k, text v]))]
    let directory := match command.directory with
      | none => []
      | some p => [("cwd", text p.text)]
    object ([("kind", text "run"), ("program", text command.program.text),
      ("args", list (command.args.map text))] ++ environment ++ directory)
  | .move source target =>
    object [("kind", text "move"), ("from", text source.text), ("to", text target.text)]

def planText (steps : List Step) : String :=
  (list (steps.map Step.toJson)).pretty 0

end DeclarativeBuild
