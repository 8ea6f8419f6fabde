import DeclarativeBuild.Shell.Format
import DeclarativeBuild.Shell.Record.Syntax

/-!
# Words of rules

The text of a program of rules, cut into names, numbers, texts, patterns and operators.
-/

namespace DeclarativeBuild
namespace Shell
namespace Record

inductive Token where
  | number (x : Float)
  | text (s : String)
  | pattern (source : List Char)
  /-- A name, and whether an opening parenthesis stands right behind it. -/
  | name (s : String) (opens : Bool)
  | keyword (s : String)
  | builtin (s : String)
  | operator (s : String)
  | newline

/-- A token with its line. -/
abbrev Lexeme := Token × Nat

/-- Why a program cannot be read. -/
structure Fault where
  line : Nat
  complaint : String
deriving DecidableEq, Repr

def Fault.message (utility : String) (f : Fault) : String :=
  utility ++ ": line " ++ toString f.line ++ ": " ++ f.complaint ++ "\n"

def keywords : List String :=
  ["BEGIN", "END", "function", "if", "else", "while", "for", "do", "break", "continue", "next",
    "nextfile", "exit", "return", "delete", "in", "getline", "print", "printf"]

def builtins : List String :=
  ["length", "substr", "index", "split", "sub", "gsub", "match", "sprintf", "sin", "cos", "atan2",
    "exp", "log", "sqrt", "int", "rand", "srand", "tolower", "toupper", "system", "close", "fflush",
    "systime", "strftime", "mktime"]

/-- Operators, longer ones before those they start with. -/
def operators : List String :=
  ["&&", "||", "==", "!=", "<=", ">=", ">>", "++", "--", "+=", "-=", "*=", "/=", "%=", "^=", "!~",
    "+", "-", "*", "/", "%", "^", "<", ">", "!", "~", "?", ":", "=", "$", "(", ")", "[", "]",
    "\x7b", "\x7d", ",", ";", "|"]

/-- The decimal number at the front of a text as a number of the machine, and what follows it. -/
def scanFloat (text : String) : Option (Float × List Char) :=
  (scanDecimal text).map fun (d, rest) => (if d.negative then -d.size else d.size, rest)

/-- A text up to its closing quote, with its escapes replaced; other backslashes stay. -/
def scanText (cs : List Char) : Option (List Char × List Char) :=
  match cs with
  | [] | '\n' :: _ => none
  | '"' :: rest => some ([], rest)
  | '\\' :: c :: rest =>
    let digits := ((c :: rest).takeWhile isOctal).take 3
    if !digits.isEmpty then
      let after := (c :: rest).drop digits.length
      if after.length ≤ rest.length then
        (scanText after).map fun (text, after) => (octalChar digits :: text, after)
      else none
    else if c == '\n' then scanText rest
    else
      (scanText rest).map fun (text, after) =>
        if c == '"' || c == '/' then (c :: text, after)
        else match if c == 'e' then none else escapedChar? c with
          | some d => (d :: text, after)
          | none => ('\\' :: c :: text, after)
  | c :: rest => (scanText rest).map fun (text, after) => (c :: text, after)
termination_by cs.length
decreasing_by all_goals grind

/-- A pattern up to its closing slash. -/
def scanPattern (inSet : Bool) (cs : List Char) : Option (List Char × List Char) :=
  match cs with
  | [] | '\n' :: _ => none
  | '\\' :: c :: rest =>
    (scanPattern inSet rest).map fun (source, after) => ('\\' :: c :: source, after)
  | c :: rest =>
    if c == '/' && !inSet then some ([], rest)
    else
      let inSet := if inSet then c != ']' else c == '['
      (scanPattern inSet rest).map fun (source, after) => (c :: source, after)

/-- Whether a slash behind a token divides. -/
def Token.endsOperand : Token → Bool
  | .number _ | .text _ | .pattern _ | .name _ _ | .builtin _ => true
  | .operator o => [")", "]", "++", "--", "$"].contains o
  | _ => false

/-- The word with letters that starts here. -/
def wordToken (text : String) (rest : List Char) : Token :=
  if keywords.contains text then .keyword text
  else if builtins.contains text then .builtin text
  else .name text (rest.head? == some '(')

/-- The tokens of a program from a line on, where the one before may make a slash divide. -/
def scan (line : Nat) (afterOperand : Bool) (cs : List Char) : Except Fault (List Lexeme) :=
  match cs with
  | [] => .ok []
  | '\\' :: '\n' :: rest => scan (line + 1) afterOperand rest
  | '\n' :: rest => do return (.newline, line) :: (← scan (line + 1) false rest)
  | '#' :: rest => scan line afterOperand (rest.drop (rest.takeWhile (· != '\n')).length)
  | '"' :: rest =>
    match scanText rest with
    | none =>
      let start := String.ofList (rest.takeWhile (· != '\n'))
      .error ⟨line, "runaway string constant \"" ++ start ++ " ..."⟩
    | some (text, after) =>
      if after.length ≤ rest.length then do
        return (.text (String.ofList text), line) :: (← scan line true after)
      else .ok []
  | c :: rest =>
    if c == ' ' || c == '\t' || c == '\r' then scan line afterOperand rest
    else if c == '/' && !afterOperand then
      match scanPattern false rest with
      | none =>
        let start := String.ofList (rest.takeWhile (· != '\n'))
        .error ⟨line, "runaway regular expression /" ++ start ++ " ..."⟩
      | some (source, after) =>
        if after.length ≤ rest.length then do
          return (.pattern source, line) :: (← scan line true after)
        else .ok []
    else if isNameStart c then
      let more := rest.takeWhile isNameChar
      let after := rest.drop more.length
      let t := wordToken (String.ofList (c :: more)) after
      do return (t, line) :: (← scan line t.endsOperand after)
    else if c.isDigit || (c == '.' && rest.head?.any Char.isDigit) then
      match scanFloat (String.ofList (c :: rest)) with
      | some (x, after) =>
        if after.length ≤ rest.length then do
          return (.number x, line) :: (← scan line true after)
        else .ok []
      | none => .ok []
    else
      match scanOperator operators (c :: rest) with
      | some (o, after) =>
        let t := Token.operator o
        if after.length ≤ rest.length then do
          return (t, line) :: (← scan line t.endsOperand after)
        else .ok []
      | none => .error ⟨line, "unexpected character '" ++ c.toString ++ "'"⟩
termination_by cs.length
decreasing_by all_goals grind

end Record
end Shell
end DeclarativeBuild
