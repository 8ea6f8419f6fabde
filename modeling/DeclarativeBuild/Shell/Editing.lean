import DeclarativeBuild.Shell.Regex

/-!
# Editing scripts

Scripts that edit a text line by line: which lines a command is for, and what it does with them.
-/

namespace DeclarativeBuild
namespace Shell

abbrev Line := List Char

/-- The lines of a text and whether a line end closes the last of them. -/
def linesOf (text : List Char) : List Line × Bool :=
  let lines := Text.pieces '\n' text
  if lines.getLast? == some [] then (lines.dropLast, true) else (lines, false)

/-- Lines with their ends. -/
def unlines (lines : List Line) : List Char :=
  lines.flatMap (· ++ ['\n'])

def skipBlanks (cs : List Char) : List Char :=
  cs.dropWhile fun c => c == ' ' || c == '\t'

namespace Editing

/-- How the case of what is filled in is changed, for all of it or for its first character. -/
inductive CaseChange where
  | keep
  | all (upper : Bool)
  | first (upper : Bool)
deriving DecidableEq, Repr

inductive Part where
  | text (c : Char)
  | group (n : Nat)
  | cased (change : CaseChange)
deriving DecidableEq, Repr

/-- An expression with its flags; the latest one that was used stands in for one left out. -/
structure Pattern where
  expression : Option Regex
  ignoreCase : Bool := false
deriving DecidableEq, Repr

inductive Address where
  | line (n : Nat)
  /-- Every so many lines from one on. -/
  | every (first step : Nat)
  | last
  | matching (p : Pattern)
deriving DecidableEq, Repr

/-- Where lines from an address on end. -/
inductive RangeEnd where
  | address (a : Address)
  /-- So many lines below. -/
  | below (n : Nat)
  /-- The next line whose number is a multiple. -/
  | multiple (n : Nat)
deriving DecidableEq, Repr

/-- The lines that a command is for: all, those at an address, or those from one on. -/
structure Guard where
  first : Option Address := none
  last : Option RangeEnd := none
  negated : Bool := false
deriving DecidableEq, Repr

structure Substitution where
  pattern : Pattern
  replacement : List Part
  /-- The match that is replaced first. -/
  number : Nat := 0
  all : Bool := false
  prints : Bool := false
  file : Option String := none
deriving DecidableEq, Repr

inductive Action where
  | substitute (s : Substitution)
  | translate (pairs : List (Char × Char))
  | print (firstLine : Bool)
  | delete (firstLine : Bool)
  | next (adds : Bool)
  | quit (prints : Bool) (code : Nat)
  | number
  | before (text : Option Line)
  | after (text : Option Line)
  | change (text : Option Line)
  /-- Keeps the line aside, or takes back what was kept; either adds to what there is. -/
  | keep (adds : Bool)
  | recall (adds : Bool)
  | exchange
  | clear
  | jump (label : String)
  | jumpIf (changed : Bool) (label : String)
  | label (name : String)
  | opening
  | closing
  | read (file : String)
  | write (firstLine : Bool) (file : String)
  /-- Shows the line with its special characters spelt out, perhaps in rows of some width. -/
  | spell (width : Option Nat)
  | pass
deriving DecidableEq, Repr

structure Edit where
  guarding : Guard
  action : Action
deriving DecidableEq, Repr

/-- The files that a command may write. -/
def Edit.files (e : Edit) : List String :=
  match e.action with
  | .write _ file => [file]
  | .substitute s => s.file.toList
  | _ => []

/-- Why a script is refused, and how much of it there is still to read then. -/
structure Refusal where
  why : String
  unread : Nat

abbrev Reading := Except Refusal

def refuse (why : String) (rest : List Char) : Reading α :=
  .error ⟨why, rest.length⟩

/-- How many characters a set in brackets has after its opening bracket, up to the closing one. -/
def bracketLength (first : Bool) : List Char → Option Nat
  | [] => none
  | '[' :: kind :: rest =>
    if kind == ':' || kind == '.' || kind == '=' then
      let name := rest.takeWhile (· != kind)
      match rest.drop name.length with
      | _ :: ']' :: after =>
        if after.length ≤ rest.length then
          (bracketLength false after).map (· + name.length + 4)
        else none
      | _ => none
    else (bracketLength false (kind :: rest)).map (· + 1)
  | '^' :: rest => (bracketLength first rest).map (· + 1)
  | ']' :: rest => if first then (bracketLength false rest).map (· + 1) else some 1
  | _ :: rest => (bracketLength false rest).map (· + 1)
termination_by cs => cs.length

/-- A text up to an unescaped delimiter, where an escaped one stands for itself.  A delimiter inside
the brackets of an expression does not count. -/
def scanDelimited (isExpression : Bool) (delimiter : Char) (cs : List Char) :
    Option (List Char × List Char) :=
  match cs with
  | [] => none
  | '\\' :: c :: rest =>
    let kept := if c == delimiter then [c] else ['\\', c]
    (scanDelimited isExpression delimiter rest).map fun (text, after) => (kept ++ text, after)
  | c :: rest =>
    if c == delimiter then some ([], rest)
    else if isExpression && c == '[' then
      match bracketLength true rest with
      | none => none
      | some n =>
        (scanDelimited isExpression delimiter (rest.drop n)).map fun (text, after) =>
          (c :: rest.take n ++ text, after)
    else (scanDelimited isExpression delimiter rest).map fun (text, after) => (c :: text, after)
termination_by cs.length

/-- The digits of a number in some base, at most so many, and its value. -/
def scanCode (base most : Nat) (cs : List Char) : Option (Nat × Nat) :=
  let digits := (cs.take most).takeWhile fun c => (digitValue? c).any (· < base)
  if digits.isEmpty then none
  else some (digits.foldl (fun n c => n * base + (digitValue? c).getD 0) 0, digits.length)
where
  digitValue? (c : Char) : Option Nat :=
    if c.isDigit then some (c.toNat - '0'.toNat)
    else if 'a' ≤ c.toLower && c.toLower ≤ 'f' then some (c.toLower.toNat - 'a'.toNat + 10)
    else none

/-- A text in which escapes for single characters have been replaced.  A character that would have a
meaning of its own is kept escaped. -/
def plainEscapes (isSpecial : Char → Bool) (cs : List Char) : List Char :=
  let shown (c : Char) : List Char := if isSpecial c then ['\\', c] else [c]
  match cs with
  | [] => []
  | '\\' :: c :: rest =>
    let coded : Option (Nat × Nat) := match c with
      | 'x' => scanCode 16 2 rest
      | 'o' => scanCode 8 3 rest
      | 'd' => scanCode 10 3 rest
      | 'c' => rest.head?.map fun c => ((c.toUpper.toNat ^^^ 64) % 128, 1)
      | _ => none
    match coded with
    | some (code, n) => shown (Char.ofNat (code % 256)) ++ plainEscapes isSpecial (rest.drop n)
    | none =>
      let kept : List Char := match c with
        | 'a' => ['\x07']
        | 'f' => ['\x0c']
        | 'v' => ['\x0b']
        | 't' => ['\t']
        | 'n' => if isSpecial '\n' then ['\\', 'n'] else ['\n']
        | c => ['\\', c]
      kept ++ plainEscapes isSpecial rest
  | c :: rest => c :: plainEscapes isSpecial rest
termination_by cs.length

/-- The characters of an expression that have a meaning of their own. -/
def isMarkup (extended : Bool) (c : Char) : Bool :=
  ".[]*^$\\".contains c || (extended && "+?()\x7b\x7d|".contains c)

def partsOf : List Char → List Part
  | '\\' :: c :: rest =>
    let part : Part := match c with
      | 'n' => .text '\n'
      | 'U' => .cased (.all true)
      | 'L' => .cased (.all false)
      | 'u' => .cased (.first true)
      | 'l' => .cased (.first false)
      | 'E' => .cased .keep
      | c => if c.isDigit then .group (c.toNat - '0'.toNat) else .text c
    part :: partsOf rest
  | '&' :: rest => .group 0 :: partsOf rest
  | c :: rest => .text c :: partsOf rest
  | [] => []

def replacementParts (cs : List Char) : List Part :=
  partsOf (plainEscapes (fun c => c == '&' || c == '\\' || c == '\n') cs)

/-- The characters of one side of a translation. -/
def translated : List Char → List Char
  | '\\' :: '\\' :: rest => '\\' :: translated rest
  | c :: rest => c :: translated rest
  | [] => []

/-- The groups of an expression. -/
def groupsOf : Regex → Nat
  | .group _ e => groupsOf e + 1
  | .sequence a b | .choice a b => groupsOf a + groupsOf b
  | .repeated _ _ e => groupsOf e
  | _ => 0

def scanPattern (extended : Bool) (text rest : List Char) : Reading Pattern :=
  if text.isEmpty then .ok ⟨none, false⟩
  else
    match Regex.parse extended (plainEscapes (isMarkup extended) text) with
    | some e => .ok ⟨some e, false⟩
    | none => refuse "Invalid preceding regular expression" rest

def scanNumber (cs : List Char) : Option (Nat × List Char) :=
  let digits := cs.takeWhile Char.isDigit
  if digits.isEmpty then none
  else some ((String.ofList digits).toNat?.getD 0, cs.drop digits.length)

def scanAddress (extended : Bool) (cs : List Char) : Reading (Option Address × List Char) := do
  let delimited := match cs with
    | '/' :: rest => some ('/', rest)
    | '\\' :: d :: rest => some (d, rest)
    | _ => none
  match delimited, cs with
  | some (d, body), _ =>
    match scanDelimited true d body with
    | none => refuse "unterminated address regex" []
    | some (text, after) =>
      let p ← scanPattern extended text after
      let flags := after.takeWhile fun c => c == 'I' || c == 'M'
      return (some (.matching { p with ignoreCase := flags.contains 'I' }),
        after.drop flags.length)
  | none, '$' :: rest => return (some .last, rest)
  | none, cs =>
    match scanNumber cs with
    | none => return (none, cs)
    | some (n, '~' :: rest) =>
      match scanNumber rest with
      | some (step, rest) => return (some (.every n step), rest)
      | none => return (some (.line n), rest)
    | some (n, rest) => return (some (.line n), rest)

/-- The lines that the command at the front is for. -/
def scanGuard (extended : Bool) (cs : List Char) : Reading (Guard × List Char) := do
  let (first, rest) ← scanAddress extended cs
  let rest := skipBlanks rest
  let (last, rest) ← match first, rest with
    | some _, ',' :: rest =>
      let rest := skipBlanks rest
      match rest with
      | '+' :: after =>
        match scanNumber after with
        | some (n, after) => pure (some (RangeEnd.below n), after)
        | none => refuse "expected number" after
      | '~' :: after =>
        match scanNumber after with
        | some (n, after) => pure (some (RangeEnd.multiple n), after)
        | none => refuse "expected number" after
      | rest =>
        match ← scanAddress extended rest with
        | (some a, after) => pure (some (RangeEnd.address a), after)
        | (none, after) => refuse "unexpected `,'" (after.drop 1)
    | _, rest => pure (none, rest)
  let rest := skipBlanks rest
  let isUsable := first != some (.line 0) || match last with
    | some (.address (.matching _)) => true
    | _ => false
  if !isUsable then refuse "invalid usage of line address 0" (rest.drop 1)
  else
    let negated := rest.head? == some '!'
    let rest := if negated then skipBlanks (rest.drop 1) else rest
    if negated && rest.head? == some '!' then refuse "multiple `!'s" (rest.drop 1)
    else return (⟨first, last, negated⟩, rest)

/-- The text after a command that takes all of its line. -/
def restOfLine (cs : List Char) : List Char × List Char :=
  let line := cs.takeWhile (· != '\n')
  (line, cs.drop line.length)

/-- The file that a command names, which takes the rest of its line. -/
def scanFile (cs : List Char) : Reading (String × List Char) :=
  let (name, rest) := restOfLine (skipBlanks cs)
  if name.isEmpty then refuse "missing filename in r/R/w/W commands" rest
  else .ok (String.ofList name, rest)

/-- The flags after a substitution. -/
def scanFlags (s : Substitution) (cs : List Char) : Reading (Substitution × List Char) :=
  match cs with
  | [] => .ok (s, [])
  | c :: rest =>
    match c with
    | 'g' =>
      if s.all then refuse "multiple `g' options to `s' command" rest
      else scanFlags { s with all := true } rest
    | 'p' =>
      if s.prints then refuse "multiple `p' options to `s' command" rest
      else scanFlags { s with prints := true } rest
    | 'i' | 'I' => scanFlags { s with pattern := { s.pattern with ignoreCase := true } } rest
    | 'm' | 'M' | 'e' => scanFlags s rest
    | 'w' =>
      (scanFile rest).map fun (file, rest) => ({ s with file := some file }, rest)
    | ';' | '\n' | '\x7d' | '#' | ' ' | '\t' => .ok (s, cs)
    | c =>
      if c.isDigit then
        if c == '0' && s.number == 0 then
          refuse "number option to `s' command may not be zero" rest
        else scanFlags { s with number := s.number * 10 + (c.toNat - '0'.toNat) } rest
      else refuse "unknown option to `s'" rest

/-- The lines of a text that is to be added, in which a backslash keeps the end of a line. -/
def addedText : List Char → List Char × List Char
  | [] => ([], [])
  | '\n' :: rest => ([], '\n' :: rest)
  | ['\\'] => ([], [])
  | '\\' :: c :: rest =>
    let (text, after) := addedText rest
    ((if c == 'n' then '\n' else c) :: text, after)
  | c :: rest =>
    let (text, after) := addedText rest
    (c :: text, after)

/-- The text after a command that adds lines; without any, nothing is added. -/
def scanAddedText (cs : List Char) : Reading (Option Line × List Char) :=
  let read (cs : List Char) : Option Line × List Char :=
    (addedText (plainEscapes (fun c => c == '\\' || c == '\n') cs)).map some id
  match skipBlanks cs with
  | [] => refuse "expected \\ after `a', `c' or `i'" []
  | '\\' :: rest =>
    let (gap, after) := (rest.takeWhile fun c => c == ' ' || c == '\t', skipBlanks rest)
    match after with
    | ['\n'] | [] => .ok (none, [])
    | '\n' :: body => .ok (read body)
    | _ =>
      let (text, after) := addedText (gap ++ after)
      .ok (some text, after)
  | rest => .ok (read rest)

def scanLabel (cs : List Char) : String × List Char :=
  let body := skipBlanks cs
  let name := body.takeWhile fun c => !c.isWhitespace && c != ';' && c != '\x7d'
  (String.ofList name, body.drop name.length)

/-- Whether all groups that a replacement names are there. -/
def namesGroups (p : Pattern) (parts : List Part) : Option Nat :=
  let known := match p.expression with
    | some e => groupsOf e
    | none => 9
  parts.findSome? fun
    | .group n => if known < n then some n else none
    | _ => none

/-- What a command does, after its guard. -/
def scanAction (extended : Bool) (cs : List Char) : Reading (Action × List Char) := do
  match cs with
  | [] => refuse "missing command" []
  | 's' :: d :: rest =>
    match scanDelimited true d rest with
    | none => refuse "unterminated `s' command" []
    | some (expression, rest) =>
      match scanDelimited false d rest with
      | none => refuse "unterminated `s' command" []
      | some (replacement, rest) =>
        let pattern ← scanPattern extended expression rest
        let parts := replacementParts replacement
        let (s, rest) ← scanFlags { pattern, replacement := parts } rest
        match namesGroups s.pattern parts with
        | some n => refuse s!"invalid reference \\{n} on `s' command's RHS" rest
        | none => return (.substitute s, rest)
  | 'y' :: d :: rest =>
    match (scanDelimited false d rest).bind fun (source, rest) =>
      (scanDelimited false d rest).map fun (target, rest) => (source, target, rest) with
    | none => refuse "unterminated `y' command" []
    | some (source, target, rest) =>
      let plain (cs : List Char) := translated (plainEscapes (· == '\\') cs)
      let (source, target) := (plain source, plain target)
      if source.length = target.length then return (.translate (source.zip target), rest)
      else refuse "strings for `y' command are different lengths" rest
  | c :: rest =>
    match c with
    | 's' => refuse "unterminated `s' command" rest
    | 'y' => refuse "unterminated `y' command" rest
    | 'p' => return (.print false, rest)
    | 'P' => return (.print true, rest)
    | 'd' => return (.delete false, rest)
    | 'D' => return (.delete true, rest)
    | 'n' => return (.next false, rest)
    | 'N' => return (.next true, rest)
    | 'g' => return (.recall false, rest)
    | 'G' => return (.recall true, rest)
    | 'h' => return (.keep false, rest)
    | 'H' => return (.keep true, rest)
    | 'x' => return (.exchange, rest)
    | 'z' => return (.clear, rest)
    | '=' => return (.number, rest)
    | 'q' | 'Q' =>
      let (code, rest) := (scanNumber (skipBlanks rest)).getD (0, rest)
      return (.quit (c == 'q') code, rest)
    | 'i' => return (← scanAddedText rest).map .before id
    | 'a' => return (← scanAddedText rest).map .after id
    | 'c' => return (← scanAddedText rest).map .change id
    | 'b' => return (scanLabel rest).map .jump id
    | 't' => return (scanLabel rest).map (.jumpIf true) id
    | 'T' => return (scanLabel rest).map (.jumpIf false) id
    | ':' =>
      let (name, after) := scanLabel rest
      if name == "" then refuse "\":\" lacks a label" rest
      else return (.label name, after)
    | 'l' =>
      let (width, rest) := match scanNumber (skipBlanks rest) with
        | some (n, rest) => (some n, rest)
        | none => (none, rest)
      return (.spell width, rest)
    | 'v' => return (.pass, (restOfLine rest).2)
    | 'r' => return (← scanFile rest).map .read id
    | 'w' => return (← scanFile rest).map (.write false) id
    | 'W' => return (← scanFile rest).map (.write true) id
    | '\x7b' => return (.opening, rest)
    | '\x7d' => return (.closing, rest)
    | c => refuse ("unknown command: `" ++ String.ofList [c] ++ "'") rest

/-- Whether nothing but the end of a command may follow it. -/
def endsStrictly : Action → Bool
  | .opening | .label _ | .jump _ | .jumpIf _ _ | .before _ | .after _ | .change _ => false
  | _ => true

/-- The commands of a script, where `depth` groups are open. -/
def parseWithin (measure : Nat) (extended : Bool) (depth : Nat) (cs : List Char) :
    Reading (List Edit) :=
  match measure with
  | 0 => .ok []
  | measure + 1 =>
    match cs.dropWhile fun c => c == ' ' || c == '\t' || c == ';' || c == '\n' with
    | [] => if depth == 0 then .ok [] else refuse "unmatched `\x7b'" cs
    | '#' :: rest => parseWithin measure extended depth (rest.dropWhile (· != '\n'))
    | start => do
      let (guarding, rest) ← scanGuard extended start
      let (action, rest) ← scanAction extended rest
      let depth ← match action with
        | .opening => pure (depth + 1)
        | .closing => if depth == 0 then refuse "unexpected `\x7d'" rest else pure (depth - 1)
        | _ => pure depth
      let rest := skipBlanks rest
      let ends := rest.head?.all fun c => c == ';' || c == '\n' || c == '\x7d' || c == '#'
      if endsStrictly action && !ends then refuse "extra characters after command" (rest.drop 1)
      else return ⟨guarding, action⟩ :: (← parseWithin measure extended depth rest)

/-- The label that a command jumps to, if it has one. -/
def Action.target? : Action → Option String
  | .jump name | .jumpIf _ name => if name == "" then none else some name
  | _ => none

/-- Reads a script; the error is the complaint about it. -/
def parse (extended : Bool) (script : String) : Except String (List Edit) :=
  match parseWithin (2 * script.length + 2) extended 0 script.toList with
  | .error r =>
    let position := if r.why.startsWith "unmatched" then 0 else script.length - r.unread
    .error s!"-e expression #1, char {position}: {r.why}"
  | .ok edits =>
    match edits.find? fun e => e.action.target?.any fun name =>
      !edits.any fun f => f.action == .label name with
    | some e => .error ("can't find label for jump to `" ++ (e.action.target?.getD "") ++ "'")
    | none => .ok edits

end Editing

end Shell
end DeclarativeBuild
