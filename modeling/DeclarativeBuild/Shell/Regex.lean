import DeclarativeBuild.Text.Pieces

/-!
# Regular expressions

Expressions in the basic and the extended notation, and their matches in a line.  A match is as long
as the choices in it allow.
-/

namespace DeclarativeBuild
namespace Shell

/-- A set of characters in brackets: single ones, ranges and named classes. -/
inductive Member where
  | range (first last : Char)
  | named (name : String)
deriving DecidableEq, Repr

inductive Regex where
  | empty
  | char (c : Char)
  | any
  | set (negated : Bool) (members : List Member)
  | lineStart
  | lineEnd
  | wordEdge (atStart atEnd : Bool)
  /-- A place with no part of a word before it, or after it. -/
  | noWord (before : Bool)
  | same (group : Nat)
  | group (number : Nat) (e : Regex)
  | sequence (first second : Regex)
  | choice (left right : Regex)
  | repeated (least : Nat) (most : Option Nat) (e : Regex)
deriving DecidableEq, Repr

def isPunctuation (c : Char) : Bool :=
  '!' ≤ c && c ≤ '~' && !c.isAlphanum

/-- Whether a character belongs to a class of the portable character set. -/
def inClass (name : String) (c : Char) : Bool :=
  match name with
  | "alpha" => c.isAlpha
  | "digit" => c.isDigit
  | "alnum" => c.isAlphanum
  | "upper" => c.isUpper
  | "lower" => c.isLower
  | "space" => c.isWhitespace || c == '\x0b' || c == '\x0c'
  | "blank" => c == ' ' || c == '\t'
  | "punct" => isPunctuation c
  | "xdigit" => c.isDigit || ('a' ≤ c.toLower && c.toLower ≤ 'f')
  | "cntrl" => c < ' ' || c == '\x7f'
  | "print" => ' ' ≤ c && c ≠ '\x7f'
  | "graph" => '!' ≤ c && c ≠ '\x7f'
  | _ => false

def Member.contains (c : Char) : Member → Bool
  | .range a b => a ≤ c && c ≤ b
  | .named name => inClass name c

/-- What a notation puts together. -/
inductive Sign where
  | one (e : Regex)
  | opening
  | closing
  | bar
  | times (least : Nat) (most : Option Nat)

/-- The members of a set after its opening bracket; a closing bracket may come first. -/
def scanMembers (first : Bool) (cs : List Char) : Option (List Member × List Char) :=
  match cs with
  | [] => none
  | '[' :: ':' :: rest =>
    let name := rest.takeWhile Char.isAlpha
    match rest.drop name.length with
    | ':' :: ']' :: after =>
      if after.length ≤ rest.length then
        (scanMembers false after).map fun (more, after) =>
          (.named (String.ofList name) :: more, after)
      else none
    | _ => none
  | c :: rest =>
    if c == ']' && !first then some ([], rest)
    else
      match rest with
      | '-' :: d :: after =>
        if d == ']' then
          (scanMembers false ('-' :: d :: after)).map fun (more, after) =>
            (.range c c :: more, after)
        else (scanMembers false after).map fun (more, after) => (.range c d :: more, after)
      | rest => (scanMembers false rest).map fun (more, after) => (.range c c :: more, after)
termination_by cs.length
decreasing_by all_goals grind

/-- The bounds of a repetition up to its closing brace. -/
def scanBounds (extended : Bool) (cs : List Char) : Option (Sign × List Char) :=
  let number (ds : List Char) := (String.ofList ds).toNat?
  let low := cs.takeWhile Char.isDigit
  let (high, rest) := match cs.drop low.length with
    | ',' :: rest =>
      let ds := rest.takeWhile Char.isDigit
      (some ds, rest.drop ds.length)
    | rest => (none, rest)
  let after? := match extended, rest with
    | true, '\x7d' :: after => some after
    | false, '\\' :: '\x7d' :: after => some after
    | _, _ => none
  after?.map fun after =>
    (.times ((number low).getD 0) (match high with
      | none => number low
      | some ds => number ds), after)

def wordMembers : List Member :=
  [.named "alnum", .range '_' '_']

/-- What a backslash and a letter stand for in either notation. -/
def escapedSign (c : Char) : Sign :=
  if c.isDigit && c ≠ '0' then .one (.same (c.toNat - '0'.toNat))
  else match c with
    | 'w' => .one (.set false wordMembers)
    | 'W' => .one (.set true wordMembers)
    | 's' => .one (.set false [.named "space"])
    | 'S' => .one (.set true [.named "space"])
    | 'b' => .one (.wordEdge true true)
    | '<' => .one (.wordEdge true false)
    | '>' => .one (.wordEdge false true)
    | c => .one (.char c)

/-- Whether the rest of a basic expression makes a dollar sign the end of the line. -/
def endsPart (cs : List Char) : Bool :=
  match cs with
  | [] | '\\' :: ')' :: _ | '\\' :: '|' :: _ => true
  | _ => false

/-- The signs of an expression; `fresh` says that nothing stands before in this part of it. -/
def signs (extended fresh : Bool) (cs : List Char) : Option (List Sign) :=
  match cs with
  | [] => some []
  | '\\' :: c :: rest =>
    if !extended && c == '\x7b' then
      match scanBounds false rest with
      | some (s, after) =>
        if after.length ≤ rest.length then (signs extended false after).map (s :: ·) else none
      | none => none
    else if extended then (signs extended false rest).map (escapedSign c :: ·)
    else match c with
      | '(' => (signs extended true rest).map (.opening :: ·)
      | ')' => (signs extended false rest).map (.closing :: ·)
      | '|' => (signs extended true rest).map (.bar :: ·)
      | '+' => (signs extended false rest).map (.times 1 none :: ·)
      | '?' => (signs extended false rest).map (.times 0 (some 1) :: ·)
      | c => (signs extended false rest).map (escapedSign c :: ·)
  | '[' :: rest =>
    let (negated, body) := match rest with
      | '^' :: body => (true, body)
      | body => (false, body)
    match scanMembers true body with
    | some (members, after) =>
      if after.length ≤ rest.length then
        (signs extended false after).map (.one (.set negated members) :: ·)
      else none
    | none => none
  | '\x7b' :: rest =>
    match extended && !fresh, scanBounds true rest with
    | true, some (s, after) =>
      if after.length ≤ rest.length then (signs extended false after).map (s :: ·) else none
    | _, _ => (signs extended false rest).map (.one (.char '\x7b') :: ·)
  | c :: rest =>
    let (s, opensPart) : Sign × Bool := match c with
      | '.' => (.one .any, false)
      | '*' => (if fresh then .one (.char '*') else .times 0 none, false)
      | '^' => (if extended || fresh then .one .lineStart else .one (.char '^'), !extended && fresh)
      | '$' => (if extended || endsPart rest then .one .lineEnd else .one (.char '$'), false)
      | '(' => if extended then (.opening, true) else (.one (.char c), false)
      | ')' => if extended then (.closing, false) else (.one (.char c), false)
      | '|' => if extended then (.bar, true) else (.one (.char c), false)
      | '+' => if extended && !fresh then (.times 1 none, false) else (.one (.char c), false)
      | '?' => if extended && !fresh then (.times 0 (some 1), false) else (.one (.char c), false)
      | c => (.one (.char c), false)
    (signs extended opensPart rest).map (s :: ·)
termination_by cs.length
decreasing_by all_goals grind

/-- A group that is being read: its number, the choices before, and the sequence so far, last part
first. -/
structure OpenGroup where
  number : Nat
  choices : List Regex
  parts : List Regex

namespace OpenGroup

def add (g : OpenGroup) (e : Regex) : OpenGroup :=
  { g with parts := e :: g.parts }

def sequenceOf (g : OpenGroup) : Regex :=
  g.parts.foldl (fun rest e => if rest == .empty then e else .sequence e rest) .empty

def endChoice (g : OpenGroup) : OpenGroup :=
  { g with choices := g.sequenceOf :: g.choices, parts := [] }

def expression (g : OpenGroup) : Regex :=
  g.choices.foldl (fun right left => .choice left right) g.sequenceOf

end OpenGroup

/-- Puts signs together; groups are numbered as they open. -/
def assemble (groups : Nat) (top : OpenGroup) (below : List OpenGroup) :
    List Sign → Option Regex
  | [] => if below.isEmpty then some top.expression else none
  | .one e :: rest => assemble groups (top.add e) below rest
  | .opening :: rest => assemble (groups + 1) ⟨groups + 1, [], []⟩ (top :: below) rest
  | .closing :: rest =>
    match below with
    | [] => none
    | outer :: below =>
      assemble groups (outer.add (.group top.number top.expression)) below rest
  | .bar :: rest => assemble groups top.endChoice below rest
  | .times least most :: rest =>
    match top.parts with
    | [] => none
    | e :: parts => assemble groups { top with parts := .repeated least most e :: parts } below rest

/-- Reads an expression in one of the notations. -/
def Regex.parse (extended : Bool) (text : List Char) : Option Regex :=
  (signs extended true text).bind (assemble 0 ⟨0, [], []⟩ [])

/-- Where a match stands in a line. -/
structure Cursor where
  previous : Option Char
  rest : List Char
  /-- What the groups have matched, latest first. -/
  groups : List (Nat × List Char) := []

namespace Cursor

def isWordChar (c : Option Char) : Bool :=
  c.any fun c => c.isAlphanum || c == '_'

def step (k : Cursor) (c : Char) (rest : List Char) : Cursor :=
  { k with previous := some c, rest }

/-- The text between two places of a line. -/
def upTo (start stop : Cursor) : List Char :=
  start.rest.take (start.rest.length - stop.rest.length)

/-- The place that is farther on, of two that a choice leads to. -/
def farther (a b : Option Cursor) : Option Cursor :=
  match a, b with
  | some p, some q => if q.rest.length < p.rest.length then some q else some p
  | none, b => b
  | a, none => a

end Cursor

/-- What a match continues with. -/
abbrev Continuation := Cursor → Option Cursor

/-- Matches again and again, as often as possible first. -/
def iterate (once : Continuation → Continuation) (least : Nat) (most : Option Nat)
    (done : Continuation) : Nat → Continuation
  | 0, k => if least == 0 then done k else none
  | steps + 1, k =>
    let again := if most == some 0 then none
      else once (fun next =>
        if next.rest.length < k.rest.length || 0 < least then
          iterate once (least - 1) (most.map (· - 1)) done steps next
        else none) k
    match again with
    | some found => some found
    | none => if least == 0 then done k else none

/-- Whether characters are the same, perhaps but for their case. -/
def sameChar (ignoreCase : Bool) (a b : Char) : Bool :=
  a == b || (ignoreCase && a.toLower == b.toLower)

/-- What is left after a text at the front. -/
def dropSame (ignoreCase : Bool) : List Char → Cursor → Option Cursor
  | [], k => some k
  | c :: cs, k =>
    match k.rest with
    | d :: rest => if sameChar ignoreCase c d then dropSame ignoreCase cs (k.step d rest) else none
    | [] => none

namespace Regex

/-- The end of a match that starts at a cursor, if what follows it can go on. -/
def run (ignoreCase : Bool) : Regex → Continuation → Continuation
  | .empty, done, k => done k
  | .char c, done, k =>
    match k.rest with
    | d :: rest => if sameChar ignoreCase c d then done (k.step d rest) else none
    | [] => none
  | .any, done, k =>
    match k.rest with
    | d :: rest => done (k.step d rest)
    | [] => none
  | .set negated members, done, k =>
    match k.rest with
    | d :: rest =>
      let isIn := members.any fun m =>
        m.contains d || (ignoreCase && (m.contains d.toLower || m.contains d.toUpper))
      if isIn != negated then done (k.step d rest) else none
    | [] => none
  | .lineStart, done, k => if k.previous.isNone then done k else none
  | .lineEnd, done, k => if k.rest.isEmpty then done k else none
  | .wordEdge atStart atEnd, done, k =>
    let before := Cursor.isWordChar k.previous
    let after := Cursor.isWordChar k.rest.head?
    if (atStart && !before && after) || (atEnd && before && !after) then done k else none
  | .noWord before, done, k =>
    if Cursor.isWordChar (if before then k.previous else k.rest.head?) then none else done k
  | .same n, done, k =>
    match k.groups.lookup n with
    | some text => (dropSame ignoreCase text k).bind done
    | none => none
  | .group n e, done, k =>
    run ignoreCase e (fun stop =>
      done { stop with groups := (n, k.upTo stop) :: stop.groups }) k
  | .sequence first second, done, k =>
    run ignoreCase first (fun next => run ignoreCase second done next) k
  | .choice left right, done, k =>
    Cursor.farther (run ignoreCase left done k) (run ignoreCase right done k)
  | .repeated least most e, done, k =>
    iterate (fun done k => run ignoreCase e done k) least most done (k.rest.length + least) k

/-- A match in a line: what stands before it, it itself, and the place after it. -/
structure Match where
  before : List Char
  found : List Char
  stop : Cursor

/-- The first match from a place on. -/
def search (e : Regex) (ignoreCase : Bool) (previous : Option Char) (cs : List Char) :
    Option Match :=
  let start : Cursor := ⟨previous, cs, []⟩
  match e.run ignoreCase some start with
  | some stop => some ⟨[], start.upTo stop, stop⟩
  | none =>
    match cs with
    | [] => none
    | c :: rest =>
      (search e ignoreCase (some c) rest).map fun m => { m with before := c :: m.before }

def matchesIn (e : Regex) (ignoreCase : Bool) (line : List Char) : Bool :=
  (e.search ignoreCase none line).isSome

end Regex

end Shell
end DeclarativeBuild
