import DeclarativeBuild.Shell.Editing

/-!
# Editing lines

What an editing script makes of the lines of a text.
-/

namespace DeclarativeBuild
namespace Shell
namespace Editing

/-- Changes the case of a text and says how to go on after it. -/
def applyCase (change : CaseChange) (cs : List Char) : List Char :=
  match change, cs with
  | .keep, cs => cs
  | .all upper, cs => cs.map fun c => if upper then c.toUpper else c.toLower
  | .first upper, c :: rest => (if upper then c.toUpper else c.toLower) :: rest
  | .first _, [] => []

/-- A replacement with what was matched filled in; `overall` changes all text and `once` the next
piece of it. -/
def fillParts (m : Regex.Match) (overall once : CaseChange) : List Part → List Char
  | [] => []
  | .cased (.first upper) :: rest => fillParts m overall (.first upper) rest
  | .cased change :: rest => fillParts m change .keep rest
  | part :: rest =>
    let text := match part with
      | .text c => [c]
      | .group 0 => m.found
      | .group n => (m.stop.groups.lookup n).getD []
      | .cased _ => []
    if text.isEmpty then fillParts m overall once rest
    else applyCase once (applyCase overall text) ++ fillParts m overall .keep rest

/-- Replaces matches in a line and says whether there was one.  A match of nothing does not count
right after another match. -/
def substitute (e : Regex) (s : Substitution) (skipped : Nat) (adjacent : Bool)
    (previous : Option Char) (cs : List Char) : List Char × Bool :=
  match e.search s.pattern.ignoreCase previous cs with
  | none => (cs, false)
  | some m =>
    let counts := !(m.found.isEmpty && m.before.isEmpty && adjacent)
    let replaces := counts && skipped == 0
    let done := m.before ++ if replaces then fillParts m .keep .keep s.replacement else m.found
    let left := if counts then skipped - 1 else skipped
    if replaces && !s.all then (done ++ m.stop.rest, true)
    else if m.found.isEmpty then
      match m.stop.rest with
      | [] => (done, replaces)
      | c :: rest =>
        if rest.length < cs.length then
          let (more, found) := substitute e s left false (some c) rest
          (done ++ c :: more, replaces || found)
        else (done, replaces)
    else if m.stop.rest.length < cs.length then
      let (more, found) := substitute e s left true m.stop.previous m.stop.rest
      (done ++ more, replaces || found)
    else (done, replaces)
termination_by cs.length

/-- A command and the number of the command to go on with if it is not for a line. -/
structure Step where
  edit : Edit
  otherwise : Nat

/-- The number after the command that closes a group. -/
def closingAfter (depth : Nat) (number : Nat) : List Edit → Nat
  | [] => number
  | e :: rest =>
    match e.action with
    | .opening => closingAfter (depth + 1) (number + 1) rest
    | .closing => if depth == 0 then number + 1 else closingAfter (depth - 1) (number + 1) rest
    | _ => closingAfter depth (number + 1) rest

def stepsOf (number : Nat) : List Edit → List Step
  | [] => []
  | e :: rest =>
    let otherwise := match e.action with
      | .opening => closingAfter 0 (number + 1) rest
      | _ => number + 1
    ⟨e, otherwise⟩ :: stepsOf (number + 1) rest

/-- How a character is spelt out: as itself if it can be seen, else by its code. -/
def spelling (c : Char) : List Char :=
  match c with
  | '\\' => ['\\', '\\']
  | '\x07' => ['\\', 'a']
  | '\x08' => ['\\', 'b']
  | '\x0c' => ['\\', 'f']
  | '\n' => ['\\', 'n']
  | '\r' => ['\\', 'r']
  | '\t' => ['\\', 't']
  | '\x0b' => ['\\', 'v']
  | c =>
    if ' ' ≤ c && c ≤ '~' then [c]
    else c.toString.toUTF8.toList.flatMap fun b =>
      let n := b.toNat
      ['\\', Nat.digitChar (n / 64), Nat.digitChar (n / 8 % 8), Nat.digitChar (n % 8)]

/-- Spellings in rows of some width, of which the last ends with a dollar sign and the others with a
backslash.  Without a width there is one row. -/
def rowsOf (width : Nat) (pieces : List (List Char)) : List Line :=
  let add (rows : List Line × Line) (piece : List Char) : List Line × Line :=
    if width != 0 && width < rows.2.length + piece.length && !rows.2.isEmpty then
      ((rows.2 ++ ['\\']) :: rows.1, piece)
    else (rows.1, rows.2 ++ piece)
  let (done, last) := pieces.foldl add ([], [])
  ((last ++ ['$']) :: done).reverse

/-- How a range of lines stands. -/
inductive RangeState where
  | active (last : Option Nat)
  | over
deriving DecidableEq, Repr

/-- What an editor does after a command. -/
inductive Onward where
  | command (number : Nat)
  /-- Ends the work on the line, which is shown or not. -/
  | cycle (shows : Bool)
  /-- Begins again with what is left of the line. -/
  | again
  | stop (shows : Bool) (code : Nat)

/-- What editing has come to. -/
structure Progress where
  steps : List Step
  quiet : Bool
  /-- The text of a file that may be read. -/
  readFile : String → Option String
  unread : List Line
  /-- Whether a line end closes the last line. -/
  closed : Bool
  number : Nat := 0
  space : Line := []
  kept : Line := []
  changed : Bool := false
  latest : Option Regex := none
  ranges : List (Nat × RangeState) := []
  /-- What has been written, last line first, and whether line ends close the lines. -/
  written : List (Line × Bool) := []
  /-- What follows the line; nothing just closes it. -/
  appended : List (Option Line × Bool) := []
  files : List (String × Line) := []
  complaint : Option String := none

namespace Progress

def isLast (p : Progress) : Bool :=
  p.unread.isEmpty

def writeLine (p : Progress) (line : Line) (closed : Bool) : Progress :=
  { p with written := (line, closed) :: p.written }

/-- Writes the line that is worked on. -/
def writeSpace (p : Progress) : Progress :=
  p.writeLine p.space (p.closed || !p.isLast)

def writeAll (p : Progress) (text : Option Line) : Progress :=
  match text with
  | some line => p.writeLine line true
  | none => p

/-- The expression that a pattern stands for, which becomes the latest one. -/
def resolve (p : Progress) (pattern : Pattern) : Option Regex × Progress :=
  match pattern.expression.or p.latest with
  | some e => (some e, { p with latest := some e })
  | none => (none, { p with complaint := some "no previous regular expression" })

def meets (p : Progress) (a : Address) : Bool × Progress :=
  match a with
  | .line n => (p.number == n, p)
  | .every first step =>
    (if step == 0 then p.number == first
      else first ≤ p.number && (p.number - first) % step == 0, p)
  | .last => (p.isLast, p)
  | .matching pattern =>
    let (e, p) := p.resolve pattern
    (e.any fun e => e.matchesIn pattern.ignoreCase p.space, p)

def setRange (p : Progress) (number : Nat) (state : RangeState) : Progress :=
  { p with ranges := (number, state) :: p.ranges.filter (·.1 != number) }

/-- Whether an open range takes in the line, which may close it. -/
def insideRange (p : Progress) (number : Nat) (last : Option Nat) (stop : RangeEnd) :
    Bool × Progress :=
  match last, stop with
  | some n, _ =>
    (p.number ≤ n, if n ≤ p.number then p.setRange number .over else p)
  | none, .address a =>
    let (found, p) := p.meets a
    (true, if found then p.setRange number .over else p)
  | none, _ => (true, p)

/-- Whether a range opens with the line. -/
def openRange (p : Progress) (number : Nat) (first : Address) (stop : RangeEnd) :
    Bool × Progress :=
  match p.meets first with
  | (false, p) => (false, p)
  | (true, p) =>
    let last : Option Nat := match stop with
      | .address (.line n) => some n
      | .address _ => none
      | .below n => some (p.number + n)
      | .multiple n => some (if n == 0 then p.number else (p.number + n - 1) / n * n)
    match last with
    | some n => (true, if p.number < n then p.setRange number (.active (some n)) else p)
    | none => (true, p.setRange number (.active none))

/-- Whether a command is for the line. -/
def holds (p : Progress) (number : Nat) (g : Guard) : Bool × Progress :=
  let (inside, p) : Bool × Progress := match g.first, g.last with
    | none, _ => (true, p)
    | some a, none => p.meets a
    | some a, some stop =>
      match p.ranges.lookup number with
      | some (.active last) => p.insideRange number last stop
      | state =>
        if a == .line 0 then
          if state.isNone then p.insideRange number none stop else (false, p)
        else p.openRange number a stop
  (inside != g.negated, p)

/-- Takes the next line. -/
def advance (p : Progress) (adds : Bool) : Progress :=
  match p.unread with
  | [] => p
  | line :: rest =>
    { p with
      unread := rest, number := p.number + 1
      space := if adds then p.space ++ '\n' :: line else line }

/-- Closes the last line that has been written. -/
def closeLine (p : Progress) : Progress :=
  match p.written with
  | (line, false) :: before => { p with written := (line, true) :: before }
  | _ => p

/-- Writes what was to follow the line. -/
def flush (p : Progress) : Progress :=
  let p := if p.appended.isEmpty then p else p.closeLine
  let added := p.appended.filterMap fun (text, closed) => text.map fun text => (text, closed)
  { p with written := added.reverse ++ p.written, appended := [] }

/-- The number of the command after a label; without a name that is the end. -/
def afterLabel (p : Progress) (name : String) : Nat :=
  if name == "" then p.steps.length
  else (p.steps.findIdx? fun s => s.edit.action == .label name).getD p.steps.length

def firstLine (space : Line) : Line :=
  space.takeWhile (· != '\n')

def writeFile (p : Progress) (file : String) (line : Line) : Progress :=
  if file == "/dev/stdout" then p.writeLine line true
  else { p with files := p.files ++ [(file, line)] }

/-- Does what the command with a number does, and says what follows. -/
def perform (p : Progress) (number : Nat) (g : Guard) : Action → Onward × Progress
  | .substitute s =>
    match p.resolve s.pattern with
    | (none, p) => (.stop false 1, p)
    | (some e, p) =>
      let (space, found) := substitute e s (s.number - 1) false none p.space
      let p := { p with space, changed := p.changed || found }
      let p := if found && s.prints then p.writeSpace else p
      let p := match s.file with
        | some file => if found then p.writeFile file p.space else p
        | none => p
      (.command (number + 1), p)
  | .translate pairs =>
    (.command (number + 1), { p with space := p.space.map fun c => (pairs.lookup c).getD c })
  | .print first =>
    (.command (number + 1), if first then p.writeLine (firstLine p.space) true else p.writeSpace)
  | .delete false => (.cycle false, p)
  | .delete true =>
    if p.space.contains '\n' then
      (.again, { p with space := p.space.drop ((firstLine p.space).length + 1) })
    else (.cycle false, p)
  | .next adds =>
    if p.unread.isEmpty then (.stop true 0, p)
    else
      let p := if adds || p.quiet then p else p.writeSpace
      (.command (number + 1), p.flush.advance adds)
  | .quit prints code => (.stop prints code, p)
  | .number => (.command (number + 1), p.writeLine (toString p.number).toList true)
  | .before text => (.command (number + 1), p.writeAll text)
  | .after text => (.command (number + 1), { p with appended := p.appended ++ [(text, true)] })
  | .change text =>
    let isOpen := match p.ranges.lookup number with
      | some (.active _) => true
      | _ => false
    (.cycle false, if g.last.isSome && !g.negated && isOpen then p else p.writeAll text)
  | .keep adds =>
    (.command (number + 1), { p with kept := if adds then p.kept ++ '\n' :: p.space else p.space })
  | .recall adds =>
    (.command (number + 1), { p with space := if adds then p.space ++ '\n' :: p.kept else p.kept })
  | .exchange => (.command (number + 1), { p with space := p.kept, kept := p.space })
  | .clear => (.command (number + 1), { p with space := [] })
  | .jump name => (.command (p.afterLabel name), p)
  | .jumpIf changed name =>
    (.command (if p.changed == changed then p.afterLabel name else number + 1),
      { p with changed := false })
  | .read file =>
    match p.readFile file with
    | some text =>
      let (lines, closed) := linesOf text.toList
      let added := lines.zipIdx.map fun (line, i) =>
        (some line, closed || i + 1 < lines.length)
      (.command (number + 1), { p with appended := p.appended ++ added })
    | none => (.command (number + 1), p)
  | .write first file =>
    (.command (number + 1), p.writeFile file (if first then firstLine p.space else p.space))
  | .spell width =>
    let rows := rowsOf ((width.getD 70) - 1) (p.space.map spelling)
    (.command (number + 1), rows.foldl (fun p row => p.writeLine row true) p)
  | .label _ | .opening | .closing | .pass => (.command (number + 1), p)

/-- Runs commands on the line from one on. -/
def runFrom (p : Progress) (number : Nat) : Nat → Onward × Progress
  | 0 => (.stop true 0, p)
  | turns + 1 =>
    match p.steps[number]? with
    | none => (.cycle true, p)
    | some step =>
      match p.holds number step.edit.guarding with
      | (isMeant, p) =>
        if p.complaint.isSome then (.stop false 1, p)
        else if !isMeant then runFrom p step.otherwise turns
        else match p.perform number step.edit.guarding step.edit.action with
        | (.command next, p) => runFrom p next turns
        | result => result

/-- How many commands are run on one line, and how often a line is begun again, at most. -/
def maxTurns : Nat := 100000

/-- Edits what is left, and gives the status to end with. -/
def runLines (p : Progress) (fresh : Bool) : Nat → Nat × Progress
  | 0 => (0, p)
  | turns + 1 =>
    if fresh && p.unread.isEmpty then (0, p)
    else
      let p := if fresh then { p.advance false with changed := false } else p
      let finish (p : Progress) (shows : Bool) : Progress :=
        (if shows && !p.quiet then p.writeSpace else p).flush
      match p.runFrom 0 maxTurns with
      | (.cycle shows, p) => runLines (finish p shows) true turns
      | (.again, p) => runLines p.flush false turns
      | (.stop shows code, p) => (code, finish p shows)
      | (.command _, p) => (0, p)

/-- What has been written, as a text. -/
def text (p : Progress) : List Char :=
  match p.written with
  | [] => []
  | (line, closed) :: before =>
    unlines (before.reverse.map Prod.fst) ++ line ++ if closed then ['\n'] else []

end Progress

/-- Edits lines, the last of which keeps its end only if it had one. -/
def edit (edits : List Edit) (quiet : Bool) (readFile : String → Option String)
    (lines : List Line) (closed : Bool) : Nat × Progress :=
  let start : Progress := { steps := stepsOf 0 edits, quiet, readFile, unread := lines, closed }
  start.runLines true (lines.length + Progress.maxTurns)

end Editing
end Shell
end DeclarativeBuild
