import DeclarativeBuild.Shell.Comparison

/-!
# Differences of files

The lines that have to go from one text and come into it to make it another one, and how `diff` shows
them.  A script of changes that is read from the top keeps lines as early as it can.
-/

namespace DeclarativeBuild
namespace Shell

/-- What becomes of a line: it stays, goes, or comes. -/
inductive Change where
  | keep (line : Line)
  | drop (line : Line)
  | add (line : Line)
deriving DecidableEq, Repr

namespace Change

/-- The lines before, of some changes. -/
def before (changes : List Change) : List Line :=
  changes.filterMap fun
    | .keep line | .drop line => some line
    | .add _ => none

/-- The lines after some changes. -/
def after (changes : List Change) : List Line :=
  changes.filterMap fun
    | .keep line | .add line => some line
    | .drop _ => none

end Change

/-- How many lines two texts can share, for each end of the second text with a given first one: the
row for one more line in front, from the row without it. -/
def sharedRow (same : Line → Line → Bool) (line : Line) (others : List Line) (row : List Nat) :
    List Nat :=
  match others, row with
  | other :: rest, below :: diagonal :: more =>
    let found := sharedRow same line rest (diagonal :: more)
    let here := if same line other then diagonal + 1 else max below (found.headD 0)
    here :: found
  | _, _ => [0]

/-- The rows for all ends of the first text, the whole text first. -/
def sharedRows (same : Line → Line → Bool) (lines others : List Line) : List (List Nat) :=
  match lines with
  | [] => [List.replicate (others.length + 1) 0]
  | line :: rest =>
    match sharedRows same rest others with
    | row :: rows => sharedRow same line others row :: row :: rows
    | [] => []

/-- The changes that lead from one text to another, along the rows of what they share. -/
def changesBy (same : Line → Line → Bool) (lines others : List Line) (rows : List (List Nat)) :
    List Change :=
  match lines, others with
  | [], others => others.map .add
  | lines, [] => lines.map .drop
  | line :: rest, other :: more =>
    let shorter := rows.map List.tail
    if same line other then .keep line :: changesBy same rest more (shorter.drop 1)
    else
      let dropped := ((rows.drop 1).headD []).headD 0
      let added := (shorter.headD []).headD 0
      if added ≤ dropped then .drop line :: changesBy same rest (other :: more) (rows.drop 1)
      else .add other :: changesBy same (line :: rest) more shorter
termination_by lines.length + others.length

def changesOf (same : Line → Line → Bool) (lines others : List Line) : List Change :=
  changesBy same lines others (sharedRows same lines others)

/-- A run of changes with the numbers of its first lines on either side. -/
structure Hunk where
  oldStart : Nat
  newStart : Nat
  changes : List Change

namespace Hunk

def dropped (h : Hunk) : List Line :=
  h.changes.filterMap fun
    | .drop line => some line
    | _ => none

def added (h : Hunk) : List Line :=
  h.changes.filterMap fun
    | .add line => some line
    | _ => none

/-- Some line numbers, of which the first counts. -/
def span (start count : Nat) : String :=
  if count ≤ 1 then toString start else toString start ++ "," ++ toString (start + count - 1)

/-- A span that is empty stands after the line before it. -/
def place (start count : Nat) : String :=
  if count == 0 then toString (start - 1) else span start count

end Hunk

/-- Runs of changes with as many lines around them as are wanted; runs that meet are one. -/
def hunksOf (around : Nat) (oldNumber newNumber : Nat) (waiting : List Line) (current : Option Hunk)
    (changes : List Change) : List Hunk :=
  match changes with
  | [] =>
    match current with
    | none => []
    | some h => [{ h with changes := h.changes ++ (waiting.take around).map .keep }]
  | .keep line :: rest =>
    match current with
    | none =>
      let waiting := (waiting ++ [line])
      hunksOf around (oldNumber + 1) (newNumber + 1)
        (waiting.drop (waiting.length - around)) none rest
    | some h =>
      let waiting := waiting ++ [line]
      if 2 * around < waiting.length || around == 0 then
        { h with changes := h.changes ++ (waiting.take around).map .keep } ::
          hunksOf around (oldNumber + 1) (newNumber + 1)
            (waiting.drop (waiting.length - around)) none rest
      else hunksOf around (oldNumber + 1) (newNumber + 1) waiting (some h) rest
  | change :: rest =>
    let h := match current with
      | none => ⟨oldNumber - waiting.length, newNumber - waiting.length,
          waiting.map .keep ++ [change]⟩
      | some h => { h with changes := h.changes ++ waiting.map .keep ++ [change] }
    let isDrop := match change with
      | .drop _ => true
      | _ => false
    hunksOf around (if isDrop then oldNumber + 1 else oldNumber)
      (if isDrop then newNumber else newNumber + 1) [] (some h) rest

/-- A text as `diff` compares it: its lines, of which the last may lack its end. -/
def comparedLines (text : String) : List Line :=
  let (lines, closed) := linesOf text.toList
  if closed || text == "" then lines
  else lines.dropLast ++ [lines.getLastD [] ++ ['\n']]

/-- A line of a text after a mark, with a note if the line lacks its end. -/
def markedLine (mark : String) (line : Line) : String :=
  if line.getLast? == some '\n' then
    mark ++ String.ofList line ++ "\\ No newline at end of file\n"
  else mark ++ String.ofList line ++ "\n"

namespace Hunk

def showPlain (h : Hunk) : String :=
  let (dropped, added) := (h.dropped, h.added)
  let letter := if dropped.isEmpty then "a" else if added.isEmpty then "d" else "c"
  place h.oldStart dropped.length ++ letter ++ place h.newStart added.length ++ "\n" ++
    String.join (dropped.map (markedLine "< ")) ++
    (if letter == "c" then "---\n" else "") ++ String.join (added.map (markedLine "> "))

def showUnified (h : Hunk) : String :=
  let range (start count : Nat) : String :=
    if count == 1 then toString start
    else toString (if count == 0 then start - 1 else start) ++ "," ++ toString count
  let rec ordered (dropped added : List Line) : List Change → List String
    | .drop line :: rest => ordered (dropped ++ [line]) added rest
    | .add line :: rest => ordered dropped (added ++ [line]) rest
    | .keep line :: rest =>
      dropped.map (markedLine "-") ++ added.map (markedLine "+") ++
        markedLine " " line :: ordered [] [] rest
    | [] => dropped.map (markedLine "-") ++ added.map (markedLine "+")
  "@@ -" ++ range h.oldStart (Change.before h.changes).length ++
    " +" ++ range h.newStart (Change.after h.changes).length ++ " @@\n" ++
    String.join (ordered [] [] h.changes)

end Hunk

/-- How files are compared. -/
structure DiffOptions where
  brief : Bool := false
  tellsSame : Bool := false
  deep : Bool := false
  missingIsEmpty : Bool := false
  ignoreCase : Bool := false
  ignoreBlanks : Bool := false
  ignoreAmounts : Bool := false
  /-- How many lines are shown around changes, if any are. -/
  around : Option Nat := none
  labels : List String := []
  flags : List String := []
  operands : List String := []

namespace DiffOptions

def ofArgs (o : DiffOptions) : List String → DiffOptions
  | [] => o
  | "--" :: rest => { o with operands := o.operands ++ rest }
  | "-U" :: n :: rest => ofArgs { o with around := some (n.toNat?.getD 3) } rest
  | "--label" :: name :: rest | "-L" :: name :: rest =>
    ofArgs { o with labels := o.labels ++ [name] } rest
  | word :: rest =>
    let flagged (o : DiffOptions) : DiffOptions := { o with flags := o.flags ++ [word] }
    let letter (o : DiffOptions) (c : Char) : DiffOptions :=
      match c with
      | 'q' => { o with brief := true }
      | 's' => { o with tellsSame := true }
      | 'r' => { o with deep := true }
      | 'N' => { o with missingIsEmpty := true }
      | 'i' => { o with ignoreCase := true }
      | 'w' => { o with ignoreBlanks := true }
      | 'b' => { o with ignoreAmounts := true }
      | 'u' => { o with around := some (o.around.getD 3) }
      | _ => o
    match word with
    | "--brief" => ofArgs (flagged { o with brief := true }) rest
    | "--unified" => ofArgs (flagged { o with around := some 3 }) rest
    | "--recursive" => ofArgs (flagged { o with deep := true }) rest
    | "--new-file" => ofArgs (flagged { o with missingIsEmpty := true }) rest
    | _ =>
      match word.toList with
      | '-' :: '-' :: _ => ofArgs (flagged o) rest
      | '-' :: 'U' :: n =>
        ofArgs (flagged { o with around := some ((String.ofList n).toNat?.getD 3) }) rest
      | '-' :: c :: cs => ofArgs (flagged ((c :: cs).foldl letter o)) rest
      | _ => ofArgs { o with operands := o.operands ++ [word] } rest

/-- Whether two lines count as the same. -/
def same (o : DiffOptions) (a b : Line) : Bool :=
  let isBlank (c : Char) : Bool := c == ' ' || c == '\t'
  let rec single : Line → Line
    | c :: d :: rest =>
      if isBlank c && isBlank d then single (d :: rest)
      else (if isBlank c then ' ' else c) :: single (d :: rest)
    | [c] => if isBlank c then [] else [c]
    | [] => []
  let fold (line : Line) : Line :=
    let line := if o.ignoreCase then line.map Char.toLower else line
    if o.ignoreBlanks then line.filter (!isBlank ·)
    else if o.ignoreAmounts then single line else line
  fold a == fold b

/-- The changes between two texts.  What they start with is the same at once. -/
def changes (o : DiffOptions) (a b : List Line) : List Change :=
  match a, b with
  | x :: a, y :: b =>
    if o.same x y then .keep x :: changes o a b else changesOf o.same (x :: a) (y :: b)
  | a, b => changesOf o.same a b

end DiffOptions

/-- What is shown where two files differ, and whether they do. -/
def differenceOf (o : DiffOptions) (a b x y : String) : String × Bool :=
  let found := o.changes (comparedLines x) (comparedLines y)
  let isSame := found.all fun
    | .keep _ => true
    | _ => false
  if isSame then
    (if o.tellsSame then "Files " ++ a ++ " and " ++ b ++ " are identical\n" else "", false)
  else if o.brief then ("Files " ++ a ++ " and " ++ b ++ " differ\n", true)
  else
    let hunks := hunksOf (o.around.getD 0) 1 1 [] none found
    match o.around with
    | none => (String.join (hunks.map Hunk.showPlain), true)
    | some _ =>
      let time := "\t1970-01-01 00:00:00.000000000 +0000"
      let label (i : Nat) (file : String) : String := (o.labels[i]?).getD (file ++ time)
      ("--- " ++ label 0 a ++ "\n+++ " ++ label 1 b ++ "\n" ++
        String.join (hunks.map Hunk.showUnified), true)

/-- Compares two files that can be read. -/
def diffFiles (o : DiffOptions) (header : String) (a b : String) (s : State) : State :=
  let read (s : State) (file : String) : Except SystemError (State × String) :=
    match textOf s file with
    | .error .notFound => if o.missingIsEmpty then .ok (s, "") else .error .notFound
    | found => found
  match read s a with
  | .error e => (s.complain ("diff: " ++ a ++ ": " ++ reason e ++ "\n")).withStatus 2
  | .ok (s, x) =>
    match read s b with
    | .error e => (s.complain ("diff: " ++ b ++ ": " ++ reason e ++ "\n")).withStatus 2
    | .ok (s, y) =>
      let (shown, differs) := differenceOf o a b x y
      let header := if differs && !o.brief then header else ""
      let s := s.write (header ++ shown)
      if differs then s.withStatus (max 1 s.status) else s

/-- Compares what is in two directories. -/
def diffDirectories (o : DiffOptions) (a b : String) (s : State) : Nat → State
  | 0 => s
  | levels + 1 =>
    let names (directory : String) : List String :=
      match s.world.disk.readDirectory s.world.cwd ⟨directory⟩ with
      | .ok entries => entries.map Prod.fst
      | .error _ => []
    let (inA, inB) := (names a, names b)
    (Disk.sortNames (inA ++ inB.filter (!inA.contains ·))).foldl (fun s name =>
      let within (directory : String) : String := (Path.join ⟨directory⟩ ⟨name⟩).text
      let (x, y) := (within a, within b)
      let only (directory : String) : State :=
        (s.write ("Only in " ++ directory ++ ": " ++ name ++ "\n")).withStatus (max 1 s.status)
      if !inB.contains name && !o.missingIsEmpty then only a
      else if !inA.contains name && !o.missingIsEmpty then only b
      else
        match isDirectory s x, isDirectory s y with
        | true, true =>
          if o.deep then diffDirectories o x y s levels
          else s.write ("Common subdirectories: " ++ x ++ " and " ++ y ++ "\n")
        | false, false =>
          let command := " ".intercalate ("diff" :: o.flags ++ [x, y])
          diffFiles o (command ++ "\n") x y s
        | isFirst, _ =>
          let kind (isDirectory : Bool) : String :=
            if isDirectory then "a directory" else "a regular file"
          (s.write ("File " ++ x ++ " is " ++ kind isFirst ++ " while file " ++ y ++ " is " ++
            kind (!isFirst) ++ "\n")).withStatus (max 1 s.status)) s

def diff (s : State) (args : List String) : State :=
  let o := DiffOptions.ofArgs {} args
  let misused (why : String) : State :=
    let hint := "diff: Try 'diff --help' for more information.\n"
    (s.complain ("diff: " ++ why ++ "\n" ++ hint)).withStatus 2
  let s := s.withStatus 0
  match o.operands with
  | [a, b] =>
    match isDirectory s a, isDirectory s b with
    | true, true => diffDirectories o a b s Disk.pathLimit
    | true, false => diffFiles o "" (Path.join ⟨a⟩ ⟨lastName b⟩).text b s
    | false, true => diffFiles o "" a (Path.join ⟨b⟩ ⟨lastName a⟩).text s
    | false, false => diffFiles o "" a b s
  | [] => misused "missing operand after 'diff'"
  | [a] => misused ("missing operand after " ++ quotedName a)
  | _ :: _ :: extra :: _ => misused ("extra operand " ++ quotedName extra)

end Shell
end DeclarativeBuild
