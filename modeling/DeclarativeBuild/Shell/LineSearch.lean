import DeclarativeBuild.Shell.Inputs

/-!
# Looking for lines

What `grep` shows: the lines of its files that match one of some expressions, or those around them.
-/

namespace DeclarativeBuild
namespace Shell

/-- An expression for some text as it is. -/
def literalRegex (text : List Char) : Regex :=
  text.foldr (fun c e => .sequence (.char c) e) .empty

/-- How lines are looked for. -/
structure LineSearch where
  expressions : List Regex
  words : Words
  /-- How many lines are shown around those that are found, if any are. -/
  around : Option (Nat × Nat) := none
  /-- How many lines are looked for. -/
  most : Option Nat := none

namespace LineSearch

/-- An expression that matches all of a line or whole words only, if that is asked for. -/
def bounded (w : Words) (e : Regex) : Regex :=
  if w.has 'x' then .sequence .lineStart (.sequence e .lineEnd)
  else if w.has 'w' then .sequence (.noWord true) (.sequence e (.noWord false))
  else e

def ignoresCase (q : LineSearch) : Bool :=
  q.words.has 'i' || q.words.has 'y'

def selects (q : LineSearch) (line : Line) : Bool :=
  (q.expressions.any fun e => e.matchesIn q.ignoresCase line) != q.words.has 'v'

/-- The parts of a line that match. -/
def matched (q : LineSearch) (e : Regex) (previous : Option Char) (line : Line) : List Line :=
  match e.search q.ignoresCase previous line with
  | none => []
  | some m =>
    if m.found.isEmpty then
      match m.stop.rest with
      | [] => []
      | c :: rest => if rest.length < line.length then matched q e (some c) rest else []
    else if m.stop.rest.length < line.length then
      m.found :: matched q e m.stop.previous m.stop.rest
    else []
termination_by line.length

/-- Lines with their numbers and whether they are looked for, up to as many as are wanted. -/
def marked (q : LineSearch) (left : Option Nat) (number : Nat) :
    List Line → List (Nat × Line × Bool)
  | [] => []
  | line :: rest =>
    let found := left != some 0 && q.selects line
    let left := if found then left.map (· - 1) else left
    (number, line, found) :: marked q left (number + 1) rest

/-- Groups of lines that are shown together. -/
def groups (q : LineSearch) (lines : List (Nat × Line × Bool)) : List (List (Nat × Line × Bool)) :=
  match q.around with
  | none => [lines.filter (·.2.2)]
  | some (before, after) =>
    let hits := (lines.filter (·.2.2)).map Prod.fst
    let near (n : Nat) : Bool := hits.any fun hit => hit ≤ n + before && n ≤ hit + after
    let shown := lines.filter fun (n, _) => near n
    shown.foldr (fun line found =>
      match found with
      | (next :: group) :: rest =>
        if line.1 + 1 == next.1 then (line :: next :: group) :: rest
        else [line] :: (next :: group) :: rest
      | _ => [[line]]) []

/-- What is shown of one file, in groups, and how many lines are found. -/
def report (q : LineSearch) (file : String) (named : Bool) (text : List Char) :
    List (List String) × Nat :=
  let lines := q.marked q.most 1 (linesOf text).1
  let count := (lines.filter (·.2.2)).length
  let mark (found : Bool) := if found then ":" else "-"
  let start (n : Nat) (found : Bool) := (if named then file ++ mark found else "") ++
    if q.words.has 'n' then toString n ++ mark found else ""
  let shown : List (List String) :=
    if q.words.has 'q' then []
    else if q.words.has 'l' then if count == 0 then [] else [[file]]
    else if q.words.has 'L' then if count == 0 then [[file]] else []
    else if q.words.has 'c' then [[(if named then file ++ ":" else "") ++ toString count]]
    else if q.words.has 'o' then
      let e := q.expressions.foldr (fun e rest => .choice e rest) (.set false [])
      let parts (line : Line) := if q.words.has 'v' then [] else q.matched e none line
      [(lines.filter (·.2.2)).flatMap fun (n, line, found) =>
        (parts line).map fun part => start n found ++ String.ofList part]
    else (q.groups lines).map fun group => group.map fun (n, line, found) =>
      start n found ++ String.ofList line
  (shown.filter (!·.isEmpty), count)

/-- The options for lines around those that are found: each number counts for its own side. -/
def aroundOf (w : Words) (plain : Option Nat) : Option (Nat × Nat) :=
  let number (c : Char) := (w.value? c).bind String.toNat?
  let common := (number 'C').or plain
  match (number 'B').or common, (number 'A').or common with
  | none, none => none
  | before, after => some (before.getD 0, after.getD 0)

end LineSearch

/-- Files at and below some places, where directories stand for what is in them. -/
def filesBelow (s : State) (place : String) (loc : Location) : Nat → List String
  | 0 => []
  | levels + 1 =>
    match s.world.disk.lookup loc with
    | some .directory =>
      (s.world.disk.names loc).flatMap fun name =>
        let inner := if place == "" then name else (Path.join ⟨place⟩ ⟨name⟩).text
        filesBelow s inner (loc ++ [name]) levels
    | some (.file _ _) => [place]
    | _ => []

def searchedFiles (s : State) (files : List String) : List String :=
  (if files.isEmpty then [""] else files).flatMap fun file =>
    match locate s true (if file == "" then "." else file) with
    | .ok loc => if (s.world.disk.lookup loc).isSome then filesBelow s file loc Disk.pathLimit
      else [file]
    | .error _ => [file]

/-- Long names of options as letters. -/
def searchOption (word : String) : List String :=
  match word with
  | "--quiet" | "--silent" => ["-q"]
  | "--count" => ["-c"]
  | "--ignore-case" => ["-i"]
  | "--invert-match" => ["-v"]
  | "--line-number" => ["-n"]
  | "--files-with-matches" => ["-l"]
  | "--only-matching" => ["-o"]
  | "--recursive" => ["-r"]
  | "--fixed-strings" => ["-F"]
  | "--extended-regexp" => ["-E"]
  | "--word-regexp" => ["-w"]
  | "--line-regexp" => ["-x"]
  | "--no-messages" => ["-s"]
  | "--color" | "--color=auto" | "--color=never" => []
  | word => [word]

def grep (extended plain : Bool) (s : State) (args : List String) : State :=
  let isCount (word : String) := word.startsWith "-" && ((word.drop 1).toString.toNat?).isSome
  let counted := (args.filter isCount).getLast?.bind fun word => (word.drop 1).toString.toNat?
  let w := Words.ofArgs ['e', 'm', 'A', 'B', 'C', 'f']
    ((args.filter (!isCount ·)).flatMap searchOption)
  let given := w.options.flatMap fun (o, value) =>
    if o == 'e' then [value]
    else if o == 'f' then
      match s.world.readText ⟨value⟩ with
      | .ok text => (linesOf text.toList).1.map String.ofList
      | .error _ => []
    else []
  let isGiven := w.has 'e' || w.has 'f'
  let (sources, files) := if isGiven then (given, w.operands)
    else (w.operands.take 1, w.operands.drop 1)
  let deep := w.has 'r' || w.has 'R'
  let isSeveral := match files with
    | [file] => deep && isDirectory s file
    | [] => deep
    | _ => true
  let files := if deep then searchedFiles s files else files
  let expressions := (sources.flatMap (Text.splitString '\n')).mapM fun source =>
    if plain || w.has 'F' then some (literalRegex source.toList)
    else Regex.parse (extended || w.has 'E') source.toList
  if !isGiven && sources.isEmpty then
    (s.complain ("Usage: grep [OPTION]... PATTERNS [FILE]...\n" ++
      "Try 'grep --help' for more information.\n")).withStatus 2
  else
    match expressions with
    | none => (s.complain "grep: Invalid regular expression\n").withStatus 2
    | some expressions =>
      let q : LineSearch :=
        { expressions := expressions.map (LineSearch.bounded w), words := w
          around := LineSearch.aroundOf w counted, most := (w.value? 'm').bind String.toNat? }
      let tell (s : State) (file : String) (e : SystemError) : State :=
        if w.has 's' then s else s.complain ("grep: " ++ file ++ ": " ++ reason e ++ "\n")
      let (s, found) := if deep && files.isEmpty then (s.withStatus 0, []) else textsOr tell s files
      let named := (isSeveral && !w.has 'h') || w.has 'H'
      let results := found.map fun (file, text) =>
        q.report (if file == "-" then "(standard input)" else file) named text.toList
      let gap := if q.around.isSome then ["--"] else []
      let shown := ((results.flatMap Prod.fst).zipIdx).flatMap fun (group, i) =>
        if i == 0 then group else gap ++ group
      let isFound := if w.has 'L' then !shown.isEmpty else results.any (0 < ·.2)
      (s.write (String.join (shown.map (· ++ "\n")))).withStatus
        (if isFound && (s.status == 0 || w.has 'q') then 0 else if s.status == 0 then 1 else 2)

end Shell
end DeclarativeBuild
