import DeclarativeBuild.Shell.Inputs
import DeclarativeBuild.Shell.Pattern

/-!
# Looking for files

What `find` does with the files below some places: an expression of tests and actions is worked out
for each of them.
-/

namespace DeclarativeBuild
namespace Shell

/-- What is asked of a file, or done with it. -/
inductive FileTest where
  | named (ignoreCase : Bool) (pattern : String)
  | pathLike (ignoreCase : Bool) (pattern : String)
  | kind (letters : List Char)
  | nothingIn
  | program
  | always (outcome : Bool)
  | prune
  | print (separator : String)
  | delete
  /-- Runs a command for the file, or one for all files at the end. -/
  | run (command : List String) (together : Bool)
  | no (test : FileTest)
  | both (first second : FileTest)
  | either (first second : FileTest)

namespace FileTest

/-- Whether something is done with files beside looking at them. -/
def acts : FileTest → Bool
  | .print _ | .delete | .run _ _ => true
  | .no test => test.acts
  | .both a b | .either a b => a.acts || b.acts
  | _ => false

def deletes : FileTest → Bool
  | .delete => true
  | .no test => test.deletes
  | .both a b | .either a b => a.deletes || b.deletes
  | _ => false

end FileTest

/-- A search: its expression, and the depths it is held to. -/
structure FileSearch where
  test : FileTest
  least : Nat := 0
  most : Nat := Disk.pathLimit
  innerFirst : Bool := false

/-- What is still to read of a search, and what has been read beside the expression. -/
structure SearchReading where
  words : List String
  least : Nat := 0
  most : Nat := Disk.pathLimit
  innerFirst : Bool := false

abbrev SearchParse := Except String (FileTest × SearchReading)

/-- The command of an action up to its end, and whether it is for all files together. -/
def commandWords : List String → Option (List String × Bool × List String)
  | ";" :: rest => some ([], false, rest)
  | "{}" :: "+" :: rest => some ([], true, rest)
  | word :: rest => (commandWords rest).map fun (words, more) => (word :: words, more)
  | [] => none

/-- Tests that are given a value. -/
def valuedTests : List String :=
  ["-name", "-iname", "-path", "-ipath", "-wholename", "-type", "-maxdepth", "-mindepth"]

/-- A test without an expression in it. -/
def parseTest (r : SearchReading) : SearchParse :=
  let plain (test : FileTest) (rest : List String) : SearchParse :=
    .ok (test, { r with words := rest })
  match r.words with
  | "-print" :: rest => plain (.print "\n") rest
  | "-print0" :: rest => plain (.print "\x00") rest
  | "-delete" :: rest => .ok (.delete, { r with words := rest, innerFirst := true })
  | "-depth" :: rest => .ok (.always true, { r with words := rest, innerFirst := true })
  | "-prune" :: rest => plain .prune rest
  | "-empty" :: rest => plain .nothingIn rest
  | "-executable" :: rest => plain .program rest
  | "-true" :: rest => plain (.always true) rest
  | "-false" :: rest => plain (.always false) rest
  | "-exec" :: rest =>
    match commandWords rest with
    | some ([], _, _) | none => .error "missing argument to `-exec'"
    | some (command, together, rest) => plain (.run command together) rest
  | option :: rest =>
    if !(valuedTests.contains option) then
      .error (if option.startsWith "-" then "unknown predicate `" ++ option ++ "'"
        else "paths must precede expression: `" ++ option ++ "'")
    else
      match rest with
      | [] => .error ("missing argument to `" ++ option ++ "'")
      | value :: rest =>
        let depth := value.toNat?.getD 0
        match option with
        | "-name" => plain (.named false value) rest
        | "-iname" => plain (.named true value) rest
        | "-ipath" => plain (.pathLike true value) rest
        | "-type" => plain (.kind (value.toList.filter (· != ','))) rest
        | "-maxdepth" => .ok (.always true, { r with words := rest, most := depth })
        | "-mindepth" => .ok (.always true, { r with words := rest, least := depth })
        | _ => plain (.pathLike false value) rest
  | [] => .error "expected an expression"

/-- Reads an expression: alternatives of conditions that all must hold. -/
def parseEither (measure : Nat) (r : SearchReading) : SearchParse := do
  match measure with
  | 0 => .error "expression is too long"
  | measure + 1 =>
    let (first, r) ← conditions measure none r
    match r.words with
    | "-o" :: rest | "-or" :: rest =>
      let (second, r) ← parseEither measure { r with words := rest }
      return (.either first second, r)
    | _ => return (first, r)
where
  /-- Conditions one after the other, after those that have been read. -/
  conditions (measure : Nat) (before : Option FileTest) (r : SearchReading) : SearchParse := do
    match measure with
    | 0 => .error "expression is too long"
    | measure + 1 =>
      let (test, r) ← condition measure r
      let all := match before with
        | some t => .both t test
        | none => test
      match r.words with
      | [] | ")" :: _ | "-o" :: _ | "-or" :: _ => return (all, r)
      | "-a" :: rest | "-and" :: rest => conditions measure (some all) { r with words := rest }
      | _ => conditions measure (some all) r
  condition (measure : Nat) (r : SearchReading) : SearchParse := do
    match measure with
    | 0 => .error "expression is too long"
    | measure + 1 =>
      match r.words with
      | "!" :: rest | "-not" :: rest =>
        let (test, r) ← condition measure { r with words := rest }
        return (.no test, r)
      | "(" :: rest =>
        let (test, r) ← parseEither measure { r with words := rest }
        match r.words with
        | ")" :: rest => return (test, { r with words := rest })
        | _ => .error "invalid expression; expected to find a ')' but didn't see one."
      | _ => parseTest r

/-- Reads a search; files are shown if nothing else is done with them. -/
def FileSearch.parse (words : List String) : Except String FileSearch := do
  if words.isEmpty then return { test := .print "\n" }
  let (test, r) ← parseEither (4 * words.length + 4) { words }
  match r.words with
  | [] =>
    let test := if test.acts then test else .both test (.print "\n")
    return ⟨test, r.least, r.most, r.innerFirst || test.deletes⟩
  | _ => .error "invalid expression; you have used a binary operator with nothing before it."

/-- What working out an expression has come to. -/
structure SearchState where
  shell : State
  /-- Whether nothing below the file is looked at. -/
  pruned : Bool := false
  /-- Commands for the end, each with its files, last file first. -/
  gathered : List (List String × List String) := []

/-- How commands are run. -/
abbrev Runner := List String → State → State

/-- Works out an expression for a file. -/
def FileTest.check (run : Runner) (path : String) (e : Entry) (t : FileTest) (s : SearchState) :
    SearchState × Bool :=
  match t with
  | .named ignoreCase pattern => (s, fits ignoreCase pattern (lastName path))
  | .pathLike ignoreCase pattern => (s, fits ignoreCase pattern path)
  | .kind letters =>
    let letter := match e with
      | .directory => 'd'
      | .file _ _ => 'f'
      | .link _ => 'l'
    (s, letters.contains letter)
  | .nothingIn =>
    let isEmpty := match e with
      | .file content _ => content.size == 0
      | .directory => (namesAt s.shell path).isEmpty
      | .link _ => false
    (s, isEmpty)
  | .program => (s, s.shell.world.isProgram ⟨path⟩ || isDirectory s.shell path)
  | .always outcome => (s, outcome)
  | .prune => ({ s with pruned := true }, true)
  | .print separator => ({ s with shell := s.shell.write (path ++ separator) }, true)
  | .delete =>
    let gone := if e.isDirectory then removeDirectory s.shell path
      else removeFile {} s.shell path
    match gone with
    | .ok shell => ({ s with shell }, true)
    | .error why =>
      let complaint := "find: cannot delete " ++ quotedName path ++ ": " ++ why ++ "\n"
      ({ s with shell := (s.shell.complain complaint).withStatus 1 }, false)
  | .run command false =>
    let after := run (command.map (·.replace "{}" path)) s.shell
    ({ s with shell := after.withStatus s.shell.status }, after.status == 0)
  | .run command true =>
    let files := ((s.gathered.lookup command).getD [])
    ({ s with
      gathered := s.gathered.filter (·.1 != command) ++ [(command, path :: files)] }, true)
  | .no test =>
    let (s, outcome) := check run path e test s
    (s, !outcome)
  | .both a b =>
    match check run path e a s with
    | (s, true) => check run path e b s
    | (s, false) => (s, false)
  | .either a b =>
    match check run path e a s with
    | (s, true) => (s, true)
    | (s, false) => check run path e b s
where
  fits (ignoreCase : Bool) (pattern text : String) : Bool :=
    let fold (text : String) := bytesOf (if ignoreCase then text.toList.map Char.toLower
      else text.toList)
    matchesBytes (fold pattern) (fold text)
  namesAt (s : State) (path : String) : List String :=
    match locate s true path with
    | .ok loc => s.world.disk.names loc
    | .error _ => []

/-- Works out an expression for the files at and below a place. -/
def FileSearch.walk (f : FileSearch) (run : Runner) (depth : Nat) (path : String) (loc : Location)
    (s : SearchState) : Nat → SearchState
  | 0 => s
  | levels + 1 =>
    match s.shell.world.disk.lookup loc with
    | none => s
    | some e =>
      let own (s : SearchState) : SearchState :=
        if f.least ≤ depth then (f.test.check run path e { s with pruned := false }).1
        else { s with pruned := false }
      let below (s : SearchState) : SearchState :=
        if !e.isDirectory || f.most ≤ depth then s
        else (s.shell.world.disk.names loc).foldl (fun s name =>
          walk f run (depth + 1) (Path.join ⟨path⟩ ⟨name⟩).text (loc ++ [name]) s levels) s
      if f.innerFirst then own (below s)
      else
        let s := own s
        if s.pruned then s else below s

/-- Looks for files below some places. -/
def find (run : Runner) (s : State) (args : List String) : State :=
  let isPlace (w : String) := !w.startsWith "-" && w != "!" && w != "("
  let args := args.dropWhile fun w => w == "-L" || w == "-H" || w == "-P"
  let places := args.takeWhile isPlace
  let places := if places.isEmpty then ["."] else places
  match FileSearch.parse (args.dropWhile isPlace) with
  | .error why => (s.complain ("find: " ++ why ++ "\n")).withStatus 1
  | .ok f =>
    let start : SearchState := { shell := s.withStatus 0 }
    let found := places.foldl (fun s place =>
      let missing (e : SystemError) : SearchState :=
        let complaint := "find: " ++ quotedName place ++ ": " ++ reason e ++ "\n"
        { s with shell := (s.shell.complain complaint).withStatus 1 }
      match locate s.shell false place with
      | .error e => missing e
      | .ok loc =>
        if (s.shell.world.disk.lookup loc).isNone then missing .notFound
        else f.walk run 0 place loc s Disk.pathLimit) start
    found.gathered.foldl (fun s (command, files) =>
      let after := run (command ++ files.reverse) s
      after.withStatus (if after.status == 0 then s.status else 1)) found.shell

end Shell
end DeclarativeBuild
