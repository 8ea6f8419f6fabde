import DeclarativeBuild.Shell.Condition
import DeclarativeBuild.Shell.State

/-!
# Files

What the utilities that change the disk do to it, and what they tell about it.
-/

namespace DeclarativeBuild
namespace Shell

/-- How a refusal of the system is put after the name of a file. -/
def reason : SystemError → String
  | .notFound => "No such file or directory"
  | .isADirectory => "Is a directory"
  | .notADirectory => "Not a directory"
  | .directoryNotEmpty => "Directory not empty"
  | .permissionDenied => "Permission denied"
  | .busy => "Device or resource busy"
  | .nameTooLong => "File name too long"
  | .tooManyLinks => "Too many levels of symbolic links"
  | .badExecutable => "Exec format error"
  | _ => "Invalid argument"

/-- The outcome of a step that may be refused, with the words for it. -/
abbrev Attempted := Except String State

def refused (e : SystemError) : Attempted :=
  .error (reason e)

def quotedName (file : String) : String :=
  "'" ++ file ++ "'"

/-- Writes a file. -/
def writeFile (s : State) (file text : String) (append : Bool) : Except SystemError State :=
  (s.world.disk.write s.world.cwd ⟨file⟩ text.toUTF8 append).map s.setDisk

/-- Does something with each of some operands and utters the complaints about it. -/
def overOperands (utility : String) (step : State → String → Attempted) (s : State)
    (operands : List String) : State :=
  operands.foldl (fun s operand =>
    match step s operand with
    | .ok s => s
    | .error complaint => (s.complain (utility ++ ": " ++ complaint ++ "\n")).withStatus 1)
    (s.withStatus 0)

/-- Likewise, where complaints start alike for all operands. -/
def overFiles (utility : String) (complaint : String → String) (step : State → String → Attempted)
    (s : State) (files : List String) : State :=
  overOperands utility (fun s file =>
    (step s file).mapError fun why => complaint file ++ ": " ++ why) s files

def locate (s : State) (followLast : Bool) (file : String) : Except SystemError Location :=
  s.world.disk.locate followLast s.world.cwd ⟨file⟩

def entryAt (s : State) (followLast : Bool) (file : String) : Except SystemError Entry :=
  s.world.disk.entryAt followLast s.world.cwd ⟨file⟩

def isDirectory (s : State) (file : String) : Bool :=
  s.world.disk.isDirectory s.world.cwd ⟨file⟩

/-- Puts an entry at a path whose directory must be there. -/
def place (s : State) (file : String) (e : Entry) : Except SystemError State := do
  match ← s.world.disk.slot s.world.cwd ⟨file⟩ with
  | some slot =>
    if Disk.nameLimit < slot.name.utf8ByteSize then throw .nameTooLong
    return s.setDisk (s.world.disk.insert slot.location e)
  | none => throw .isADirectory

def touch (s : State) (file : String) : Attempted :=
  match entryAt s true file with
  | .ok _ => .ok s
  | .error _ => (writeFile s file "" true).mapError reason

def makeDirectory (s : State) (file : String) : Attempted :=
  match entryAt s false file with
  | .ok _ => .error "File exists"
  | .error .notFound => (place s file .directory).mapError reason
  | .error e => refused e

/-- The paths on the way to a path, shortest first, and it itself. -/
def pathsTo (file : String) : List String :=
  let pieces := Text.pieces '/' file.toList
  ((List.range pieces.length).map fun n =>
    String.ofList (Text.join ['/'] (pieces.take (n + 1)))).filter (· != "")

/-- Makes a directory, which is told if `tells` is set. -/
def makeOne (tells : Bool) (s : State) (file : String) : Attempted :=
  match makeDirectory s file with
  | .ok s =>
    .ok (if tells then s.write ("mkdir: created directory " ++ quotedName file ++ "\n") else s)
  | .error why => .error ("cannot create directory " ++ quotedName file ++ ": " ++ why)

/-- Makes a directory and those above it that are missing, and says which of them could not be
made. -/
def makeDirectories (tells : Bool) (s : State) (file : String) : Attempted :=
  let refuse (path why : String) : Attempted :=
    .error ("cannot create directory " ++ quotedName path ++ ": " ++ why)
  (pathsTo file).foldlM (fun s path =>
    match entryAt s true path with
    | .ok e =>
      if e.isDirectory then .ok s
      else refuse path (if path == file then "File exists" else "Not a directory")
    | .error .notFound => makeOne tells s path
    | .error e => refuse path (reason e)) s

def removeDirectory (s : State) (file : String) : Attempted :=
  match locate s false file with
  | .error e => refused e
  | .ok loc =>
    match s.world.disk.lookup loc with
    | none => refused .notFound
    | some .directory =>
      if (s.world.disk.names loc).isEmpty then .ok (s.setDisk (s.world.disk.erase loc))
      else refused .directoryNotEmpty
    | some _ => refused .notADirectory

/-- How files are removed. -/
structure Removal where
  deep : Bool := false
  force : Bool := false
  emptyToo : Bool := false

def removeFile (r : Removal) (s : State) (file : String) : Attempted :=
  match locate s false file with
  | .error e => if r.force && (e == .notFound || e == .notADirectory) then .ok s else refused e
  | .ok loc =>
    match s.world.disk.lookup loc with
    | none => if r.force then .ok s else refused .notFound
    | some .directory =>
      if r.deep then
        .ok (s.setDisk ⟨s.world.disk.entries.filter fun (l, _) => !loc.isPrefixOf l⟩)
      else if r.emptyToo then removeDirectory s file
      else refused .isADirectory
    | some _ => .ok (s.setDisk (s.world.disk.erase loc))

/-- Removes a file; directories that are in use stay. -/
def remove (r : Removal) (s : State) (file : String) : Attempted :=
  let last := (Text.splitString '/' file).reverse.dropWhile (· == "")
  let isHere := last.head? == some "." || last.head? == some ".."
  if r.deep && isHere then
    .error ("refusing to remove '.' or '..' directory: skipping " ++ quotedName file)
  else if r.deep && file != "" && last.isEmpty then
    .error ("it is dangerous to operate recursively on '/'\n" ++
      "rm: use --no-preserve-root to override this failsafe")
  else (removeFile r s file).mapError fun why => "cannot remove " ++ quotedName file ++ ": " ++ why

/-- The last name of a path, without separators after it. -/
def lastName (file : String) : String :=
  match (Text.splitString '/' file).reverse.dropWhile (· == "") with
  | last :: _ => last
  | [] => if file == "" then "" else "/"

/-- The path without its last name. -/
def directoryName (file : String) : String :=
  let isSlash (c : Char) := c == '/'
  let named := file.toList.reverse.dropWhile isSlash
  let above := (named.dropWhile (!isSlash ·)).dropWhile isSlash
  if !above.isEmpty then String.ofList above.reverse
  else if file.startsWith "/" then "/" else "."

/-- What one part of a mode does to whether a file is a program; there is nothing if it is no part of
a mode. -/
def modePart? (part : List Char) (executable : Bool) : Option Bool :=
  let who := part.takeWhile fun c => ['u', 'g', 'o', 'a'].contains c
  match part.drop who.length with
  | sign :: letters =>
    if !letters.all fun c => ['r', 'w', 'x', 'X', 's', 't', 'u', 'g', 'o'].contains c then none
    else
      match sign with
      | '+' => some (executable || letters.contains 'x')
      | '-' => some (executable && !letters.contains 'x')
      | '=' => some (letters.contains 'x' || (letters.contains 'X' && executable))
      | _ => none
  | [] => none

/-- Whether a file is a program after its mode has been changed; there is nothing if that is no
mode. -/
def executableAfter? (mode : String) (executable : Bool) : Option Bool :=
  let cs := mode.toList
  if !cs.isEmpty && cs.all isOctal then
    let n := cs.foldl (fun n c => n * 8 + Arithmetic.digitValue c) 0
    if n < 4096 then some (n % 2 == 1 || n / 8 % 2 == 1 || n / 64 % 2 == 1) else none
  else (Text.splitString ',' mode).foldlM (fun found part => modePart? part.toList found) executable

def changeMode (mode : String) (s : State) (file : String) : Attempted :=
  match locate s true file with
  | .error e => refused e
  | .ok loc =>
    match s.world.disk.lookup loc with
    | none => refused .notFound
    | some (.file content executable) =>
      let executable := (executableAfter? mode executable).getD executable
      .ok (s.setDisk (s.world.disk.insert loc (.file content executable)))
    | some _ => .ok s

/-- The names in a directory, one a line. -/
def namesIn (s : State) (w : Words) (directory : String) : Except SystemError (List String) :=
  match s.world.disk.readDirectory s.world.cwd ⟨directory⟩ with
  | .error e => .error e
  | .ok entries =>
    let marked := entries.map fun (name, e) =>
      if (w.has 'F' || w.has 'p') && e.isDirectory then name ++ "/" else name
    let names := marked.filter fun n => w.has 'a' || w.has 'A' || !n.startsWith "."
    let names := if w.has 'a' then "." :: ".." :: names else names
    .ok (if w.has 'r' then names.reverse else names)

/-- A directory and, if `deep` is set, those below it that can be listed. -/
def listedDirectories (s : State) (w : Words) (directory : String) : Nat → List String
  | 0 => []
  | levels + 1 =>
    match namesIn s (w.without ['F', 'p', 'a']) directory with
    | .error _ => [directory]
    | .ok names =>
      let below := names.filterMap fun name =>
        let inner := (Path.join ⟨directory⟩ ⟨name⟩).text
        match entryAt s false inner with
        | .ok .directory => some inner
        | _ => none
      directory :: if w.has 'R' then below.flatMap fun inner => listedDirectories s w inner levels
        else []

/-- Lists files first and then the names in each directory, under its name if there are more. -/
def list (s : State) (args : List String) : State :=
  let w := Words.ofArgs [] args
  let operands := Disk.sortNames (if w.operands.isEmpty then ["."] else w.operands)
  let (found, missing) := operands.partition fun f =>
    (entryAt s true f).isOk || (entryAt s false f).isOk
  let s := missing.foldl (fun s f =>
    let why := match entryAt s true f with
      | .error e => reason e
      | .ok _ => ""
    (s.complain ("ls: cannot access " ++ quotedName f ++ ": " ++ why ++ "\n")).withStatus 2)
    (s.withStatus 0)
  let (directories, files) := found.partition fun f => !w.has 'd' && isDirectory s f
  let s := s.write (String.join (files.map (· ++ "\n")))
  let directories := directories.flatMap fun directory =>
    listedDirectories s w directory Disk.pathLimit
  (directories.zipIdx).foldl (fun s (directory, i) =>
    let gap := if i == 0 && files.isEmpty then "" else "\n"
    let isNamed := operands.length != 1 || w.has 'R'
    let header := if isNamed then gap ++ directory ++ ":\n" else ""
    match namesIn s w directory with
    | .ok names => s.write (header ++ String.join (names.map (· ++ "\n")))
    | .error _ => s) s

/-- How much of a path must be there for its links to be followed. -/
inductive Presence where
  | all
  | allButLast
  | nothing
deriving DecidableEq, Repr

/-- A path from the root without dots and with two dots worked off. -/
def plainSteps (p : Path) : String :=
  let steps := p.pieces.foldl (fun (found : List String) piece =>
    if Path.isIdle piece then found
    else if piece == ".." then found.drop 1
    else piece :: found) []
  let isDouble := p.text.startsWith "//" && !p.text.startsWith "///"
  (if isDouble then "//" else "/") ++ "/".intercalate steps.reverse

/-- The path of what a path denotes, without links. -/
def realPath (s : State) (presence : Presence) (file : String) : Except SystemError String :=
  match locate s true file with
  | .ok loc =>
    if presence != .all || (s.world.disk.lookup loc).isSome then .ok (Disk.pathOf loc).text
    else .error .notFound
  | .error e =>
    if presence == .nothing && file != "" then .ok (plainSteps (s.world.cwd.join ⟨file⟩))
    else .error e

/-- Where a link leads. -/
def linkTarget? (s : State) (file : String) : Option String :=
  match entryAt s false file with
  | .ok (.link target) => some target
  | _ => none

end Shell
end DeclarativeBuild
