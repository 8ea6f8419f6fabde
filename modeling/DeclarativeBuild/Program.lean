import DeclarativeBuild.Text.Blank
import DeclarativeBuild.World

/-!
# Programs

The executable files of the world, and how a name stands for one of them.
-/

namespace DeclarativeBuild

/-- Whether a path is a file that may be executed. -/
def World.isProgram (w : World) (p : Path) : Bool :=
  match w.disk.entryAt true w.cwd p with
  | .ok (.file _ executable) => executable
  | _ => false

/-- The directories that programs are looked up in. -/
def World.searchPath (w : World) : List Path :=
  match w.environment.lookup "PATH" with
  | none => []
  | some directories => (Text.splitString ':' directories).map Path.mk

/-- The file that a program name stands for: a name of several steps is a path of its own. -/
def World.findProgram (w : World) (program : Path) : Option Path :=
  let steps := program.components
  let candidates :=
    if program.isAbsolute then [program]
    else if steps.length > 1 then
      [(steps.dropWhile (· == .here)).foldl (fun p c => p.join ⟨Path.stepText c⟩) w.cwd]
    else w.searchPath.map (·.join program)
  candidates.find? w.isProgram

/-- Where programs are looked up if nothing says so. -/
def standardPath : List Path :=
  [⟨"/bin"⟩, ⟨"/usr/bin"⟩]

/-- The programs that every system has. -/
def standardPrograms : List String :=
  ["sh", "[", "arch", "awk", "base64", "basename", "bash", "cat", "chgrp", "chmod", "chown",
    "cksum", "cmp", "comm", "cp", "cut", "dash", "date", "dd", "diff", "dirname", "echo", "egrep",
    "env", "expand", "expr", "false", "fgrep", "find", "fold", "grep", "groups", "head",
    "hostname", "id", "install", "join", "link", "ln", "ls", "mawk", "md5sum", "mkdir", "mktemp",
    "mv", "nawk", "nice", "nl", "nohup", "nproc", "od", "paste", "printenv", "printf", "pwd",
    "readlink", "realpath", "rev", "rm", "rmdir", "sed", "seq", "setsid", "sha1sum", "sha256sum",
    "sleep", "sort", "split", "stat", "stdbuf", "sync", "tac", "tail", "tee", "test", "timeout",
    "touch", "tr", "true", "truncate", "tty", "uname", "uniq", "unlink", "wc", "which", "whoami",
    "xargs", "yes"]

/-- Whether a path is where a standard program stands. -/
def isStandard (p : Path) : Bool :=
  standardPath.any fun directory => standardPrograms.any fun name => p == directory.join ⟨name⟩

/-- What runs when an executable file is run: a standard program, or an interpreter that is told
the file, perhaps after an option. -/
inductive ProgramKind where
  | standard (name : String)
  | interpreted (interpreter : Path) (option : Option String)
deriving DecidableEq, Repr

/-- Reads the first line of a script, after its mark. -/
def interpreterLine? (line : List Char) : Option ProgramKind :=
  let isGap (c : Char) := c == ' ' || c == '\t'
  let start := line.dropWhile isGap
  let name := start.takeWhile (!isGap ·)
  let option := (((start.drop name.length).dropWhile isGap).reverse.dropWhile isGap).reverse
  if name.isEmpty then none
  else some (.interpreted ⟨String.ofList name⟩
    (if option.isEmpty then none else some (String.ofList option)))

/-- The bytes that open a script. -/
def scriptMark : List UInt8 :=
  "#!".toUTF8.toList

/-- What stands in the file of a program.  That of a standard program is empty. -/
def programKind (w : World) (p : Path) : Except SystemError ProgramKind :=
  match w.disk.locate true w.cwd p with
  | .error e => .error e
  | .ok loc =>
    match w.disk.lookup loc with
    | none => .error .notFound
    | some (.file content true) =>
      let bytes := content.toList
      if bytes.isEmpty && isStandard (Disk.pathOf loc) then .ok (.standard (loc.getLastD ""))
      else if bytes.take 2 == scriptMark then
        let line := (bytes.drop 2).takeWhile (· != 10)
        match String.fromUTF8? ⟨line.toArray⟩ with
        | some text => (interpreterLine? text.toList).elim (.error .badExecutable) .ok
        | none => .error .badExecutable
      else .error .badExecutable
    | some _ => .error .permissionDenied

/-- A standard program with the name that it was called by and its arguments. -/
structure Process where
  program : String
  self : String
  args : List String
deriving DecidableEq, Repr

/-- How many interpreters of interpreters the system goes through. -/
def interpreterLimit : Nat := 5

/-- The process that a file becomes when it is run with some arguments. -/
def loadProgram (w : World) (interpreters : Nat) (self : String) (file : Path)
    (args : List String) : Except SystemError Process :=
  match programKind w file with
  | .error e => .error e
  | .ok (.standard name) => .ok ⟨name, self, args⟩
  | .ok (.interpreted interpreter option) =>
    match interpreters with
    | 0 => .error .tooManyLinks
    | left + 1 =>
      loadProgram w left interpreter.text interpreter (option.toList ++ file.text :: args)

/-- The first of some files that can be run, or that holds something in no known form.  A file that
may not be run is remembered while others are tried. -/
def firstProgram (w : World) (denied : Bool) : List Path → Except SystemError Path
  | [] => .error (if denied then .permissionDenied else .notFound)
  | p :: rest =>
    match loadProgram w interpreterLimit "" p [] with
    | .ok _ | .error .badExecutable => .ok p
    | .error .permissionDenied => firstProgram w true rest
    | .error .notFound | .error .notADirectory => firstProgram w denied rest
    | .error e => .error e

/-- Looks a program up by name on the search path, or takes a path as it is. -/
def locateProgram (w : World) (program : Path) : Except SystemError Path :=
  if program.text.toList.contains '/' then .ok program
  else if program.text == "" then .error .notFound
  else
    let directories := if (w.environment.lookup "PATH").isSome then w.searchPath else standardPath
    firstProgram w false (directories.map (·.join program))

/-- The process that a file becomes, where the shell reads what is in no other form. -/
def loadOrInterpret (w : World) (self : String) (file : Path) (args : List String) :
    Except SystemError Process :=
  match loadProgram w interpreterLimit self file args with
  | .error .badExecutable => .ok ⟨"sh", "sh", file.text :: args⟩
  | result => result

end DeclarativeBuild
