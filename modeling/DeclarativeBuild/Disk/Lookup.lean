import DeclarativeBuild.Disk.Basic

/-!
# Looking up paths

A path is followed name by name from the working directory or the root.  Links are replaced by
their targets, at most `linkLimit` of them on one walk.
-/

namespace DeclarativeBuild
namespace Disk

/-- How many links one walk may go through. -/
def linkLimit : Nat := 40

/-- How many bytes a name may have. -/
def nameLimit : Nat := 255

/-- How many bytes a path may have. -/
def pathLimit : Nat := 4095

/-- Follows `pieces` from the location `here`.  The entry at the end need not exist; every entry
before it must be a directory. -/
def walk (d : Disk) (followLast : Bool) (links : Nat) (here : Location) (pieces : List String) :
    Except SystemError Location :=
  match pieces with
  | [] => .ok here
  | piece :: rest =>
    match d.lookup here with
    | none => .error .notFound
    | some .directory =>
      if Path.isIdle piece then walk d followLast links here rest
      else if piece == ".." then walk d followLast links here.dropLast rest
      else if nameLimit < piece.utf8ByteSize then .error .nameTooLong
      else
        match d.lookup (here ++ [piece]) with
        | some (.link target) =>
          if rest.isEmpty && !followLast then .ok (here ++ [piece])
          else
            match links with
            | 0 => .error .tooManyLinks
            | links + 1 =>
              let start := if Path.isAbsolute ⟨target⟩ then [] else here
              walk d followLast links start (Path.pieces ⟨target⟩ ++ rest)
        | _ => walk d followLast links (here ++ [piece]) rest
    | some _ => .error .notADirectory
termination_by (links, pieces.length)

/-- The names of an absolute path that goes through no link. -/
def location (p : Path) : Location :=
  p.pieces.filter (!Path.isIdle ·)

/-- The path from the root to a location. -/
def pathOf (loc : Location) : Path :=
  ⟨"/" ++ "/".intercalate loc⟩

/-- Where the walk along a path starts for a process in `cwd`. -/
def startOf (cwd p : Path) : Location :=
  if p.isAbsolute then [] else location cwd

/-- Why a path cannot be looked up on any disk. -/
def textFault? (p : Path) : Option SystemError :=
  if p.text.toList.contains '\x00' then some .nulInPath
  else if p.text == "" then some .notFound
  else if pathLimit < p.text.utf8ByteSize then some .nameTooLong
  else none

/-- The location that a path denotes for a process in `cwd`. -/
def locate (d : Disk) (followLast : Bool) (cwd p : Path) : Except SystemError Location :=
  match textFault? p with
  | some e => .error e
  | none => d.walk followLast linkLimit (startOf cwd p) p.pieces

/-- The entry that a path denotes. -/
def entryAt (d : Disk) (followLast : Bool) (cwd p : Path) : Except SystemError Entry :=
  match d.locate followLast cwd p with
  | .error e => .error e
  | .ok loc =>
    match d.lookup loc with
    | some e => .ok e
    | none => .error .notFound

def contains (d : Disk) (cwd p : Path) : Bool :=
  (d.entryAt true cwd p).isOk

def isFile (d : Disk) (cwd p : Path) : Bool :=
  match d.entryAt true cwd p with
  | .ok e => e.isFile
  | .error _ => false

def isDirectory (d : Disk) (cwd p : Path) : Bool :=
  match d.entryAt true cwd p with
  | .ok e => e.isDirectory
  | .error _ => false

/-- The text of a file. -/
def readText (d : Disk) (cwd p : Path) : Except SystemError String :=
  match d.entryAt true cwd p with
  | .error e => .error e
  | .ok (.file content _) =>
    match String.fromUTF8? content with
    | some text => .ok text
    | none => .error .notUtf8
  | .ok _ => .error .isADirectory

/-- The names inside the directory that a path denotes, with what stands there. -/
def readDirectory (d : Disk) (cwd p : Path) : Except SystemError (List (String × Entry)) :=
  match d.locate true cwd p with
  | .error e => .error e
  | .ok loc =>
    match d.lookup loc with
    | none => .error .notFound
    | some .directory =>
      .ok ((d.names loc).filterMap fun name =>
        (d.lookup (loc ++ [name])).map fun e => (name, e))
    | some _ => .error .notADirectory

end Disk
end DeclarativeBuild
