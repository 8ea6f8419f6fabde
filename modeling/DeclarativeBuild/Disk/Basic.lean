import DeclarativeBuild.Path

/-!
# Disks

A disk is a finite tree of files, directories and symbolic links, kept as a list of locations with
what stands there.  A location is the list of names from the root; it never goes through a link.
-/

namespace DeclarativeBuild

/-- What an operation on files or processes can report. -/
inductive SystemError where
  | notFound
  | permissionDenied
  | notADirectory
  | isADirectory
  | invalidArgument
  | badExecutable
  | busy
  | nameTooLong
  | directoryNotEmpty
  | tooManyLinks
  | notUtf8
  | emptyPath
  | nulInPath
  | nulInData
deriving DecidableEq, Repr

def SystemError.message : SystemError → String
  | .notFound => "No such file or directory (os error 2)"
  | .badExecutable => "Exec format error (os error 8)"
  | .permissionDenied => "Permission denied (os error 13)"
  | .busy => "Device or resource busy (os error 16)"
  | .notADirectory => "Not a directory (os error 20)"
  | .isADirectory => "Is a directory (os error 21)"
  | .invalidArgument => "Invalid argument (os error 22)"
  | .nameTooLong => "File name too long (os error 36)"
  | .directoryNotEmpty => "Directory not empty (os error 39)"
  | .tooManyLinks => "Too many levels of symbolic links (os error 40)"
  | .notUtf8 => "stream did not contain valid UTF-8"
  | .emptyPath => "cannot make an empty path absolute"
  | .nulInPath => "file name contained an unexpected NUL byte"
  | .nulInData => "nul byte found in provided data"

/-- The names from the root to an entry. -/
abbrev Location := List String

inductive Entry where
  | file (content : ByteArray) (executable : Bool)
  | directory
  | link (target : String)

namespace Entry

def isDirectory : Entry → Bool
  | .directory => true
  | _ => false

def isFile : Entry → Bool
  | .file _ _ => true
  | _ => false

end Entry

structure Disk where
  entries : List (Location × Entry)

namespace Disk

def empty : Disk := ⟨[]⟩

/-- The entry at a location; the root is always a directory. -/
def lookup (d : Disk) (loc : Location) : Option Entry :=
  if loc.isEmpty then some .directory else d.entries.lookup loc

/-- Puts an entry where another may stand. -/
def insert (d : Disk) (loc : Location) (e : Entry) : Disk :=
  ⟨(loc, e) :: d.entries.filter (·.1 != loc)⟩

def erase (d : Disk) (loc : Location) : Disk :=
  ⟨d.entries.filter (·.1 != loc)⟩

/-- Names in increasing order of their bytes. -/
def sortNames (names : List String) : List String :=
  names.mergeSort fun a b => decide (a ≤ b)

/-- The names directly inside a directory, in increasing order of their bytes. -/
def names (d : Disk) (loc : Location) : List String :=
  sortNames <| d.entries.filterMap fun (l, _) =>
    match l.getLast? with
    | some name => if l.dropLast = loc then some name else none
    | none => none

/-- Puts an entry and the directories above it that are missing. -/
def insertDeep (d : Disk) (loc : Location) (e : Entry) : Disk :=
  let withParents := (List.range loc.length).foldl (fun (d : Disk) n =>
    if (d.lookup (loc.take n)).isNone then d.insert (loc.take n) .directory else d) d
  withParents.insert loc e

theorem lookup_insert {d : Disk} {loc : Location} {e : Entry} (h : loc ≠ []) :
    (d.insert loc e).lookup loc = some e := by
  simp [lookup, insert, h]

end Disk

end DeclarativeBuild
