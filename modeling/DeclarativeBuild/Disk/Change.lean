import DeclarativeBuild.Disk.Lookup

/-!
# Changing a disk

Writing files and moving entries.
-/

namespace DeclarativeBuild
namespace Disk

/-- Writes a file, which keeps its permissions if it stood there before. -/
def write (d : Disk) (cwd p : Path) (content : ByteArray) (append : Bool) :
    Except SystemError Disk :=
  match d.locate true cwd p with
  | .error e => .error e
  | .ok loc =>
    match d.lookup loc with
    | some .directory => .error .isADirectory
    | some (.file old executable) =>
      .ok (d.insert loc (.file (if append then old ++ content else content) executable))
    | some (.link _) => .error .tooManyLinks
    | none =>
      match d.lookup loc.dropLast with
      | some .directory => .ok (d.insert loc (.file content false))
      | some _ => .error .notADirectory
      | none => .error .notFound

/-- Everything at or below `source` with that part of its location replaced by `target`. -/
def relocate (d : Disk) (source target : Location) : Disk :=
  ⟨d.entries.filterMap fun (loc, e) =>
    if source.isPrefixOf loc then some (target ++ loc.drop source.length, e)
    else if loc = target then none
    else some (loc, e)⟩

/-- A name in a directory, as the last step of a path. -/
structure Slot where
  directory : Location
  name : String
  /-- Whether a separator follows the name, which asks for a directory. -/
  slashed : Bool

def Slot.location (s : Slot) : Location :=
  s.directory ++ [s.name]

/-- The pieces of a path before its last name, that name and whether a separator follows it; the
name is missing if the path ends in a dot, two dots or the root. -/
def splitLast (p : Path) : List String × Option (String × Bool) :=
  match p.pieces.reverse.dropWhile (· == "") with
  | [] => ([], none)
  | last :: before =>
    let slashed := p.text.toList.getLast? == some '/'
    (before.reverse, if Path.isIdle last || last == ".." then none else some (last, slashed))

/-- The slot that a path denotes, if its last step is a name.  What leads there must be a
directory. -/
def slot (d : Disk) (cwd p : Path) : Except SystemError (Option Slot) :=
  match textFault? p with
  | some e => .error e
  | none =>
    let (before, last) := splitLast p
    match d.walk true linkLimit (startOf cwd p) (before ++ ["."]) with
    | .error e => .error e
    | .ok directory => .ok (last.map fun (name, slashed) => ⟨directory, name, slashed⟩)

/-- Moves the entry in one slot to another, over a file or an empty directory of the same kind. -/
def renameSlot (d : Disk) (source target : Slot) : Except SystemError Disk :=
  if nameLimit < source.name.utf8ByteSize then .error .nameTooLong
  else
    match d.lookup source.location with
    | none => .error .notFound
    | some moved =>
      if nameLimit < target.name.utf8ByteSize then .error .nameTooLong
      else if !moved.isDirectory && (source.slashed || target.slashed) then .error .notADirectory
      else if source.location.isPrefixOf target.directory then .error .invalidArgument
      else if target.location.isPrefixOf source.directory then .error .directoryNotEmpty
      else if source.location = target.location then .ok d
      else
        match d.lookup target.location with
        | none => .ok (d.relocate source.location target.location)
        | some .directory =>
          if !moved.isDirectory then .error .isADirectory
          else if (d.names target.location).isEmpty then
            .ok (d.relocate source.location target.location)
          else .error .directoryNotEmpty
        | some _ =>
          if moved.isDirectory then .error .notADirectory
          else .ok (d.relocate source.location target.location)

/-- Moves the entry at one path to another.  Links at the end of either path are not followed, and
a directory that is reached by a dot, two dots or as the root is in use. -/
def rename (d : Disk) (cwd source target : Path) : Except SystemError Disk :=
  match d.slot cwd source, d.slot cwd target with
  | .error e, _ | _, .error e => .error e
  | .ok (some source), .ok (some target) => d.renameSlot source target
  | _, _ => .error .busy

/-- The files of `after` that `before` lacks or has with another content. -/
def filesWritten (before after : Disk) : List (Location × ByteArray) :=
  after.entries.filterMap fun (loc, e) =>
    match e with
    | .file content _ =>
      match before.entries.lookup loc with
      | some (.file old _) =>
        if old.toList == content.toList then none else some (loc, content)
      | _ => some (loc, content)
    | _ => none

/-- The files of `before` that are gone in `after`. -/
def filesRemoved (before after : Disk) : List Location :=
  before.entries.filterMap fun (loc, e) =>
    if e.isFile && (after.lookup loc).isNone then some loc else none

end Disk
end DeclarativeBuild
