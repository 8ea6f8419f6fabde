import DeclarativeBuild.World

/-!
# Streams

What commands read from and write to: texts that are handed on, and files.
-/

namespace DeclarativeBuild
namespace Shell

/-- Something that is open. -/
inductive Stream where
  /-- A text that is still to be read. -/
  | source (rest : String)
  /-- A text that has been written so far. -/
  | sink (written : String)
  /-- A file that is written to from an offset on, or at its end. -/
  | file (location : Location) (offset : Nat) (appends : Bool)
  | nowhere

def Stream.text : Stream → String
  | .source text | .sink text => text
  | _ => ""

/-- Some bytes with others put over them from an offset on. -/
def overwritten (old : ByteArray) (offset : Nat) (new : ByteArray) : ByteArray :=
  let gap : ByteArray := ⟨Array.replicate (offset - old.size) 0⟩
  old.extract 0 offset ++ gap ++ new ++ old.extract (offset + new.size) old.size

/-- The streams of some processes, and the descriptors that one of them knows streams by. -/
structure Streams where
  all : Array Stream := #[.source "", .sink "", .sink ""]
  descriptors : List (Nat × Nat) := [(0, 0), (1, 1), (2, 2)]

namespace Streams

/-- The position of the stream behind a descriptor. -/
def position? (t : Streams) (descriptor : Nat) : Option Nat :=
  t.descriptors.lookup descriptor

def stream? (t : Streams) (descriptor : Nat) : Option Stream :=
  (t.position? descriptor).bind (t.all[·]?)

def close (t : Streams) (descriptor : Nat) : Streams :=
  { t with descriptors := t.descriptors.filter (·.1 != descriptor) }

def connect (t : Streams) (descriptor position : Nat) : Streams :=
  { t with descriptors := (descriptor, position) :: (t.close descriptor).descriptors }

/-- Opens a stream behind a descriptor. -/
def attach (t : Streams) (descriptor : Nat) (stream : Stream) : Streams :=
  { t with all := t.all.push stream }.connect descriptor t.all.size

/-- Puts the stream behind a descriptor that was there before. -/
def reattach (t before : Streams) (descriptor : Nat) : Streams :=
  match before.position? descriptor with
  | some position => t.connect descriptor position
  | none => t.close descriptor

/-- What can still be read from a descriptor. -/
def unread (t : Streams) (descriptor : Nat) : String :=
  match t.stream? descriptor with
  | some (.source rest) => rest
  | _ => ""

/-- Leaves some text to be read from a descriptor. -/
def leave (t : Streams) (descriptor : Nat) (rest : String) : Streams :=
  match t.position? descriptor with
  | some position =>
    { t with all := t.all.modify position fun
      | .source _ => .source rest
      | other => other }
  | none => t

/-- Adds to the text that has been written to a stream. -/
def append (t : Streams) (position : Nat) (text : String) : Streams :=
  { t with all := t.all.modify position fun
    | .sink written => .sink (written ++ text)
    | other => other }

/-- What has been written to or is left in a stream. -/
def textAt (t : Streams) (position : Nat) : String :=
  (t.all[position]?.map Stream.text).getD ""

end Streams

end Shell
end DeclarativeBuild
