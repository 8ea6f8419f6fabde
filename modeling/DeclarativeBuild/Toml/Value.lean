/-!
# Values of a settings file

The values a settings file can hold, and how its lines add up to one table.  A table may be written
in several places, but each part of it only once.
-/

namespace DeclarativeBuild
namespace Toml

/-- How a table came about: by a header, as one of a list by a header of two brackets, on the way to
either, by a dotted key, or between braces. -/
inductive Origin where
  | header
  | listed
  | implied
  | dotted
  | inline
deriving DecidableEq, Repr

inductive Value where
  | string (text : String)
  | integer (n : Int)
  | boolean (b : Bool)
  | float (written : String)
  | moment (written : String)
  | array (items : List Value)
  | table (origin : Origin) (entries : List (String × Value))
  | tables (items : List Value)
deriving Inhabited, Repr

abbrev Entries := List (String × Value)

namespace Entries

def replace (entries : Entries) (key : String) (v : Value) : Entries :=
  entries.map fun (k, old) => if k = key then (k, v) else (k, old)

/-- Adds an entry unless the key is taken. -/
def add (entries : Entries) (key : String) (v : Value) : Option Entries :=
  if (entries.lookup key).isSome then none else some (entries ++ [(key, v)])

/-- Changes the table under a key, or the last of its tables; a missing one starts as `fresh`. -/
def under (entries : Entries) (key : String) (fresh : Origin) (mayEnter : Origin → Bool)
    (change : Entries → Option Entries) : Option Entries :=
  match entries.lookup key with
  | none => (change []).map fun inner => entries ++ [(key, .table fresh inner)]
  | some (.table origin inner) =>
    if mayEnter origin then
      (change inner).map fun inner => entries.replace key (.table origin inner)
    else none
  | some (.tables items) =>
    match items.getLast? with
    | some (.table origin inner) =>
      if mayEnter origin then
        (change inner).map fun inner =>
          entries.replace key (.tables (items.dropLast ++ [.table origin inner]))
      else none
    | _ => none
  | some _ => none

/-- Adds the value of a dotted key.  It extends only tables that dotted keys have made; it may pass
through others, except those that a header of their own has defined. -/
def addDotted (entries : Entries) (key : String) (v : Value) : List String → Option Entries
  | [] => entries.add key v
  | [last] => entries.under last .dotted (· == .dotted) fun inner => inner.add key v
  | k :: path =>
    entries.under k .dotted (fun o => o != .header && o != .inline) fun inner =>
      addDotted inner key v path

/-- Changes the table that a header's path leads to. -/
def along (change : Entries → Option Entries) (entries : Entries) : List String → Option Entries
  | [] => change entries
  | k :: path => entries.under k .implied (· != .inline) fun inner => along change inner path

/-- Opens the table of a header, which only a longer header may have mentioned before. -/
def openTable (key : String) (entries : Entries) : Option Entries :=
  match entries.lookup key with
  | none => some (entries ++ [(key, .table .header [])])
  | some (.table .implied inner) => some (entries.replace key (.table .header inner))
  | some _ => none

/-- Opens one more table of a list of tables. -/
def openNext (key : String) (entries : Entries) : Option Entries :=
  match entries.lookup key with
  | none => some (entries ++ [(key, .tables [.table .listed []])])
  | some (.tables items) => some (entries.replace key (.tables (items ++ [.table .listed []])))
  | some _ => none

end Entries

end Toml
end DeclarativeBuild
