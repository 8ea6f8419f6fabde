import DeclarativeBuild.Shell.Record.Value

/-!
# Tables of values

Values under keys.  The order in which the keys are gone through follows from their hash values, and
among keys of one bucket from how lately they were asked for.
-/

namespace DeclarativeBuild
namespace Shell
namespace Record

/-- A key as it is asked for: a whole number or a text. -/
inductive Key where
  | number (n : Int)
  | text (s : String)
deriving DecidableEq, Repr

def Key.toText : Key → String
  | number n => toString n
  | text s => s

/-- The hash value of a text. -/
def hashOf (s : String) : UInt32 :=
  s.toUTF8.toList.foldl (fun h b => (h ^^^ b.toUInt32) * 16777619) 2166136261

/-- How many buckets keys fall into. -/
def bucketCount : Nat := 64

structure Entry where
  key : String
  value : Value
  /-- Whether the key has been asked for as a number. -/
  isLinked : Bool := false
deriving Inhabited

structure Table where
  /-- Entries that are known by their texts, those asked for last in front. -/
  entries : List Entry := []
  /-- Entries that are known by their numbers alone. -/
  numbered : List (Int × Value) := []
  /-- Whether a text was asked for. -/
  knowsTexts : Bool := false
deriving Inhabited

namespace Table

def size (t : Table) : Nat :=
  t.entries.length + t.numbered.length

/-- Makes all entries known by their texts, bucket by bucket. -/
def withTexts (t : Table) : Table :=
  let bucket (n : Int) := (n % (bucketCount : Int)).toNat
  let moved := (List.range bucketCount).flatMap fun i => t.numbered.filter fun (n, _) => bucket n == i
  { knowsTexts := true, numbered := []
    entries := moved.foldl (fun found (n, v) => ⟨toString n, v, true⟩ :: found) t.entries }

/-- Asks for a key that is known by its text; its entry comes to the front. -/
def findText? (t : Table) (key : String) : Option (Value × Table) :=
  (t.entries.find? (·.key == key)).map fun e =>
    (e.value, { t with entries := e :: t.entries.filter (·.key != key) })

/-- Asks for a key. -/
def find? (t : Table) (key : Key) : Option (Value × Table) :=
  match key with
  | .text s => t.withTexts.findText? s
  | .number n =>
    match t.numbered.lookup n with
    | some v => some (v, { t with numbered := (n, v) :: t.numbered.filter (·.1 != n) })
    | none =>
      match t.entries.find? (·.key == toString n) with
      | none => none
      | some e =>
        if e.isLinked then some (e.value, t)
        else
          let others := t.entries.filter (·.key != e.key)
          some (e.value, { t with entries := { e with isLinked := true } :: others })

/-- Whether a key is there, and the table after it was asked for. -/
def contains (t : Table) (key : Key) : Bool × Table :=
  match t.find? key with
  | some (_, t) => (true, t)
  | none =>
    match key with
    | .text _ => (false, if t.size == 0 then t else t.withTexts)
    | .number _ => (false, t)

/-- The value under a key, which is put there if there is none. -/
def fetch (t : Table) (key : Key) : Value × Table :=
  match t.find? key, key with
  | some found, _ => found
  | none, .number n =>
    if t.knowsTexts then
      (.unset, { t with entries := ⟨toString n, .unset, true⟩ :: t.entries })
    else (.unset, { t with numbered := (n, .unset) :: t.numbered })
  | none, .text s =>
    let t := t.withTexts
    (.unset, { t with entries := ⟨s, .unset, false⟩ :: t.entries })

/-- Puts a value under a key. -/
def insert (t : Table) (key : Key) (v : Value) : Table :=
  let (_, t) := t.fetch key
  let name := key.toText
  { t with
    entries := t.entries.map fun e => if e.key == name then { e with value := v } else e
    numbered := t.numbered.map fun (n, old) => (n, if key == .number n then v else old) }

def erase (t : Table) (key : Key) : Table :=
  let (there, t) := t.contains key
  let name := key.toText
  if there then
    { t with entries := t.entries.filter (·.key != name)
             numbered := t.numbered.filter fun (n, _) => key != .number n }
  else t

/-- All keys in the order in which they are gone through. -/
def keys (t : Table) : List String × Table :=
  let t := t.withTexts
  let bucket (e : Entry) := (hashOf e.key).toNat % bucketCount
  ((List.range bucketCount).flatMap fun i =>
    (t.entries.filter fun e => bucket e == i).map Entry.key, t)

/-- A table of some values under the numbers from one on. -/
def ofList (values : List Value) : Table :=
  { numbered := ((values.zipIdx 1).map fun (v, n) => ((n : Int), v)).reverse }

end Table

end Record
end Shell
end DeclarativeBuild
