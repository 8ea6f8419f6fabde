import DeclarativeBuild.Proofs.Disk.Following
import DeclarativeBuild.Proofs.Disk.Linkless
import Mathlib.Data.List.Nodup
import Mathlib.Data.String.Basic

/-!
# What a directory lists

A directory lists every name that something stands under, each once and by increasing names.
-/

namespace DeclarativeBuild
namespace Disk

variable {d : Disk} {loc : Location} {name : String}

/-- Whether something in a directory can have a name. -/
def isEntryName (name : String) : Bool :=
  Path.isPlainName name && !name.toList.contains '\x00' && decide (name.utf8ByteSize ≤ nameLimit)

theorem isEntryName_iff : isEntryName name = true ↔
    Path.isPlainName name = true ∧ '\x00' ∉ name.toList ∧ name.utf8ByteSize ≤ nameLimit := by
  simp [isEntryName, and_assoc]

theorem isPlainName_of_isEntryName (h : isEntryName name = true) : Path.isPlainName name = true :=
  (isEntryName_iff.mp h).1

/-- What every file system sees to: one entry for each location, in a directory and under names that
can be names. -/
structure Lawful (d : Disk) : Prop where
  distinct : (d.entries.map Prod.fst).Nodup
  names : ∀ entry ∈ d.entries, ∀ name ∈ entry.1, isEntryName name = true
  tree : ∀ entry ∈ d.entries, (d.lookup entry.1.dropLast).any Entry.isDirectory = true

instance : Decidable d.Lawful :=
  decidable_of_iff ((d.entries.map Prod.fst).Nodup ∧
    (∀ entry ∈ d.entries, ∀ name ∈ entry.1, isEntryName name = true) ∧
    ∀ entry ∈ d.entries, (d.lookup entry.1.dropLast).any Entry.isDirectory = true)
    ⟨fun ⟨hdistinct, hnames, htree⟩ => ⟨hdistinct, hnames, htree⟩,
      fun h => ⟨h.distinct, h.names, h.tree⟩⟩

/-- The name of a location directly inside a directory. -/
def nameIn? (directory loc : Location) : Option String :=
  match loc.getLast? with
  | some name => if loc.dropLast = directory then some name else none
  | none => none

theorem nameIn?_eq_some_iff {directory : Location} :
    nameIn? directory loc = some name ↔ loc = directory ++ [name] := by
  unfold nameIn?
  cases hlast : loc.getLast? with
  | none =>
      obtain rfl := List.getLast?_eq_none_iff.mp hlast
      simp
  | some last =>
      obtain ⟨before, rfl⟩ := List.getLast?_eq_some_iff.mp hlast
      simp only [List.dropLast_concat]
      split
      · next h => simp [h]
      · next h => simpa using fun heq => absurd heq h

theorem names_eq (d : Disk) (loc : Location) :
    d.names loc = sortNames ((d.entries.map Prod.fst).filterMap (nameIn? loc)) := by
  rw [List.filterMap_map]
  rfl

theorem perm_sortNames (names : List String) : (sortNames names).Perm names :=
  List.mergeSort_perm names _

theorem isSome_lookup_iff (h : loc ≠ []) :
    (d.lookup loc).isSome = true ↔ loc ∈ d.entries.map Prod.fst := by
  have hempty : loc.isEmpty = false := by simpa using h
  rw [lookup, hempty, if_neg (by simp), ← Option.ne_none_iff_isSome, ne_eq,
    List.lookup_eq_none_iff]
  constructor
  · intro hsome
    obtain ⟨entry, hentry, heq⟩ : ∃ entry ∈ d.entries, loc = entry.1 := by simpa using hsome
    exact heq ▸ List.mem_map_of_mem hentry
  · intro hmem hnone
    obtain ⟨entry, hentry, heq⟩ := List.mem_map.mp hmem
    exact absurd heq.symm (by simpa using hnone entry hentry)

theorem mem_names_iff : name ∈ d.names loc ↔ (d.lookup (loc ++ [name])).isSome = true := by
  rw [names_eq, (perm_sortNames _).mem_iff, List.mem_filterMap, isSome_lookup_iff (by simp)]
  simp only [nameIn?_eq_some_iff, exists_eq_right]

theorem isEntryName_of_mem_names (h : d.Lawful) (hname : name ∈ d.names loc) :
    isEntryName name = true := by
  obtain ⟨entry, hentry, heq⟩ := List.mem_map.mp
    ((isSome_lookup_iff (by simp)).mp (mem_names_iff.mp hname))
  exact h.names entry hentry name (by simp [heq])

theorem isPlainName_of_mem_names (h : d.Lawful) (hname : name ∈ d.names loc) :
    Path.isPlainName name = true :=
  isPlainName_of_isEntryName (isEntryName_of_mem_names h hname)

theorem pairwise_names (h : d.Lawful) (loc : Location) : (d.names loc).Pairwise (· < ·) := by
  have hle : (d.names loc).Pairwise fun a b => decide (a ≤ b) = true :=
    List.pairwise_mergeSort (by simpa using fun a b c => le_trans) (by simpa using le_total) _
  have hnodup : (d.names loc).Nodup := by
    rw [names_eq, (perm_sortNames _).nodup_iff]
    refine h.distinct.filterMap fun l l' name hl hl' => ?_
    rw [nameIn?_eq_some_iff.mp hl, nameIn?_eq_some_iff.mp hl']
  exact hle.imp₂ (fun a b hab hne => lt_of_le_of_ne (by simpa using hab) hne) hnodup

/-- The names in a directory with what stands under them. -/
def listing (d : Disk) (loc : Location) : List (String × Entry) :=
  (d.names loc).filterMap fun name => (d.lookup (loc ++ [name])).map fun e => (name, e)

theorem mem_listing_iff {e : Entry} :
    (name, e) ∈ d.listing loc ↔ d.lookup (loc ++ [name]) = some e := by
  rw [listing, List.mem_filterMap]
  constructor
  · rintro ⟨other, -, h⟩
    obtain ⟨e', he', heq⟩ := Option.map_eq_some_iff.mp h
    cases heq
    exact he'
  · intro h
    exact ⟨name, mem_names_iff.mpr (by simp [h]), by simp [h]⟩

theorem map_fst_listing (d : Disk) (loc : Location) : (d.listing loc).map Prod.fst = d.names loc := by
  have hall : ∀ name ∈ d.names loc,
      ((d.lookup (loc ++ [name])).map fun e => (name, e)).map Prod.fst = some name := by
    intro name hname
    obtain ⟨e, he⟩ := Option.isSome_iff_exists.mp (mem_names_iff.mp hname)
    simp [he]
  rw [listing, List.map_filterMap, List.filterMap_congr hall, List.filterMap_some]

theorem readDirectory_eq_ok_iff {cwd p : Path} {entries : List (String × Entry)} :
    d.readDirectory cwd p = .ok entries ↔
      ∃ loc, d.locate true cwd p = .ok loc ∧ d.lookup loc = some .directory ∧
        entries = d.listing loc := by
  unfold readDirectory
  cases d.locate true cwd p with
  | error e => simp
  | ok loc =>
      cases hl : d.lookup loc with
      | none => simp [hl]
      | some e => cases e <;> simp [hl, listing, eq_comm]

end Disk
end DeclarativeBuild
