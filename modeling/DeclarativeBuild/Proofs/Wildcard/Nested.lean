import DeclarativeBuild.Proofs.Disk.Moving
import DeclarativeBuild.Proofs.Wildcard.Declared

/-!
# Trees that are too deep

A `**` goes into every directory.  So it fails where directories stand inside each other until their
path is too long to be followed.
-/

namespace DeclarativeBuild

open Wildcard Wildcard.Pattern Wildcard.Ground

variable {name : String} {count depth : Nat}

/-- Directories of one name, each inside the one before it. -/
def nested (name : String) (count : Nat) : World :=
  .holding [] ((List.range count).map fun depth => List.replicate (depth + 1) name)

theorem mem_entries_nested {entry : Location × Entry} :
    entry ∈ (nested name count).disk.entries ↔
      ∃ depth < count, entry = (List.replicate (depth + 1) name, .directory) := by
  simp [nested, World.holding, eq_comm]

theorem lookup_nested (h : depth ≤ count) :
    (nested name count).disk.lookup (List.replicate depth name) = some .directory := by
  cases depth with
  | zero => rfl
  | succ depth =>
      have hmem : (List.replicate (depth + 1) name, .directory) ∈
          (nested name count).disk.entries := mem_entries_nested.mpr ⟨depth, h, rfl⟩
      have hne : List.replicate (depth + 1) name ≠ [] := by simp
      obtain ⟨e, he⟩ := Option.isSome_iff_exists.mp
        ((Disk.isSome_lookup_iff hne).mpr (List.mem_map_of_mem hmem))
      rw [Disk.lookup_of_ne_nil hne] at he ⊢
      obtain ⟨_, -, heq⟩ := mem_entries_nested.mp (Disk.mem_of_lookup he)
      rw [he, (Prod.mk.inj heq).2]

theorem lawful_nested (hname : Disk.isEntryName name = true) : (nested name count).disk.Lawful where
  distinct := by
    have hlocations : (nested name count).disk.entries.map Prod.fst =
        (List.range count).map fun depth => List.replicate (depth + 1) name := by
      simp [nested, World.holding]
    rw [hlocations]
    refine List.nodup_range.map fun i j h => ?_
    simpa using congrArg List.length h
  names := by
    intro entry hentry other hother
    obtain ⟨depth, -, rfl⟩ := mem_entries_nested.mp hentry
    rwa [List.eq_of_mem_replicate hother]
  tree := by
    intro entry hentry
    obtain ⟨depth, hdepth, rfl⟩ := mem_entries_nested.mp hentry
    simp [lookup_nested (Nat.le_of_lt hdepth), Entry.isDirectory]

theorem le_sizeBelow_replicate (hname : Path.isPlainName name = true) (depth : Nat) :
    depth * name.utf8ByteSize < sizeBelow ⟨"/"⟩ (List.replicate depth name) := by
  have hroot : Path.isAbsolute ⟨"/"⟩ = true := rfl
  have hsep := (Path.isPlainName_iff.mp hname).1
  induction depth with
  | zero =>
      rw [List.replicate_zero, Nat.zero_mul]
      decide
  | succ depth ih =>
      have hstep : sizeBelow ⟨"/"⟩ (List.replicate depth name) + _ ≤ _ := sizeBelow_concat hroot hsep
      rw [List.replicate_succ', Nat.succ_mul]
      omega

theorem enters_nested (hname : Disk.isEntryName name = true) (h : depth ≤ count)
    (hshort : sizeBelow ⟨"/"⟩ (List.replicate depth name) ≤ Disk.pathLimit) :
    (nested name count).disk.Enters (Path.below ⟨"/"⟩ (List.replicate depth name))
      (List.replicate depth name) := by
  obtain ⟨hplain, hnul, hlimit⟩ := Disk.isEntryName_iff.mp hname
  have hsep := (Path.isPlainName_iff.mp hplain).1
  have hroot : Path.isAbsolute ⟨"/"⟩ = true := rfl
  induction depth with
  | zero => exact Disk.enters_root
  | succ depth ih =>
      have habsolute := Path.isAbsolute_below hroot (List.replicate depth name)
      have hlookup : (nested name count).disk.lookup (List.replicate (depth + 1) name) = _ :=
        lookup_nested h
      rw [List.replicate_succ'] at hshort hlookup ⊢
      have hstep : sizeBelow ⟨"/"⟩ (List.replicate depth name) + _ ≤ _ := sizeBelow_concat hroot hsep
      have hmid := ih (Nat.le_of_succ_le h) (by omega)
      rw [sizeBelow, Path.below_concat] at hshort
      have hfault := Path.textFault?_join_eq_none habsolute hsep hmid.1 hnul hshort
      rw [Path.below_concat, Disk.enters_iff_locate (Path.isAbsolute_join habsolute _)
        (nested name count).cwd]
      refine ⟨(Disk.locate_join_of_isPlainName habsolute hmid hplain hlimit hfault).2 ?_, hlookup⟩
      simp [hlookup]

/-- Some directory can be entered and shows one that is out of reach. -/
theorem exists_last_entered (hname : Path.isPlainName name = true)
    (hdeep : Disk.pathLimit ≤ count * name.utf8ByteSize) :
    ∃ depth < count, sizeBelow ⟨"/"⟩ (List.replicate depth name) ≤ Disk.pathLimit ∧
      Disk.pathLimit < sizeBelow ⟨"/"⟩ (List.replicate (depth + 1) name) := by
  have hlong : Disk.pathLimit < sizeBelow ⟨"/"⟩ (List.replicate count name) :=
    Nat.lt_of_le_of_lt hdeep (le_sizeBelow_replicate hname count)
  clear hdeep
  induction count with
  | zero =>
      rw [List.replicate_zero] at hlong
      exact absurd hlong (by decide +kernel)
  | succ count ih =>
      by_cases hshort : sizeBelow ⟨"/"⟩ (List.replicate count name) ≤ Disk.pathLimit
      · exact ⟨count, Nat.lt_succ_self count, hshort, hlong⟩
      · obtain ⟨depth, hdepth, hrest⟩ := ih (Nat.lt_of_not_le hshort)
        exact ⟨depth, Nat.lt_succ_of_lt hdepth, hrest⟩

theorem leaves_replicate {p : Pattern} {rest : List Pattern} (hp : p.isRecursive = true)
    (hrest : afterRecursive rest = rest) (hname : Path.isPlainName name = true) (depth : Nat) :
    Leaves (p :: rest) (List.replicate depth name) (p :: rest) := by
  induction depth with
  | zero => exact .all _
  | succ depth ih =>
      have htakes : Takes (p :: rest) name (p :: afterRecursive rest) := .descend hp hname
      rw [hrest] at htakes
      exact .step htakes ih

/-- In a tree that is deeper than paths can be long, a `**` has to be looked up out of reach. -/
theorem exists_outOfReach_nested {rest : List Pattern} (hrest : afterRecursive rest = rest)
    (hname : Disk.isEntryName name = true) (hdeep : Disk.pathLimit ≤ count * name.utf8ByteSize) :
    ∃ names, (nested name count).ground.OutOfReach ⟨"/"⟩ ([.anyDepth] :: rest) names := by
  have hplain := Disk.isPlainName_of_isEntryName hname
  obtain ⟨depth, hdepth, hshort, hlong⟩ := exists_last_entered hplain hdeep
  have hlookup : (nested name count).disk.lookup (List.replicate (depth + 1) name) = _ :=
    lookup_nested hdepth
  rw [List.replicate_succ'] at hlong hlookup
  have hbefore : Leaves ([.anyDepth] :: rest) (List.replicate depth name) ([.anyDepth] :: rest) :=
    leaves_replicate rfl hrest hplain depth
  have henumerates : Enumerates ([.anyDepth] :: rest) (List.replicate depth name) name :=
    ⟨_, _, _, _, hbefore, rfl, .descend rfl hplain, rfl⟩
  exact ⟨_, _, _, _, rfl, henumerates, enters_nested hname (Nat.le_of_lt hdepth) hshort, hlookup,
    hlong⟩

def everywhere : Element :=
  .mk "wildcard" [("pattern", "**/*.c")] [] none

theorem parse_everywhere : (components "**/*.c").mapM Pattern.parse =
    .ok [[.anyDepth], [.anyText, .char '.', .char 'c']] := by
  have hcomponents : components "**/*.c" = ["**", "*.c"] := by decide +kernel
  have hdeep : Pattern.parse "**" = .ok [.anyDepth] := by cbv
  have hshallow : Pattern.parse "*.c" = .ok [.anyText, .char '.', .char 'c'] := by cbv
  rw [hcomponents, mapM_eq_ok_iff]
  exact .cons hdeep (.cons hshallow .nil)

theorem World.wildcardFiles_nested (hname : Disk.isEntryName name = true)
    (hdeep : Disk.pathLimit ≤ count * name.utf8ByteSize) :
    ∃ names, (nested name count).wildcardFiles .empty ⟨"/"⟩ everywhere =
      .error (.system (.expand "/**/*.c" (Path.below ⟨"/"⟩ names)) .nameTooLong) := by
  have hroot : Path.isAbsolute ⟨"/"⟩ = true := rfl
  have hraw : everywhere.require "pattern" = .ok "**/*.c" := rfl
  have hpattern : Properties.empty.expand "**/*.c" = .ok "**/*.c" := by cbv
  have hlawful : (nested name count).disk.Lawful := lawful_nested hname
  have hopen : ∀ c ∈ "/".toList, c ≠ '?' ∧ c ≠ '*' ∧ c ≠ '[' := by simp
  have htidy : Path.tidy ⟨"/"⟩ = ⟨"/"⟩ := by decide
  have hjoin : (Path.mk "/").join ⟨"**/*.c"⟩ = ⟨"/**/*.c"⟩ := by decide
  have hfiles := World.wildcardFiles_eq (w := nested name count) rfl hraw hpattern hlawful hroot
    hopen rfl parse_everywhere
  have hcomponents := isComponent_of_mapM (fun _ => notMem_slash_of_mem_components) parse_everywhere
  obtain ⟨names, herror⟩ := (outcome_eq_error_iff hroot hlawful hcomponents).mpr
    (exists_outOfReach_nested rfl hname hdeep)
  rw [htidy, hjoin, herror] at hfiles
  exact ⟨names, hfiles⟩

end DeclarativeBuild
