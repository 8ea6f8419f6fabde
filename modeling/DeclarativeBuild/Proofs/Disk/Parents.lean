import DeclarativeBuild.Proofs.Disk.Following

/-!
# Directories above a path

The parents of a path are cut from its text.  They stand for the shorter and shorter beginnings of
its steps, where a step upward counts like any other.
-/

namespace DeclarativeBuild

namespace Path

variable {p q : Path}

theorem notMem_of_mem_pieces {piece : String} (h : piece ∈ p.pieces) : '/' ∉ piece.toList := by
  obtain ⟨cs, hcs, rfl⟩ := List.mem_map.mp h
  rw [String.toList_ofList]
  exact Text.notMem_of_mem_pieces hcs

/-- What comes before the first separator of an absolute path is empty. -/
theorem pieces_of_isAbsolute (h : p.isAbsolute = true) : ∃ rest, p.pieces = "" :: rest := by
  obtain ⟨cs, hcs⟩ : ∃ cs, p.text.toList = '/' :: cs := by
    rw [isAbsolute, beq_iff_eq] at h
    exact List.head?_eq_some_iff.mp h
  refine ⟨(Text.pieces '/' cs).map String.ofList, ?_⟩
  rw [pieces, Text.splitString, hcs, Text.pieces, if_pos rfl, List.map_cons]

theorem isAbsolute_rebuild (first : List String) : (rebuild true "" first).isAbsolute = true := by
  unfold rebuild
  split
  · rfl
  · next hne =>
    have hrest : first ≠ [] := by simpa using hne
    have htext : (ofPieces ("" :: first)).text = "/" ++ "/".intercalate first := by
      rw [ofPieces, String.intercalate_cons_of_ne_nil hrest]
      simp
    simp [isAbsolute, htext]

end Path

namespace Disk

theorem filter_dropWhile_isIdle (pieces : List String) :
    (pieces.dropWhile Path.isIdle).filter (!Path.isIdle ·) = pieces.filter (!Path.isIdle ·) := by
  induction pieces with
  | nil => rfl
  | cons piece rest ih =>
      by_cases hp : Path.isIdle piece = true
      · rw [List.dropWhile_cons_of_pos hp, List.filter_cons_of_neg (by simp [hp]), ih]
      · rw [List.dropWhile_cons_of_neg hp]

theorem location_rebuild {rest : List String} (h : ∀ piece ∈ rest, '/' ∉ piece.toList) :
    location (Path.rebuild true "" rest) = rest.filter (!Path.isIdle ·) := by
  unfold Path.rebuild
  split
  · next hnil =>
    rw [List.isEmpty_iff.mp hnil]
    decide +kernel
  · have hpieces : (Path.ofPieces ("" :: rest)).pieces = "" :: rest := by
      apply Text.splitString_joined_of_notMem (List.cons_ne_nil _ _)
      intro piece hm
      rcases List.mem_cons.mp hm with rfl | hm
      · simp
      · exact h piece hm
    have hidle : Path.isIdle "" = true := by decide
    rw [location, hpieces, List.filter_cons_of_neg (by simp [hidle])]

/-- The beginnings of a location from the root down, without the whole of it. -/
def above (loc : Location) : List Location :=
  (List.range loc.length).map loc.take

theorem above_append_singleton (loc : Location) (name : String) :
    above (loc ++ [name]) = above loc ++ [loc] := by
  rw [above, above, List.length_append, List.length_singleton, List.range_succ, List.map_append,
    List.map_singleton, List.take_left' rfl]
  congr 1
  apply List.map_congr_left
  intro n hn
  exact List.take_append_of_le_length (Nat.le_of_lt (List.mem_range.mp hn))

theorem map_location_parentsAbove {pieces : List String}
    (h : ∀ piece ∈ pieces, '/' ∉ piece.toList) :
    (Path.parentsAbove true "" pieces).map location =
      (above (pieces.reverse.filter (!Path.isIdle ·))).reverse := by
  -- The pieces are gone through from the last one, as the parents are found.
  induction pieces with
  | nil => rfl
  | cons piece before ih =>
      have hbefore := ih fun q hq => h q (List.mem_cons_of_mem piece hq)
      rw [Path.parentsAbove, List.reverse_cons, List.filter_append]
      by_cases hp : Path.isIdle piece = true
      · simpa [hp] using hbefore
      · have hsep : ∀ q ∈ (before.dropWhile Path.isIdle).reverse, '/' ∉ q.toList := by
          intro q hq
          have hm := (List.dropWhile_sublist _).subset (List.mem_reverse.mp hq)
          exact h q (List.mem_cons_of_mem piece hm)
        have hlast : [piece].filter (!Path.isIdle ·) = [piece] := by simp [hp]
        rw [if_neg hp, List.map_cons, location_rebuild hsep, List.filter_reverse,
          filter_dropWhile_isIdle, ← List.filter_reverse, hbefore, hlast, above_append_singleton,
          List.reverse_append, List.reverse_singleton, List.singleton_append]

theorem map_location_parents {p : Path} (h : p.isAbsolute = true) :
    p.parents.map location = (above (location p)).reverse := by
  obtain ⟨rest, hrest⟩ := Path.pieces_of_isAbsolute h
  have hsep : ∀ piece ∈ rest.reverse, '/' ∉ piece.toList := by
    intro piece hm
    exact Path.notMem_of_mem_pieces (hrest ▸ List.mem_cons_of_mem _ (List.mem_reverse.mp hm))
  have hidle : Path.isIdle "" = true := by decide
  rw [Path.parents, hrest, h, location, hrest, List.filter_cons_of_neg (by simp [hidle])]
  simpa using map_location_parentsAbove hsep

end Disk

namespace Path

theorem isAbsolute_of_mem_parents {p q : Path} (h : p.isAbsolute = true) (hq : q ∈ p.parents) :
    q.isAbsolute = true := by
  obtain ⟨rest, hrest⟩ := pieces_of_isAbsolute h
  rw [parents, hrest, h] at hq
  simp only at hq
  generalize rest.reverse = pieces at hq
  induction pieces with
  | nil => simp [parentsAbove] at hq
  | cons piece before ih =>
      rw [parentsAbove] at hq
      split at hq
      · exact ih hq
      · rcases List.mem_cons.mp hq with rfl | hq
        · exact isAbsolute_rebuild _
        · exact ih hq

theorem isAbsolute_join {base : Path} (hb : base.isAbsolute = true) (rel : Path) :
    (base.join rel).isAbsolute = true := by
  obtain ⟨cs, hcs⟩ : ∃ cs, base.text.toList = '/' :: cs := by
    rw [isAbsolute, beq_iff_eq] at hb
    exact List.head?_eq_some_iff.mp hb
  have hbase : (base.text == "") = false := by
    rw [beq_eq_false_iff_ne]
    intro hempty
    simp [hempty] at hcs
  by_cases hrel : rel.isAbsolute = true
  · rwa [join_of_isAbsolute hrel]
  · simp only [join, hrel, hbase, Bool.or_self, Bool.false_eq_true, if_false]
    split <;> simp [isAbsolute, hcs]

end Path

end DeclarativeBuild
