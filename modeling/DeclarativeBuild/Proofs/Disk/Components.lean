import DeclarativeBuild.Proofs.Disk.Parents

/-!
# Steps of a path

The steps of an absolute path are the root and the pieces that lead somewhere.  A directory joined
with a name has the directory's steps and that name, and a path with a file name is what its parent
joined with the file name is.
-/

namespace DeclarativeBuild

namespace Disk

theorem location_join (base : Path) {name : String} (h : '/' ∉ name.toList) :
    location (base.join ⟨name⟩) = location base ++ [name].filter (!Path.isIdle ·) := by
  obtain ⟨before, hpieces, hbefore⟩ := Path.exists_pieces_join base h
  rw [location, hpieces, List.filter_append, hbefore]

end Disk

namespace Path

variable {p : Path}

theorem components_eq_location (h : p.isAbsolute = true) :
    p.components = .root :: (Disk.location p).map component := by
  obtain ⟨rest, hrest⟩ := pieces_of_isAbsolute h
  have hidle : isIdle "" = true := by decide
  rw [components, hrest, Disk.location, hrest, List.filter_cons_of_neg (by simp [hidle])]
  simp [h]

theorem components_join {base : Path} (hb : base.isAbsolute = true) {name : String}
    (h : '/' ∉ name.toList) :
    (base.join ⟨name⟩).components =
      base.components ++ ([name].filter (!isIdle ·)).map component := by
  rw [components_eq_location (isAbsolute_join hb _), components_eq_location hb,
    Disk.location_join base h, List.map_append, List.cons_append]

theorem isIdle_iff {name : String} : isIdle name = true ↔ name = "" ∨ name = "." := by
  simp [isIdle]

theorem isPlainName_iff {name : String} : isPlainName name = true ↔
    '/' ∉ name.toList ∧ isIdle name = false ∧ name ≠ ".." := by
  simp [isPlainName, and_assoc]

theorem fileName?_of_pieces {name : String} (h : isPlainName name = true) {before : List String}
    (hpieces : p.pieces = before ++ [name]) : p.fileName? = some name := by
  obtain ⟨-, hidle, hup⟩ := isPlainName_iff.mp h
  have hlast : ∃ earlier, p.fromLastStep = name :: earlier := by
    rw [fromLastStep, hpieces]
    cases before with
    | nil => exact ⟨[], rfl⟩
    | cons first before => exact ⟨before.reverse ++ [first], by simp [hidle]⟩
  obtain ⟨earlier, hlast⟩ := hlast
  rw [fileName?, hlast]
  simp [hidle, hup]

theorem fileName?_of_isPlainName {name : String} (h : isPlainName name = true) :
    fileName? ⟨name⟩ = some name :=
  fileName?_of_pieces h (List.nil_append [name] ▸ Text.splitString_of_notMem (isPlainName_iff.mp h).1)

theorem fileName?_join (base : Path) {name : String} (h : isPlainName name = true) :
    (base.join ⟨name⟩).fileName? = some name := by
  obtain ⟨before, hpieces, -⟩ := exists_pieces_join base (isPlainName_iff.mp h).1
  exact fileName?_of_pieces h hpieces

theorem parentsAbove_append_idle {idle : List String} (h : ∀ piece ∈ idle, isIdle piece = true)
    (absolute : Bool) (first : String) (pieces : List String) :
    parentsAbove absolute first (idle ++ pieces) = parentsAbove absolute first pieces := by
  induction idle with
  | nil => rfl
  | cons piece idle ih =>
      rw [List.cons_append, parentsAbove, if_pos (h piece List.mem_cons_self),
        ih fun q hq => h q (List.mem_cons_of_mem piece hq)]

/-- Only pieces that lead nowhere come after the file name. -/
theorem exists_pieces_of_fileName? (h : p.isAbsolute = true) {name : String}
    (hname : p.fileName? = some name) :
    ∃ before idle, p.pieces = "" :: (before ++ name :: idle) ∧
      (∀ piece ∈ idle, isIdle piece = true) ∧ isIdle name = false := by
  obtain ⟨rest, hrest⟩ := pieces_of_isAbsolute h
  have hidle : isIdle "" = true := by decide
  rw [fileName?, fromLastStep, hrest] at hname
  cases hdrop : rest.reverse.dropWhile isIdle with
  | nil => simp [hdrop, hidle] at hname
  | cons last before =>
      simp only [hdrop, List.cons_append] at hname
      split at hname
      · cases hname
      · next hplain =>
        obtain rfl := Option.some.inj hname
        refine ⟨before.reverse, (rest.reverse.takeWhile isIdle).reverse, ?_, ?_, by simp_all⟩
        · have hall := List.takeWhile_append_dropWhile (p := isIdle) (l := rest.reverse)
          rw [hdrop] at hall
          have hsplit := congrArg List.reverse hall
          rw [List.reverse_reverse, List.reverse_append, List.reverse_cons, List.append_assoc,
            List.singleton_append] at hsplit
          rw [hrest, hsplit]
        · intro piece hm
          exact List.all_eq_true.mp List.all_takeWhile piece (List.mem_reverse.mp hm)

/-- The file name of an absolute path stands in its parent. -/
theorem exists_parent_of_fileName? (h : p.isAbsolute = true) {name : String}
    (hname : p.fileName? = some name) :
    ∃ directory, p.parent? = some directory ∧ directory.isAbsolute = true ∧
      (directory.join ⟨name⟩).components = p.components := by
  obtain ⟨before, idle, hpieces, hskip, hnot⟩ := exists_pieces_of_fileName? h hname
  have hidle : isIdle "" = true := by decide
  have hsep : ∀ piece ∈ before ++ name :: idle, '/' ∉ piece.toList := by
    intro piece hm
    exact notMem_of_mem_pieces (hpieces ▸ List.mem_cons_of_mem _ hm)
  have hbefore : ∀ piece ∈ (before.reverse.dropWhile isIdle).reverse, '/' ∉ piece.toList := by
    intro piece hm
    have hmem := (List.dropWhile_sublist _).subset (List.mem_reverse.mp hm)
    exact hsep piece (List.mem_append_left _ (List.mem_reverse.mp hmem))
  have habsolute := isAbsolute_rebuild (before.reverse.dropWhile isIdle).reverse
  refine ⟨rebuild true "" (before.reverse.dropWhile isIdle).reverse, ?_, habsolute, ?_⟩
  · have hreverse : (before ++ name :: idle).reverse = idle.reverse ++ name :: before.reverse := by
      simp
    have hskipped : ∀ piece ∈ idle.reverse, isIdle piece = true :=
      fun piece hm => hskip piece (List.mem_reverse.mp hm)
    rw [parent?, parents, hpieces, h]
    simp only
    rw [hreverse, parentsAbove_append_idle hskipped, parentsAbove, if_neg (by simp [hnot])]
    rfl
  · have hlast : idle.filter (!isIdle ·) = [] := by
      rw [List.filter_eq_nil_iff]
      intro piece hm
      simp [hskip piece hm]
    have hlocation : Disk.location p = before.filter (!isIdle ·) ++ [name] := by
      rw [Disk.location, hpieces, List.filter_cons_of_neg (by simp [hidle]), List.filter_append,
        List.filter_cons_of_pos (by simp [hnot]), hlast]
    rw [components_join habsolute (hsep name (by simp)), components_eq_location h,
      components_eq_location habsolute, Disk.location_rebuild hbefore, hlocation,
      List.filter_reverse, Disk.filter_dropWhile_isIdle, List.filter_reverse, List.reverse_reverse]
    simp [hnot]

end Path

end DeclarativeBuild
