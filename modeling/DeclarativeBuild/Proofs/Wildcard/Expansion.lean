import DeclarativeBuild.Proofs.Results
import DeclarativeBuild.Proofs.Wildcard.Reading
import DeclarativeBuild.Proofs.Wildcard.Sight

/-!
# Patterns joined to a directory

A pattern is looked up joined to the directory that it is written in.  If the path of the directory
has no wildcards, the lookup goes there name by name and then searches what is seen from there.
-/

namespace DeclarativeBuild

namespace Wildcard.Ground

/-- Pieces without an empty one at the end. -/
def trimmed (pieces : List String) : List String :=
  if pieces.getLast? == some "" then pieces.dropLast else pieces

/-- Whether only directories are matches. -/
def asksForDirectories (pattern : String) : Bool :=
  pattern == "" || pattern.toList.getLast? == some '/'

theorem trimmed_append (before : List String) (text : String) :
    trimmed (before ++ Text.splitString '/' text) = before ++ components text := by
  have hne := Text.splitString_ne_nil '/' text
  rw [trimmed, components, List.getLast?_append_of_ne_nil _ hne, List.dropLast_append_of_ne_nil hne]
  split <;> rfl

end Wildcard.Ground

namespace Path

open Wildcard.Ground

variable {base : Path} {pattern : String} {names : List String}

/-- The names on the way from the root, with those that lead nowhere. -/
def steps (p : Path) : List String :=
  trimmed p.pieces.tail

/-- The path that is reached by the names on the way to it. -/
def tidy (p : Path) : Path :=
  below ⟨"/"⟩ p.steps

theorem pieces_eq_cons (h : base.isAbsolute = true) :
    base.pieces = "" :: Text.splitString '/' (String.ofList (base.text.toList.drop 1)) := by
  obtain ⟨rest, hrest⟩ := List.head?_eq_some_iff.mp (eq_of_beq h)
  have htext : base.text = "" ++ String.singleton '/' ++ String.ofList rest := by
    apply String.toList_inj.mp
    simpa using hrest
  rw [pieces, hrest, htext, Text.splitString_append]
  rfl

theorem components_drop (h : base.isAbsolute = true) :
    Wildcard.Ground.components (String.ofList (base.text.toList.drop 1)) = base.steps := by
  rw [steps, pieces_eq_cons h, List.tail_cons, trimmed, Wildcard.Ground.components]

theorem steps_join (h : base.isAbsolute = true) (hrel : isAbsolute ⟨pattern⟩ = false) :
    (base.join ⟨pattern⟩).steps = base.steps ++ Wildcard.Ground.components pattern := by
  obtain ⟨before, hjoin, hbase⟩ := exists_pieces_join_of_relative h hrel
  have hne := Text.splitString_ne_nil '/' (String.ofList (base.text.toList.drop 1))
  rw [pieces_eq_cons h] at hbase
  rw [steps, hjoin, steps, pieces_eq_cons h, List.tail_cons]
  rcases hbase with ⟨rfl, hlast⟩ | hbase
  · rw [List.getLast?_cons_of_ne_nil hne] at hlast
    rw [List.cons_append, List.tail_cons, trimmed_append, trimmed, beq_false_of_ne hlast,
      if_neg Bool.false_ne_true]
  · cases before with
    | nil => exact absurd (List.cons_eq_cons.mp hbase).2 hne
    | cons first before =>
        rw [(List.cons_eq_cons.mp hbase).2, List.cons_append, List.tail_cons, trimmed_append, trimmed]
        simp

end Path

namespace Wildcard.Ground

theorem asksForDirectories_join {base : Path} {pattern : String} (h : base.isAbsolute = true)
    (hrel : Path.isAbsolute ⟨pattern⟩ = false) :
    ((base.join ⟨pattern⟩).text.toList.getLast? == some '/') = asksForDirectories pattern := by
  rw [Path.text_join h hrel, asksForDirectories]
  by_cases hempty : pattern = ""
  · subst hempty
    split <;> simp_all
  · have hne : pattern.toList ≠ [] := by simpa using hempty
    rw [String.toList_append, List.getLast?_append_of_ne_nil _ hne, beq_false_of_ne hempty,
      Bool.false_or]

theorem components_eq_nil_iff {text : String} : components text = [] ↔ text = "" := by
  rw [components]
  refine ⟨fun h => ?_, fun h => by rw [h]; rfl⟩
  split at h
  · next hlast =>
    obtain ⟨before, hsplit⟩ := List.getLast?_eq_some_iff.mp (eq_of_beq hlast)
    rw [hsplit, List.dropLast_concat] at h
    have hlength := Text.length_splitString '/' text
    rw [hsplit, h, List.nil_append, List.length_singleton] at hlength
    have hsep : '/' ∉ text.toList := List.count_eq_zero.mp (by omega)
    rw [Text.splitString_of_notMem hsep, h, List.nil_append] at hsplit
    exact (List.cons_eq_cons.mp hsplit).1
  · exact absurd h (Text.splitString_ne_nil '/' text)

theorem steps_ne_nil {p : Path} (h : p.isAbsolute = true) (hroot : p.text ≠ "/") :
    p.steps ≠ [] := by
  rw [← Path.components_drop h, ne_eq, components_eq_nil_iff]
  intro hdrop
  obtain ⟨rest, hrest⟩ := List.head?_eq_some_iff.mp (eq_of_beq h)
  rw [hrest, List.drop_one, List.tail_cons] at hdrop
  obtain rfl : rest = [] := by simpa using congrArg String.toList hdrop
  exact hroot (String.toList_inj.mp hrest)

variable {g : Ground}

theorem holds_root : g.holds ⟨"/"⟩ = true :=
  Disk.isOk_entryAt_of_isDirectory rfl ((Disk.isDirectory_iff rfl).mpr ⟨[], Disk.enters_root⟩)

theorem explore_root : g.explore Disk.pathLimit [[]] (g.place ⟨"/"⟩) = [.ok (g.place ⟨"/"⟩)] := by
  have hsame : Path.below ⟨"/"⟩ [""] = ⟨"/"⟩ := by decide
  have hroot : g.explore Disk.pathLimit [[]] ⟨Path.below ⟨"/"⟩ [], _⟩ = _ :=
    explore_of_literal (rfl : Pattern.literal? [] = some []) rfl (g.disk.isDirectory g.cwd ⟨"/"⟩)
  have hfinds : (g.view ⟨"/"⟩).finds [] (g.disk.isDirectory g.cwd ⟨"/"⟩) "" = true := by
    change g.holds (Path.below ⟨"/"⟩ [""]) = true
    rw [hsame]
    exact holds_root
  rw [List.nil_append, String.ofList_nil, if_pos hfinds, hsame] at hroot
  exact hroot

/-- A lookup starts at the root, and only directories are left if only they are asked for. -/
theorem expand_eq {p : Path} {patterns : List Pattern} (h : p.isAbsolute = true)
    (hvalid : ∃ whole, Pattern.parse p.text = .ok whole)
    (hsteps : p.steps.mapM Pattern.parse = .ok patterns) :
    g.expand p.text = .ok ((g.onward Disk.pathLimit patterns (g.place ⟨"/"⟩)).filter
      (counts (p.text.toList.getLast? == some '/'))) := by
  obtain ⟨whole, hwhole⟩ := hvalid
  have hread := hsteps
  rw [← Path.components_drop h] at hread
  have hempty : (p.text == "") = false := beq_false_of_ne (Path.text_ne_empty h)
  have habsolute : Path.isAbsolute ⟨p.text⟩ = true := h
  have hplaces : g.explore Disk.pathLimit (if p.text == "/" then [[]] else patterns)
      (g.place ⟨"/"⟩) = g.onward Disk.pathLimit patterns (g.place ⟨"/"⟩) := by
    by_cases hroot : p.text = "/"
    · obtain rfl : p = ⟨"/"⟩ := by rw [← hroot]
      obtain rfl : patterns = [] := by
        have hnone : Path.steps ⟨"/"⟩ = [] := by decide
        rw [hnone] at hsteps
        exact (Except.ok.inj hsteps).symm
      exact explore_root
    · rw [beq_false_of_ne hroot, if_neg Bool.false_ne_true, onward]
      cases patterns with
      | nil =>
          rw [mapM_eq_ok_iff, List.forall₂_nil_right_iff] at hsteps
          exact absurd hsteps (steps_ne_nil h hroot)
      | cons q rest => rfl
  simp only [expand, hwhole, bind, Except.bind, habsolute, if_true, hread, hempty, Bool.false_or,
    hplaces, pure, Except.pure]

end Wildcard.Ground

namespace Wildcard

variable {g : Ground} {v : View} {size : List String → Nat} {base : Path} {here names : List String}
variable {name : String} {patterns : List Pattern}

theorem View.Sees.finds_eq_false (hv : v.Sees size) (hname : '/' ∉ name.toList)
    (h : v.isDirectory here = false) : v.finds here false name = false := by
  rw [finds]
  split
  · rfl
  · exact Bool.eq_false_iff.mpr fun hholds => by simp [hv.isDirectory_of_holds hname hholds] at h

theorem View.Sees.finds_of_holds (hv : v.Sees size) (hname : '/' ∉ name.toList)
    (h : v.holds (here ++ [name]) = true) : v.finds here (v.isDirectory here) name = true := by
  rw [finds]
  split
  · exact hv.isDirectory_of_holds hname h
  · exact h

/-- What a name alone reads as. -/
def Pattern.ofName (name : String) : Pattern :=
  name.toList.map .char

namespace Ground

/-- Names without wildcards lead on, or they lead to no directory. -/
theorem onward_names (hbase : base.isAbsolute = true) (hlawful : g.disk.Lawful)
    (hnames : ∀ name ∈ names, '/' ∉ name.toList) (here : List String) :
    g.onward Disk.pathLimit (names.map .ofName ++ patterns) (g.place (base.below here)) =
        g.onward Disk.pathLimit patterns (g.place (base.below (here ++ names))) ∨
      g.onward Disk.pathLimit (names.map .ofName ++ patterns) (g.place (base.below here)) = [] ∧
        g.disk.isDirectory g.cwd (base.below (here ++ names)) = false := by
  have hv := sees_view hbase hlawful
  induction names generalizing here with
  | nil => exact .inl (by rw [List.append_nil]; rfl)
  | cons name names ih =>
      have htext : (Pattern.ofName name).literal? = some name.toList :=
        Pattern.literal?_eq_some_iff.mpr rfl
      have hstep : g.onward Disk.pathLimit ((name :: names).map .ofName ++ patterns)
          (g.place (base.below here)) = _ :=
        explore_of_literal htext hbase ((g.view base).isDirectory here)
      rw [String.ofList_toList] at hstep
      rw [hstep, List.append_cons here name names]
      cases hfinds : (g.view base).finds here ((g.view base).isDirectory here) name with
      | true => exact ih (fun other hother => hnames other (List.mem_cons_of_mem name hother)) _
      | false =>
          refine .inr ⟨rfl, Bool.eq_false_iff.mpr fun h => ?_⟩
          have hdirectory : (g.view base).isDirectory (here ++ [name] ++ names) = true := h
          have hholds : (g.view base).holds (here ++ [name]) = true := by
            by_cases hnil : names = []
            · exact hv.holds_of_isDirectory (by simpa [hnil] using hdirectory)
            · exact hv.holds_of_isDirectory (hv.isDirectory_of_holds_append hnil
                (fun other hother => hnames other (List.mem_cons_of_mem name hother))
                (hv.holds_of_isDirectory hdirectory))
          rw [hv.finds_of_holds (hnames name List.mem_cons_self) hholds] at hfinds
          cases hfinds

end Ground

/-- Whether what is found counts where only directories may be asked for. -/
def Found.counts (onlyDirectories : Bool) (f : Found) : Bool :=
  f.2.all fun isDirectory => !onlyDirectories || isDirectory

/-- What is found for a pattern inside a directory. -/
def View.found (v : View) (onlyDirectories : Bool) (patterns : List Pattern) : List Found :=
  (v.search Disk.pathLimit patterns [] (v.isDirectory [])).filter (Found.counts onlyDirectories)

/-- Nothing is found where there is no directory. -/
theorem View.found_eq_nil (hv : v.Sees size) (hpatterns : ∀ p ∈ patterns, p.IsComponent)
    (h : v.isDirectory [] = false) {onlyDirectories : Bool}
    (hnone : patterns = [] → onlyDirectories = true) : v.found onlyDirectories patterns = [] := by
  rw [found, h]
  cases patterns with
  | nil =>
      rw [search_nil, hnone rfl]
      rfl
  | cons p rest =>
      cases htext : p.literal? with
      | none =>
          rw [search_of_file htext]
          rfl
      | some name =>
          have hsep := (hpatterns p List.mem_cons_self).literal name htext
          rw [search_of_literal htext, hv.finds_eq_false (by simpa using hsep) h]
          rfl

namespace Ground

variable {pattern : String}

theorem isComponent_of_mapM {texts : List String} (hsep : ∀ text ∈ texts, '/' ∉ text.toList)
    (h : texts.mapM Pattern.parse = .ok patterns) : ∀ p ∈ patterns, p.IsComponent := by
  rw [mapM_eq_ok_iff] at h
  induction h with
  | nil => simp
  | cons hread _ ih =>
      refine List.forall_mem_cons.mpr
        ⟨?_, ih fun text htext => hsep text (List.mem_cons_of_mem _ htext)⟩
      exact (Pattern.parse_eq_ok_iff.mp hread).isComponent (hsep _ List.mem_cons_self)

theorem trimmed_subset (pieces : List String) : trimmed pieces ⊆ pieces := by
  unfold trimmed
  split
  · exact List.dropLast_subset pieces
  · exact List.Subset.refl pieces

theorem eq_empty_or_mem_trimmed {pieces : List String} {piece : String} (h : piece ∈ pieces) :
    piece = "" ∨ piece ∈ trimmed pieces := by
  unfold trimmed
  split
  · next hlast =>
    obtain ⟨before, rfl⟩ := List.getLast?_eq_some_iff.mp (eq_of_beq hlast)
    rw [List.dropLast_concat, or_comm]
    simpa using h
  · exact .inr h

theorem mem_pieces_of_mem_steps {p : Path} (h : name ∈ p.steps) : name ∈ p.pieces :=
  List.mem_of_mem_tail (trimmed_subset _ h)

theorem notMem_slash_of_mem_steps {p : Path} (h : name ∈ p.steps) : '/' ∉ name.toList :=
  Path.notMem_of_mem_pieces (mem_pieces_of_mem_steps h)

theorem notMem_slash_of_mem_components {text : String} (h : name ∈ components text) :
    '/' ∉ name.toList :=
  Path.notMem_of_mem_pieces (p := ⟨text⟩) (trimmed_subset _ h)

/-- The steps of a path without wildcards read as themselves. -/
theorem mapM_parse_steps {p : Path} (hplain : ∀ c ∈ p.text.toList, c ≠ '?' ∧ c ≠ '*' ∧ c ≠ '[') :
    p.steps.mapM Pattern.parse = .ok (p.steps.map .ofName) := by
  rw [mapM_eq_ok_iff, List.forall₂_map_right_iff, List.forall₂_same]
  intro name hname
  obtain ⟨piece, hpiece, rfl⟩ := List.mem_map.mp (mem_pieces_of_mem_steps hname)
  refine Pattern.parse_eq_ok_iff.mpr (Pattern.reads_map_char fun c hc => ?_)
  rw [String.toList_ofList] at hc
  exact hplain c (Text.mem_of_mem_pieces hpiece hc)

theorem onward_steps (hlawful : g.disk.Lawful) (p : Path) (patterns : List Pattern) :
    g.onward Disk.pathLimit (p.steps.map .ofName ++ patterns) (g.place ⟨"/"⟩) =
        g.onward Disk.pathLimit patterns (g.place p.tidy) ∨
      g.onward Disk.pathLimit (p.steps.map .ofName ++ patterns) (g.place ⟨"/"⟩) = [] ∧
        g.disk.isDirectory g.cwd p.tidy = false := by
  have hroot : Path.isAbsolute ⟨"/"⟩ = true := rfl
  have hsep : ∀ name ∈ p.steps, '/' ∉ name.toList := fun _ => notMem_slash_of_mem_steps
  exact onward_names hroot hlawful hsep []

/-- An absolute text is a pattern if its steps are. -/
theorem exists_parse_of_steps {p : Path} (h : p.isAbsolute = true)
    (hsteps : p.steps.mapM Pattern.parse = .ok patterns) :
    ∃ whole, Pattern.parse p.text = .ok whole := by
  refine Pattern.exists_parse_of_pieces fun piece hpiece => ?_
  have hempty : Pattern.parse "" = .ok [] := Pattern.parse_eq_ok_iff.mpr (.done true)
  change piece ∈ p.pieces at hpiece
  rw [Path.pieces_eq_cons h, List.mem_cons] at hpiece
  rw [Path.steps, Path.pieces_eq_cons h, List.tail_cons] at hsteps
  rcases hpiece with rfl | hpiece
  · exact ⟨[], hempty⟩
  · rcases eq_empty_or_mem_trimmed hpiece with rfl | hmem
    · exact ⟨[], hempty⟩
    · exact exists_of_mapM_eq_ok hsteps hmem

/-- The empty pattern stands for the directory itself. -/
theorem asksForDirectories_of_nil (h : (components pattern).mapM Pattern.parse = .ok []) :
    asksForDirectories pattern = true := by
  rw [mapM_eq_ok_iff, List.forall₂_nil_right_iff, components_eq_nil_iff] at h
  rw [h]
  rfl

theorem isDirectory_nil (g : Ground) (base : Path) :
    (g.view base).isDirectory [] = g.disk.isDirectory g.cwd base :=
  rfl

theorem counts_sightingOf (onlyDirectories : Bool) (f : Found) :
    counts onlyDirectories (sightingOf base here f) = f.counts onlyDirectories := by
  obtain ⟨names, _ | isDirectory⟩ := f <;> rfl

/-- What is sighted from a directory on. -/
theorem filter_onward (hbase : base.isAbsolute = true) (hlawful : g.disk.Lawful)
    (onlyDirectories : Bool) :
    (g.onward Disk.pathLimit patterns (g.place base)).filter (counts onlyDirectories) =
      ((g.view base).found onlyDirectories patterns).map (sightingOf base []) := by
  have honward : g.onward Disk.pathLimit patterns (g.place base) = _ :=
    onward_eq hbase hlawful Disk.pathLimit patterns [] ((g.view base).isDirectory [])
      (shows_place g base)
  rw [honward, List.filter_map, View.found]
  congr 1
  exact List.filter_congr fun f _ => counts_sightingOf onlyDirectories f

theorem expand_eq_found {p : Path} (hlawful : g.disk.Lawful) (h : p.isAbsolute = true)
    (hsteps : p.steps.mapM Pattern.parse = .ok patterns) :
    g.expand p.text = .ok (((g.view ⟨"/"⟩).found (p.text.toList.getLast? == some '/') patterns).map
      (sightingOf ⟨"/"⟩ [])) := by
  rw [expand_eq h (exists_parse_of_steps h hsteps) hsteps, filter_onward rfl hlawful]

/-- What is found for a pattern that is joined to the path of a directory. -/
theorem expand_join (hlawful : g.disk.Lawful) (hbase : base.isAbsolute = true)
    (hplain : ∀ c ∈ base.text.toList, c ≠ '?' ∧ c ≠ '*' ∧ c ≠ '[')
    (hrel : Path.isAbsolute ⟨pattern⟩ = false)
    (hpatterns : (components pattern).mapM Pattern.parse = .ok patterns) :
    g.expand (base.join ⟨pattern⟩).text = .ok
      (((g.view base.tidy).found (asksForDirectories pattern) patterns).map
        (sightingOf base.tidy [])) := by
  have habsolute := Path.isAbsolute_join hbase ⟨pattern⟩
  have htidy : base.tidy.isAbsolute = true := Path.isAbsolute_below rfl _
  have hsteps : (base.join ⟨pattern⟩).steps.mapM Pattern.parse =
      .ok (base.steps.map .ofName ++ patterns) := by
    rw [Path.steps_join hbase hrel, mapM_eq_ok_iff]
    exact List.rel_append (mapM_eq_ok_iff.mp (mapM_parse_steps hplain))
      (mapM_eq_ok_iff.mp hpatterns)
  rw [expand_eq habsolute (exists_parse_of_steps habsolute hsteps) hsteps,
    asksForDirectories_join hbase hrel]
  rcases onward_steps hlawful base patterns with hfound | ⟨hnone, hdirectory⟩
  · rw [hfound, filter_onward htidy hlawful]
  · have hcomponents := isComponent_of_mapM (fun _ => notMem_slash_of_mem_components) hpatterns
    rw [← isDirectory_nil] at hdirectory
    rw [hnone, View.found_eq_nil (sees_view htidy hlawful) hcomponents hdirectory fun hnil =>
      asksForDirectories_of_nil (hnil ▸ hpatterns), List.filter_nil, List.map_nil]

end Ground
end Wildcard
end DeclarativeBuild
