import DeclarativeBuild.Fileset
import DeclarativeBuild.Proofs.Wildcard.Moved

/-!
# Wildcards of a directory

What a wildcard contributes that is declared in a directory: the paths below the directory that match
it, whatever the directory is called as long as its path has no wildcards of its own.  If the search
has to read a directory whose path is too long, it fails.
-/

namespace DeclarativeBuild

namespace Path

open Wildcard.Ground

variable {base : Path} {names : List String}

theorem components_below (h : base.isAbsolute = true) (hnames : ∀ name ∈ names, '/' ∉ name.toList) :
    (base.below names).components =
      base.components ++ (names.filter (!isIdle ·)).map component := by
  induction names generalizing base with
  | nil => exact (List.append_nil _).symm
  | cons name names ih =>
      obtain ⟨hname, hrest⟩ := List.forall_mem_cons.mp hnames
      have hstep : base.below (name :: names) = (base.join ⟨name⟩).below names := rfl
      rw [hstep, ih (isAbsolute_join h ⟨name⟩) hrest, components_join h hname, List.append_assoc,
        ← List.map_append, ← List.filter_append, List.singleton_append]

/-- Names without two dots lead to what is below. -/
theorem exists_steps_below (h : base.isAbsolute = true)
    (hnames : ∀ name ∈ names, '/' ∉ name.toList) (hup : ".." ∉ names) :
    ∃ steps, (base.below names).components = base.components ++ steps ∧ .up ∉ steps := by
  refine ⟨_, components_below h hnames, fun hmem => ?_⟩
  obtain ⟨name, hname, heq⟩ := List.mem_map.mp hmem
  have hdots : name = ".." := by
    rw [component] at heq
    split at heq
    · next hdots => exact eq_of_beq hdots
    · split at heq <;> cases heq
  exact hup (hdots ▸ (List.mem_filter.mp hname).1)

/-- Nothing but what leads nowhere is left out of the steps. -/
theorem filter_steps (h : base.isAbsolute = true) :
    base.steps.filter (!isIdle ·) = Disk.location base := by
  have hidle : isIdle "" = true := by decide
  rw [Disk.location, pieces_eq_cons h, List.filter_cons_of_neg (by simp [hidle]), steps,
    pieces_eq_cons h, List.tail_cons, trimmed]
  split
  · next hlast =>
    obtain ⟨before, hbefore⟩ := List.getLast?_eq_some_iff.mp (eq_of_beq hlast)
    rw [hbefore, List.dropLast_concat, List.filter_append, List.filter_singleton]
    simp [hidle]
  · rfl

theorem components_tidy (h : base.isAbsolute = true) : base.tidy.components = base.components := by
  have hroot : Path.components ⟨"/"⟩ = [.root] := by decide
  rw [tidy, components_below rfl fun _ => notMem_slash_of_mem_steps, filter_steps h,
    components_eq_location h, hroot, List.singleton_append]

end Path

namespace Wildcard

open Pattern Ground

variable {patterns left : List Pattern} {names : List String}

variable {g : Ground} {base : Path}

/-- Inside a directory everything is found that matches and stands there, be it by a link. -/
theorem mem_found_iff (hbase : base.isAbsolute = true) (hlawful : g.disk.Lawful)
    (hpatterns : ∀ p ∈ patterns, p.IsComponent) {onlyDirectories : Bool}
    (hempty : patterns = [] → onlyDirectories = true) (hnames : ∀ name ∈ names, '/' ∉ name.toList)
    (hshort : sizeBelow base names ≤ Disk.pathLimit) :
    (∃ d, (names, some d) ∈ (g.view base).found onlyDirectories patterns) ↔
      Matches patterns names ∧ g.holds (base.below names) = true ∧
        (onlyDirectories = true ∨ endsRecursive patterns = true →
          g.disk.isDirectory g.cwd (base.below names) = true) := by
  have hv := sees_view hbase hlawful
  have hmem : ∀ d, (names, some d) ∈ (g.view base).search Disk.pathLimit patterns []
      ((g.view base).isDirectory []) ↔ _ := fun d =>
    View.mem_search_iff hv hpatterns hnames hshort (Nat.lt_add_of_pos_right (hv.size_pos []))
  simp only [View.found, List.mem_filter, hmem, List.nil_append]
  constructor
  · rintro ⟨d, ⟨hmatches, hholds, hends, rfl⟩, hasked⟩
    have hdirectory : onlyDirectories = true → (g.view base).isDirectory names = true :=
      fun h => by simpa [Found.counts, h] using hasked
    refine ⟨hmatches, ?_, fun h => h.elim hdirectory hends⟩
    by_cases hnil : names = []
    · subst hnil
      exact hv.holds_of_isDirectory (hdirectory (hempty (matches_nil_iff.mp hmatches)))
    · exact hholds hnil
  · rintro ⟨hmatches, hholds, hdirectory⟩
    refine ⟨_, ⟨hmatches, fun _ => hholds, fun h => hdirectory (.inr h), rfl⟩, ?_⟩
    cases honly : onlyDirectories with
    | false => rfl
    | true => exact hdirectory (.inl honly)

theorem matches_of_mem_found (hbase : base.isAbsolute = true) (hlawful : g.disk.Lawful)
    (hpatterns : ∀ p ∈ patterns, p.IsComponent) {onlyDirectories d : Bool}
    (h : (names, some d) ∈ (g.view base).found onlyDirectories patterns) :
    Matches patterns names :=
  View.matches_of_mem_search (sees_view hbase hlawful) hpatterns (List.mem_filter.mp h).1

/-- If nothing is out of reach, the outcome is what was found. -/
theorem View.mem_outcome_iff {v : View} {onlyDirectories : Bool} {found : List (List String)}
    (h : v.outcome onlyDirectories patterns = .ok found) :
    names ∈ found ↔ ∃ d, (names, some d) ∈ v.found onlyDirectories patterns := by
  obtain ⟨hnone, rfl⟩ := outcome_eq_ok_iff.mp h
  constructor
  · intro hmem
    obtain ⟨⟨names, _ | d⟩, hf, rfl⟩ := List.mem_map.mp hmem
    · exact absurd hf (hnone names)
    · exact ⟨d, hf⟩
  · rintro ⟨d, hf⟩
    exact List.mem_map_of_mem (f := Prod.fst) hf

theorem pairwise_outcome (hbase : base.isAbsolute = true) (hlawful : g.disk.Lawful)
    (hpatterns : InOrder patterns) {onlyDirectories : Bool} {found : List (List String)}
    (h : (g.view base).outcome onlyDirectories patterns = .ok found) : found.Pairwise (· < ·) := by
  obtain ⟨hnone, rfl⟩ := View.outcome_eq_ok_iff.mp h
  have hmatch : ∀ f ∈ (g.view base).found onlyDirectories patterns, f.2 ≠ none :=
    fun f hf hf' => hnone f.1 (by rwa [← hf'])
  have hsorted := View.sorted_search (sees_view hbase hlawful) Disk.pathLimit patterns hpatterns []
    ((g.view base).isDirectory [])
  exact List.pairwise_map.mpr ((hsorted.filter _).imp_of_mem fun hf hf' hlt =>
    hlt (hmatch _ hf) (hmatch _ hf'))

theorem exists_outcome_eq_ok (hbase : base.isAbsolute = true) (hlawful : g.disk.Lawful)
    (hpatterns : ∀ p ∈ patterns, p.IsComponent) {onlyDirectories : Bool}
    (h : ∀ names, ¬g.OutOfReach base patterns names) :
    ∃ found, (g.view base).outcome onlyDirectories patterns = .ok found :=
  ⟨_, View.outcome_eq_ok fun names hmem =>
    h names ((none_mem_found_iff hbase hlawful hpatterns).mp hmem)⟩

/-- A search fails if there is something out of reach, and with nothing else. -/
theorem outcome_eq_error_iff (hbase : base.isAbsolute = true) (hlawful : g.disk.Lawful)
    (hpatterns : ∀ p ∈ patterns, p.IsComponent) {onlyDirectories : Bool} :
    (∃ names, (g.view base).outcome onlyDirectories patterns = .error names) ↔
      ∃ names, g.OutOfReach base patterns names := by
  have hnone : ∀ names, (names, none) ∈ (g.view base).found onlyDirectories patterns ↔
      g.OutOfReach base patterns names := fun _ => none_mem_found_iff hbase hlawful hpatterns
  simp only [← hnone]
  constructor
  · rintro ⟨names, h⟩
    exact ⟨names, View.mem_found_of_outcome_eq_error h⟩
  · rintro ⟨names, hmem⟩
    cases h : (g.view base).outcome onlyDirectories patterns with
    | error other => exact ⟨other, rfl⟩
    | ok found => exact absurd hmem ((View.outcome_eq_ok_iff.mp h).1 names)

/-- Whether all places that a pattern leads to look the same from two directories. -/
def View.AlikeFor (v v' : View) (patterns : List Pattern) : Prop :=
  ∀ names left, Leaves patterns names left → v.AlikeAt v' names

theorem Ground.Encloses.alikeFor {g' : Ground} {base' : Path} {mid mid' : Location}
    (h : g.Encloses base mid patterns) (h' : g'.Encloses base' mid' patterns)
    (hsame : ∀ rest, g.disk.lookup (mid ++ rest) = g'.disk.lookup (mid' ++ rest)) :
    (g.view base).AlikeFor (g'.view base') patterns :=
  fun _ _ hleaves => h.alikeAt h' hsame hleaves

theorem View.AlikeFor.outcome_eq {v v' : View} {size : List String → Nat}
    (h : v.AlikeFor v' patterns) (hv : v.Sees size) (hpatterns : ∀ p ∈ patterns, p.IsComponent)
    (onlyDirectories : Bool) :
    v.outcome onlyDirectories patterns = v'.outcome onlyDirectories patterns := by
  have hhere : v.AlikeAt v' [] := h [] patterns (.all patterns)
  rw [outcome, outcome, found, found, hhere.1, View.search_congr hv _ _ hpatterns [] _ h]

/-- The paths that names lead to, or the failure to read a directory with too long a path. -/
def namedFiles (base : Path) (pattern : String) :
    Except (List String) (List (List String)) → Except Failure (List Path)
  | .ok found => .ok (found.map base.below)
  | .error names => .error (.system (.expand pattern (base.below names)) .nameTooLong)

theorem mapM_path_sightingOf (base : Path) (pattern : String) (found : List Found) :
    (found.map (sightingOf base [])).mapM (Sighting.path pattern) =
      namedFiles base pattern (found.mapM Found.outcome) := by
  induction found with
  | nil => rfl
  | cons f found ih =>
      rw [List.map_cons, List.mapM_cons, List.mapM_cons, ih]
      obtain ⟨names, _ | isDirectory⟩ := f
      · rfl
      · cases found.mapM Found.outcome <;> rfl

end Wildcard

open Wildcard Wildcard.Pattern Wildcard.Ground

/-- The paths of a wildcard that is declared in a directory. -/
def World.wildcardFiles (w : World) (props : Properties) (base : Path) (e : Element) :
    Except Failure (List Path) :=
  Fileset.sourceOfElement props base e >>= FileSource.files w

section

variable {w : World} {props : Properties} {base : Path} {e : Element} {raw pattern : String}
variable {patterns : List Pattern}

theorem World.wildcardFiles_of_expand {start : Path} {found : List Found}
    (htag : e.tag = "wildcard") (hraw : e.require "pattern" = .ok raw)
    (hpattern : props.expand raw = .ok pattern)
    (hfound : w.ground.expand (base.join ⟨pattern⟩).text = .ok (found.map (sightingOf start []))) :
    w.wildcardFiles props base e =
      namedFiles start (base.join ⟨pattern⟩).text (found.mapM Found.outcome) := by
  have hsource : Fileset.sourceOfElement props base e =
      .ok (.wildcard (base.join ⟨pattern⟩).text) := by
    rw [Fileset.sourceOfElement, htag]
    simp only [hraw]
    change props.expand raw >>= _ = _
    rw [hpattern]
    rfl
  rw [wildcardFiles, hsource]
  change FileSource.files w (.wildcard (base.join ⟨pattern⟩).text) = _
  rw [FileSource.files, hfound]
  exact mapM_path_sightingOf start _ found

theorem World.wildcardFiles_eq (htag : e.tag = "wildcard") (hraw : e.require "pattern" = .ok raw)
    (hpattern : props.expand raw = .ok pattern) (hlawful : w.disk.Lawful)
    (hbase : base.isAbsolute = true) (hplain : ∀ c ∈ base.text.toList, c ≠ '?' ∧ c ≠ '*' ∧ c ≠ '[')
    (hrel : Path.isAbsolute ⟨pattern⟩ = false)
    (hpatterns : (components pattern).mapM Pattern.parse = .ok patterns) :
    w.wildcardFiles props base e = namedFiles base.tidy (base.join ⟨pattern⟩).text
      ((w.ground.view base.tidy).outcome (asksForDirectories pattern) patterns) :=
  wildcardFiles_of_expand htag hraw hpattern
    (expand_join (g := w.ground) hlawful hbase hplain hrel hpatterns)

/-- A wildcard contributes what matches inside the directory that it is declared in, unless there is
a directory to be read that is out of reach.  The path of the declaring directory must not have
wildcards itself, since they would be read as such. -/
theorem World.wildcardFiles_spec (htag : e.tag = "wildcard") (hraw : e.require "pattern" = .ok raw)
    (hpattern : props.expand raw = .ok pattern) (hlawful : w.disk.Lawful)
    (hbase : base.isAbsolute = true) (hplain : ∀ c ∈ base.text.toList, c ≠ '?' ∧ c ≠ '*' ∧ c ≠ '[')
    (hrel : Path.isAbsolute ⟨pattern⟩ = false)
    (hpatterns : (components pattern).mapM Pattern.parse = .ok patterns) :
    ∃ outcome : Except (List String) (List (List String)),
      w.wildcardFiles props base e = namedFiles base.tidy (base.join ⟨pattern⟩).text outcome ∧
      ((∃ names, outcome = .error names) ↔
        ∃ names, w.ground.OutOfReach base.tidy patterns names) ∧
      (∀ names, outcome = .error names → w.ground.OutOfReach base.tidy patterns names) ∧
      (∀ found, outcome = .ok found →
        (∀ names ∈ found, Matches patterns names) ∧
        (∀ names, (∀ name ∈ names, '/' ∉ name.toList) →
          sizeBelow base.tidy names ≤ Disk.pathLimit →
          (names ∈ found ↔ Matches patterns names ∧
            w.ground.holds (base.tidy.below names) = true ∧
            (asksForDirectories pattern = true ∨ endsRecursive patterns = true →
              w.disk.isDirectory w.cwd (base.tidy.below names) = true))) ∧
        (InOrder patterns → found.Pairwise (· < ·)) ∧
        ((∀ p ∈ patterns, ¬p.Allows "..") → ∀ names ∈ found, ∃ steps,
          (base.tidy.below names).components = base.components ++ steps ∧ .up ∉ steps)) ∧
      ∀ (w' : World) (base' : Path), w'.disk.Lawful → base'.isAbsolute = true →
        (∀ c ∈ base'.text.toList, c ≠ '?' ∧ c ≠ '*' ∧ c ≠ '[') →
        (w.ground.view base.tidy).AlikeFor (w'.ground.view base'.tidy) patterns ∨
          (∃ mid mid', w.ground.Encloses base.tidy mid patterns ∧
            w'.ground.Encloses base'.tidy mid' patterns ∧
            ∀ rest, w.disk.lookup (mid ++ rest) = w'.disk.lookup (mid' ++ rest)) →
        w'.wildcardFiles props base' e =
          namedFiles base'.tidy (base'.join ⟨pattern⟩).text outcome := by
  have htidy : base.tidy.isAbsolute = true := Path.isAbsolute_below rfl _
  have hcomponents := isComponent_of_mapM (fun _ => notMem_slash_of_mem_components) hpatterns
  have hempty : patterns = [] → asksForDirectories pattern = true := fun hnil =>
    asksForDirectories_of_nil (hnil ▸ hpatterns)
  refine ⟨_, wildcardFiles_eq htag hraw hpattern hlawful hbase hplain hrel hpatterns,
    outcome_eq_error_iff htidy hlawful hcomponents, fun names hnames => ?_,
    fun found hfound => ?_, fun w' base' hlawful' hbase' hplain' hsame => ?_⟩
  · exact (none_mem_found_iff htidy hlawful hcomponents).mp
      (View.mem_found_of_outcome_eq_error hnames)
  · have hmem : ∀ names, names ∈ found ↔ _ := fun _ => View.mem_outcome_iff hfound
    have hmatches : ∀ names ∈ found, Matches patterns names := by
      intro names hnames
      obtain ⟨d, hd⟩ := (hmem names).mp hnames
      exact matches_of_mem_found htidy hlawful hcomponents hd
    refine ⟨hmatches, fun names hnames hshort => (hmem names).trans
      (mem_found_iff htidy hlawful hcomponents hempty hnames hshort),
      fun hinorder => pairwise_outcome htidy hlawful hinorder hfound, fun hup names hnames => ?_⟩
    have hmatch := hmatches names hnames
    rw [← Path.components_tidy hbase]
    exact Path.exists_steps_below htidy hmatch.notMem_slash (hmatch.notMem_up hup)
  · have halike : (w.ground.view base.tidy).AlikeFor (w'.ground.view base'.tidy) patterns := by
      rcases hsame with halike | ⟨mid, mid', hencloses, hencloses', hsame⟩
      · exact halike
      · exact hencloses.alikeFor hencloses' hsame
    rw [wildcardFiles_eq htag hraw hpattern hlawful' hbase' hplain' hrel hpatterns,
      halike.outcome_eq (sees_view htidy hlawful) hcomponents]

end

/-- A directory with a source file and a header. -/
def sourceTree (directory : String) : World :=
  .holding [([directory, "a.c"], ""), ([directory, "a.h"], "")] [[directory]]

def sourceWildcard : Element :=
  .mk "wildcard" [("pattern", "*.c")] [] none

theorem lookup_sourceTree (directory : String) (rest : Location) :
    (sourceTree directory).disk.lookup ([directory] ++ rest) =
      [([], .directory), (["a.c"], .file "".toUTF8 false), (["a.h"], .file "".toUTF8 false)].lookup
        rest := by
  simp [sourceTree, World.holding, Disk.lookup, List.lookup_cons]

theorem encloses_sourceTree (directory : String) (base : Path)
    (hlawful : (sourceTree directory).disk.Lawful)
    (hname : Disk.isEntryName directory = true) (hfault : Disk.textFault? base.tidy = none)
    (hpieces : base.tidy.pieces = ["", directory])
    (hsize : base.tidy.text.utf8ByteSize + (Disk.nameLimit + 1) ≤ Disk.pathLimit) :
    (sourceTree directory).ground.Encloses base.tidy [directory]
      [[.anyText, .char '.', .char 'c']] := by
  have hlinkless := World.isLinkless_holding
    [([directory, "a.c"], ""), ([directory, "a.h"], "")] [[directory]]
  have hbase : base.tidy.isAbsolute = true := Path.isAbsolute_below rfl _
  refine .of_isLinkless hlawful hlinkless hbase ?_ ?_ (by decide) (by simpa using hsize)
  · obtain ⟨hplain, -, hshort⟩ := Disk.isEntryName_iff.mp hname
    obtain ⟨-, hidle, hup⟩ := Path.isPlainName_iff.mp hplain
    refine ⟨hfault, ?_, (lookup_sourceTree directory []).trans rfl⟩
    rw [hpieces]
    exact .stay rfl (by decide) (.down rfl ⟨hidle, hup, hshort⟩ (Disk.lookup_ne_link hlinkless _)
      (.arrived _ _))
  · rintro p hp ⟨-, haccepts, -⟩
    obtain rfl := List.mem_singleton.mp hp
    exact absurd haccepts (by decide)

theorem World.wildcardFiles_spec_sourceTree :
    sourceWildcard.require "pattern" = .ok "*.c" ∧ Properties.empty.expand "*.c" = .ok "*.c" ∧
      (sourceTree "src").disk.Lawful ∧ Path.isAbsolute ⟨"/src"⟩ = true ∧
      (∀ c ∈ "/src".toList, c ≠ '?' ∧ c ≠ '*' ∧ c ≠ '[') ∧ Path.isAbsolute ⟨"*.c"⟩ = false ∧
      (components "*.c").mapM Pattern.parse = .ok [[.anyText, .char '.', .char 'c']] ∧
      ∃ found : List (List String),
        (sourceTree "src").wildcardFiles .empty ⟨"/src"⟩ sourceWildcard =
          .ok (found.map (Path.tidy ⟨"/src"⟩).below) ∧
        found.Pairwise (· < ·) ∧ ["a.c"] ∈ found ∧ ["a.h"] ∉ found ∧
        (sourceTree "lib").wildcardFiles .empty ⟨"/lib"⟩ sourceWildcard =
          .ok (found.map (Path.tidy ⟨"/lib"⟩).below) := by
  have hraw : sourceWildcard.require "pattern" = .ok "*.c" := rfl
  have hpattern : Properties.empty.expand "*.c" = .ok "*.c" := by cbv
  have hlawful : (sourceTree "src").disk.Lawful := by decide +kernel
  have hlawful' : (sourceTree "lib").disk.Lawful := by decide +kernel
  have hplain : ∀ c ∈ "/src".toList, c ≠ '?' ∧ c ≠ '*' ∧ c ≠ '[' := by simp
  have hplain' : ∀ c ∈ "/lib".toList, c ≠ '?' ∧ c ≠ '*' ∧ c ≠ '[' := by simp
  have hread : (components "*.c").mapM Pattern.parse = .ok [[.anyText, .char '.', .char 'c']] := by
    cbv
  have hencloses := encloses_sourceTree "src" ⟨"/src"⟩ hlawful
    (by decide +kernel) (by decide +kernel) (by decide +kernel) (by decide +kernel)
  have hencloses' := encloses_sourceTree "lib" ⟨"/lib"⟩ hlawful'
    (by decide +kernel) (by decide +kernel) (by decide +kernel) (by decide +kernel)
  obtain ⟨outcome, hfiles, -, hfails, hfound, hmoved⟩ :=
    World.wildcardFiles_spec (w := sourceTree "src") rfl hraw hpattern hlawful rfl hplain rfl hread
  obtain ⟨found, rfl⟩ : ∃ found, outcome = .ok found := by
    cases outcome with
    | ok found => exact ⟨found, rfl⟩
    | error names =>
        exact absurd (hfails names rfl)
          (not_outOfReach hlawful hencloses.absolute (by decide) (by decide +kernel))
  obtain ⟨hmatches, hmem, hsorted, -⟩ := hfound found rfl
  refine ⟨hraw, hpattern, hlawful, rfl, hplain, rfl, hread, found, hfiles, hsorted ?_, ?_, ?_,
    hmoved (sourceTree "lib") ⟨"/lib"⟩ hlawful' rfl hplain' (.inr ⟨_, _, hencloses, hencloses', ?_⟩)⟩
  · simp [InOrder, isRecursive, dotNames]
  · have hholds : (sourceTree "src").ground.holds ((Path.tidy ⟨"/src"⟩).below ["a.c"]) = true := by
      rw [Ground.holds, World.ground, sourceTree,
        Disk.entryAt_eq_descend (World.isLinkless_holding _ _)]
      decide +kernel
    refine (hmem ["a.c"] (by decide) (by decide +kernel)).mpr ⟨?_, hholds, by decide⟩
    exact .step (.own (by decide) (by decide)) (.all [])
  · intro hheader
    cases hmatches ["a.h"] hheader with
    | step taken _ =>
        cases taken with
        | own single allowed => exact absurd allowed.2.1 (by decide)
        | last recursive | leave recursive | descend recursive => cases recursive
  · exact fun rest => (lookup_sourceTree "src" rest).trans (lookup_sourceTree "lib" rest).symm

theorem accepts_single_iff {c : Char} {cs : List Char} :
    accepts [.within [⟨c, c⟩]] cs = true ↔ cs = [c] := by
  cases cs with
  | nil => simp [accepts_nil_right, Token.isAnyText]
  | cons d cs =>
      have hsame : c = d ↔ d = c := eq_comm
      rw [accepts_cons_char rfl, accepts_nil_left]
      simp [Token.acceptsChar, CharRange.contains, Std.le_antisymm_iff, hsame]

/-- A directory with a bracket in its name and one that the name stands for as a pattern. -/
def bracketed : World :=
  .holding [(["[b]", "x.c"], ""), (["b", "y.c"], "")] [["[b]"], ["b"]]

/-- A bracket in the name of the directory makes the wildcard look elsewhere. -/
theorem World.wildcardFiles_bracket_elsewhere :
    bracketed.disk.Lawful ∧
      (components "*.c").mapM Pattern.parse = .ok [[.anyText, .char '.', .char 'c']] ∧
      Matches [[.anyText, .char '.', .char 'c']] ["x.c"] ∧
      bracketed.ground.holds ⟨"/[b]/x.c"⟩ = true ∧
      ∃ files, bracketed.wildcardFiles .empty ⟨"/[b]"⟩ sourceWildcard = .ok files ∧
        ⟨"/[b]/x.c"⟩ ∉ files ∧ ⟨"/b/y.c"⟩ ∈ files := by
  have hlawful : bracketed.disk.Lawful := by decide +kernel
  have hlinkless : bracketed.disk.isLinkless = true := World.isLinkless_holding _ _
  have hstar : Pattern.parse "*.c" = .ok [.anyText, .char '.', .char 'c'] := by cbv
  have hset : Pattern.parse "[b]" = .ok [.within [⟨'b', 'b'⟩]] := by cbv
  have hpatterns : (Path.steps ⟨"/[b]/*.c"⟩).mapM Pattern.parse =
      .ok [[.within [⟨'b', 'b'⟩]], [.anyText, .char '.', .char 'c']] := by
    have hsteps : Path.steps ⟨"/[b]/*.c"⟩ = ["[b]", "*.c"] := by decide +kernel
    rw [hsteps, mapM_eq_ok_iff]
    exact .cons hset (.cons hstar .nil)
  have hpattern : Properties.empty.expand "*.c" = .ok "*.c" := by cbv
  have hjoin : (Path.mk "/[b]").join ⟨"*.c"⟩ = ⟨"/[b]/*.c"⟩ := by decide +kernel
  have hexpand := expand_eq_found (g := bracketed.ground) hlawful rfl hpatterns
  rw [← hjoin] at hexpand
  have hfiles := World.wildcardFiles_of_expand (e := sourceWildcard) rfl rfl hpattern hexpand
  have hcomponents := isComponent_of_mapM (fun _ => notMem_slash_of_mem_steps) hpatterns
  obtain ⟨found, hfound⟩ : ∃ found, (bracketed.ground.view ⟨"/"⟩).outcome
      ("/[b]/*.c".toList.getLast? == some '/')
      [[.within [⟨'b', 'b'⟩]], [.anyText, .char '.', .char 'c']] = .ok found :=
    exists_outcome_eq_ok rfl hlawful hcomponents fun _ =>
      not_outOfReach hlawful rfl (by decide) (by decide +kernel)
  rw [hjoin] at hfiles
  change _ = namedFiles _ _ (View.outcome _ _ _) at hfiles
  rw [hfound] at hfiles
  have hmem : ∀ names, names ∈ found ↔ _ := fun _ => View.mem_outcome_iff hfound
  have hholds : bracketed.ground.holds ⟨"/[b]/x.c"⟩ = true ∧
      bracketed.ground.holds (Path.below ⟨"/"⟩ ["b", "y.c"]) = true := by
    rw [Ground.holds, Ground.holds, World.ground, Disk.entryAt_eq_descend hlinkless,
      Disk.entryAt_eq_descend hlinkless]
    decide +kernel
  refine ⟨hlawful, ?_, ?_, hholds.1, _, hfiles, fun hlisted => ?_, ?_⟩
  · have hcomponent : components "*.c" = ["*.c"] := by decide
    rw [hcomponent, mapM_eq_ok_iff]
    exact .cons hstar .nil
  · exact .step (.own (by decide) (by decide)) (.all [])
  · obtain ⟨names, hnames, hbelow⟩ := List.mem_map.mp hlisted
    obtain ⟨d, hd⟩ := (hmem names).mp hnames
    have hmatch := matches_of_mem_found rfl hlawful hcomponents hd
    have hsteps : (Path.below ⟨"/"⟩ names).components = _ :=
      Path.components_below rfl hmatch.notMem_slash
    have hbracket : Path.components ⟨"/[b]/x.c"⟩ = [.root, .name "[b]", .name "x.c"] := by
      decide +kernel
    have hroot : Path.components ⟨"/"⟩ = [.root] := by decide
    rw [hbelow, hbracket, hroot] at hsteps
    cases hmatch with
    | @step _ _ _ name names taken _ =>
        cases taken with
        | own _ allowed =>
            obtain rfl : name = "b" := String.toList_inj.mp (accepts_single_iff.mp allowed.2.1)
            simp [Path.isIdle, Path.component] at hsteps
        | last recursive | leave recursive | descend recursive => cases recursive
  · have hmatch : Matches [[.within [⟨'b', 'b'⟩]], [.anyText, .char '.', .char 'c']] ["b", "y.c"] :=
      .step (.own (by decide) (by decide))
        (.step (.own (by decide) (by decide)) (.all []))
    have hnames : ["b", "y.c"] ∈ found := (hmem _).mpr <|
      (mem_found_iff rfl hlawful hcomponents (by simp) (by decide) (by decide +kernel)).mpr
        ⟨hmatch, hholds.2, by decide⟩
    exact List.mem_map.mpr ⟨_, hnames, by decide +kernel⟩

end DeclarativeBuild
