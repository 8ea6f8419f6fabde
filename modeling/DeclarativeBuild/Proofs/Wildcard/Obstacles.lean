import DeclarativeBuild.Proofs.Wildcard.Expansion

/-!
# Directories out of reach

A directory can be seen in the one above it although its own path is too long to be followed.  A
search comes to an end there if a wildcard has taken the name and the next component is one too.
-/

namespace DeclarativeBuild
namespace Wildcard

open Pattern Ground

variable {v : View} {size : List String → Nat} {here names before : List String} {name : String}
variable {depth depth' : Nat} {p q : Pattern} {patterns next rest more : List Pattern}
variable {isDirectory isDirectory' : Bool}

/-- Whether a wildcard takes a name after some others and another is to take the name after it. -/
def Pattern.Enumerates (patterns : List Pattern) (before : List String) (name : String) : Prop :=
  ∃ p q rest more, Leaves patterns before (p :: rest) ∧ p.literal? = none ∧
    Takes (p :: rest) name (q :: more) ∧ q.literal? = none

theorem Pattern.Enumerates.cons {first : String} (taken : Takes patterns first next)
    (h : Enumerates next before name) : Enumerates patterns (first :: before) name := by
  obtain ⟨p, q, rest, more, hleaves, hrest⟩ := h
  exact ⟨p, q, rest, more, .step taken hleaves, hrest⟩

namespace View

/-- Whether a directory that can be entered shows another that cannot. -/
structure Bars (v : View) (here : List String) (name : String) : Prop where
  entered : v.isDirectory here = true
  listed : (name, true) ∈ v.children here
  barred : v.isDirectory (here ++ [name]) = false

theorem Sees.child_seen (hv : v.Sees size) (hhere : v.isDirectory here = true)
    (hchild : (name, isDirectory) ∈ v.children here) :
    isDirectory = v.isDirectory (here ++ [name]) ∨ isDirectory = true ∧ v.Bars here name := by
  cases hnext : v.isDirectory (here ++ [name]) with
  | true =>
      have hshort := hv.size_le_of_holds (hv.holds_of_isDirectory hnext)
      have hsame := ((hv.child_iff (hv.isPlainName_of_child hchild) hshort).mp hchild).2
      exact .inl (hsame.trans hnext)
  | false =>
      cases isDirectory with
      | false => exact .inl rfl
      | true => exact .inr ⟨rfl, hhere, hchild, hnext⟩

/-- A search takes a place for what it is, or for a directory where one is shown out of reach. -/
theorem Goes.seen (hv : v.Sees size)
    (h : Goes v here depth patterns isDirectory name depth' next isDirectory') :
    isDirectory' = v.isDirectory (here ++ [name]) ∨
      isDirectory' = true ∧ (∃ p rest, patterns = p :: rest ∧ p.literal? = none) ∧
        v.Bars here name := by
  cases h with
  | literal | dotted => exact .inl rfl
  | own wild entered _ child | last wild entered _ _ child | leave wild entered _ _ child
  | descend wild entered _ child =>
      exact (hv.child_seen entered child).imp_right fun ⟨hsame, hbars⟩ =>
        ⟨hsame, ⟨_, _, rfl, wild⟩, hbars⟩

theorem Sees.none_notMem_search (hv : v.Sees size) (hpatterns : ∀ p ∈ patterns, p.IsComponent)
    (hhere : v.isDirectory here = false) (hne : names ≠ [] ∨ isDirectory = false) :
    (names, none) ∉ v.search depth patterns here isDirectory := by
  induction names generalizing depth patterns here isDirectory with
  | nil =>
      intro hmem
      obtain ⟨-, rfl, -⟩ := nil_none_mem_search_iff.mp hmem
      simp at hne
  | cons name names ih =>
      intro hmem
      cases patterns with
      | nil => simp [search_nil] at hmem
      | cons p rest =>
          obtain ⟨name, _, next, _, ⟨names, _⟩, hgoes, hg, heq⟩ :=
            exists_goes_of_mem_search hmem (by simp)
          cases heq
          have htakes := hgoes.takes hv hpatterns
          have hnext : v.isDirectory (here ++ [name]) = false := by
            rw [Bool.eq_false_iff]
            intro h
            have hparent := hv.isDirectory_of_holds htakes.notMem_slash (hv.holds_of_isDirectory h)
            rw [hhere] at hparent
            cases hparent
          rcases hgoes.seen hv with rfl | ⟨-, -, hbars⟩
          · exact ih (fun q hq => hpatterns q (htakes.subset hq)) hnext (.inr hnext) hg
          · have hentered := hbars.entered
            rw [hhere] at hentered
            cases hentered

theorem exists_bars_of_mem_search (hv : v.Sees size) (hpatterns : ∀ p ∈ patterns, p.IsComponent)
    (hmem : (names, none) ∈ v.search depth patterns here (v.isDirectory here)) :
    ∃ before name, names = before ++ [name] ∧ Enumerates patterns before name ∧
      v.Bars (here ++ before) name := by
  induction names generalizing depth patterns here with
  | nil =>
      obtain ⟨-, hentered, hbarred⟩ := nil_none_mem_search_iff.mp hmem
      rw [hentered] at hbarred
      cases hbarred
  | cons name names ih =>
      cases patterns with
      | nil => simp [search_nil] at hmem
      | cons p rest =>
          obtain ⟨name, _, next, _, ⟨names, _⟩, hgoes, hg, heq⟩ :=
            exists_goes_of_mem_search hmem (by simp)
          cases heq
          have htakes := hgoes.takes hv hpatterns
          have hcomponents : ∀ q ∈ next, q.IsComponent := fun q hq => hpatterns q (htakes.subset hq)
          -- Up to the first place that is taken for more than it is, the flag is what stands there.
          rcases hgoes.seen hv with rfl | ⟨rfl, ⟨p, rest, hcons, hwild⟩, hbars⟩
          · obtain ⟨before, last, rfl, henumerates, hbars⟩ := ih hcomponents hg
            refine ⟨name :: before, last, rfl, henumerates.cons htakes, ?_⟩
            rwa [List.append_cons]
          · obtain rfl : names = [] := by
              by_contra hne
              exact hv.none_notMem_search hcomponents hbars.barred (.inl hne) hg
            obtain ⟨⟨q, more, rfl, hwild'⟩, -, -⟩ := nil_none_mem_search_iff.mp hg
            rw [hcons] at htakes
            refine ⟨[], name, rfl, ⟨p, q, rest, more, hcons ▸ .all _, hwild, htakes, hwild'⟩, ?_⟩
            rwa [List.append_nil]

theorem Bars.exists_goes (hv : v.Sees size) (h : v.Bars here name) (hwild : p.literal? = none)
    (htakes : Takes (p :: rest) name (q :: more)) (hdepth : Disk.pathLimit < depth + size here) :
    ∃ depth', Goes v here depth (p :: rest) true name depth' (q :: more) true := by
  cases htakes with
  | own single allowed => exact ⟨_, .own hwild h.entered single h.listed allowed.2.1⟩
  | leave recursive after _ accepted =>
      exact ⟨_, .leave hwild h.entered recursive after h.listed accepted⟩
  | descend recursive =>
      have hshort := hv.size_le_of_holds (hv.holds_of_isDirectory h.entered)
      obtain ⟨less, rfl⟩ : ∃ less, depth = less + 1 := ⟨depth - 1, by omega⟩
      exact ⟨_, .descend hwild h.entered recursive h.listed⟩

theorem mem_search_of_bars (hv : v.Sees size) (hdepth : Disk.pathLimit < depth + size here)
    (henumerates : Enumerates patterns before name) (hbars : v.Bars (here ++ before) name) :
    (before ++ [name], none) ∈ v.search depth patterns here (v.isDirectory here) := by
  obtain ⟨p, q, rest, more, hleaves, hwild, htakes, hwild'⟩ := henumerates
  generalize hleft : p :: rest = left at hleaves
  induction hleaves generalizing depth here with
  | all patterns =>
      subst hleft
      rw [List.append_nil] at hbars
      obtain ⟨depth', hgoes⟩ := hbars.exists_goes hv hwild htakes hdepth
      rw [hbars.entered]
      exact mem_search_of_goes hgoes
        (nil_none_mem_search_iff.mpr ⟨⟨q, more, rfl, hwild'⟩, rfl, hbars.barred⟩)
  | @step patterns next left first before taken onward ih =>
      have hnext : next ≠ [] := by
        rintro rfl
        cases onward with
        | all => cases hleft
        | step taken => cases taken
      rw [List.append_cons] at hbars
      have hdirectory : v.isDirectory (here ++ [first]) = true := by
        by_cases hnil : before = []
        · simpa [hnil] using hbars.entered
        · exact hv.isDirectory_of_holds_append hnil onward.notMem_slash
            (hv.holds_of_isDirectory hbars.entered)
      have hholds := hv.holds_of_isDirectory hdirectory
      have hshort := hv.size_le_of_holds hholds
      obtain ⟨depth', hgoes⟩ := View.exists_goes hv taken hshort hholds (fun _ => hdirectory) hdepth
      obtain ⟨-, -, hdepth'⟩ := hgoes.sees hv taken.notMem_slash hshort hdepth
      have hmem := ih hdepth' hbars hleft
      cases patterns with
      | nil => cases taken
      | cons p rest => exact mem_search_of_goes hgoes hmem

/-- A search ends at the directories out of reach that it is to read, and nowhere else. -/
theorem none_mem_search_iff (hv : v.Sees size) (hpatterns : ∀ p ∈ patterns, p.IsComponent)
    (hdepth : Disk.pathLimit < depth + size here) :
    (names, none) ∈ v.search depth patterns here (v.isDirectory here) ↔
      ∃ before name, names = before ++ [name] ∧ Enumerates patterns before name ∧
        v.Bars (here ++ before) name := by
  refine ⟨exists_bars_of_mem_search hv hpatterns, ?_⟩
  rintro ⟨before, name, rfl, henumerates, hbars⟩
  exact mem_search_of_bars hv hdepth henumerates hbars

end View

/-- The names that lead to a match; those of a directory out of reach are an error. -/
def Found.outcome (f : Found) : Except (List String) (List String) :=
  match f.2 with
  | some _ => .ok f.1
  | none => .error f.1

theorem Found.outcome_eq_error_iff {f : Found} : f.outcome = .error names ↔ f = (names, none) := by
  obtain ⟨other, _ | isDirectory⟩ := f <;> simp [Found.outcome]

theorem Found.outcome_eq_ok {f : Found} (h : f.2 ≠ none) : f.outcome = .ok f.1 := by
  obtain ⟨other, _ | isDirectory⟩ := f
  · exact absurd rfl h
  · rfl

namespace View

variable {onlyDirectories : Bool}

/-- The names of all matches, or those of the first directory out of reach that is come to. -/
def outcome (v : View) (onlyDirectories : Bool) (patterns : List Pattern) :
    Except (List String) (List (List String)) :=
  (v.found onlyDirectories patterns).mapM Found.outcome

theorem outcome_eq_ok (h : ∀ names, (names, none) ∉ v.found onlyDirectories patterns) :
    v.outcome onlyDirectories patterns = .ok ((v.found onlyDirectories patterns).map Prod.fst) := by
  rw [outcome, mapM_eq_ok_iff, List.forall₂_map_right_iff, List.forall₂_same]
  intro f hf
  exact Found.outcome_eq_ok fun hnone => h f.1 (by rwa [← hnone])

theorem mem_found_of_outcome_eq_error (h : v.outcome onlyDirectories patterns = .error names) :
    (names, none) ∈ v.found onlyDirectories patterns := by
  obtain ⟨f, hf, herror⟩ := exists_of_mapM_eq_error h
  rwa [Found.outcome_eq_error_iff.mp herror] at hf

theorem outcome_eq_ok_iff {found : List (List String)} :
    v.outcome onlyDirectories patterns = .ok found ↔
      (∀ names, (names, none) ∉ v.found onlyDirectories patterns) ∧
        found = (v.found onlyDirectories patterns).map Prod.fst := by
  constructor
  · intro h
    have hnone : ∀ names, (names, none) ∉ v.found onlyDirectories patterns := by
      intro names hmem
      obtain ⟨_, hnames⟩ := exists_of_mapM_eq_ok h hmem
      cases hnames
    exact ⟨hnone, Except.ok.inj (h.symm.trans (outcome_eq_ok hnone))⟩
  · rintro ⟨hnone, rfl⟩
    exact outcome_eq_ok hnone

end View

namespace Ground

variable {g : Ground} {base : Path} {onlyDirectories : Bool}

/-- Whether names lead to a directory whose path is too long and that a pattern is to be looked up in.
It stands in one that can be entered. -/
def OutOfReach (g : Ground) (base : Path) (patterns : List Pattern) (names : List String) : Prop :=
  ∃ before name mid, names = before ++ [name] ∧ Enumerates patterns before name ∧
    g.disk.Enters (base.below before) mid ∧ g.disk.lookup (mid ++ [name]) = some .directory ∧
    Disk.pathLimit < sizeBelow base names

theorem bars_view_iff (hbase : base.isAbsolute = true) (hlawful : g.disk.Lawful) :
    (g.view base).Bars before name ↔ ∃ mid, g.disk.Enters (base.below before) mid ∧
      g.disk.lookup (mid ++ [name]) = some .directory ∧
        Disk.pathLimit < sizeBelow base (before ++ [name]) := by
  have hv := sees_view hbase hlawful
  constructor
  · rintro ⟨-, hlisted, hbarred⟩
    obtain ⟨mid, e, hmid, hlookup, hopens⟩ := (mem_children_iff hbase).mp hlisted
    have hbarred' : g.disk.isDirectory g.cwd (base.below (before ++ [name])) = false := hbarred
    obtain rfl : e = .directory := by
      cases e with
      | directory => rfl
      | file => cases hopens
      | link target =>
          rw [opens, hbarred'] at hopens
          cases hopens
    refine ⟨mid, hmid, hlookup, Nat.lt_of_not_le fun hshort => ?_⟩
    have hsame := ((hv.child_iff (hv.isPlainName_of_child hlisted) hshort).mp hlisted).2
    rw [hbarred] at hsame
    cases hsame
  · rintro ⟨mid, hmid, hlookup, hlong⟩
    refine ⟨(Disk.isDirectory_iff (Path.isAbsolute_below hbase before)).mpr ⟨mid, hmid⟩,
      (mem_children_iff hbase).mpr ⟨mid, .directory, hmid, hlookup, rfl⟩, ?_⟩
    rw [Bool.eq_false_iff]
    intro h
    exact Nat.not_le_of_lt hlong (hv.size_le_of_holds (hv.holds_of_isDirectory h))

theorem none_mem_found_iff (hbase : base.isAbsolute = true) (hlawful : g.disk.Lawful)
    (hpatterns : ∀ p ∈ patterns, p.IsComponent) :
    (names, none) ∈ (g.view base).found onlyDirectories patterns ↔
      g.OutOfReach base patterns names := by
  have hv := sees_view hbase hlawful
  have hdepth : Disk.pathLimit < Disk.pathLimit + sizeBelow base [] :=
    Nat.lt_add_of_pos_right (hv.size_pos [])
  rw [View.found, List.mem_filter, and_iff_left (by rfl),
    View.none_mem_search_iff hv hpatterns hdepth]
  simp only [List.nil_append, bars_view_iff hbase hlawful]
  constructor
  · rintro ⟨before, name, rfl, henumerates, mid, hrest⟩
    exact ⟨before, name, mid, rfl, henumerates, hrest⟩
  · rintro ⟨before, name, mid, rfl, henumerates, hrest⟩
    exact ⟨before, name, rfl, henumerates, mid, hrest⟩

end Ground
end Wildcard
end DeclarativeBuild
