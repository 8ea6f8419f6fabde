import DeclarativeBuild.Proofs.Wildcard.Obstacles
import Mathlib.Data.List.Induction
import Mathlib.Data.List.Sort

/-!
# Directories under another name

Two directories that hold the same show the same, whatever they are called and wherever they stand,
as long as nothing leads out of them.
-/

namespace DeclarativeBuild

namespace Disk

variable {d d' : Disk} {cwd base : Path} {name : String} {mid mid' loc : Location}
variable {followLast : Bool}

theorem Enters.unique (h : d.Enters base mid) (h' : d.Enters base mid') : mid = mid' :=
  Except.ok.inj ((walk_of_leads h.2.1).symm.trans (walk_of_leads h'.2.1))

theorem enters_iff_locate (h : base.isAbsolute = true) (cwd : Path) :
    d.Enters base loc ↔ d.locate true cwd base = .ok loc ∧ d.lookup loc = some .directory := by
  rw [locate_eq_ok_iff_leads h, Enters, and_assoc]

/-- A name leads where it stands if no link stands there. -/
theorem Enters.locate_join_iff (h : base.isAbsolute = true) (hname : '/' ∉ name.toList)
    (hup : name ≠ "..") (hmid : d.Enters base mid)
    (hlink : ∀ target, d.lookup (mid ++ [name]) ≠ some (.link target)) :
    d.locate followLast cwd (base.join ⟨name⟩) = .ok loc ↔
      textFault? (base.join ⟨name⟩) = none ∧
        (Path.isIdle name = false → name.utf8ByteSize ≤ nameLimit) ∧
        loc = mid ++ [name].filter (!Path.isIdle ·) := by
  cases hfault : textFault? (base.join ⟨name⟩) with
  | some fault => simp [locate, hfault]
  | none =>
      obtain ⟨left, hleft⟩ := hmid.locate_join h hname hfault
      have hwalk : d.walk followLast left mid [name] = _ := walk_singleton hmid.2.2 followLast name
      rw [hleft, hwalk]
      cases hidle : Path.isIdle name with
      | true => simp [hidle, eq_comm]
      | false =>
          rw [if_neg Bool.false_ne_true, beq_false_of_ne hup, if_neg Bool.false_ne_true]
          split
          · next hlong => simp [Nat.not_le.mpr hlong]
          · next hshort =>
            split
            · next target hlookup => exact absurd hlookup (hlink target)
            · simp [hidle, Nat.not_lt.mp hshort, eq_comm]

theorem listing_congr (h : d.Lawful) (h' : d'.Lawful)
    (hsame : ∀ name, d.lookup (mid ++ [name]) = d'.lookup (mid' ++ [name])) :
    d.listing mid = d'.listing mid' := by
  have hnames : d.names mid = d'.names mid' :=
    (pairwise_names h mid).eq_of_mem_iff (pairwise_names h' mid') fun name => by
      rw [mem_names_iff, mem_names_iff, hsame]
  rw [listing, listing, hnames]
  simp only [hsame]

/-- Where names lead from a directory, none of them upward. -/
def descent (names : List String) : Location :=
  names.filter (!Path.isIdle ·)

theorem descent_concat (names : List String) (name : String) :
    descent (names ++ [name]) = descent names ++ [name].filter (!Path.isIdle ·) :=
  List.filter_append names [name]

end Disk

namespace Wildcard

open Pattern Disk

variable {patterns left : List Pattern} {names before : List String}

theorem Pattern.Leaves.exists_of_prefix (h : Leaves patterns names left)
    (hbefore : before <+: names) : ∃ more, Leaves patterns before more := by
  induction h generalizing before with
  | all patterns => exact ⟨patterns, List.prefix_nil.mp hbefore ▸ .all patterns⟩
  | @step patterns _ _ name names taken _ ih =>
      cases before with
      | nil => exact ⟨patterns, .all patterns⟩
      | cons first before =>
          obtain ⟨rfl, hrest⟩ := List.cons_prefix_cons.mp hbefore
          obtain ⟨more, hmore⟩ := ih hrest
          exact ⟨more, .step taken hmore⟩

theorem Pattern.Leaves.concat {more next : List Pattern} {name : String}
    (h : Leaves patterns names more) (taken : Takes more name next) :
    Leaves patterns (names ++ [name]) next := by
  induction h with
  | all => exact .step taken (.all next)
  | step first _ ih => exact .step first (ih taken)

/-- A pattern leads upward only where it may stand for two dots. -/
theorem Pattern.Leaves.notMem_up (h : Leaves patterns names left)
    (hup : ∀ p ∈ patterns, ¬p.Allows "..") : ".." ∉ names := by
  induction h with
  | all => simp
  | step taken _ ih =>
      have hlater := ih fun p hp => hup p (taken.subset hp)
      refine List.not_mem_cons_of_ne_of_not_mem (fun heq => ?_) hlater
      subst heq
      cases taken with
      | own single allowed => exact hup _ List.mem_cons_self allowed
      | last _ _ plain | leave _ _ plain _ | descend _ plain =>
          exact (Path.isPlainName_iff.mp plain).2.2 rfl

/-- Without `**` each name takes one component of the pattern. -/
theorem Pattern.Leaves.length_add (h : Leaves patterns names left)
    (hsingle : ∀ p ∈ patterns, p.isRecursive = false) :
    names.length + left.length = patterns.length := by
  induction h with
  | all patterns => exact Nat.zero_add _
  | step taken _ ih =>
      have hlater := ih fun p hp => hsingle p (taken.subset hp)
      cases taken with
      | own =>
          rw [List.length_cons, List.length_cons, ← hlater]
          omega
      | last hrecursive | leave hrecursive | descend hrecursive =>
          rw [hsingle _ List.mem_cons_self] at hrecursive
          cases hrecursive

namespace Ground

/-- A directory that a pattern does not lead out of.  All that the pattern leads to is in reach. -/
structure Encloses (g : Ground) (base : Path) (mid : Location) (patterns : List Pattern) : Prop where
  lawful : g.disk.Lawful
  absolute : base.isAbsolute = true
  enters : g.disk.Enters base mid
  linkless : ∀ rest target, g.disk.lookup (mid ++ rest) ≠ some (.link target)
  downward : ∀ p ∈ patterns, ¬p.Allows ".."
  short : ∀ names left, Leaves patterns names left → g.disk.lookup (mid ++ descent names) ≠ none →
    sizeBelow base names ≤ pathLimit

variable {g g' : Ground} {base base' : Path} {mid mid' loc : Location} {name : String}

theorem sizeBelow_le {size : Nat} (hbase : base.isAbsolute = true)
    (hnames : ∀ name ∈ names, '/' ∉ name.toList) (hsize : ∀ name ∈ names, name.utf8ByteSize ≤ size) :
    sizeBelow base names ≤ base.text.utf8ByteSize + names.length * (size + 1) := by
  induction names using List.reverseRecOn with
  | nil => exact Nat.le_add_right _ _
  | append_singleton names name ih =>
      have hname : '/' ∉ name.toList := hnames name (by simp)
      have hbefore := ih (fun n hn => hnames n (by simp [hn])) fun n hn => hsize n (by simp [hn])
      have hlast : name.utf8ByteSize ≤ size := hsize name (by simp)
      have hseparator : "/".utf8ByteSize = 1 := by decide
      rw [sizeBelow] at hbefore
      rw [sizeBelow, Path.below_concat,
        Path.text_join (Path.isAbsolute_below hbase names) (Path.isAbsolute_of_notMem hname),
        List.length_append, List.length_singleton, Nat.add_mul]
      simp only [String.utf8ByteSize_append]
      split <;> simp only [hseparator, String.utf8ByteSize_empty] <;> omega

/-- Without `**` names lead no further than a directory with a short path allows for. -/
theorem sizeBelow_le_of_leaves (hbase : base.isAbsolute = true)
    (hsingle : ∀ p ∈ patterns, p.isRecursive = false)
    (hsize : base.text.utf8ByteSize + patterns.length * (nameLimit + 1) ≤ pathLimit)
    (hleaves : Leaves patterns names left)
    (hshort : ∀ name ∈ names, name.utf8ByteSize ≤ nameLimit) : sizeBelow base names ≤ pathLimit := by
  have hbelow := sizeBelow_le hbase hleaves.notMem_slash hshort
  have hlength : names.length ≤ patterns.length := by
    rw [← hleaves.length_add hsingle]
    exact Nat.le_add_right _ _
  have hmul := Nat.mul_le_mul_right (nameLimit + 1) hlength
  omega

theorem le_nameLimit_of_enters (hbase : base.isAbsolute = true)
    (hnames : ∀ name ∈ names, '/' ∉ name.toList) (h : g.disk.Enters (base.below names) loc) :
    ∀ name ∈ names, name.utf8ByteSize ≤ nameLimit := by
  induction names using List.reverseRecOn generalizing loc with
  | nil => simp
  | append_singleton names name ih =>
      have habsolute := Path.isAbsolute_below hbase names
      have hname : '/' ∉ name.toList := hnames name (by simp)
      rw [enters_iff_locate (Path.isAbsolute_below hbase _) g.cwd, Path.below_concat] at h
      obtain ⟨-, mid, hmid⟩ := exists_enters_of_locate_join habsolute hname h.1
      have hlast : name.utf8ByteSize ≤ nameLimit := by
        by_cases hplain : Path.isPlainName name = true
        · exact le_nameLimit_of_locate_join habsolute hmid hplain h.1
        · have hspecial : Path.isIdle name = true ∨ name = ".." := by
            simpa [Path.isPlainName_iff, hname, or_iff_not_imp_left] using hplain
          rw [Path.isIdle_iff] at hspecial
          rcases hspecial with (rfl | rfl) | rfl <;> decide
      intro other hother
      rcases List.mem_append.mp hother with hother | hother
      · exact ih (fun n hn => hnames n (List.mem_append_left _ hn)) hmid other hother
      · rwa [List.mem_singleton.mp hother]

/-- Without `**` nothing is out of reach of a directory with a short path. -/
theorem not_outOfReach (hlawful : g.disk.Lawful) (hbase : base.isAbsolute = true)
    (hsingle : ∀ p ∈ patterns, p.isRecursive = false)
    (hsize : base.text.utf8ByteSize + patterns.length * (nameLimit + 1) ≤ pathLimit) :
    ¬g.OutOfReach base patterns names := by
  rintro ⟨before, name, mid, rfl, ⟨p, q, rest, more, hleaves, -, htakes, -⟩, hmid, hlookup, hlong⟩
  have hlast : isEntryName name = true :=
    isEntryName_of_mem_names hlawful (mem_names_iff.mpr (by rw [hlookup]; rfl))
  have hbefore := le_nameLimit_of_enters hbase hleaves.notMem_slash hmid
  refine Nat.not_le_of_lt hlong (sizeBelow_le_of_leaves hbase hsingle hsize (hleaves.concat htakes)
    fun other hother => ?_)
  rcases List.mem_append.mp hother with hother | hother
  · exact hbefore other hother
  · rw [List.mem_singleton.mp hother]
    exact (isEntryName_iff.mp hlast).2.2

/-- Without `**` all that a pattern leads to is in reach of a directory with a path that is not too
long. -/
theorem sizeBelow_le_pathLimit (hlawful : g.disk.Lawful) (hbase : base.isAbsolute = true)
    (hsingle : ∀ p ∈ patterns, p.isRecursive = false)
    (hsize : base.text.utf8ByteSize + patterns.length * (nameLimit + 1) ≤ pathLimit)
    (hleaves : Leaves patterns names left) (hlookup : g.disk.lookup (mid ++ descent names) ≠ none) :
    sizeBelow base names ≤ pathLimit := by
  refine sizeBelow_le_of_leaves hbase hsingle hsize hleaves fun name hname => ?_
  cases hidle : Path.isIdle name with
  | true =>
      rcases Path.isIdle_iff.mp hidle with rfl | rfl <;> decide
  | false =>
      have hmem : name ∈ mid ++ descent names :=
        List.mem_append_right _ (List.mem_filter.mpr ⟨hname, by simp [hidle]⟩)
      obtain ⟨entry, hentry, heq⟩ := List.mem_map.mp
        ((isSome_lookup_iff (List.ne_nil_of_mem hmem)).mp (Option.ne_none_iff_isSome.mp hlookup))
      exact (isEntryName_iff.mp (hlawful.names entry hentry name (heq ▸ hmem))).2.2

theorem Encloses.of_isLinkless (hlawful : g.disk.Lawful) (hlinkless : g.disk.isLinkless = true)
    (hbase : base.isAbsolute = true) (henters : g.disk.Enters base mid)
    (hdownward : ∀ p ∈ patterns, ¬p.Allows "..")
    (hsingle : ∀ p ∈ patterns, p.isRecursive = false)
    (hsize : base.text.utf8ByteSize + patterns.length * (nameLimit + 1) ≤ pathLimit) :
    g.Encloses base mid patterns where
  lawful := hlawful
  absolute := hbase
  enters := henters
  linkless _ := lookup_ne_link hlinkless _
  downward := hdownward
  short _ _ hleaves hlookup :=
    sizeBelow_le_pathLimit hlawful hbase hsingle hsize hleaves hlookup

/-- A name leads to what stands under it, or to the directory that it is looked up in. -/
theorem Encloses.locate_below_iff (h : Encloses g base mid patterns)
    (hleaves : Leaves patterns (names ++ [name]) left)
    (henters : ∀ loc, g.disk.Enters (base.below names) loc ↔
      loc = mid ++ descent names ∧ g.disk.lookup loc = some .directory) (followLast : Bool)
    (loc : Location) :
    (g.disk.locate followLast g.cwd (base.below (names ++ [name])) = .ok loc ∧
        g.disk.lookup loc ≠ none) ↔
      loc = mid ++ descent (names ++ [name]) ∧ g.disk.lookup loc ≠ none ∧
        g.disk.lookup (mid ++ descent names) = some .directory := by
  have habsolute := Path.isAbsolute_below h.absolute names
  have hname : '/' ∉ name.toList := hleaves.notMem_slash name (by simp)
  have hup : name ≠ ".." := fun heq => hleaves.notMem_up h.downward (by simp [heq])
  have hlink : ∀ target, g.disk.lookup (mid ++ descent names ++ [name]) ≠ some (.link target) := by
    simpa using fun target => h.linkless (descent names ++ [name]) target
  rw [Path.below_concat, descent_concat, ← List.append_assoc]
  constructor
  · rintro ⟨hloc, hlookup⟩
    obtain ⟨-, mid', hmid'⟩ := exists_enters_of_locate_join habsolute hname hloc
    obtain ⟨rfl, hdirectory⟩ := (henters mid').mp hmid'
    exact ⟨((hmid'.locate_join_iff habsolute hname hup hlink).mp hloc).2.2, hlookup, hdirectory⟩
  · rintro ⟨rfl, hlookup, hdirectory⟩
    have hmid := (henters _).mpr ⟨rfl, hdirectory⟩
    have hshort := h.short _ _ hleaves (by rwa [descent_concat, ← List.append_assoc])
    rw [sizeBelow, Path.below_concat] at hshort
    have hstands : Path.isIdle name = false → isEntryName name = true := by
      intro hidle
      have hsome : g.disk.lookup (mid ++ descent names ++ [name]) ≠ none := by
        simpa [hidle] using hlookup
      exact isEntryName_of_mem_names h.lawful
        (mem_names_iff.mpr (Option.ne_none_iff_isSome.mp hsome))
    have hnul : '\x00' ∉ name.toList := by
      cases hidle : Path.isIdle name with
      | false => exact (isEntryName_iff.mp (hstands hidle)).2.1
      | true =>
          rcases Path.isIdle_iff.mp hidle with rfl | rfl <;> decide
    have hfault := Path.textFault?_join_eq_none habsolute hname hmid.1 hnul hshort
    exact ⟨(hmid.locate_join_iff habsolute hname hup hlink).mpr
      ⟨hfault, fun hidle => (isEntryName_iff.mp (hstands hidle)).2.2, rfl⟩, hlookup⟩

theorem Encloses.lookup_of_concat (h : Encloses g base mid patterns)
    (hlookup : g.disk.lookup (mid ++ descent (names ++ [name])) = some .directory) :
    g.disk.lookup (mid ++ descent names) = some .directory := by
  rw [descent_concat, ← List.append_assoc] at hlookup
  cases hidle : Path.isIdle name with
  | true => simpa [hidle] using hlookup
  | false =>
      have hparent := h.lawful.lookup_dropLast hlookup
      simpa [hidle] using hparent

/-- Names lead to the directory that stands under them. -/
theorem Encloses.enters_below_iff (h : Encloses g base mid patterns)
    (hleaves : Leaves patterns names left) :
    g.disk.Enters (base.below names) loc ↔
      loc = mid ++ descent names ∧ g.disk.lookup loc = some .directory := by
  -- The last name is looked up in the directory that the names before it lead to.
  induction names using List.reverseRecOn generalizing left loc with
  | nil =>
      have hhere : mid ++ descent [] = mid := List.append_nil mid
      rw [hhere]
      constructor
      · intro hloc
        exact ⟨hloc.unique h.enters, hloc.2.2⟩
      · rintro ⟨rfl, -⟩
        exact h.enters
  | append_singleton names name ih =>
      obtain ⟨more, hmore⟩ := hleaves.exists_of_prefix (List.prefix_append names [name])
      have hiff := h.locate_below_iff hleaves (fun _ => ih hmore) true
      rw [enters_iff_locate (Path.isAbsolute_below h.absolute _) g.cwd]
      constructor
      · rintro ⟨hloc, hlookup⟩
        exact ⟨((hiff loc).mp ⟨hloc, by simp [hlookup]⟩).1, hlookup⟩
      · rintro ⟨rfl, hlookup⟩
        exact ⟨((hiff _).mpr ⟨rfl, by simp [hlookup], h.lookup_of_concat hlookup⟩).1, hlookup⟩

theorem Encloses.isDirectory_iff (h : Encloses g base mid patterns)
    (hleaves : Leaves patterns names left) :
    (g.view base).isDirectory names = true ↔
      g.disk.lookup (mid ++ descent names) = some .directory := by
  change g.disk.isDirectory g.cwd (base.below names) = true ↔ _
  rw [Disk.isDirectory_iff (Path.isAbsolute_below h.absolute names)]
  simp only [h.enters_below_iff hleaves, exists_eq_left]

theorem Encloses.holds_nil (h : Encloses g base mid patterns) : (g.view base).holds [] = true :=
  isOk_entryAt_of_isDirectory h.absolute ((Disk.isDirectory_iff h.absolute).mpr ⟨mid, h.enters⟩)

theorem Encloses.holds_concat_iff (h : Encloses g base mid patterns)
    (hleaves : Leaves patterns (names ++ [name]) left) :
    (g.view base).holds (names ++ [name]) = true ↔
      g.disk.lookup (mid ++ descent (names ++ [name])) ≠ none ∧
        g.disk.lookup (mid ++ descent names) = some .directory := by
  obtain ⟨more, hmore⟩ := hleaves.exists_of_prefix (List.prefix_append names [name])
  change (g.disk.entryAt false g.cwd (base.below (names ++ [name]))).isOk = true ↔ _
  simp only [isOk_entryAt_iff,
    h.locate_below_iff hleaves (fun _ => h.enters_below_iff hmore) false, exists_eq_left]

theorem Encloses.readDirectory_iff (h : Encloses g base mid patterns)
    (hleaves : Leaves patterns names left) {entries : List (String × Entry)} :
    g.disk.readDirectory g.cwd (base.below names) = .ok entries ↔
      g.disk.lookup (mid ++ descent names) = some .directory ∧
        entries = g.disk.listing (mid ++ descent names) := by
  rw [readDirectory_eq_ok_iff_enters (Path.isAbsolute_below h.absolute names)]
  simp only [h.enters_below_iff hleaves, and_assoc, exists_eq_left]

theorem Encloses.children_of_directory (h : Encloses g base mid patterns)
    (hleaves : Leaves patterns names left)
    (hdirectory : g.disk.lookup (mid ++ descent names) = some .directory) :
    (g.view base).children names =
      (g.disk.listing (mid ++ descent names)).map fun (name, e) => (name, e.isDirectory) := by
  rw [view]
  simp only [(h.readDirectory_iff hleaves).mpr ⟨hdirectory, rfl⟩]
  refine List.map_congr_left fun (name, e) hmem => ?_
  have hlookup := mem_listing_iff.mp hmem
  cases e with
  | link target =>
      rw [List.append_assoc] at hlookup
      exact absurd hlookup (h.linkless _ target)
  | file | directory => rfl

theorem Encloses.children_of_other (h : Encloses g base mid patterns)
    (hleaves : Leaves patterns names left)
    (hother : g.disk.lookup (mid ++ descent names) ≠ some .directory) :
    (g.view base).children names = [] := by
  rw [view]
  simp only
  cases hread : g.disk.readDirectory g.cwd (base.below names) with
  | error fault => rfl
  | ok entries => exact absurd ((h.readDirectory_iff hleaves).mp hread).1 hother

/-- Directories that hold the same look the same. -/
theorem Encloses.alikeAt (h : Encloses g base mid patterns) (h' : Encloses g' base' mid' patterns)
    (hsame : ∀ rest, g.disk.lookup (mid ++ rest) = g'.disk.lookup (mid' ++ rest))
    (hleaves : Leaves patterns names left) :
    (g.view base).AlikeAt (g'.view base') names := by
  refine ⟨?_, ?_, ?_⟩
  · rw [Bool.eq_iff_iff, h.isDirectory_iff hleaves, h'.isDirectory_iff hleaves, hsame]
  · cases names using List.reverseRecOn with
    | nil => rw [h.holds_nil, h'.holds_nil]
    | append_singleton names name =>
        rw [Bool.eq_iff_iff, h.holds_concat_iff hleaves, h'.holds_concat_iff hleaves, hsame, hsame]
  · have hlisting : g.disk.listing (mid ++ descent names) =
        g'.disk.listing (mid' ++ descent names) :=
      listing_congr h.lawful h'.lawful fun name => by
        rw [List.append_assoc, List.append_assoc, hsame]
    by_cases hdirectory : g.disk.lookup (mid ++ descent names) = some .directory
    · rw [h.children_of_directory hleaves hdirectory, hlisting,
        h'.children_of_directory hleaves (hsame _ ▸ hdirectory)]
    · rw [h.children_of_other hleaves hdirectory,
        h'.children_of_other hleaves (hsame _ ▸ hdirectory)]

end Ground
end Wildcard
end DeclarativeBuild
