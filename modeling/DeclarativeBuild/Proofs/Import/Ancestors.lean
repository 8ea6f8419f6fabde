import DeclarativeBuild.Proofs.Disk.Arrival
import DeclarativeBuild.Proofs.Import.Discovery
import Mathlib.Data.List.Forall2

/-!
# Configuration files above a directory

Configuration files are looked for along the path to a directory as it is written.  Without steps
upward the path goes through the directories above it, each once.  With them, it also goes through
directories that it leaves again.
-/

namespace DeclarativeBuild

namespace Disk

def holdsConfig (d : Disk) (loc : Location) : Bool :=
  (d.lookup (loc ++ [configFileName])).any Entry.isFile

def configsIn (d : Disk) (locs : List Location) : List Location :=
  (locs.filter d.holdsConfig).map (· ++ [configFileName])

/-- A path goes through no other configuration files than those above where it leads if and only if
there is none in a directory that it leaves upward again or comes back to. -/
theorem configsIn_above_eq_iff (d : Disk) (names : List String) :
    d.configsIn (above (arrival names)) = d.configsIn (passed names) ↔
      ∀ n < names.length, d.holdsConfig (arrival (names.take n)) = true → Lasts names n := by
  have hpassed : passed names =
      (List.range names.length).map fun n => arrival (names.take n) := List.map_map
  have hinj : Function.Injective fun loc : Location => loc ++ [configFileName] :=
    fun _ _ heq => List.append_cancel_right heq
  rw [configsIn, configsIn, (List.map_injective_iff.mpr hinj).eq_iff, above_arrival, hpassed,
    List.filter_map, List.filter_map, List.filter_comm]
  constructor
  · intro heq n hn hholds
    -- Different steps can lead to one directory, so only how many there are tells them apart.
    have hlength := congrArg List.length heq
    rw [List.length_map, List.length_map, List.length_filter_eq_length_iff] at hlength
    exact of_decide_eq_true (hlength n (List.mem_filter.mpr ⟨List.mem_range.mpr hn, hholds⟩))
  · intro hlasts
    congr 1
    rw [List.filter_eq_self]
    intro n hn
    obtain ⟨hrange, hholds⟩ := List.mem_filter.mp hn
    exact decide_eq_true (hlasts n (List.mem_range.mp hrange) hholds)

end Disk

namespace World

open Disk

/-- Files that are found at some locations, in this order. -/
def Finds (w : World) (files : List Path) (locs : List Location) : Prop :=
  List.Forall₂ (fun file loc => w.disk.locate true w.cwd file = .ok loc) files locs

variable {w : World} {parent directory : Path}

theorem isStep_configFileName : IsStep configFileName :=
  ⟨by decide, by decide, by decide⟩

theorem locate_config_iff (hd : w.disk.IsPlain) (hp : parent.isAbsolute = true)
    (hf : textFault? (parent.join ⟨configFileName⟩) = none) {loc : Location} :
    w.disk.locate true w.cwd (parent.join ⟨configFileName⟩) = .ok loc ↔
      w.disk.Walkable [] (location parent) ∧
        loc = arrival (location parent) ++ [configFileName] := by
  have hname : '/' ∉ configFileName.toList := by decide
  obtain ⟨before, hpieces, hsteps⟩ := Path.exists_pieces_join parent hname
  have hstart : startOf w.cwd (parent.join ⟨configFileName⟩) = [] :=
    if_pos (Path.isAbsolute_join hp _)
  rw [locate_eq_descend hd.linkless, hf, hstart, hpieces]
  simp only
  rw [descend_append_singleton_iff isStep_configFileName, hsteps]
  rfl

theorem isFile_config (hd : w.disk.IsPlain) (hp : parent.isAbsolute = true)
    (hf : textFault? (parent.join ⟨configFileName⟩) = none)
    (hw : w.disk.holdsConfig (arrival (location parent)) = true →
      w.disk.Walkable [] (location parent)) :
    w.isFile (parent.join ⟨configFileName⟩) =
      w.disk.holdsConfig (arrival (location parent)) := by
  have hlocate : ∀ loc, w.disk.locate true w.cwd (parent.join ⟨configFileName⟩) = .ok loc ↔
      w.disk.Walkable [] (location parent) ∧
        loc = arrival (location parent) ++ [configFileName] :=
    fun _ => locate_config_iff hd hp hf
  rw [isFile, Disk.isFile, entryAt]
  cases hl : w.disk.locate true w.cwd (parent.join ⟨configFileName⟩) with
  | error fault =>
      symm
      rw [Bool.eq_false_iff]
      intro hholds
      rw [(hlocate _).mpr ⟨hw hholds, rfl⟩] at hl
      cases hl
  | ok loc =>
      obtain ⟨-, rfl⟩ := (hlocate loc).mp hl
      rw [holdsConfig]
      simp only
      cases w.disk.lookup (arrival (location parent) ++ [configFileName]) <;> rfl

/-- Discovery finds the configuration files of the directories that a path goes through. -/
theorem finds_configFiles (hd : w.disk.IsPlain) (hp : directory.isAbsolute = true)
    (hf : ∀ parent ∈ directory.parents, textFault? (parent.join ⟨configFileName⟩) = none)
    (hw : ∀ before ∈ above (location directory), w.disk.holdsConfig (arrival before) = true →
      w.disk.Walkable [] before) :
    w.Finds (w.configFiles directory) (w.disk.configsIn (passed (location directory))) := by
  have hparents : directory.parents.reverse.map location = above (location directory) := by
    rw [List.map_reverse, map_location_parents hp, List.reverse_reverse]
  have hsame : ∀ parent ∈ directory.parents.reverse, w.isFile (parent.join ⟨configFileName⟩) =
      w.disk.holdsConfig (arrival (location parent)) := by
    intro parent hm
    have hparent := List.mem_reverse.mp hm
    exact isFile_config hd (Path.isAbsolute_of_mem_parents hp hparent) (hf parent hparent)
      (hw _ (hparents ▸ List.mem_map_of_mem hm))
  rw [configFiles, ← List.filter_reverse, ← List.map_reverse, List.filter_map, configsIn, passed,
    ← hparents, List.map_map, List.filter_map, List.map_map, Finds, List.forall₂_map_left_iff,
    List.forall₂_map_right_iff]
  have hfilter : directory.parents.reverse.filter (w.isFile ∘ (·.join ⟨configFileName⟩)) =
      directory.parents.reverse.filter (w.disk.holdsConfig ∘ arrival ∘ location) :=
    List.filter_congr hsame
  rw [hfilter, List.forall₂_same]
  intro parent hm
  obtain ⟨hparent, hholds⟩ := List.mem_filter.mp hm
  have hparent' := List.mem_reverse.mp hparent
  rw [locate_config_iff hd (Path.isAbsolute_of_mem_parents hp hparent') (hf parent hparent')]
  exact ⟨hw _ (hparents ▸ List.mem_map_of_mem hparent) hholds, rfl⟩

theorem Finds.unique {files : List Path} {locs locs' : List Location} (h : w.Finds files locs)
    (h' : w.Finds files locs') : locs = locs' := by
  induction h generalizing locs' with
  | nil => exact (List.forall₂_nil_left_iff.mp h').symm
  | cons hfile _ ih =>
      obtain ⟨loc, rest, hloc, hrest, rfl⟩ := List.forall₂_cons_left_iff.mp h'
      rw [Except.ok.inj (hfile.symm.trans hloc), ih hrest]

/-- Without steps upward, discovery finds the configuration files of the directories above. -/
theorem finds_above (hd : w.disk.IsPlain) (hp : directory.isAbsolute = true)
    (hf : ∀ parent ∈ directory.parents, textFault? (parent.join ⟨configFileName⟩) = none)
    (hup : ".." ∉ location directory) :
    w.Finds (w.configFiles directory) (w.disk.configsIn (above (location directory))) := by
  rw [← passed_eq_above hup]
  apply finds_configFiles hd hp hf
  intro before hm hholds
  obtain ⟨n, -, rfl⟩ := List.mem_map.mp hm
  have hbefore : ".." ∉ (location directory).take n := fun h => hup (List.mem_of_mem_take h)
  rw [arrival_eq hbefore] at hholds
  unfold holdsConfig at hholds
  cases hl : w.disk.lookup ((location directory).take n ++ [configFileName]) with
  | none => simp [hl] at hholds
  | some e => exact hd.walkable [] hbefore (List.cons_ne_nil _ _) hl

/-- On the way to a directory that is there, discovery finds the configuration files of all that the
path goes through. -/
theorem finds_passed (hd : w.disk.IsPlain) (hp : directory.isAbsolute = true)
    (hf : ∀ parent ∈ directory.parents, textFault? (parent.join ⟨configFileName⟩) = none)
    {loc : Location} (hl : w.disk.locate true w.cwd directory = .ok loc)
    (hdir : w.disk.lookup loc = some .directory) :
    loc = arrival (location directory) ∧
      w.Finds (w.configFiles directory) (w.disk.configsIn (passed (location directory))) := by
  rw [locate_eq_descend hd.linkless] at hl
  cases hfault : textFault? directory with
  | some fault => simp [hfault] at hl
  | none =>
      simp only [hfault] at hl
      rw [startOf, if_pos hp] at hl
      obtain ⟨hwalk, hloc⟩ := walkable_of_descend hl hdir
      refine ⟨hloc, finds_configFiles hd hp hf fun before hm _ => ?_⟩
      obtain ⟨n, -, rfl⟩ := List.mem_map.mp hm
      have hsteps : w.disk.Walkable []
          ((location directory).take n ++ (location directory).drop n) := by
        rwa [List.take_append_drop]
      exact hsteps.of_append

/-- Those are the ones of the directories above it if and only if there is none in a directory that
the path leaves upward again or comes back to. -/
theorem finds_above_iff (hd : w.disk.IsPlain) (hp : directory.isAbsolute = true)
    (hf : ∀ parent ∈ directory.parents, textFault? (parent.join ⟨configFileName⟩) = none)
    {loc : Location} (hl : w.disk.locate true w.cwd directory = .ok loc)
    (hdir : w.disk.lookup loc = some .directory) :
    w.Finds (w.configFiles directory) (w.disk.configsIn (above loc)) ↔
      ∀ n m, n < m → m ≤ (location directory).length →
        (arrival ((location directory).take m)).length ≤
          (arrival ((location directory).take n)).length →
        w.disk.holdsConfig (arrival ((location directory).take n)) = false := by
  obtain ⟨rfl, hfinds⟩ := finds_passed hd hp hf hl hdir
  have hiff : w.Finds (w.configFiles directory)
        (w.disk.configsIn (above (arrival (location directory)))) ↔
      w.disk.configsIn (above (arrival (location directory))) =
        w.disk.configsIn (passed (location directory)) :=
    ⟨fun h => h.unique hfinds, fun heq => heq ▸ hfinds⟩
  rw [hiff, configsIn_above_eq_iff]
  constructor
  · intro hlasts n m hnm hm hle
    rw [Bool.eq_false_iff]
    intro hholds
    have hlt := hlasts n (Nat.lt_of_lt_of_le hnm hm) hholds m hm hnm
    omega
  · intro hnone n hn hholds m hm hnm
    by_contra hle
    have hfalse := hnone n m hnm hm (Nat.not_lt.mp hle)
    rw [hholds] at hfalse
    cases hfalse

end World

open Import Project Disk

theorem isAbsolute_resolve {s : Session} (hc : s.cwd.isAbsolute = true) (p : Path) :
    (s.resolve p).isAbsolute = true := by
  unfold Session.resolve
  split
  · assumption
  · exact Path.isAbsolute_join hc p

theorem isAbsolute_directory {s : Session} (hc : s.cwd.isAbsolute = true) (buildFile : Path) :
    ((s.resolve buildFile).parent?.getD s.cwd).isAbsolute = true := by
  have hresolve := isAbsolute_resolve hc buildFile
  cases hp : (s.resolve buildFile).parent? with
  | none => exact hc
  | some directory => exact Path.isAbsolute_of_mem_parents hresolve (List.mem_of_head? hp)

/-- A project is loaded after the configuration files that discovery finds, of which none has a path
that is too long to be looked up.  Where the path to the directory of the build file has no steps
upward, these are the ones of the directories above it, from the root down.  Where it has some, they
are if and only if there is none in a directory that the path leaves upward again or comes back
to. -/
theorem load_finds_above (w : World) (depth : Nat) (s : Session) (buildFile : Path)
    (hd : w.disk.IsPlain) (hc : s.cwd.isAbsolute = true)
    (hf : ∀ parent ∈ ((s.resolve buildFile).parent?.getD s.cwd).parents,
      textFault? (parent.join ⟨configFileName⟩) = none) :
    let file := s.resolve buildFile
    let directory := file.parent?.getD s.cwd
    let found := w.configFiles directory
    let read := runFrom (Loading.opening w s directory) (found.forM (importConfig w depth))
    let steps := location directory
    (load w depth (s.setDiscovers true) buildFile).1 =
        (read.1.bind fun _ => read.2.finish w depth file) ∧
      (".." ∉ steps → w.Finds found (w.disk.configsIn (above steps))) ∧
      ∀ loc, w.disk.locate true w.cwd directory = .ok loc →
        w.disk.lookup loc = some .directory →
        (w.Finds found (w.disk.configsIn (above loc)) ↔
          ∀ n m, n < m → m ≤ steps.length →
            (arrival (steps.take m)).length ≤ (arrival (steps.take n)).length →
            w.disk.holdsConfig (arrival (steps.take n)) = false) := by
  have hp := isAbsolute_directory hc buildFile
  exact ⟨load_setDiscovers w depth s buildFile, World.finds_above hd hp hf,
    fun loc hl hdir => World.finds_above_iff hd hp hf hl hdir⟩

section Detours

/-- Files of which two are configuration files, above a build file and beside it. -/
def besides : World :=
  .holding [(["config.xml"], "<buildcc/>"), (["p", "q", "build.xml"], "<buildcc/>"),
    (["p", "q", "config.xml"], "<buildcc/>")] [["p"], ["p", "q"], ["p", "r"]]

theorem isPlain_besides : besides.disk.IsPlain :=
  isPlain_of_looksPlain (by rfl)

theorem locate_besides :
    besides.disk.locate true besides.cwd ⟨"/p/r/../q"⟩ = .ok ["p", "q"] := by
  rw [locate_eq_descend isPlain_besides.linkless]
  rfl

/-- The configuration file above a build file is found from the directory that is above it too, and
from one beside it. -/
theorem load_finds_above_besides :
    besides.Finds (besides.configFiles ⟨"/p/./q"⟩) [["config.xml"]] ∧
      besides.Finds (besides.configFiles ⟨"/p/r/../q"⟩) [["config.xml"]] := by
  have hconfigs : besides.disk.configsIn (above ["p", "q"]) = [["config.xml"]] := by rfl
  have hwithin := (load_finds_above besides 0 { cwd := ⟨"/p"⟩ } ⟨"./q/build.xml"⟩ isPlain_besides
    (by rfl) (by decide)).2.1
  have hbeside := (load_finds_above besides 0 { cwd := ⟨"/p/r"⟩ } ⟨"../q/build.xml"⟩ isPlain_besides
    (by rfl) (by decide)).2.2
  have hdirectory : (({ cwd := ⟨"/p"⟩ } : Session).resolve ⟨"./q/build.xml"⟩).parent?.getD
      ({ cwd := ⟨"/p"⟩ } : Session).cwd = ⟨"/p/./q"⟩ := by rfl
  have hdirectory' : (({ cwd := ⟨"/p/r"⟩ } : Session).resolve ⟨"../q/build.xml"⟩).parent?.getD
      ({ cwd := ⟨"/p/r"⟩ } : Session).cwd = ⟨"/p/r/../q"⟩ := by rfl
  rw [hdirectory] at hwithin
  rw [hdirectory'] at hbeside
  have hsteps : location ⟨"/p/./q"⟩ = ["p", "q"] := by rfl
  have hsteps' : location ⟨"/p/r/../q"⟩ = ["p", "r", "..", "q"] := by rfl
  have hnone : ∀ m ≤ 4, ∀ n < m, (arrival (["p", "r", "..", "q"].take m)).length ≤
      (arrival (["p", "r", "..", "q"].take n)).length →
        besides.disk.holdsConfig (arrival (["p", "r", "..", "q"].take n)) = false := by
    decide
  rw [hsteps, hconfigs] at hwithin
  rw [hsteps'] at hbeside
  have hfinds := (hbeside _ locate_besides rfl).mpr fun n m hnm hm => hnone m hm n hnm
  rw [hconfigs] at hfinds
  exact ⟨hwithin (by decide), hfinds⟩

/-- A configuration file in a directory that the path to the build file leaves again. -/
def detour : World :=
  .holding [(["a", "config.xml"], "<buildcc><property name=\"out\" value=\"foreign\"/></buildcc>"),
    (["b", "build.xml"], "<buildcc><property name=\"out\" value=\"own\"/></buildcc>")]
    [["a"], ["b"]]

theorem configFiles_detour : detour.configFiles ⟨"/a/../b"⟩ = [⟨"/a/config.xml"⟩] := by
  have h : detour.disk.isLinkless = true := World.isLinkless_holding _ _
  have hisFile : detour.isFile = fun p => detour.isFile p := rfl
  rw [World.configFiles, hisFile]
  simp only [World.isFile, Disk.isFile, Disk.entryAt, Disk.locate_eq_descend h]
  rfl

theorem load_of_configFiles {w : World} {s : Session} {buildFile : Path} {files : List Path}
    (depth : Nat)
    (h : w.configFiles ((s.resolve buildFile).parent?.getD s.cwd) = files) :
    let read := runFrom (Loading.opening w s ((s.resolve buildFile).parent?.getD s.cwd))
      (files.forM (importConfig w depth))
    (load w depth (s.setDiscovers true) buildFile).1 =
      (read.1.bind fun _ => read.2.finish w depth (s.resolve buildFile)) := by
  subst h
  exact load_setDiscovers w depth s buildFile

/-- A project is loaded after a configuration file of a directory that is not above the one of its
build file. -/
theorem detour_load :
    let s : Session := { cwd := ⟨"/"⟩ }
    let file := s.resolve ⟨"/a/../b/build.xml"⟩
    let directory := file.parent?.getD s.cwd
    let read (depth : Nat) := runFrom (Loading.opening detour s directory)
      ([⟨"/a/config.xml"⟩].forM (importConfig detour depth))
    detour.disk.IsPlain ∧ detour.disk.locate true detour.cwd directory = .ok ["b"] ∧
      (∀ depth, (load detour depth (s.setDiscovers true) ⟨"/a/../b/build.xml"⟩).1 =
        ((read depth).1.bind fun _ => (read depth).2.finish detour depth file)) ∧
      ¬detour.Finds (detour.configFiles directory) (detour.disk.configsIn (above ["b"])) := by
  intro s file directory read
  have hplain : detour.disk.IsPlain := isPlain_of_looksPlain (by rfl)
  have hdirectory : directory = ⟨"/a/../b"⟩ := by decide
  have hfound : detour.configFiles directory = [⟨"/a/config.xml"⟩] := by
    rw [hdirectory, configFiles_detour]
  have hconfigs : detour.disk.configsIn (above ["b"]) = [] := by rfl
  refine ⟨hplain, ?_, fun depth => load_of_configFiles depth hfound, ?_⟩
  · rw [hdirectory, locate_eq_descend hplain.linkless]
    rfl
  · rw [hfound, hconfigs]
    intro h
    cases h

end Detours

end DeclarativeBuild
