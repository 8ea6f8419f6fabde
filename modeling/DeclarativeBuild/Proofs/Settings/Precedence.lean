import DeclarativeBuild.Proofs.Disk.Linkless
import DeclarativeBuild.Settings
import Mathlib

/-!
# Which settings prevail

Key by key, the settings of a project prevail over those of the user, and these over what holds
without any.  A file counts only if all of it can be read as settings.  An empty list of arguments
is kept like a list that was not set, so that one of the project does not prevail.
-/

namespace DeclarativeBuild
namespace Settings

/-- What can be set. -/
inductive Key where
  | verbosity
  | jobs
  | clang
  | clangxx
  | gcc
  | gxx
  | dosbox
  | dosboxArgs
  | wcl
deriving DecidableEq, Repr

/-- What a key is set to. -/
inductive Setting where
  | number (n : Nat)
  | path (p : Path)
  | word (text : String)
  | words (texts : List String)
deriving DecidableEq, Repr

namespace Key

/-- The group that a key stands in. -/
def group : Key → String
  | verbosity | jobs => "build"
  | clang | clangxx | gcc | gxx | dosbox | dosboxArgs | wcl => "toolchain"

def name : Key → String
  | verbosity => "verbosity"
  | jobs => "jobs"
  | clang => "clang"
  | clangxx => "clangxx"
  | gcc => "gcc"
  | gxx => "gxx"
  | dosbox => "dosbox"
  | dosboxArgs => "dosbox_args"
  | wcl => "wcl"

/-- The place of a key in a group that is written as an array. -/
def position : Key → Nat
  | verbosity | clang => 0
  | jobs | clangxx => 1
  | gcc => 2
  | gxx => 3
  | dosbox => 4
  | dosboxArgs => 5
  | wcl => 6

/-- The setting that a value stands for, if it has the type of the key. -/
def read : Key → Toml.Value → Option Setting
  | verbosity, v => (naturalBelow 256 v).map .number
  | jobs, v => (naturalBelow Toml.integerBound v).map .number
  | dosboxArgs, v => (texts v).map .words
  | wcl, v => (text v).map .word
  | _, v => ((text v).map Path.mk).map .path

end Key

/-- The setting of a key in a group of its document. -/
def settingOf (group : Toml.Value) (k : Key) : Option Setting :=
  (member? group k.name k.position).bind k.read

/-- What a file sets a key to; nothing if it is missing, is no document, or holds a value of another
type than its key's. -/
def given? (w : World) (path : Path) (k : Key) : Option Setting :=
  match w.readText path with
  | .error _ => none
  | .ok source =>
    match Toml.read source with
    | none => none
    | some entries =>
      if (ofEntries entries).isSome then (entries.lookup k.group).bind (settingOf · k) else none

/-- What is in force for a key. -/
def value (s : Settings) : Key → Option Setting
  | .verbosity => s.build.verbosity.map .number
  | .jobs => s.build.jobs.map .number
  | .clang => s.programs.clang.map .path
  | .clangxx => s.programs.clangxx.map .path
  | .gcc => s.programs.gcc.map .path
  | .gxx => s.programs.gxx.map .path
  | .dosbox => s.programs.dosbox.map .path
  | .dosboxArgs => some (.words s.programs.dosboxArgs)
  | .wcl => s.programs.wcl.map .word

/-- What is in force without any files. -/
def fallback : Key → Option Setting :=
  value {}

theorem fallback_eq (k : Key) :
    fallback k = if k = .dosboxArgs then some (.words []) else none := by
  cases k <;> rfl

/-- The settings of a group that is not there are those without any files. -/
theorem cases_of_optional {α : Type} {read : Toml.Value → Option α} {v? : Option Toml.Value}
    {found : Option α} (h : optional read v? = some found) :
    v? = none ∧ found = none ∨ ∃ v a, v? = some v ∧ read v = some a ∧ found = some a := by
  cases v? with
  | none => exact .inl ⟨rfl, (Option.some.inj h).symm⟩
  | some v =>
      obtain ⟨a, ha, rfl⟩ := Option.map_eq_some_iff.mp h
      exact .inr ⟨v, a, rfl, ha, rfl⟩

section Groups

variable {group : Toml.Value} {s : Settings} {k : Key}

theorem settingOf_of_optional {α : Type} {read : Toml.Value → Option α} {wrap : α → Setting}
    {found : Option α} (h : optional read (member? group k.name k.position) = some found)
    (hread : k.read = fun v => (read v).map wrap) : settingOf group k = found.map wrap := by
  rw [settingOf, hread]
  rcases cases_of_optional h with ⟨hv, rfl⟩ | ⟨v, a, hv, ha, rfl⟩
  · rw [hv]
    rfl
  · rw [hv, Option.bind_some, ha]

theorem value_of_buildOf (h : buildOf group = some s.build) (hk : k.group = "build") :
    s.value k = settingOf group k := by
  unfold buildOf at h
  split at h
  · simp at h
  · simp only [Option.bind_eq_bind, Option.bind_eq_some_iff] at h
    obtain ⟨verbosity, hverbosity, jobs, hjobs, hbuild⟩ := h
    cases k with
    | verbosity =>
        rw [settingOf_of_optional (k := .verbosity) hverbosity rfl, value, ← Option.some.inj hbuild]
    | jobs => rw [settingOf_of_optional (k := .jobs) hjobs rfl, value, ← Option.some.inj hbuild]
    | clang | clangxx | gcc | gxx | dosbox | dosboxArgs | wcl => simp [Key.group] at hk

theorem value_of_programsOf (h : programsOf group = some s.programs) (hk : k.group = "toolchain") :
    s.value k = (settingOf group k).or (fallback k) := by
  unfold programsOf at h
  split at h
  · simp at h
  · simp only [Option.bind_eq_bind, Option.bind_eq_some_iff] at h
    obtain ⟨clang, hclang, clangxx, hclangxx, gcc, hgcc, gxx, hgxx, dosbox, hdosbox, args, hargs,
      wcl, hwcl, hprograms⟩ := h
    have hs := (Option.some.inj hprograms).symm
    rw [fallback_eq]
    cases k with
    | verbosity | jobs => simp [Key.group] at hk
    | clang => simp [settingOf_of_optional (k := .clang) hclang rfl, value, hs]
    | clangxx => simp [settingOf_of_optional (k := .clangxx) hclangxx rfl, value, hs]
    | gcc => simp [settingOf_of_optional (k := .gcc) hgcc rfl, value, hs]
    | gxx => simp [settingOf_of_optional (k := .gxx) hgxx rfl, value, hs]
    | dosbox => simp [settingOf_of_optional (k := .dosbox) hdosbox rfl, value, hs]
    | wcl => simp [settingOf_of_optional (k := .wcl) hwcl rfl, value, hs]
    | dosboxArgs =>
        rw [settingOf_of_optional (k := .dosboxArgs) hargs rfl, value, hs]
        cases args <;> rfl

end Groups

/-- The settings of a document are what it sets keys to. -/
theorem value_of_ofEntries {entries : Toml.Entries} {s : Settings} (h : ofEntries entries = some s)
    (k : Key) :
    s.value k = ((entries.lookup k.group).bind (settingOf · k)).or (fallback k) := by
  simp only [ofEntries, Option.bind_eq_bind, Option.bind_eq_some_iff] at h
  obtain ⟨build, hbuild, programs, hprograms, hs⟩ := h
  obtain rfl := Option.some.inj hs
  have hgroup : k.group = "build" ∨ k.group = "toolchain" := by cases k <;> simp [Key.group]
  rcases hgroup with hk | hk
  · have hfallback : fallback k = none := by cases k <;> simp [Key.group] at hk <;> rfl
    rw [hk, hfallback, Option.or_none]
    rcases cases_of_optional hbuild with ⟨hv, rfl⟩ | ⟨group, own, hv, hread, rfl⟩
    · rw [hv]
      cases k <;> simp [Key.group] at hk <;> rfl
    · rw [hv, Option.bind_some]
      exact value_of_buildOf hread hk
  · rw [hk]
    rcases cases_of_optional hprograms with ⟨hv, rfl⟩ | ⟨group, own, hv, hread, rfl⟩
    · rw [hv]
      cases k <;> simp [Key.group] at hk <;> rfl
    · rw [hv, Option.bind_some]
      exact value_of_programsOf hread hk

/-- A file that can be read is there. -/
theorem contains_of_readText {w : World} {path : Path} {source : String}
    (h : w.readText path = .ok source) : w.disk.contains w.cwd path = true := by
  rw [World.readText, Disk.readText] at h
  rw [Disk.contains]
  cases he : w.disk.entryAt true w.cwd path with
  | error cause => simp [he] at h
  | ok e => rfl

/-- A file is loaded as what it sets keys to, and as none if it cannot be. -/
theorem value_loadOrDefault (w : World) (path : Path) (k : Key) :
    (loadOrDefault w path).value k = (given? w path k).or (fallback k) := by
  unfold loadOrDefault load given? ofSource
  cases hr : w.readText path with
  | error cause =>
      simp only [ite_self]
      rfl
  | ok source =>
      rw [if_pos (contains_of_readText hr)]
      simp only
      cases hd : Toml.read source with
      | none => rfl
      | some entries =>
          simp only [Option.bind_some]
          cases hs : ofEntries entries with
          | none => rfl
          | some s => exact value_of_ofEntries hs k

theorem map_or_eq_ite {α : Type} (top base : Option α) (wrap : α → Setting) :
    (top.or base).map wrap = if top.map wrap = none then base.map wrap else top.map wrap := by
  cases top <;> simp

/-- Settings that are put on top prevail where they differ from what is in force without any. -/
theorem value_override (base top : Settings) (k : Key) :
    (base.override top).value k =
      if top.value k = fallback k then base.value k else top.value k := by
  cases k with
  | dosboxArgs =>
      change some (Setting.words (if _ then _ else _)) =
        if some (Setting.words _) = some _ then _ else _
      rw [apply_ite Setting.words, apply_ite some]
      simp [List.isEmpty_iff, value]
  | verbosity | jobs | clang | clangxx | gcc | gxx | dosbox | wcl => exact map_or_eq_ite _ _ _

/-- What a file leaves in force of settings that are in force without it. -/
theorem value_override_loadOrDefault (base : Settings) (w : World) (path : Path) (k : Key) :
    (base.override (loadOrDefault w path)).value k =
      ((given? w path k).filter (some · ≠ fallback k)).or (base.value k) := by
  rw [value_override, value_loadOrDefault]
  cases hg : given? w path k with
  | none => simp
  | some x =>
      rw [Option.some_or, Option.filter_some]
      by_cases hx : some x = fallback k
      · simp only [hx, if_true, ne_eq, not_true_eq_false, decide_false, Bool.false_eq_true,
          if_false, Option.none_or]
      · rw [if_neg hx, if_pos (decide_eq_true hx), Option.some_or]

theorem filter_ne_or {found : Option Setting} {without : Option Setting} :
    (found.filter (some · ≠ without)).or without = found.or without := by
  cases found with
  | none => rfl
  | some x =>
      rw [Option.filter_some]
      by_cases hx : some x = without
      · simp [← hx]
      · rw [if_pos (decide_eq_true hx)]

theorem exists_of_given_dosboxArgs {w : World} {path : Path} {x : Setting}
    (h : given? w path .dosboxArgs = some x) : ∃ args, x = .words args := by
  unfold given? at h
  split at h
  · cases h
  · split at h
    · cases h
    · split at h
      · obtain ⟨group, -, hset⟩ := Option.bind_eq_some_iff.mp h
        obtain ⟨v, -, hread⟩ := Option.bind_eq_some_iff.mp hset
        obtain ⟨args, -, rfl⟩ := Option.map_eq_some_iff.mp hread
        exact ⟨args, rfl⟩
      · cases h

theorem eq_fallback_iff {x : Setting} {k : Key} :
    some x = fallback k ↔ k = .dosboxArgs ∧ x = .words [] := by
  rw [fallback_eq]
  split <;> simp_all

/-- Key by key, the project's setting prevails over the user's, and this over what is in force
without any, where an empty list of arguments counts as none.  So what is in force is the project's
setting wherever the project has one, unless it has no arguments where the user has some. -/
theorem combined_follows_files (w : World) (user? : Option Path) (project : Path) (k : Key) :
    let own? := given? w project k
    let theirs? := user?.bind (given? w · k)
    let found? := (combined w user? project).value k
    found? = ((own?.filter (some · ≠ fallback k)).or theirs?).or (fallback k) ∧
    (found? = (own?.or theirs?).or (fallback k) ↔
      ¬(k = .dosboxArgs ∧ own? = some (.words []) ∧
        ∃ args, args ≠ [] ∧ theirs? = some (.words args))) := by
  intro own? theirs? found?
  have hfound : found? = ((own?.filter (some · ≠ fallback k)).or theirs?).or (fallback k) := by
    rw [Option.or_assoc]
    refine (value_override_loadOrDefault _ w project k).trans (congrArg _ ?_)
    cases user? with
    | none => rfl
    | some path => exact (value_override_loadOrDefault {} w path k).trans filter_ne_or
  refine ⟨hfound, ?_⟩
  rw [hfound]
  cases hown : own? with
  | none => simp
  | some x =>
      rw [Option.filter_some, Option.some_or, Option.some_or]
      by_cases hx : some x = fallback k
      · -- An empty list of arguments counts as none, so that those of the user are left.
        obtain ⟨rfl, rfl⟩ := eq_fallback_iff.mp hx
        have htheirs : ∀ y, theirs? = some y → ∃ args, y = .words args := by
          intro y hy
          obtain ⟨path, -, hgiven⟩ := Option.bind_eq_some_iff.mp hy
          exact exists_of_given_dosboxArgs hgiven
        cases ht : theirs? with
        | none => simp [fallback_eq]
        | some y =>
            obtain ⟨args, rfl⟩ := htheirs y ht
            simp [fallback_eq]
      · have hnot : ¬(k = .dosboxArgs ∧ some x = some (.words []) ∧
            ∃ args, args ≠ [] ∧ theirs? = some (.words args)) := by
          rintro ⟨hk, hempty, -⟩
          exact hx (eq_fallback_iff.mpr ⟨hk, Option.some.inj hempty⟩)
        simp only [if_pos (decide_eq_true hx), hnot, not_false_eq_true, Option.some_or]

/-- Files of a user with arguments for the emulator, and of a project with an empty list of them. -/
def withoutArguments : World :=
  .holding [(["user.toml"], "[toolchain]\ndosbox_args = [\"-nogui\"]\n"),
    (["project.toml"], "[toolchain]\ndosbox_args = []\n")] []

theorem readLines_eq {r next : Toml.Reading} {cs rest below : List Char}
    (hline : Toml.scanLine r cs = some (next, rest)) (hend : Toml.skipLineEnd rest = some below)
    (hshorter : below.length < cs.length) : Toml.readLines r cs = Toml.readLines next below := by
  have hsome : cs.isEmpty = false := by
    cases cs with
    | nil => simp at hshorter
    | cons => rfl
  rw [Toml.readLines, hsome, if_neg Bool.false_ne_true, hline]
  simp only [hend, if_pos hshorter]

/-- A document of a header and one more line. -/
theorem read_of_lines {source : String} {opened filled : Toml.Reading} {below : List Char}
    (hmark : (source.toList.head? == some '\ufeff') = false)
    (hheader : Toml.scanLine ⟨[], []⟩ source.toList = some (opened, '\n' :: below))
    (hstart : Toml.skipLineEnd ('\n' :: below) = some below)
    (hshorter : below.length < source.toList.length)
    (hpair : Toml.scanLine opened below = some (filled, ['\n'])) (hsome : 0 < below.length) :
    Toml.read source = some filled.root := by
  have hend : Toml.skipLineEnd ['\n'] = some [] := by cbv
  have hnone : Toml.readLines filled [] = some filled := by
    rw [Toml.readLines]
    rfl
  simp only [Toml.read, hmark, Bool.false_eq_true, if_false]
  rw [readLines_eq hheader hstart hshorter, readLines_eq hpair hend hsome, hnone, Option.map_some]

/-- The first file sets arguments, and the second an empty list of them. -/
theorem given?_withoutArguments :
    given? withoutArguments ⟨"/user.toml"⟩ .dosboxArgs = some (.words ["-nogui"]) ∧
      given? withoutArguments ⟨"/project.toml"⟩ .dosboxArgs = some (.words []) := by
  have h : withoutArguments.disk.isLinkless = true := World.isLinkless_holding _ _
  have huser : withoutArguments.readText ⟨"/user.toml"⟩ =
      .ok "[toolchain]\ndosbox_args = [\"-nogui\"]\n" :=
    World.readText_of_entryAt ((Disk.entryAt_eq_descend h _ _ _).trans rfl)
  have hproject : withoutArguments.readText ⟨"/project.toml"⟩ =
      .ok "[toolchain]\ndosbox_args = []\n" :=
    World.readText_of_entryAt ((Disk.entryAt_eq_descend h _ _ _).trans rfl)
  let opened : Toml.Reading := ⟨[("toolchain", .table .header [])], ["toolchain"]⟩
  let filled (args : List Toml.Value) : Toml.Reading :=
    ⟨[("toolchain", .table .header [("dosbox_args", .array args)])], ["toolchain"]⟩
  have hsome : Toml.read "[toolchain]\ndosbox_args = [\"-nogui\"]\n" =
      some (filled [.string "-nogui"]).root :=
    read_of_lines (by cbv) (show _ = some (opened, _) by cbv)
      (show _ = some "dosbox_args = [\"-nogui\"]\n".toList by cbv) (by decide) (by cbv) (by decide)
  have hnone : Toml.read "[toolchain]\ndosbox_args = []\n" = some (filled []).root :=
    read_of_lines (by cbv) (show _ = some (opened, _) by cbv)
      (show _ = some "dosbox_args = []\n".toList by cbv) (by decide) (by cbv) (by decide)
  simp only [given?, huser, hproject, hsome, hnone]
  exact ⟨rfl, rfl⟩

/-- A project that sets an empty list of arguments is left with those of the user. -/
theorem combined_loses_empty_list :
    given? withoutArguments ⟨"/project.toml"⟩ .dosboxArgs = some (.words []) ∧
      (combined withoutArguments (some ⟨"/user.toml"⟩) ⟨"/project.toml"⟩).value .dosboxArgs =
        some (.words ["-nogui"]) ∧
      ¬∀ (w : World) (user? : Option Path) (project : Path) (k : Key),
        (combined w user? project).value k =
          ((given? w project k).or (user?.bind (given? w · k))).or (fallback k) := by
  obtain ⟨huser, hproject⟩ := given?_withoutArguments
  have hvalue : (combined withoutArguments (some ⟨"/user.toml"⟩) ⟨"/project.toml"⟩).value
      .dosboxArgs = some (.words ["-nogui"]) := by
    rw [combined, value_override_loadOrDefault, hproject, value_override_loadOrDefault, huser]
    rfl
  refine ⟨hproject, hvalue, fun h => ?_⟩
  have hlaw := h withoutArguments (some ⟨"/user.toml"⟩) ⟨"/project.toml"⟩ .dosboxArgs
  rw [hvalue, hproject] at hlaw
  simp at hlaw

end Settings
end DeclarativeBuild
