import DeclarativeBuild.CommandLine.Run
import DeclarativeBuild.Proofs.Tables

/-!
# Changes of a session

Settings, options and overrides change a session one after the other, in any order.  Verbosity and
jobs stay within their bounds, each override that was given is kept once, and a change leaves alone
what it is not about.
-/

namespace DeclarativeBuild
namespace Session

/-- What a session consists of. -/
inductive Field where
  | cwd
  | verbosity
  | jobs
  | overrides
  | discovers
  | settings
deriving DecidableEq, Repr

/-- Two sessions have the same in a field. -/
def SameIn (s t : Session) : Field → Prop
  | .cwd => s.cwd = t.cwd
  | .verbosity => s.verbosity = t.verbosity
  | .jobs => s.jobs = t.jobs
  | .overrides => s.overrides = t.overrides
  | .discovers => s.discovers = t.discovers
  | .settings => s.settings = t.settings

/-- The ways to change a session. -/
inductive Change where
  | setSettings (settings : Settings)
  | loadSettings (w : World) (root : Path)
  | setVerbosity (n : Nat)
  | increaseVerbosity (n : Nat)
  | setJobs (n : Nat)
  | addOverride (name value : String)
  | setDiscovers (on : Bool)

namespace Change

def apply (s : Session) : Change → Session
  | setSettings settings => s.setSettings settings
  | loadSettings w root => s.loadSettings w root
  | setVerbosity n => s.setVerbosity n
  | increaseVerbosity n => s.increaseVerbosity n
  | setJobs n => s.setJobs n
  | addOverride name value => s.addOverride name value
  | setDiscovers on => s.setDiscovers on

/-- The settings that a change puts in force. -/
def settings? : Change → Option Settings
  | setSettings settings => some settings
  | loadSettings w root =>
    some (.combined w (Settings.userPath? w.environment) (Settings.projectPath root))
  | _ => none

def override? : Change → Option (String × String)
  | addOverride name value => some (name, value)
  | _ => none

/-- What a change is about.  Settings are also about verbosity and jobs if they set them. -/
inductive IsAbout : Change → Field → Prop
  | verbosity (n : Nat) : (setVerbosity n).IsAbout .verbosity
  | increase (n : Nat) : (increaseVerbosity n).IsAbout .verbosity
  | jobs (n : Nat) : (setJobs n).IsAbout .jobs
  | override (name value : String) : (addOverride name value).IsAbout .overrides
  | discovery (on : Bool) : (setDiscovers on).IsAbout .discovers
  | settings {c : Change} {settings : Settings} (puts : c.settings? = some settings) :
      c.IsAbout .settings
  | setsVerbosity {c : Change} {settings : Settings} {n : Nat} (puts : c.settings? = some settings)
      (sets : settings.build.verbosity = some n) : c.IsAbout .verbosity
  | setsJobs {c : Change} {settings : Settings} {n : Nat} (puts : c.settings? = some settings)
      (sets : settings.build.jobs = some n) : c.IsAbout .jobs

theorem apply_of_settings? {c : Change} {settings : Settings} (s : Session)
    (h : c.settings? = some settings) : c.apply s = s.setSettings settings := by
  cases c with
  | setSettings _ | loadSettings _ _ =>
      cases h
      rfl
  | setVerbosity _ | increaseVerbosity _ | setJobs _ | addOverride _ _ | setDiscovers _ => cases h

end Change

/-- A session after changes. -/
def after (s : Session) (changes : List Change) : Session :=
  changes.foldl Change.apply s

theorem after_append (s : Session) (changes more : List Change) :
    s.after (changes ++ more) = (s.after changes).after more :=
  List.foldl_append

variable {s : Session}

theorem setSettings_eq (s : Session) (settings : Settings) :
    s.setSettings settings =
      { s with
        verbosity := (settings.build.verbosity.map (min · maxVerbosity)).getD s.verbosity
        jobs := (settings.build.jobs.map (max · 1)).getD s.jobs
        settings } := by
  unfold setSettings
  cases settings.build.verbosity <;> cases settings.build.jobs <;> rfl

/-- Overrides are a table by their names. -/
theorem addOverride_eq (s : Session) (name value : String) :
    s.addOverride name value =
      { s with overrides := putBy Prod.fst (name, value) s.overrides } := by
  have hreplace : ∀ old : String × String,
      (if old.1 = name then (name, value) else old) =
        if old.1 = name then (old.1, value) else (old.1, old.2) := by
    intro old
    by_cases h : old.1 = name <;> simp [h]
  unfold addOverride putBy
  simp only [hreplace]
  split <;> rfl

theorem verbosity_increaseVerbosity (s : Session) (n : Nat) :
    (s.increaseVerbosity n).verbosity = min 3 (s.verbosity + n) := by
  -- The largest count is above the highest verbosity, so that only the latter is a bound.
  simp only [increaseVerbosity, setVerbosity, maxVerbosity, maxCount]
  omega

section Bounds

structure InBounds (s : Session) : Prop where
  verbosity_le : s.verbosity ≤ 3
  one_le_jobs : 1 ≤ s.jobs

theorem inBounds_start (cwd : Path) : InBounds { cwd } :=
  ⟨show 1 ≤ 3 by decide, Nat.le_refl 1⟩

theorem InBounds.setSettings (h : s.InBounds) (settings : Settings) :
    (s.setSettings settings).InBounds := by
  rw [setSettings_eq]
  constructor
  · cases settings.build.verbosity with
    | none => exact h.verbosity_le
    | some n => exact Nat.min_le_right n 3
  · cases settings.build.jobs with
    | none => exact h.one_le_jobs
    | some n => exact Nat.le_max_right n 1

theorem InBounds.apply (h : s.InBounds) (c : Change) : (c.apply s).InBounds := by
  cases c with
  | setSettings settings => exact h.setSettings settings
  | loadSettings w root => exact h.setSettings _
  | setVerbosity n => exact ⟨Nat.min_le_right n 3, h.one_le_jobs⟩
  | increaseVerbosity n => exact ⟨Nat.min_le_right _ 3, h.one_le_jobs⟩
  | setJobs n => exact ⟨h.verbosity_le, Nat.le_max_right n 1⟩
  | addOverride name value =>
      rw [Change.apply, addOverride_eq]
      exact ⟨h.verbosity_le, h.one_le_jobs⟩
  | setDiscovers on => exact ⟨h.verbosity_le, h.one_le_jobs⟩

theorem InBounds.after (h : s.InBounds) (changes : List Change) : (s.after changes).InBounds := by
  induction changes generalizing s with
  | nil => exact h
  | cons c rest ih => exact ih (h.apply c)

end Bounds

theorem overrides_apply (s : Session) (c : Change) :
    (c.apply s).overrides = putAll Prod.fst c.override?.toList s.overrides := by
  cases c with
  | setSettings settings =>
      rw [Change.apply, setSettings_eq]
      rfl
  | loadSettings w root =>
      rw [Change.apply, loadSettings, setSettings_eq]
      rfl
  | addOverride name value =>
      rw [Change.apply, addOverride_eq]
      rfl
  | setVerbosity n | increaseVerbosity n | setJobs n | setDiscovers on => rfl

/-- The overrides are those that were given, whatever else was changed between them. -/
theorem overrides_after (s : Session) (changes : List Change) :
    (s.after changes).overrides =
      putAll Prod.fst (changes.filterMap Change.override?) s.overrides := by
  induction changes generalizing s with
  | nil => rfl
  | cons c rest ih =>
      have hfirst : s.after (c :: rest) = (c.apply s).after rest := rfl
      rw [hfirst, ih, overrides_apply, List.filterMap_cons]
      cases c.override? <;> rfl

section Frame

variable {c : Change} {f : Field}

theorem sameIn_setSettings {settings : Settings} (hputs : c.settings? = some settings)
    (hf : ¬c.IsAbout f) : (s.setSettings settings).SameIn s f := by
  rw [setSettings_eq]
  cases f with
  | verbosity =>
      have hnone : settings.build.verbosity = none :=
        Option.eq_none_iff_forall_ne_some.mpr fun n hn => hf (.setsVerbosity hputs hn)
      simp [SameIn, hnone]
  | jobs =>
      have hnone : settings.build.jobs = none :=
        Option.eq_none_iff_forall_ne_some.mpr fun n hn => hf (.setsJobs hputs hn)
      simp [SameIn, hnone]
  | settings => exact absurd (.settings hputs) hf
  | cwd | overrides | discovers => rfl

theorem sameIn_apply (s : Session) (hf : ¬c.IsAbout f) : (c.apply s).SameIn s f := by
  cases hputs : c.settings? with
  | some settings =>
      rw [Change.apply_of_settings? s hputs]
      exact sameIn_setSettings hputs hf
  | none =>
      cases c with
      | setSettings _ | loadSettings _ _ => cases hputs
      | setVerbosity n =>
          cases f with
          | verbosity => exact absurd (.verbosity n) hf
          | cwd | jobs | overrides | discovers | settings => rfl
      | increaseVerbosity n =>
          cases f with
          | verbosity => exact absurd (.increase n) hf
          | cwd | jobs | overrides | discovers | settings => rfl
      | setJobs n =>
          cases f with
          | jobs => exact absurd (.jobs n) hf
          | cwd | verbosity | overrides | discovers | settings => rfl
      | addOverride name value =>
          rw [Change.apply, addOverride_eq]
          cases f with
          | overrides => exact absurd (.override name value) hf
          | cwd | verbosity | jobs | discovers | settings => rfl
      | setDiscovers on =>
          cases f with
          | discovers => exact absurd (.discovery on) hf
          | cwd | verbosity | jobs | overrides | settings => rfl

end Frame

/-- Whatever changes have been made to a session, verbosity and jobs are within their bounds, and
the names of the overrides are distinct, in the order in which they were first given, each with the
value that it was given last.  Increasing the verbosity adds to it up to the bound.  A change leaves
alone what it is not about; settings that are put in force also replace verbosity and jobs if they
set them. -/
theorem changes_keep_order_and_bounds (cwd : Path) (changes : List Change) :
    let s := after { cwd } changes
    let given := changes.filterMap Change.override?
    s.verbosity ≤ 3 ∧ 1 ≤ s.jobs ∧
    (s.overrides.map Prod.fst).Nodup ∧
    s.overrides.map Prod.fst = (given.map Prod.fst).eraseDups ∧
    (∀ o ∈ s.overrides, given.reverse.find? (·.1 == o.1) = some o) ∧
    (∀ n, (s.increaseVerbosity n).verbosity = min 3 (s.verbosity + n)) ∧
    ∀ c : Change, (∀ f, ¬c.IsAbout f → (c.apply s).SameIn s f) ∧
      ∀ settings, c.settings? = some settings →
        (c.apply s).settings = settings ∧
        (c.apply s).verbosity = (settings.build.verbosity.map (min · 3)).getD s.verbosity ∧
        (c.apply s).jobs = (settings.build.jobs.map (max · 1)).getD s.jobs := by
  intro s given
  have hbounds : s.InBounds := (inBounds_start cwd).after changes
  have htable : s.overrides = putAll Prod.fst given [] := overrides_after { cwd } changes
  rw [htable]
  refine ⟨hbounds.verbosity_le, hbounds.one_le_jobs, nodup_key_putAll given, map_key_putAll given,
    fun o => last_of_mem_putAll, verbosity_increaseVerbosity s,
    fun c => ⟨fun f => sameIn_apply s, fun settings hputs => ?_⟩⟩
  rw [Change.apply_of_settings? s hputs, setSettings_eq]
  exact ⟨rfl, rfl, rfl⟩

/-- Changes that go beyond the bounds, with an override that is given twice. -/
def overgivenChanges : List Change :=
  [.addOverride "x" "1", .setVerbosity 200, .addOverride "out" "dist", .increaseVerbosity 255,
    .setJobs 0, .addOverride "x" "2"]

theorem changes_keep_order_and_bounds_overgivenChanges :
    let s := after { cwd := ⟨"/work"⟩ } overgivenChanges
    let c : Change := .setSettings { build := { verbosity := some 9 } }
    s.overrides = [("x", "2"), ("out", "dist")] ∧
    (overgivenChanges.filterMap Change.override?).reverse.find? (·.1 == "x") = some ("x", "2") ∧
    ¬c.IsAbout .jobs ∧ (c.apply s).SameIn s .jobs ∧
    c.settings? = some { build := { verbosity := some 9 } } ∧ (c.apply s).verbosity = 3 := by
  intro s c
  obtain ⟨-, -, -, -, hlast, -, hchange⟩ :=
    changes_keep_order_and_bounds ⟨"/work"⟩ overgivenChanges
  have hjobs : ¬(Change.setSettings { build := { verbosity := some 9 } }).IsAbout .jobs := by
    rintro (_ | _ | _ | _ | _ | _ | _ | ⟨puts, sets⟩)
    cases puts
    cases sets
  have hoverrides : s.overrides = [("x", "2"), ("out", "dist")] := by decide
  refine ⟨hoverrides, hlast ("x", "2") ?_, hjobs, (hchange c).1 .jobs hjobs, rfl,
    ((hchange c).2 _ rfl).2.1⟩
  rw [hoverrides]
  exact List.mem_cons_self

end Session

namespace CommandLine

open Session (Change)

/-- The settings that are loaded from beside the description. -/
def settingsChanges (w : World) (options : Options) : List Change :=
  match (Session.resolve { cwd := w.cwd } (options.file?.getD defaultFile)).parent? with
  | some directory => [.loadSettings w directory]
  | none => []

def verbosityChanges (options : Options) : List Change :=
  if options.quiet then [.setVerbosity 0]
  else if options.verbose > 0 then [.increaseVerbosity options.verbose]
  else []

def overrideChanges (options : Options) : List Change :=
  options.properties.map fun o => .addOverride o.1 o.2

/-- The changes that a command line makes to a session. -/
def sessionChanges (w : World) (options : Options) : List Change :=
  settingsChanges w options ++ (verbosityChanges options ++
    (.setDiscovers (!options.noConfig) :: overrideChanges options))

theorem session_eq_after (w : World) (options : Options) :
    session w options = Session.after { cwd := w.cwd } (sessionChanges w options) := by
  have hoverrides (s : Session) : options.properties.foldl (fun s o => s.addOverride o.1 o.2) s =
      s.after (overrideChanges options) := by
    rw [Session.after, overrideChanges, List.foldl_map]
    rfl
  simp only [session]
  rw [hoverrides, sessionChanges, Session.after_append, Session.after_append]
  refine congrArg (Session.after · (overrideChanges options)) ?_
  refine congrArg (Session.setDiscovers · !options.noConfig) ?_
  unfold settingsChanges verbosityChanges
  cases (Session.resolve { cwd := w.cwd } (options.file?.getD defaultFile)).parent? with
  | none => split_ifs <;> rfl
  | some directory => split_ifs <;> rfl

theorem override?_sessionChanges (w : World) (options : Options) :
    (sessionChanges w options).filterMap Change.override? = options.properties := by
  have hsettings : (settingsChanges w options).filterMap Change.override? = [] := by
    unfold settingsChanges
    split <;> rfl
  have hverbosity : (verbosityChanges options).filterMap Change.override? = [] := by
    unfold verbosityChanges
    split
    · rfl
    · split <;> rfl
  have hoverrides : (overrideChanges options).filterMap Change.override? = options.properties := by
    rw [overrideChanges, List.filterMap_map]
    exact List.filterMap_some
  rw [sessionChanges, List.filterMap_append, List.filterMap_append, hsettings, hverbosity]
  exact hoverrides

/-- Whatever its settings and options say, the session of a command line is within the bounds, and
its overrides are the table of the properties that are given. -/
theorem session_inBounds (w : World) (options : Options) :
    (session w options).InBounds ∧
      (session w options).overrides = putAll Prod.fst options.properties [] := by
  rw [session_eq_after]
  refine ⟨(Session.inBounds_start w.cwd).after _, ?_⟩
  rw [Session.overrides_after, override?_sessionChanges]

end CommandLine
end DeclarativeBuild
