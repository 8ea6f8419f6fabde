import DeclarativeBuild.Compiler.Basic
import DeclarativeBuild.Proofs.Disk.Linkless
import DeclarativeBuild.Proofs.Disk.Moving
import DeclarativeBuild.Proofs.Run.Calls
import DeclarativeBuild.Run.Machine

/-!
# Files from the emulator

A step of the compiler in the emulator takes what stands in a fixed file afterwards for what it has
written.  It is, if nothing stood there before; nothing does in a run that began so, as each step
moves the file away.
-/

namespace DeclarativeBuild

namespace Machine

variable {source target : Path} {m : Machine}

theorem move_eq_ok (h : (m.move source target).1 = .ok ()) :
    m.world.disk.contains m.world.cwd source = true ∧
      m.world.disk.rename m.world.cwd source target = .ok (m.move source target).2.world.disk ∧
      (m.move source target).2.world.cwd = m.world.cwd := by
  unfold move at h ⊢
  split at h
  · next hc =>
    rw [if_pos hc]
    split at h
    · next disk hd =>
      rw [hd]
      exact ⟨hc, rfl, rfl⟩
    · cases h
  · cases h

theorem move_ne_missing (h : m.world.disk.contains m.world.cwd source = true) :
    (m.move source target).1 ≠ .error (.missingOutput source) := by
  unfold move
  rw [if_pos h]
  split <;> simp

end Machine

/-- How commands behave, and which files are their own work. -/
structure Runner where
  execute : Invocation → World → Except Failure Int × Disk
  writes : Invocation → World → Path → Bool
  /-- What a command has not written it does not bring about. -/
  vacant_of_unwritten : ∀ {command w p}, writes command w p = false → w.disk.Vacant w.cwd p →
    (execute command w).2.Vacant w.cwd p

/-- The machine with other commands on it. -/
def Runner.host (r : Runner) : Host Machine :=
  { Host.machine with
    execute := fun command m =>
      ((r.execute command m.world).1,
        { m with world := { m.world with disk := (r.execute command m.world).2 } }) }

/-- A step of the compiler in the emulator. -/
inductive Delivery where
  | object (driver : WatcomDriver) (output source : Path) (params : Params)
  | executable (driver : WatcomDriver) (output : Path) (objects libraries : List Path)
      (params : Params)

namespace Delivery

def actions : Delivery → List Action
  | object driver output source params =>
    (Compiler.watcom driver).compileActions output source params
  | executable driver output objects libraries params =>
    (Compiler.watcom driver).linkActions .executable output objects libraries params

def driver : Delivery → WatcomDriver
  | object driver _ _ _ | executable driver _ _ _ _ => driver

/-- The name of the file that the emulator writes, whatever the output of the step. -/
def fixedName : Delivery → String
  | object _ _ _ _ => WatcomDriver.objectOutput
  | executable _ _ _ _ _ => WatcomDriver.executableOutput

def fixed (s : Delivery) : Path :=
  s.driver.mount.join ⟨s.fixedName⟩

def output : Delivery → Path
  | object _ output _ _ | executable _ output _ _ _ => output

def line : Delivery → Except Failure String
  | object driver _ source params => driver.objectLine source params
  | executable driver _ objects libraries params => driver.executableLine objects libraries params

/-- The command of a step whose paths have names on the drive. -/
def command (s : Delivery) : Except Failure Invocation :=
  s.line.map s.driver.emulatorCommand

theorem actions_eq (s : Delivery) :
    s.actions = s.driver.runLine s.fixedName s.output s.line := by
  cases s <;> rfl

def run (r : Runner) (s : Delivery) (m : Machine) : Except Failure Unit × Machine :=
  r.host.perform m s.actions

/-- A step delivers what its own command has written, or says that nothing was. -/
structure Faithful (r : Runner) (s : Delivery) (m : Machine) : Prop where
  fresh : (s.run r m).1 = .ok () → ∃ command, s.command = .ok command ∧
    r.writes command m.world s.fixed = true ∧
    (r.execute command m.world).2.Moved (s.run r m).2.world.disk m.world.cwd s.fixed s.output
  missing : ∀ {command}, s.command = .ok command → (r.execute command m.world).1 = .ok 0 →
    r.writes command m.world s.fixed = false →
    (s.run r m).1 = .error (.missingOutput s.fixed) ∧
      (s.run r m).2.world.disk = (r.execute command m.world).2

/-- The command of a step ends well and has not written the fixed file, which is there. -/
def Stale (r : Runner) (s : Delivery) (m : Machine) : Prop :=
  ∃ command, s.command = .ok command ∧ (r.execute command m.world).1 = .ok 0 ∧
    r.writes command m.world s.fixed = false ∧
    (r.execute command m.world).2.contains m.world.cwd s.fixed = true

variable {r : Runner} {s : Delivery} {m : Machine}

theorem run_of_error {failure : Failure} (h : s.command = .error failure) :
    s.run r m = (.error failure, m) := by
  unfold command at h
  cases hline : s.line with
  | ok line => simp [hline, Except.map] at h
  | error cause =>
      obtain rfl : cause = failure := by simpa [hline, Except.map] using h
      rw [run, actions_eq, hline]
      rfl

/-- A step runs its command and, if that ends well, moves the fixed file. -/
theorem run_of_ok {command : Invocation} (h : s.command = .ok command) :
    ∃ console, s.run r m =
      let left : Machine := ⟨{ m.world with disk := (r.execute command m.world).2 }, console⟩
      match (r.execute command m.world).1 with
      | .error failure => (.error failure, left)
      | .ok code =>
        if code = 0 then left.move s.fixed s.output
        else (.error (.commandFailed command.display code), left) := by
  unfold Delivery.command at h
  cases hline : s.line with
  | error failure => simp [hline, Except.map] at h
  | ok line =>
      obtain rfl : s.driver.emulatorCommand line = command := by
        simpa [hline, Except.map] using h
      refine ⟨((m.console.log ⟨.debug, line⟩).log ⟨.trace, "DOSBox command: " ++
        (s.driver.emulatorCommand line).display⟩).log
          ⟨.debug, (s.driver.emulatorCommand line).display⟩, ?_⟩
      rw [run, actions_eq, hline, fixed]
      simp only [WatcomDriver.runLine, Host.perform, Host.act, Host.runChecked, Runner.host,
        Host.machine]
      cases (r.execute (s.driver.emulatorCommand line) m.world).1 with
      | error failure => rfl
      | ok code =>
          by_cases hcode : code = 0
          · simp only [hcode, if_true]
            generalize Machine.move _ _ _ = ended
            obtain ⟨outcome, m'⟩ := ended
            cases outcome <;> rfl
          · simp only [hcode, if_false]

theorem lastName?_fixed (s : Delivery) : Disk.lastName? s.fixed = some s.fixedName := by
  have hplain : Path.isPlainName s.fixedName = true := by
    cases s with
    | object driver output source params =>
        exact (by decide +kernel : Path.isPlainName WatcomDriver.objectOutput = true)
    | executable driver output objects libraries params =>
        exact (by decide +kernel : Path.isPlainName WatcomDriver.executableOutput = true)
  exact Disk.lastName?_join _ hplain

theorem name_of_slot_fixed {d : Disk} {cwd : Path} {slot : Disk.Slot}
    (h : d.slot cwd s.fixed = .ok (some slot)) : slot.name = s.fixedName := by
  have hlast := Disk.lastName?_of_slot h
  rw [lastName?_fixed] at hlast
  exact (Option.some.inj hlast).symm

/-- A step that ends well has moved what its command left in the fixed file. -/
theorem run_eq_ok (h : (s.run r m).1 = .ok ()) :
    ∃ command, s.command = .ok command ∧ (r.execute command m.world).1 = .ok 0 ∧
      (r.execute command m.world).2.contains m.world.cwd s.fixed = true ∧
      (r.execute command m.world).2.rename m.world.cwd s.fixed s.output =
        .ok (s.run r m).2.world.disk ∧ (s.run r m).2.world.cwd = m.world.cwd := by
  cases hc : s.command with
  | error failure =>
      rw [run_of_error hc] at h
      cases h
  | ok command =>
      obtain ⟨console, hrun⟩ := run_of_ok (r := r) (m := m) hc
      refine ⟨command, rfl, ?_⟩
      rw [hrun] at h ⊢
      cases hexit : (r.execute command m.world).1 with
      | error failure => simp [hexit] at h
      | ok code =>
          by_cases hcode : code = 0
          · simp only [hexit, hcode, if_true] at h ⊢
            exact ⟨trivial, Machine.move_eq_ok h⟩
          · simp [hexit, hcode] at h

theorem run_ok {command : Invocation} (hc : s.command = .ok command)
    (hexit : (r.execute command m.world).1 = .ok 0)
    (hcontains : (r.execute command m.world).2.contains m.world.cwd s.fixed = true)
    (hrename : ((r.execute command m.world).2.rename m.world.cwd s.fixed s.output).isOk = true) :
    (s.run r m).1 = .ok () := by
  obtain ⟨console, hrun⟩ := run_of_ok (r := r) (m := m) hc
  simp only [hrun, hexit, if_true, Machine.move, hcontains]
  cases hd : (r.execute command m.world).2.rename m.world.cwd s.fixed s.output with
  | error cause =>
      rw [hd] at hrename
      cases hrename
  | ok disk => rfl

/-- A step delivers what its own command has written, or says that nothing was, unless the command
leaves a file that it has not written. -/
theorem faithful_iff_not_stale : s.Faithful r m ↔ ¬s.Stale r m := by
  constructor
  · rintro hf ⟨command, hc, hexit, hwrites, hcontains⟩
    obtain ⟨console, hrun⟩ := run_of_ok (r := r) (m := m) hc
    have hmissing := (hf.missing hc hexit hwrites).1
    simp only [hrun, hexit, if_true] at hmissing
    exact Machine.move_ne_missing hcontains hmissing
  · intro hs
    refine ⟨fun hok => ?_, fun {command} hc hexit hwrites => ?_⟩
    · obtain ⟨command, hc, hexit, hcontains, hrename, -⟩ := run_eq_ok hok
      refine ⟨command, hc, ?_, Disk.moved_of_rename hrename⟩
      rw [← Bool.not_eq_false]
      exact fun hwrites => hs ⟨command, hc, hexit, hwrites, hcontains⟩
    · obtain ⟨console, hrun⟩ := run_of_ok (r := r) (m := m) hc
      have hcontains : (r.execute command m.world).2.contains m.world.cwd s.fixed = false := by
        rw [← Bool.not_eq_true]
        exact fun hcontains => hs ⟨command, hc, hexit, hwrites, hcontains⟩
      simp only [hrun, hexit, if_true, Machine.move, hcontains]
      exact ⟨rfl, rfl⟩

/-- Steps whose outputs are not taken for fixed files, and whose commands write no fixed file but
their own, and that as a file. -/
structure Tidy (r : Runner) (steps : List Delivery) : Prop where
  named : ∀ s ∈ steps, ∀ t ∈ steps, Disk.lastName? s.output ≠ some t.fixedName
  own : ∀ s ∈ steps, ∀ t ∈ steps, ∀ {command}, s.command = .ok command → ∀ {w},
    r.writes command w t.fixed = true → t.fixed = s.fixed
  tree : ∀ s ∈ steps, ∀ {command}, s.command = .ok command → ∀ w, (r.execute command w).2.IsTree
  plain : ∀ s ∈ steps, ∀ {command}, s.command = .ok command → ∀ {w},
    r.writes command w s.fixed = true → ∀ slot e,
      (r.execute command w).2.slot w.cwd s.fixed = .ok (some slot) →
      (r.execute command w).2.lookup slot.location = some e → e.isFile = true

/-- Nothing stands in the fixed files of steps. -/
def Clear (steps : List Delivery) (m : Machine) : Prop :=
  ∀ s ∈ steps, m.world.disk.Vacant m.world.cwd s.fixed

theorem not_stale_of_vacant (h : m.world.disk.Vacant m.world.cwd s.fixed) : ¬s.Stale r m := by
  rintro ⟨command, -, -, hwrites, hcontains⟩
  have hvacant := r.vacant_of_unwritten hwrites h
  rw [hvacant.contains_eq_false s.lastName?_fixed] at hcontains
  cases hcontains

variable {steps : List Delivery}

/-- A step that ends well leaves no fixed file behind where there was none before. -/
theorem clear_run (ht : Tidy r steps) (hs : s ∈ steps) (hc : Clear steps m)
    (hok : (s.run r m).1 = .ok ()) : Clear steps (s.run r m).2 := by
  obtain ⟨command, hcommand, -, -, hrename, hcwd⟩ := run_eq_ok hok
  have hfresh := (faithful_iff_not_stale.mpr (not_stale_of_vacant (hc s hs))).fresh hok
  obtain ⟨command', hcommand', hwrites, -⟩ := hfresh
  obtain rfl := Except.ok.inj (hcommand.symm.trans hcommand')
  -- The fixed file of `t` is the one that was moved away, or the command has not written it.
  intro t htm
  rw [hcwd]
  refine Disk.vacant_of_rename (ht.tree s hs hcommand m.world) hrename
    (ht.plain s hs hcommand hwrites) ?_ ?_ ?_
  · rw [lastName?_fixed]
    exact ht.named s hs s hs
  · rw [lastName?_fixed]
    exact ht.named s hs t htm
  · cases hw : r.writes command m.world t.fixed with
    | true => exact .inl (ht.own s hs t htm hcommand hw)
    | false => exact .inr (r.vacant_of_unwritten hw (hc t htm))

theorem clear_perform (ht : Tidy r steps) {before : List Delivery} (hb : before ⊆ steps)
    (hc : Clear steps m) {m' : Machine}
    (hok : r.host.perform m (before.flatMap actions) = (.ok (), m')) : Clear steps m' := by
  induction before generalizing m with
  | nil =>
      obtain rfl : m = m' := congrArg Prod.snd hok
      exact hc
  | cons s rest ih =>
      obtain ⟨hs, hrest⟩ := List.cons_subset.mp hb
      rw [List.flatMap_cons, Host.perform_append] at hok
      have hclear := clear_run ht hs hc
      rw [run] at hclear
      cases hrun : r.host.perform m s.actions with
      | mk outcome m'' =>
          rw [hrun] at hok hclear
          cases outcome with
          | error failure => cases hok
          | ok _ => exact ih hrest (hclear rfl) hok

/-- On every machine, a step is faithful unless it is stale.  In a run that ends with the first
failure, no step is stale if there were no fixed files when it began. -/
theorem faithful_in_run (r : Runner) :
    (∀ s m, Faithful r s m ↔ ¬Stale r s m) ∧
    ∀ {before : List Delivery} {s : Delivery} {m m' : Machine}, Tidy r (before ++ [s]) →
      Clear (before ++ [s]) m → r.host.perform m (before.flatMap actions) = (.ok (), m') →
      Faithful r s m' := by
  refine ⟨fun s m => faithful_iff_not_stale, fun {before s m m'} ht hc hok => ?_⟩
  have hclear := clear_perform ht (List.subset_append_left before [s]) hc hok
  exact faithful_iff_not_stale.mpr (not_stale_of_vacant (hclear s (by simp)))

section Sample

/-- A machine whose mounted directory holds some files. -/
def mounted (files : List (String × String)) : Machine :=
  ⟨.holding (files.map fun (name, text) => (["m", name], text)) [["m"]], {}⟩

def compiling (source object : String) : Delivery :=
  .object ⟨⟨"dosbox"⟩, [], "wcl", ⟨"/m"⟩⟩ ⟨"/m/" ++ object⟩ ⟨"/m/" ++ source⟩ {}

theorem exists_command_compiling :
    ∃ command, (compiling "main.c" "main.obj").command = .ok command := by
  have hok : (compiling "main.c" "main.obj").command.isOk = true := by decide +kernel
  cases hc : (compiling "main.c" "main.obj").command with
  | error failure => simp [hc, Except.isOk, Except.toBool] at hok
  | ok command => exact ⟨command, rfl⟩

/-- An object in the fixed file is delivered, wherever it comes from. -/
theorem run_compiling {r : Runner} {m : Machine} (hcwd : m.world.cwd = ⟨"/"⟩)
    (hr : ∀ command, r.execute command m.world =
      (.ok 0, (mounted [("OUT.OBJ", "object")]).world.disk)) :
    ((compiling "main.c" "main.obj").run r m).1 = .ok () := by
  have hlinkless : (mounted [("OUT.OBJ", "object")]).world.disk.isLinkless = true :=
    World.isLinkless_holding _ _
  obtain ⟨command, hc⟩ := exists_command_compiling
  refine run_ok hc (by rw [hr]) ?_ ?_
  · rw [hr, hcwd]
    simp only [Disk.contains, Disk.entryAt, Disk.locate_eq_descend hlinkless]
    decide +kernel
  · rw [hr, hcwd]
    simp only [Disk.rename, Disk.slot, Disk.walk_eq_descend hlinkless]
    decide +kernel

def idleRunner : Runner where
  execute _ w := (.ok 0, w.disk)
  writes _ _ _ := false
  vacant_of_unwritten := fun _ h => h

/-- A step delivers an object that was there before, although its command has written none. -/
theorem stale_object_delivered :
    let m := mounted [("OUT.OBJ", "object")]
    ((compiling "main.c" "main.obj").run idleRunner m).1 = .ok () ∧
      ¬(compiling "main.c" "main.obj").Faithful idleRunner m := by
  intro m
  have hok : ((compiling "main.c" "main.obj").run idleRunner m).1 = .ok () :=
    run_compiling rfl fun _ => rfl
  refine ⟨hok, fun hf => ?_⟩
  obtain ⟨command, -, hwrites, -⟩ := hf.fresh hok
  cases hwrites

def objectRunner : Runner where
  execute _ _ := (.ok 0, (mounted [("OUT.OBJ", "object")]).world.disk)
  writes _ w p := (mounted [("OUT.OBJ", "object")]).world.disk.isTaken w.cwd p
  vacant_of_unwritten := fun h _ => Disk.vacant_of_isTaken_eq_false h

theorem lookup_mounted {files : List (String × String)} {loc : Location} {e : Entry}
    (h : (mounted files).world.disk.lookup loc = some e) :
    loc = [] ∧ e = .directory ∨ loc = ["m"] ∧ e = .directory ∨
      ∃ file ∈ files, loc = ["m", file.1] ∧ e.isFile = true := by
  by_cases hloc : loc = []
  · subst hloc
    exact .inl ⟨rfl, (Option.some.inj h).symm⟩
  · rw [Disk.lookup_of_ne_nil hloc] at h
    have hmem := Disk.mem_of_lookup h
    simp only [mounted, World.holding, List.mem_append, List.mem_map, List.mem_singleton] at hmem
    obtain ⟨_, rfl, heq⟩ | ⟨_, ⟨file, hfile, rfl⟩, heq⟩ := hmem
    · obtain ⟨rfl, rfl⟩ := Prod.mk.inj heq
      exact .inr (.inl ⟨rfl, rfl⟩)
    · obtain ⟨rfl, rfl⟩ := Prod.mk.inj heq
      exact .inr (.inr ⟨file, hfile, rfl, rfl⟩)

theorem isFile_of_lookup_mounted {files : List (String × String)} {slot : Disk.Slot} {e : Entry}
    (hn : slot.name = "OUT.OBJ") (h : (mounted files).world.disk.lookup slot.location = some e) :
    ∃ file ∈ files, e.isFile = true := by
  rcases lookup_mounted h with ⟨hloc, -⟩ | ⟨hloc, -⟩ | ⟨file, hmem, -, hfile⟩
  · exact absurd hloc slot.location_ne_nil
  · have hlast := slot.getLast?_location
    rw [hloc, hn] at hlast
    exact absurd hlast (by decide)
  · exact ⟨file, hmem, hfile⟩

theorem isTree_mounted (files : List (String × String)) :
    (mounted files).world.disk.IsTree := by
  intro loc e h
  rcases lookup_mounted h with ⟨rfl, -⟩ | ⟨rfl, -⟩ | ⟨file, -, rfl, -⟩
  · rfl
  · rfl
  · simp [mounted, World.holding, Disk.lookup]

theorem clear_mounted (h : ∀ s ∈ steps, s.fixedName = "OUT.OBJ") : Clear steps (mounted []) := by
  intro s hs slot hslot
  have hname := (name_of_slot_fixed hslot).trans (h s hs)
  cases he : (mounted []).world.disk.lookup slot.location with
  | none => rfl
  | some e =>
      obtain ⟨file, hfile, -⟩ := isFile_of_lookup_mounted hname he
      cases hfile

theorem tidy_objectRunner {fixed : Path} (hfixed : ∀ s ∈ steps, s.fixed = fixed)
    (hname : ∀ s ∈ steps, s.fixedName = "OUT.OBJ")
    (hout : ∀ s ∈ steps, Disk.lastName? s.output ≠ some "OUT.OBJ") : Tidy objectRunner steps where
  named s hs t ht := by
    rw [hname t ht]
    exact hout s hs
  own s hs t ht _ _ _ _ := (hfixed t ht).trans (hfixed s hs).symm
  tree _ _ _ _ _ := isTree_mounted _
  plain s hs _ _ _ _ slot e hslot he := by
    have hslotName := (name_of_slot_fixed hslot).trans (hname s hs)
    obtain ⟨-, -, hfile⟩ := isFile_of_lookup_mounted hslotName he
    exact hfile

theorem faithful_in_run_compiling :
    let first := compiling "main.c" "main.obj"
    let second := compiling "other.c" "other.obj"
    Tidy objectRunner [first, second] ∧ Clear [first, second] (mounted []) ∧
      (first.run objectRunner (mounted [])).1 = .ok () ∧
      second.Faithful objectRunner (first.run objectRunner (mounted [])).2 := by
  intro first second
  have hboth : ∀ {p : Delivery → Prop}, p first → p second → ∀ s ∈ [first, second], p s :=
    fun hfirst hsecond => List.forall_mem_cons.mpr ⟨hfirst, List.forall_mem_singleton.mpr hsecond⟩
  have hfixed : ∀ s ∈ [first, second], s.fixed = first.fixed := hboth rfl rfl
  have hname : ∀ s ∈ [first, second], s.fixedName = "OUT.OBJ" := hboth rfl rfl
  have hout : ∀ s ∈ [first, second], Disk.lastName? s.output ≠ some "OUT.OBJ" :=
    hboth (by decide +kernel) (by decide +kernel)
  have htidy : Tidy objectRunner [first, second] := tidy_objectRunner hfixed hname hout
  have hclear : Clear [first, second] (mounted []) := clear_mounted hname
  have hok : (first.run objectRunner (mounted [])).1 = .ok () := run_compiling rfl fun _ => rfl
  have hrun : objectRunner.host.perform (mounted []) ([first].flatMap actions) =
      (.ok (), (first.run objectRunner (mounted [])).2) := by
    rw [List.flatMap_singleton]
    exact Prod.ext hok rfl
  exact ⟨htidy, hclear, hok, (faithful_in_run objectRunner).2
    (show Tidy objectRunner ([first] ++ [second]) from htidy) hclear hrun⟩

end Sample

end Delivery

end DeclarativeBuild
