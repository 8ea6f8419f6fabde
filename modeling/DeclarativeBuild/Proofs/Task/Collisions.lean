import DeclarativeBuild.Proofs.Run.Stages
import DeclarativeBuild.Task.Reader
import Mathlib.Data.List.Nodup

/-!
# Objects that are written twice

A binary is only built if its compile steps write different objects.  Nothing is asked of the host
if two of them write one.
-/

namespace DeclarativeBuild

/-- Paths of which no two name the same steps. -/
def Apart (paths : List Path) : Prop :=
  (paths.map Path.components).Nodup

instance (paths : List Path) : Decidable (Apart paths) :=
  inferInstanceAs (Decidable (List.Nodup _))

/-- The first path that names the same steps as one before it. -/
def FirstRepeat (paths : List Path) (path : Path) : Prop :=
  ∃ before after, paths = before ++ path :: after ∧ Apart before ∧
    path.components ∈ before.map Path.components

/-- The objects that the compile steps of a task write. -/
def Task.compiled : Task → List Path
  | .echo _ | .exec _ _ => []
  | .object o => o.units.map Prod.snd
  | .binary b => b.objects.flatMap fun o => o.units.map Prod.snd

/-- The objects of a task that are there already. -/
def Task.prebuilt : Task → List Path
  | .echo _ | .exec _ _ => []
  | .object o => o.file?.toList
  | .binary b => b.objects.filterMap ObjectTask.file?

section Repeats

variable {seen paths : List Path} {path : Path}

theorem any_sameSteps_iff :
    seen.any (path.sameSteps ·) = true ↔ path.components ∈ seen.map Path.components := by
  simp only [Path.sameSteps, List.any_eq_true, beq_iff_eq, List.mem_map]
  exact exists_congr fun q => and_congr_right fun _ => eq_comm

/-- What has been seen is kept last to first, and does not repeat itself. -/
theorem firstRepeated_spec (hs : Apart seen.reverse) :
    (firstRepeated seen paths = none → Apart (seen.reverse ++ paths)) ∧
      ∀ path, firstRepeated seen paths = some path → FirstRepeat (seen.reverse ++ paths) path := by
  induction paths generalizing seen with
  | nil => simpa [firstRepeated] using hs
  | cons p rest ih =>
      rw [firstRepeated]
      by_cases hp : seen.any (p.sameSteps ·) = true
      · rw [if_pos hp]
        refine ⟨nofun, fun path hpath => ?_⟩
        obtain rfl := Option.some.inj hpath
        refine ⟨seen.reverse, rest, rfl, hs, ?_⟩
        rw [List.map_reverse, List.mem_reverse]
        exact any_sameSteps_iff.mp hp
      · have hmem := mt any_sameSteps_iff.mpr hp
        have hnext : Apart (p :: seen).reverse := by
          rw [Apart, List.map_reverse, List.nodup_reverse, List.map_cons, List.nodup_cons]
          refine ⟨hmem, ?_⟩
          rwa [Apart, List.map_reverse, List.nodup_reverse] at hs
        rw [if_neg hp]
        simpa using ih hnext

end Repeats

namespace BinaryTask

variable {b : BinaryTask}

theorem apart_of_collision?_eq_none (h : b.collision? = none) : Apart (Task.binary b).compiled :=
  (firstRepeated_spec (show Apart [].reverse from List.nodup_nil)).1 h

theorem firstRepeat_of_collision?_eq_some {path : Path} (h : b.collision? = some path) :
    FirstRepeat (Task.binary b).compiled path :=
  (firstRepeated_spec (show Apart [].reverse from List.nodup_nil)).2 path h

end BinaryTask

theorem lookThen_eq_ok {α β : Type} {f : PresetTable → Except Failure α × PresetTable}
    {goOn : α → PresetTable → Except Failure β × PresetTable} {t : PresetTable} {found : β}
    (h : (lookThen f .error goOn t).1 = .ok found) :
    ∃ a, (f t).1 = .ok a ∧ (goOn a (f t).2).1 = .ok found := by
  unfold lookThen at h
  cases hf : (f t).1 with
  | error failure => simp [hf] at h
  | ok a => exact ⟨a, rfl, by simpa [hf] using h⟩

theorem ObjectTask.map_pair_unitsWith (o : ObjectTask) (params : Params) :
    (o.unitsWith params).map (fun u => (u.source, u.output)) = o.units := by
  simp [unitsWith, Function.comp_def]

/-- The units of several tasks are all of theirs, in their order. -/
theorem map_pair_compileUnitsOf {outer : Params} {t : PresetTable} {objects : List ObjectTask}
    {units : List CompileUnit} (h : (compileUnitsOf outer t objects).1 = .ok units) :
    units.map (fun u => (u.source, u.output)) = objects.flatMap ObjectTask.units := by
  induction objects generalizing t units with
  | nil =>
      obtain rfl : [] = units := Except.ok.inj h
      rfl
  | cons o rest ih =>
      rw [congrFun (compileUnitsOf_cons outer o rest) t] at h
      obtain ⟨first, hfirst, h⟩ := lookThen_eq_ok h
      obtain ⟨more, hmore, h⟩ := lookThen_eq_ok h
      obtain rfl : first ++ more = units := Except.ok.inj h
      rw [o.compileUnits_eq] at hfirst
      obtain ⟨own, -, hfirst⟩ := lookThen_eq_ok hfirst
      obtain rfl := Except.ok.inj hfirst
      rw [List.map_append, o.map_pair_unitsWith, ih hmore, List.flatMap_cons]

theorem map_output_compileUnitsOf {outer : Params} {t : PresetTable} {objects : List ObjectTask}
    {units : List CompileUnit} (h : (compileUnitsOf outer t objects).1 = .ok units) :
    units.map CompileUnit.output = objects.flatMap fun o => o.units.map Prod.snd := by
  rw [← List.map_flatMap, ← map_pair_compileUnitsOf h, List.map_map]
  rfl

namespace BinaryTask

variable {b : BinaryTask} {t : PresetTable} {params : Params} {units : List CompileUnit}

theorem Prepared.map_output (hp : b.Prepared t params units) :
    units.map CompileUnit.output = (Task.binary b).compiled :=
  map_output_compileUnitsOf hp.units_eq

/-- A binary has nothing in its way, or it fails before its first step. -/
theorem prepared_or_fails (b : BinaryTask) (jobs : Nat) (t : PresetTable) :
    (∃ params units, b.Prepared t params units) ∨
      ∃ failure, (b.stages jobs t).1 = [.inOrder [.fail failure]] := by
  cases hc : b.collision? with
  | some path => exact .inr ⟨_, by rw [stages, hc]⟩
  | none =>
      rw [b.stages_eq jobs hc]
      cases hp : (t.apply b.preset? b.params).1 with
      | error failure => exact .inr ⟨failure, by simp only [lookThen, hp]⟩
      | ok params =>
          cases hu : (compileUnitsOf params (t.apply b.preset? b.params).2 b.objects).1 with
          | error failure => exact .inr ⟨failure, by simp only [lookThen, hp, hu]⟩
          | ok units => exact .inl ⟨params, units, hc, hp, hu⟩

/-- However it is run, a binary that is built has compile steps that write different objects.  If
two of them write one object, the first that is written again is reported, and the host is left as
it was. -/
theorem run_apart {σ : Type} (b : BinaryTask) (jobs : Nat) (t : PresetTable) (h : Host σ)
    (schedule : Schedule) (s : σ) :
    let run := h.performStages schedule s ((Task.binary b).stages jobs t).1
    (run.1 = .ok () → ∃ params units, b.Prepared t params units ∧
      Apart (units.map CompileUnit.output)) ∧
    (¬Apart (Task.binary b).compiled → ∃ path, FirstRepeat (Task.binary b).compiled path ∧
      run = (.error (.outputCollision path), s)) := by
  intro run
  refine ⟨fun hok => ?_, fun hne => ?_⟩
  · rcases b.prepared_or_fails jobs t with ⟨params, units, hp⟩ | ⟨failure, hfails⟩
    · refine ⟨params, units, hp, ?_⟩
      rw [hp.map_output]
      exact apart_of_collision?_eq_none hp.distinct
    · have hrun : run = (.error failure, s) := by
        simp only [run, Task.stages, hfails]
        rfl
      rw [hrun] at hok
      cases hok
  · cases hc : b.collision? with
    | none => exact absurd (apart_of_collision?_eq_none hc) hne
    | some path =>
        refine ⟨path, firstRepeat_of_collision?_eq_some hc, ?_⟩
        simp only [run, Task.stages, stages, hc]
        rfl

end BinaryTask

section Overlaps

/-- A compiler for objects with an output of their own. -/
def overlapCompiler : Compiler :=
  .gnu ⟨"gcc", .c, .gcc, ⟨"gcc"⟩⟩

/-- A binary of two sources that are compiled to given objects. -/
def binaryInto (first second : String) : BinaryTask where
  mode := .executable
  output := ⟨"app"⟩
  objects := [("a.c", first), ("b.c", second)].map fun (source, output) =>
    ⟨[⟨source⟩], none, [⟨output⟩], overlapCompiler, none, {}, false⟩
  libraries := []
  compiler := overlapCompiler
  preset? := none
  params := {}

theorem run_apart_binaryInto :
    let run (b : BinaryTask) := (Host.exiting fun _ => 0).traced.performStages (.inOrder 4) ((), [])
      ((Task.binary b).stages 4 {}).1
    (∃ params units, (binaryInto "a.o" "b.o").Prepared {} params units ∧
      Apart (units.map CompileUnit.output)) ∧
    ∃ path, FirstRepeat (Task.binary (binaryInto "out/x.o" "out//x.o")).compiled path ∧
      run (binaryInto "out/x.o" "out//x.o") = (.error (.outputCollision path), (), []) := by
  intro run
  exact ⟨(BinaryTask.run_apart _ 4 {} (Host.exiting fun _ => 0).traced (.inOrder 4) ((), [])).1
      (by decide +kernel),
    (BinaryTask.run_apart _ 4 {} (Host.exiting fun _ => 0).traced (.inOrder 4) ((), [])).2
      (by decide +kernel)⟩

def overlapScope : Scope where
  world := ⟨.empty, ⟨"/p"⟩, []⟩
  props := .empty
  filesets := [⟨"all", [.file ⟨"/p/main.c"⟩, .file ⟨"/p/main.cpp"⟩]⟩]
  toolchain := .builtin {} ⟨"/p"⟩
  base := ⟨"/p"⟩

/-- Objects outside of binaries, of which the second replaces the first. -/
def overlappingObjects : Element :=
  .mk "object" [("src-set", "all"), ("compiler", "watcom")] [] none

/-- A binary that compiles a source to an object that it also takes as it is. -/
def overlappingBinary : Element :=
  .mk "executable" [("output", "app"), ("compiler", "gcc")]
    [.mk "object" [("src", "main.c")] [] none, .mk "object" [("file", "main.c.o")] [] none] none

def overlappingObjectTask : ObjectTask where
  sources := [⟨"/p/main.c"⟩, ⟨"/p/main.cpp"⟩]
  file? := none
  outputs := [⟨"/p/main.obj"⟩, ⟨"/p/main.obj"⟩]
  compiler := .watcom ⟨⟨"dosbox"⟩, [], "wcl", ⟨"/p"⟩⟩
  preset? := none
  params := {}
  forShlib := false

def overlappingBinaryTask : BinaryTask where
  mode := .executable
  output := ⟨"/p/app"⟩
  objects :=
    [⟨[⟨"/p/main.c"⟩], none, [⟨"/p/main.c.o"⟩], overlapCompiler, none, {}, false⟩,
      ⟨[], some ⟨"/p/main.c.o"⟩, [⟨"/p/main.c.o"⟩], overlapCompiler, none, {}, false⟩]
  libraries := []
  compiler := overlapCompiler
  preset? := none
  params := {}

/-- An object outside of binaries may be written twice, and one that is there already may be
written. -/
theorem overlaps_run :
    let ends (task : Task) := ((Host.exiting fun _ => 0).performStages (.inOrder 1) ()
      (task.stages 1 {}).1).1
    (∃ task, Task.ofElement overlapScope overlappingObjects = .ok task ∧ ends task = .ok () ∧
      ¬Apart task.compiled) ∧
    ∃ task, Task.ofElement overlapScope overlappingBinary = .ok task ∧ ends task = .ok () ∧
      ∃ path ∈ task.compiled, path ∈ task.prebuilt := by
  refine ⟨⟨.object overlappingObjectTask, ?_, ?_, ?_⟩, ⟨.binary overlappingBinaryTask, ?_,
    ?_, ⟨"/p/main.c.o"⟩, ?_, ?_⟩⟩
  all_goals decide +kernel

end Overlaps

end DeclarativeBuild
