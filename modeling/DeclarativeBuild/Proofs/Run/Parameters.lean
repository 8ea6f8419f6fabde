import DeclarativeBuild.Proofs.Run.Planned
import DeclarativeBuild.Proofs.Task.Reading

/-!
# Parameters of commands

The parameters of a command are layers on top of each other: those of presets from the oldest down,
then those that are written on an element, and all of a binary below those of its objects.  The
arguments of a command can be read off the layers.
-/

namespace DeclarativeBuild

open PresetTable

/-- The last of some values that is set. -/
def lastSet (values : List (Option Bool)) : Option Bool :=
  (values.filterMap id).getLast?

theorem lastSet_cons (value : Option Bool) (rest : List (Option Bool)) :
    lastSet (value :: rest) = (lastSet rest).or value := by
  unfold lastSet
  cases value with
  | none => rw [List.filterMap_cons_none rfl, Option.or_none]
  | some b =>
      have hb : id (some b) = some b := rfl
      rw [List.filterMap_cons_some hb, List.getLast?_cons]
      cases (rest.filterMap id).getLast? <;> rfl

namespace Params

theorem foldl_merge (p : Params) (layers : List Params) :
    layers.foldl merge p = p.merge (stack layers) := by
  induction layers generalizing p with
  | nil => exact (merge_empty p).symm
  | cons q rest ih =>
      rw [stack, List.foldl_cons, List.foldl_cons, ih, ih, empty_merge, merge_assoc]

theorem stack_cons (p : Params) (layers : List Params) :
    stack (p :: layers) = p.merge (stack layers) := by
  rw [stack, List.foldl_cons, foldl_merge, empty_merge]

theorem stack_append (layers inner : List Params) :
    stack (layers ++ inner) = (stack layers).merge (stack inner) := by
  rw [stack, List.foldl_append, foldl_merge]
  rfl

/-- Lists are joined along the layers. -/
theorem list_stack {field : Params → List String} (he : field empty = [])
    (hm : ∀ p q, field (p.merge q) = field p ++ field q) (layers : List Params) :
    field (stack layers) = layers.flatMap field := by
  induction layers with
  | nil => exact he
  | cons p rest ih => rw [stack_cons, hm, ih, List.flatMap_cons]

/-- Of a flag, the last layer that sets it is in force. -/
theorem flag_stack {field : Params → Option Bool} (he : field empty = none)
    (hm : ∀ p q, field (p.merge q) = (field q).or (field p)) (layers : List Params) :
    field (stack layers) = lastSet (layers.map field) := by
  induction layers with
  | nil => exact he
  | cons p rest ih => rw [stack_cons, hm, ih, List.map_cons, lastSet_cons]

theorem debugSymbols?_stack (layers : List Params) :
    (stack layers).debugSymbols? = lastSet (layers.map debugSymbols?) :=
  flag_stack rfl (fun _ _ => rfl) layers

theorem forShlib?_stack (layers : List Params) :
    (stack layers).forShlib? = lastSet (layers.map forShlib?) :=
  flag_stack rfl (fun _ _ => rfl) layers

theorem opts_stack (layers : List Params) : (stack layers).opts = layers.flatMap opts :=
  list_stack rfl (fun _ _ => rfl) layers

end Params

/-- The options that both kinds of commands take from layers of parameters. -/
def debugArgs (layers : List Params) : List String :=
  if lastSet (layers.map Params.debugSymbols?) = some true then ["-g"] else []

def preprocessorArgs (layers : List Params) : List String :=
  (layers.flatMap Params.includes).flatMap (["-I", ·]) ++
    (layers.flatMap Params.defines).flatMap (["-D", ·])

/-- The arguments that compile a source with layers of parameters. -/
def compileArgs (shared : Bool) (layers : List Params) (source output : Path) : List String :=
  ["-o", output.text, "-c"] ++ debugArgs layers ++
    (if shared = true ∨ lastSet (layers.map Params.forShlib?) = some true then ["-fPIC"] else []) ++
    [source.text] ++ preprocessorArgs layers ++ layers.flatMap Params.opts

/-- The arguments that link objects and libraries with layers of parameters. -/
def linkArgs (mode : LinkMode) (layers : List Params) (output : Path)
    (objects libraries : List Path) : List String :=
  (if mode = .sharedLibrary then ["-shared"] else []) ++ debugArgs layers ++ ["-o", output.text] ++
    objects.map Path.text ++ preprocessorArgs layers ++
    libraries.flatMap GnuDriver.libraryArgs ++ layers.flatMap Params.opts

theorem optional_getD (flag? : Option Bool) (arg : String) :
    GnuDriver.optional (flag?.getD false) arg = if flag? = some true then [arg] else [] := by
  rcases flag? with _ | _ | _ <;> rfl

theorem optional_debugSymbols (layers : List Params) :
    GnuDriver.optional (Params.stack layers).debugSymbols "-g" = debugArgs layers := by
  rw [Params.debugSymbols, optional_getD, Params.debugSymbols?_stack]
  rfl

theorem includeArgs_append_defineArgs (layers : List Params) :
    GnuDriver.includeArgs (Params.stack layers) ++ GnuDriver.defineArgs (Params.stack layers) =
      preprocessorArgs layers := by
  have hi : (Params.stack layers).includes = _ := Params.list_stack rfl (fun _ _ => rfl) layers
  have hd : (Params.stack layers).defines = _ := Params.list_stack rfl (fun _ _ => rfl) layers
  rw [GnuDriver.includeArgs, GnuDriver.defineArgs, hi, hd]
  rfl

theorem linkCommand_stack (d : GnuDriver) (mode : LinkMode) (output : Path)
    (objects libraries : List Path) (layers : List Params) :
    d.linkCommand mode output objects libraries (Params.stack layers) =
      { program := d.program, args := linkArgs mode layers output objects libraries } := by
  unfold GnuDriver.linkCommand linkArgs
  rw [optional_debugSymbols, Params.opts_stack, ← includeArgs_append_defineArgs]
  cases mode <;> simp [GnuDriver.optional]

/-- Parameters of an object task, which are forced to be for a shared library inside of one. -/
theorem objectCommand_stack (d : GnuDriver) (shared : Bool) (output source : Path)
    (layers : List Params) :
    d.objectCommand output source
        (if shared then (Params.stack layers).forcedForShlib else Params.stack layers) =
      { program := d.program, args := compileArgs shared layers source output } := by
  have hpic : GnuDriver.optional (Params.stack layers).forShlib "-fPIC" =
      if lastSet (layers.map Params.forShlib?) = some true then ["-fPIC"] else [] := by
    rw [Params.forShlib, optional_getD, Params.forShlib?_stack]
  unfold compileArgs
  rw [← optional_debugSymbols, ← Params.opts_stack, ← includeArgs_append_defineArgs]
  cases shared with
  | true =>
      rw [if_pos rfl, if_pos (Or.inl rfl), ← List.append_assoc _ _ (GnuDriver.defineArgs _)]
      rfl
  | false =>
      simp only [Bool.false_eq_true, if_false, false_or]
      rw [← hpic, ← List.append_assoc _ _ (GnuDriver.defineArgs _)]
      rfl

/-- The layers of an element, from its preset's lineage on, whose oldest preset is the outermost. -/
def layersOf (lineageOf : String → List Preset) (preset? : Option String) (own : Params) :
    List Params :=
  match preset? with
  | none => [own]
  | some name => (lineageOf name).reverse.map Preset.params ++ [own]

variable {lineageOf : String → List Preset} {t : PresetTable}

theorem PresetTable.apply_of_lineage (ht : t.Sound) {preset? : Option String}
    (hl : ∀ name ∈ preset?.toList, Lineage t.find? name (lineageOf name)) (own : Params) :
    (t.apply preset? own).1 = .ok (Params.stack (layersOf lineageOf preset? own)) := by
  cases preset? with
  | none => exact congrArg Except.ok (Params.empty_merge own).symm
  | some name =>
      have hlineage := hl name (List.mem_singleton_self name)
      have hres := (resolve_spec ht name).1.unique (.merged hlineage)
      rw [layersOf, Params.stack_append_singleton]
      exact congrArg (·.map (·.merge own)) hres

/-- The command that compiles a source into an object. -/
def compileStep (c : Compiler) (shared : Bool) (layers : List Params) (source output : Path) :
    Step :=
  .run { program := c.program, args := compileArgs shared layers source output }

/-- The commands that compile the units of an object task. -/
def ObjectTask.commands (o : ObjectTask) (shared : Bool) (layers : List Params) : List Step :=
  o.units.map fun (source, output) => compileStep o.compiler shared layers source output

namespace ObjectTask

variable {o : ObjectTask}

theorem compileUnits_of_lineage (ht : t.Sound)
    (hl : ∀ name ∈ o.preset?.toList, Lineage t.find? name (lineageOf name))
    (outer? : Option Params) :
    (o.compileUnits outer? t).1 = .ok (o.unitsWith (o.paramsWithin outer?
      (Params.stack (layersOf lineageOf o.preset? o.params)))) ∧
      (o.compileUnits outer? t).2 = (t.apply o.preset? o.params).2 := by
  rw [o.compileUnits_eq, lookThen, apply_of_lineage ht hl o.params]
  exact ⟨rfl, rfl⟩

/-- Parameters inside a binary go on top of the binary's. -/
theorem paramsWithin_some (o : ObjectTask) (outer layers : List Params) :
    o.paramsWithin (some (Params.stack outer)) (Params.stack layers) =
      o.paramsWithin none (Params.stack (outer ++ layers)) := by
  rw [paramsWithin, paramsWithin, Params.stack_append]

theorem actions_unit {d : GnuDriver} (hd : o.compiler = .gnu d) {layers : List Params}
    {u : CompileUnit} (hu : u ∈ o.unitsWith (o.paramsWithin none (Params.stack layers))) :
    plannedSteps u.actions = [compileStep o.compiler o.forShlib layers u.source u.output] ∧
      plannedEnd u.actions = .ok () := by
  obtain ⟨unit, -, rfl⟩ := List.mem_map.mp hu
  have hcommand := objectCommand_stack d o.forShlib unit.2 unit.1 layers
  rw [CompileUnit.actions, hd]
  exact ⟨congrArg (fun command => [Step.run command]) hcommand, rfl⟩

theorem compileSteps_unitsWith {d : GnuDriver} (hd : o.compiler = .gnu d) (layers : List Params) :
    compileSteps (o.unitsWith (o.paramsWithin none (Params.stack layers))) =
      o.commands o.forShlib layers := by
  rw [compileSteps, unitsWith, List.flatMap_map, commands, List.map_eq_flatMap]
  apply List.flatMap_congr
  intro unit hm
  exact (o.actions_unit hd (List.mem_map_of_mem hm)).1

end ObjectTask

/-- The units of the objects of a binary, whose parameters lie below theirs. -/
theorem compileUnitsOf_eq {outer : List Params} {objects : List ObjectTask} (ht : t.Sound)
    (hl : ∀ o ∈ objects, ∀ name ∈ o.preset?.toList, Lineage t.find? name (lineageOf name)) :
    (compileUnitsOf (Params.stack outer) t objects).1 = .ok (objects.flatMap fun o =>
      o.unitsWith (o.paramsWithin none
        (Params.stack (outer ++ layersOf lineageOf o.preset? o.params)))) := by
  induction objects generalizing t with
  | nil => rfl
  | cons o rest ih =>
      have hstep := congrFun (compileUnitsOf_cons (Params.stack outer) o rest) t
      obtain ⟨hunits, htable⟩ := ObjectTask.compileUnits_of_lineage ht (hl o List.mem_cons_self)
        (some (Params.stack outer))
      -- Looking the preset up only adds to the memo, so the others have their lineages still.
      have hrest : ∀ p ∈ rest, ∀ name ∈ p.preset?.toList,
          Lineage (t.apply o.preset? o.params).2.find? name (lineageOf name) := by
        intro p hp
        rw [find?_apply]
        exact hl p (List.mem_cons_of_mem o hp)
      have hmore := ih (sound_apply ht o.preset? o.params) hrest
      rw [hstep]
      simp only [lookThen, hunits, htable, hmore, o.paramsWithin_some]
      rfl

theorem compileSteps_flatMap {α : Type} (units : α → List CompileUnit) (items : List α) :
    compileSteps (items.flatMap units) = items.flatMap fun a => compileSteps (units a) :=
  List.flatMap_assoc

namespace BinaryTask

/-- The presets that a binary and its objects name. -/
def presetNames (b : BinaryTask) : List String :=
  b.preset?.toList ++ b.objects.flatMap (·.preset?.toList)

/-- The compilers of a binary and its objects. -/
def compilers (b : BinaryTask) : List Compiler :=
  b.compiler :: b.objects.map ObjectTask.compiler

/-- The commands that compile and link a binary. -/
def commands (b : BinaryTask) (lineageOf : String → List Preset) : List Step :=
  let outer := layersOf lineageOf b.preset? b.params
  (b.objects.flatMap fun o =>
    o.commands (b.mode == .sharedLibrary) (outer ++ layersOf lineageOf o.preset? o.params)) ++
    [.run { program := b.compiler.program
            args := linkArgs b.mode outer b.output b.objectFiles b.libraries }]

end BinaryTask

theorem ObjectTask.flatMap_plan_stages {o : ObjectTask} (ht : t.Sound) {d : GnuDriver}
    (hd : o.compiler = .gnu d)
    (hl : ∀ name ∈ o.preset?.toList, Lineage t.find? name (lineageOf name)) (jobs : Nat) :
    ((Task.object o).stages jobs t).1.flatMap Stage.plan =
      o.commands o.forShlib (layersOf lineageOf o.preset? o.params) := by
  obtain ⟨hunits, -⟩ := compileUnits_of_lineage ht hl none
  have hstages := congrFun (Task.stages_object o jobs) t
  have hok : ∀ u ∈ o.unitsWith (o.paramsWithin none
      (Params.stack (layersOf lineageOf o.preset? o.params))), plannedEnd u.actions = .ok () :=
    fun u hu => (actions_unit hd hu).2
  rw [hstages, lookThen, hunits, List.flatMap_singleton, Stage.plan, Stage.branches,
    List.flatMap_singleton, plannedSteps_flatMap hok, compileSteps_unitsWith hd]

theorem BinaryTask.flatMap_plan_stages {b : BinaryTask} (ht : t.Sound)
    (hg : ∀ c ∈ b.compilers, ∃ d, c = .gnu d)
    (hl : ∀ name ∈ b.presetNames, Lineage t.find? name (lineageOf name))
    (hs : ∀ o ∈ b.objects, o.forShlib = (b.mode == .sharedLibrary)) (hc : b.collision? = none)
    (jobs : Nat) :
    (b.stages jobs t).1.flatMap Stage.plan = b.commands lineageOf := by
  have hown : ∀ name ∈ b.preset?.toList, Lineage t.find? name (lineageOf name) :=
    fun name hn => hl name (List.mem_append_left _ hn)
  have hinner : ∀ o ∈ b.objects, ∀ name ∈ o.preset?.toList,
      Lineage (t.apply b.preset? b.params).2.find? name (lineageOf name) := by
    intro o ho name hn
    rw [find?_apply]
    exact hl name (List.mem_append_right _ (List.mem_flatMap.mpr ⟨o, ho, hn⟩))
  have hgnu : ∀ o ∈ b.objects, ∃ d, o.compiler = .gnu d :=
    fun o ho => hg _ (List.mem_cons_of_mem _ (List.mem_map_of_mem ho))
  have hp : b.Prepared t _ _ := ⟨hc, apply_of_lineage ht hown b.params,
    compileUnitsOf_eq (sound_apply ht b.preset? b.params) hinner⟩
  rw [hp.stages_eq, List.flatMap_cons, List.flatMap_singleton, plan_compileStage_eq,
    compileSteps_flatMap, commands]
  · congr 1
    · apply List.flatMap_congr
      intro o ho
      obtain ⟨d, hd⟩ := hgnu o ho
      rw [ObjectTask.compileSteps_unitsWith hd, hs o ho]
    · obtain ⟨d, hd⟩ := hg b.compiler List.mem_cons_self
      have hlink := linkCommand_stack d b.mode b.output b.objectFiles b.libraries
        (layersOf lineageOf b.preset? b.params)
      rw [Stage.plan, Stage.branches, List.flatMap_singleton, linkActions, hd]
      exact congrArg (fun command => [Step.run command]) hlink
  · intro u hu
    obtain ⟨o, ho, hu⟩ := List.mem_flatMap.mp hu
    obtain ⟨d, hd⟩ := hgnu o ho
    exact (o.actions_unit hd hu).2

/-- The commands of a task that was read, whose compilers are on the host and whose presets have
lineages among the declarations so far.  The presets and parameters are those of its own element and
of the elements of its objects. -/
theorem Task.issues_commands (history : List Operation) (lineageOf : String → List Preset)
    (scope : Scope) (e : Element) (jobs : Nat) :
    (∀ b, Task.ofElement scope e = .ok (.binary b) → (∀ c ∈ b.compilers, ∃ d, c = .gnu d) →
      (∀ name ∈ b.presetNames,
        Lineage (firstNamed (declarations history)) name (lineageOf name)) →
      scope.Reads e b.preset? b.params ∧
      List.Forall₂ (fun child o => scope.Reads child o.preset? o.params) (e.childrenNamed "object")
        b.objects ∧
      Issues ((Task.binary b).stages jobs (after history)).1
        (if b.collision?.isSome then [] else b.commands lineageOf)) ∧
    ∀ o, Task.ofElement scope e = .ok (.object o) → (∃ d, o.compiler = .gnu d) →
      (∀ name ∈ o.preset?.toList,
        Lineage (firstNamed (declarations history)) name (lineageOf name)) →
      scope.Reads e o.preset? o.params ∧
      Issues ((Task.object o).stages jobs (after history)).1
        (o.commands false (layersOf lineageOf o.preset? o.params)) := by
  have ht := sound_after history
  rw [← find?_after]
  refine ⟨fun b hb hg hl => ?_, fun o ho hg hl => ?_⟩
  · obtain ⟨mode, hb⟩ := Task.binary_of_ofElement hb
    obtain ⟨rfl, hreads, hobjects, hs⟩ := BinaryTask.reads_of_ofElement hb
    refine ⟨hreads, hobjects, issues_of_plan ?_⟩
    cases hc : b.collision? with
    | some path =>
        simp [Task.stages, BinaryTask.stages, hc, Stage.plan, Stage.branches, plannedSteps]
    | none => exact b.flatMap_plan_stages ht hg hl hs hc jobs
  · obtain ⟨d, hd⟩ := hg
    obtain ⟨hreads, hs⟩ := ObjectTask.reads_of_ofElement (Task.object_of_ofElement ho)
    refine ⟨hreads, issues_of_plan ?_⟩
    rw [ObjectTask.flatMap_plan_stages ht hd hl, hs]

section Sample

/-- Two presets of which the one builds on the other, which says the opposite. -/
def sampleLineage : List Preset :=
  [{ name := "debug", parent? := some "all", params := { debugSymbols? := some true } },
    { name := "all", parent? := none, params := { debugSymbols? := some false, defines := ["A"] } }]

def sampleHistory : List Operation :=
  sampleLineage.map .declare ++ [.resolve "debug"]

def sampleScope : Scope where
  world := ⟨.empty, ⟨"/p"⟩, []⟩
  props := .empty
  filesets := []
  toolchain := .builtin {} ⟨"/p"⟩
  base := ⟨"/p"⟩

def sampleObject : Element :=
  .mk "object" [("src", "x.c"), ("output", "x.o"), ("compiler", "gcc"), ("for-shlib", "false")]
    [.mk "include" [("dir", "inc")] [] none] none

def sampleLibrary : Element :=
  .mk "shared-library" [("output", "x.so"), ("compiler", "gcc"), ("preset", "debug")]
    [sampleObject, .mk "opt" [("value", "-O2")] [] none] none

def sampleCompiler : Compiler :=
  .gnu ⟨"gcc", .c, .gcc, ⟨"gcc"⟩⟩

/-- What the elements are read as; inside the library, the object is for one. -/
def sampleTask (forShlib : Bool) : ObjectTask where
  sources := [⟨"/p/x.c"⟩]
  file? := none
  outputs := [⟨"/p/x.o"⟩]
  compiler := sampleCompiler
  preset? := none
  params := { forShlib? := some false, includes := ["/p/inc"] }
  forShlib := forShlib

def sampleBinary : BinaryTask where
  mode := .sharedLibrary
  output := ⟨"/p/x.so"⟩
  objects := [sampleTask true]
  libraries := []
  compiler := sampleCompiler
  preset? := some "debug"
  params := { opts := ["-O2"] }

theorem lineage_sampleHistory : Lineage (firstNamed (declarations sampleHistory)) "debug"
    sampleLineage :=
  .child rfl rfl (.root rfl rfl)

theorem issues_commands_sample :
    Issues ((Task.binary sampleBinary).stages 4 (after sampleHistory)).1
      [.run ⟨⟨"gcc"⟩, ["-o", "/p/x.o", "-c", "-g", "-fPIC", "/p/x.c", "-I", "/p/inc", "-D", "A",
          "-O2"], [], none⟩,
        .run ⟨⟨"gcc"⟩, ["-shared", "-g", "-o", "/p/x.so", "/p/x.o", "-D", "A", "-O2"], [], none⟩] ∧
    Issues ((Task.object (sampleTask false)).stages 4 (after sampleHistory)).1
      [.run ⟨⟨"gcc"⟩, ["-o", "/p/x.o", "-c", "/p/x.c", "-I", "/p/inc"], [], none⟩] := by
  have hbinary : Task.ofElement sampleScope sampleLibrary = .ok (.binary sampleBinary) := by
    decide +kernel
  have hobject : Task.ofElement sampleScope sampleObject = .ok (.object (sampleTask false)) := by
    decide +kernel
  have hdistinct : ¬sampleBinary.collision?.isSome := by decide +kernel
  have hgnu : ∀ c ∈ sampleBinary.compilers, ∃ d, c = .gnu d := by
    simp [BinaryTask.compilers, sampleBinary, sampleTask, sampleCompiler]
  have hlineage : ∀ name ∈ sampleBinary.presetNames,
      Lineage (firstNamed (declarations sampleHistory)) name sampleLineage := by
    simp [BinaryTask.presetNames, sampleBinary, sampleTask, lineage_sampleHistory]
  obtain ⟨-, -, hlibrary⟩ := (Task.issues_commands sampleHistory (fun _ => sampleLineage)
    sampleScope sampleLibrary 4).1 _ hbinary hgnu hlineage
  rw [if_neg hdistinct] at hlibrary
  obtain ⟨-, halone⟩ := (Task.issues_commands sampleHistory (fun _ => sampleLineage) sampleScope
    sampleObject 4).2 _ hobject ⟨_, rfl⟩ (by simp [sampleTask])
  exact ⟨hlibrary, halone⟩

end Sample

end DeclarativeBuild
