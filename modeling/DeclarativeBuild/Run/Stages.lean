import DeclarativeBuild.Preset
import DeclarativeBuild.Run.Action
import DeclarativeBuild.Task.Basic

/-!
# The stages of a target

What running a target does, worked out from its tasks and the presets alone.  Whether the commands
succeed only decides how much of it happens.
-/

namespace DeclarativeBuild

/-- One source to compile, with the parameters that are in force for it. -/
structure CompileUnit where
  compiler : Compiler
  source : Path
  output : Path
  params : Params
deriving DecidableEq, Repr

namespace CompileUnit

def actions (u : CompileUnit) : List Action :=
  .log ⟨.info, "compile " ++ u.source.text ++ " -> " ++ u.output.text⟩ ::
    u.compiler.compileActions u.output u.source u.params

end CompileUnit

/-- The units of an object task, whose parameters go on top of those around it. -/
def ObjectTask.compileUnits (o : ObjectTask) (outer? : Option Params) (t : PresetTable) :
    Except Failure (List CompileUnit) × PresetTable :=
  match t.apply o.preset? o.params with
  | (.error failure, t) => (.error failure, t)
  | (.ok own, t) =>
    let merged := match outer? with
      | some outer => outer.merge own
      | none => own
    let params := if o.forShlib then merged.forcedForShlib else merged
    (.ok (o.units.map fun (source, output) => ⟨o.compiler, source, output, params⟩), t)

/-- The units of several object tasks, in declaration order. -/
def compileUnitsOf (outer : Params) (t : PresetTable) :
    List ObjectTask → Except Failure (List CompileUnit) × PresetTable
  | [] => (.ok [], t)
  | o :: rest =>
    match o.compileUnits (some outer) t with
    | (.error failure, t) => (.error failure, t)
    | (.ok units, t) =>
      match compileUnitsOf outer t rest with
      | (.error failure, t) => (.error failure, t)
      | (.ok more, t) => (.ok (units ++ more), t)

/-- The first output that an earlier one names too. -/
def firstRepeated (seen : List Path) : List Path → Option Path
  | [] => none
  | p :: rest => if seen.any (p.sameSteps ·) then some p else firstRepeated (p :: seen) rest

/-- The first object that two compile steps of a binary write. -/
def BinaryTask.collision? (b : BinaryTask) : Option Path :=
  firstRepeated [] (b.objects.flatMap fun o => o.units.map Prod.snd)

/-- The compile steps, beside each other if there are workers and every compiler allows it. -/
def compileStage (jobs : Nat) (units : List CompileUnit) : Stage :=
  if jobs > 1 && units.all (·.compiler.runsParallel) then
    .together (units.map CompileUnit.actions)
  else .inOrder (units.flatMap CompileUnit.actions)

def BinaryTask.linkActions (b : BinaryTask) (params : Params) : List Action :=
  .log ⟨.info, b.mode.tag ++ " [" ++ joinPaths b.objectFiles ++ "] -> " ++ b.output.text⟩ ::
    b.compiler.linkActions b.mode b.output b.objectFiles b.libraries params

/-- A binary compiles all its objects before it links them. -/
def BinaryTask.stages (b : BinaryTask) (jobs : Nat) (t : PresetTable) :
    List Stage × PresetTable :=
  match b.collision? with
  | some path => ([.inOrder [.fail (.outputCollision path)]], t)
  | none =>
    match t.apply b.preset? b.params with
    | (.error failure, t) => ([.inOrder [.fail failure]], t)
    | (.ok params, t) =>
      match compileUnitsOf params t b.objects with
      | (.error failure, t) => ([.inOrder [.fail failure]], t)
      | (.ok units, t) => ([compileStage jobs units, .inOrder (b.linkActions params)], t)

def Task.stages (jobs : Nat) (t : PresetTable) : Task → List Stage × PresetTable
  | .echo text => ([.inOrder [.say text]], t)
  | .exec command directory =>
    ([.inOrder [.run { Invocation.shell command with directory := some directory }]], t)
  | .object o =>
    match o.compileUnits none t with
    | (.error failure, t) => ([.inOrder [.fail failure]], t)
    | (.ok units, t) => ([.inOrder (units.flatMap CompileUnit.actions)], t)
  | .binary b => b.stages jobs t

/-- The stages of tasks that follow each other. -/
def stagesOf (jobs : Nat) (t : PresetTable) : List Task → List Stage × PresetTable
  | [] => ([], t)
  | task :: rest =>
    let (stages, t) := task.stages jobs t
    let (more, t) := stagesOf jobs t rest
    (stages ++ more, t)

def Target.stages (target : Target) (jobs : Nat) (t : PresetTable) : List Stage × PresetTable :=
  let (stages, t) := stagesOf jobs t target.tasks
  let opening := "running target `" ++ target.name ++ "` (" ++ toString target.tasks.length ++
    " tasks)"
  (.inOrder [.log ⟨.debug, opening⟩] :: stages, t)

end DeclarativeBuild
