import DeclarativeBuild.Proofs.Preset.Memo
import DeclarativeBuild.Proofs.Run.Calls
import DeclarativeBuild.Run.Stages

/-!
# Stages of a target

With one worker all stages are in order.  Tables that declare the same presets give the same stages,
whatever they remember.
-/

namespace DeclarativeBuild

namespace Stage

/-- The actions of a stage in declaration order. -/
def actions : Stage → List Action
  | .inOrder actions => actions
  | .together branches => branches.flatten

def isInOrder : Stage → Bool
  | .inOrder _ => true
  | .together _ => false

end Stage

namespace Host

variable {σ : Type}

/-- Stages in order are one list of actions. -/
theorem performStages_of_isInOrder (h : Host σ) (schedule : Schedule) (s : σ)
    {stages : List Stage} (hs : ∀ stage ∈ stages, stage.isInOrder = true) :
    h.performStages schedule s stages = h.perform s (stages.flatMap Stage.actions) := by
  induction stages generalizing s with
  | nil => rfl
  | cons stage rest ih =>
      have hrest : ∀ stage ∈ rest, stage.isInOrder = true :=
        fun st hst => hs st (List.mem_cons_of_mem stage hst)
      have hstage := hs stage List.mem_cons_self
      cases stage with
      | together branches => simp [Stage.isInOrder] at hstage
      | inOrder actions =>
          rw [List.flatMap_cons, perform_append, performStages]
          simp only [performStage, Stage.actions]
          cases h.perform s actions with
          | mk outcome s' =>
              cases outcome with
              | error failure => rfl
              | ok _ => exact ih s' hrest

end Host

theorem isInOrder_compileStage (units : List CompileUnit) :
    (compileStage 1 units).isInOrder = true := by
  simp [compileStage, Stage.isInOrder]

theorem BinaryTask.isInOrder_stages (b : BinaryTask) (t : PresetTable) :
    ∀ stage ∈ (b.stages 1 t).1, stage.isInOrder = true := by
  unfold BinaryTask.stages
  intro stage hmem
  split at hmem
  · simp_all [Stage.isInOrder]
  · split at hmem
    · simp_all [Stage.isInOrder]
    · split at hmem
      · simp_all [Stage.isInOrder]
      · rcases List.mem_cons.mp hmem with rfl | hmem
        · exact isInOrder_compileStage _
        · simp_all [Stage.isInOrder]

theorem Task.isInOrder_stages (task : Task) (t : PresetTable) :
    ∀ stage ∈ (task.stages 1 t).1, stage.isInOrder = true := by
  intro stage hmem
  cases task with
  | echo text => simp_all [Task.stages, Stage.isInOrder]
  | exec command directory => simp_all [Task.stages, Stage.isInOrder]
  | object o =>
      simp only [Task.stages] at hmem
      split at hmem <;> simp_all [Stage.isInOrder]
  | binary b => exact b.isInOrder_stages t stage hmem

theorem isInOrder_stagesOf (t : PresetTable) (tasks : List Task) :
    ∀ stage ∈ (stagesOf 1 t tasks).1, stage.isInOrder = true := by
  induction tasks generalizing t with
  | nil => simp [stagesOf]
  | cons task rest ih =>
      intro stage hmem
      rcases List.mem_append.mp hmem with hmem | hmem
      · exact task.isInOrder_stages t stage hmem
      · exact ih _ stage hmem

theorem Target.isInOrder_stages (target : Target) (t : PresetTable) :
    ∀ stage ∈ (target.stages 1 t).1, stage.isInOrder = true := by
  intro stage hmem
  rcases List.mem_cons.mp hmem with rfl | hmem
  · rfl
  · exact isInOrder_stagesOf t target.tasks stage hmem

/-- A step that goes on with what another one found in a table, or gives up with its failure. -/
def lookThen {α β : Type} (f : PresetTable → Except Failure α × PresetTable)
    (giveUp : Failure → β) (goOn : α → PresetTable → β × PresetTable) (t : PresetTable) :
    β × PresetTable :=
  match (f t).1 with
  | .error failure => (giveUp failure, (f t).2)
  | .ok a => goOn a (f t).2

/-- A step that works with a table without letting its memo show. -/
def Forgetful {β : Type} (f : PresetTable → β × PresetTable) : Prop :=
  ∀ t u, PresetTable.Agree t u → (f t).1 = (f u).1 ∧ PresetTable.Agree (f t).2 (f u).2

namespace Forgetful

variable {α β γ : Type}

theorem apply (preset? : Option String) (own : Params) :
    Forgetful fun t => t.apply preset? own :=
  fun _ _ h => h.apply preset? own

theorem pure (b : β) : Forgetful fun t => (b, t) :=
  fun _ _ h => ⟨rfl, h⟩

theorem lookThen {f : PresetTable → Except Failure α × PresetTable} {giveUp : Failure → β}
    {goOn : α → PresetTable → β × PresetTable} (hf : Forgetful f)
    (hg : ∀ a, Forgetful (goOn a)) : Forgetful (lookThen f giveUp goOn) := by
  intro t u h
  obtain ⟨heq, hagree⟩ := hf t u h
  unfold DeclarativeBuild.lookThen
  rw [← heq]
  cases (f t).1 with
  | error failure => exact ⟨rfl, hagree⟩
  | ok a => exact hg a _ _ hagree

/-- Two steps after each other, whose findings are put together. -/
theorem seq {f : PresetTable → α × PresetTable} {g : PresetTable → β × PresetTable}
    (hf : Forgetful f) (hg : Forgetful g) (together : α → β → γ) :
    Forgetful fun t => (together (f t).1 (g (f t).2).1, (g (f t).2).2) := by
  intro t u h
  obtain ⟨heq, hagree⟩ := hf t u h
  obtain ⟨heq', hagree'⟩ := hg _ _ hagree
  refine ⟨?_, hagree'⟩
  exact (congrArg (together · _) heq).trans (congrArg (together _) heq')

end Forgetful

/-- The parameters that the units of an object task are compiled with. -/
def ObjectTask.paramsWithin (o : ObjectTask) (outer? : Option Params) (own : Params) : Params :=
  let merged := match outer? with
    | some outer => outer.merge own
    | none => own
  if o.forShlib then merged.forcedForShlib else merged

def ObjectTask.unitsWith (o : ObjectTask) (params : Params) : List CompileUnit :=
  o.units.map fun (source, output) => ⟨o.compiler, source, output, params⟩

theorem ObjectTask.compileUnits_eq (o : ObjectTask) (outer? : Option Params) :
    o.compileUnits outer? = lookThen (fun t => t.apply o.preset? o.params) .error
      fun own t => (.ok (o.unitsWith (o.paramsWithin outer? own)), t) := by
  funext t
  simp only [ObjectTask.compileUnits, lookThen]
  obtain ⟨outcome, t'⟩ := t.apply o.preset? o.params
  cases outcome <;> rfl

theorem compileUnitsOf_cons (outer : Params) (o : ObjectTask) (rest : List ObjectTask) :
    (fun t => compileUnitsOf outer t (o :: rest)) =
      lookThen (o.compileUnits (some outer)) .error fun units =>
        lookThen (fun t => compileUnitsOf outer t rest) .error
          fun more t => (.ok (units ++ more), t) := by
  funext t
  simp only [compileUnitsOf, lookThen]
  obtain ⟨outcome, t'⟩ := o.compileUnits (some outer) t
  cases outcome with
  | error failure => rfl
  | ok units =>
      simp only
      obtain ⟨outcome', t''⟩ := compileUnitsOf outer t' rest
      cases outcome' <;> rfl

theorem BinaryTask.stages_eq (b : BinaryTask) (jobs : Nat) (hc : b.collision? = none) :
    b.stages jobs = lookThen (fun t => t.apply b.preset? b.params)
      (fun failure => [.inOrder [.fail failure]]) fun params =>
        lookThen (fun t => compileUnitsOf params t b.objects)
          (fun failure => [.inOrder [.fail failure]])
          fun units t => ([compileStage jobs units, .inOrder (b.linkActions params)], t) := by
  funext t
  simp only [BinaryTask.stages, hc, lookThen]
  obtain ⟨outcome, t'⟩ := t.apply b.preset? b.params
  cases outcome with
  | error failure => rfl
  | ok params =>
      simp only
      obtain ⟨outcome', t''⟩ := compileUnitsOf params t' b.objects
      cases outcome' <;> rfl

/-- Nothing stands in the way of a binary: no two units write one object, and all presets are
there. -/
structure BinaryTask.Prepared (b : BinaryTask) (t : PresetTable) (params : Params)
    (units : List CompileUnit) : Prop where
  distinct : b.collision? = none
  params_eq : (t.apply b.preset? b.params).1 = .ok params
  units_eq : (compileUnitsOf params (t.apply b.preset? b.params).2 b.objects).1 = .ok units

theorem BinaryTask.Prepared.stages_eq {b : BinaryTask} {t : PresetTable} {params : Params}
    {units : List CompileUnit} (hp : b.Prepared t params units) (jobs : Nat) :
    (b.stages jobs t).1 = [compileStage jobs units, .inOrder (b.linkActions params)] := by
  rw [b.stages_eq jobs hp.distinct]
  simp only [lookThen, hp.params_eq, hp.units_eq]

@[simp] theorem actions_compileStage (jobs : Nat) (units : List CompileUnit) :
    (compileStage jobs units).actions = units.flatMap CompileUnit.actions := by
  unfold compileStage
  split
  · exact List.flatMap_def.symm
  · rfl

/-- The number of workers only decides what may happen at once. -/
theorem BinaryTask.flatMap_actions_stages (b : BinaryTask) (jobs : Nat) (t : PresetTable) :
    (b.stages jobs t).1.flatMap Stage.actions = (b.stages 1 t).1.flatMap Stage.actions := by
  unfold BinaryTask.stages
  split
  · rfl
  · split
    · rfl
    · split
      · rfl
      · simp

theorem Task.stages_object (o : ObjectTask) (jobs : Nat) :
    (fun t => Task.stages jobs t (.object o)) = lookThen (o.compileUnits none)
      (fun failure => [.inOrder [.fail failure]])
      fun units t => ([.inOrder (units.flatMap CompileUnit.actions)], t) := by
  funext t
  simp only [Task.stages, lookThen]
  obtain ⟨outcome, t'⟩ := o.compileUnits none t
  cases outcome <;> rfl

theorem ObjectTask.forgetful_compileUnits (o : ObjectTask) (outer? : Option Params) :
    Forgetful (o.compileUnits outer?) := by
  rw [o.compileUnits_eq]
  exact (Forgetful.apply o.preset? o.params).lookThen fun _ => .pure _

theorem forgetful_compileUnitsOf (outer : Params) (objects : List ObjectTask) :
    Forgetful fun t => compileUnitsOf outer t objects := by
  induction objects with
  | nil => exact .pure _
  | cons o rest ih =>
      rw [compileUnitsOf_cons]
      exact (o.forgetful_compileUnits (some outer)).lookThen fun _ => ih.lookThen fun _ => .pure _

theorem BinaryTask.forgetful_stages (b : BinaryTask) (jobs : Nat) :
    Forgetful (b.stages jobs) := by
  cases hc : b.collision? with
  | some path =>
      intro t u h
      simp only [BinaryTask.stages, hc]
      exact ⟨trivial, h⟩
  | none =>
      rw [b.stages_eq jobs hc]
      exact (Forgetful.apply b.preset? b.params).lookThen fun params =>
        (forgetful_compileUnitsOf params b.objects).lookThen fun _ => .pure _

theorem Task.forgetful_stages (task : Task) (jobs : Nat) :
    Forgetful fun t => task.stages jobs t := by
  cases task with
  | echo text => exact .pure _
  | exec command directory => exact .pure _
  | object o =>
      rw [Task.stages_object]
      exact (o.forgetful_compileUnits none).lookThen fun _ => .pure _
  | binary b => exact b.forgetful_stages jobs

theorem forgetful_stagesOf (jobs : Nat) (tasks : List Task) :
    Forgetful fun t => stagesOf jobs t tasks := by
  induction tasks with
  | nil => exact .pure _
  | cons task rest ih => exact (task.forgetful_stages jobs).seq ih (· ++ ·)

theorem Target.forgetful_stages (target : Target) (jobs : Nat) :
    Forgetful (target.stages jobs) := by
  intro t u h
  obtain ⟨heq, hagree⟩ := forgetful_stagesOf jobs target.tasks t u h
  exact ⟨congrArg (_ :: ·) heq, hagree⟩

end DeclarativeBuild
