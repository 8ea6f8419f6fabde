import DeclarativeBuild.Project.Build
import DeclarativeBuild.Proofs.Run.Stages

/-!
# What a rehearsal says

Echoes are shown while a target is rehearsed, and nothing else is: they are the lines that stand on
standard output when the rehearsal has ended well.
-/

namespace DeclarativeBuild

/-- Lines one below the other. -/
def shownLines (lines : List String) : String :=
  String.join (lines.map (· ++ "\n"))

theorem shownLines_append (lines more : List String) :
    shownLines (lines ++ more) = shownLines lines ++ shownLines more := by
  rw [shownLines, List.map_append, String.join_append]
  rfl

def Action.line? : Action → Option String
  | .say line => some line
  | _ => none

/-- The lines among actions. -/
def spoken (actions : List Action) : List String :=
  actions.filterMap Action.line?

@[simp] theorem spoken_nil : spoken [] = [] := rfl

@[simp] theorem spoken_append (as bs : List Action) : spoken (as ++ bs) = spoken as ++ spoken bs :=
  List.filterMap_append

theorem spoken_flatMap_eq_nil {α : Type} {f : α → List Action} {items : List α}
    (h : ∀ i ∈ items, spoken (f i) = []) : spoken (items.flatMap f) = [] := by
  induction items with
  | nil => rfl
  | cons i rest ih =>
      rw [List.flatMap_cons, spoken_append, h i List.mem_cons_self,
        ih fun j hj => h j (List.mem_cons_of_mem i hj)]
      rfl

namespace Host

theorem output_log (line : LogLine) (c : Console) : (c.log line).output = c.output := by
  unfold Console.log
  split <;> rfl

theorem output_act (r : Rehearsal) (a : Action) :
    (rehearsal.act r a).2.console.output = r.console.output ++ shownLines a.line?.toList := by
  cases a with
  | say line => simp [act, rehearsal, Console.say, Action.line?, shownLines, String.append_assoc]
  | log line => simp [act, rehearsal, output_log, Action.line?, shownLines]
  | run command => simp [act, runChecked, rehearsal, output_log, Action.line?, shownLines]
  | move source target => simp [act, rehearsal, Action.line?, shownLines]
  | fail failure => simp [act, Action.line?, shownLines]

/-- A rehearsal that ends well has shown all lines. -/
theorem output_perform {r : Rehearsal} {actions : List Action}
    (h : (rehearsal.perform r actions).1 = .ok ()) :
    (rehearsal.perform r actions).2.console.output =
      r.console.output ++ shownLines (spoken actions) := by
  induction actions generalizing r with
  | nil => simp [perform, shownLines]
  | cons a rest ih =>
      have hact := output_act r a
      have hlines : spoken (a :: rest) = a.line?.toList ++ spoken rest := by
        rw [spoken, List.filterMap_cons]
        cases a.line? <;> rfl
      rw [perform] at h ⊢
      cases ha : rehearsal.act r a with
      | mk outcome r' =>
          rw [ha] at h hact
          cases outcome with
          | error failure => simp at h
          | ok _ => rw [ih h, hact, hlines, shownLines_append, String.append_assoc]

theorem output_perform_of_quiet {actions : List Action} (h : spoken actions = []) (r : Rehearsal) :
    (rehearsal.perform r actions).2.console.output = r.console.output := by
  induction actions generalizing r with
  | nil => rfl
  | cons a rest ih =>
      obtain ⟨ha, hrest⟩ : a.line? = none ∧ spoken rest = [] := by
        rw [spoken, List.filterMap_cons] at h
        cases hline : a.line? <;> simp_all [spoken]
      have hact := output_act r a
      rw [ha, Option.toList_none, shownLines, List.map_nil, String.join_nil, String.append_empty]
        at hact
      rw [perform]
      cases hstep : rehearsal.act r a with
      | mk outcome r' =>
          rw [hstep] at hact
          cases outcome with
          | error failure => exact hact
          | ok _ => exact (ih hrest r').trans hact

theorem output_performBranches {branches : List (List Action)}
    (h : ∀ branch ∈ branches, spoken branch = []) (r : Rehearsal) (turns : List Nat) :
    (rehearsal.performBranches branches r turns).2.console.output = r.console.output := by
  induction turns generalizing r with
  | nil => rfl
  | cons turn rest ih =>
      have hbranch : spoken (branches[turn]?.getD []) = [] := by
        cases hb : branches[turn]? with
        | none => rfl
        | some branch => exact h branch (List.mem_of_getElem? hb)
      exact (ih _).trans (output_perform_of_quiet hbranch r)

/-- What is on the console has no influence on the steps of a rehearsal. -/
theorem perform_of_steps {r r' : Rehearsal} (h : r.steps = r'.steps) (actions : List Action) :
    (rehearsal.perform r actions).1 = (rehearsal.perform r' actions).1 ∧
      (rehearsal.perform r actions).2.steps = (rehearsal.perform r' actions).2.steps := by
  obtain ⟨hend, hsteps⟩ := perform_rehearsal r actions
  obtain ⟨hend', hsteps'⟩ := perform_rehearsal r' actions
  exact ⟨hend.trans hend'.symm, by rw [hsteps, hsteps', h]⟩

theorem performBranches_of_steps {r r' : Rehearsal} (h : r.steps = r'.steps)
    (branches : List (List Action)) (turns : List Nat) :
    (rehearsal.performBranches branches r turns).1 =
        (rehearsal.performBranches branches r' turns).1 ∧
      (rehearsal.performBranches branches r turns).2.steps =
        (rehearsal.performBranches branches r' turns).2.steps := by
  induction turns generalizing r r' with
  | nil => exact ⟨rfl, h⟩
  | cons turn rest ih =>
      obtain ⟨hend, hsteps⟩ := perform_of_steps h (branches[turn]?.getD [])
      obtain ⟨hmore, hafter⟩ := ih hsteps
      refine ⟨?_, hafter⟩
      simp only [performBranches]
      rw [hend, hmore]

theorem performStages_of_steps {r r' : Rehearsal} (h : r.steps = r'.steps) (schedule : Schedule)
    (stages : List Stage) :
    (rehearsal.performStages schedule r stages).1 =
        (rehearsal.performStages schedule r' stages).1 ∧
      (rehearsal.performStages schedule r stages).2.steps =
        (rehearsal.performStages schedule r' stages).2.steps := by
  -- Rehearsals with the same steps end a stage alike and with the same steps again.
  induction stages generalizing r r' with
  | nil => exact ⟨rfl, h⟩
  | cons stage rest ih =>
      have hstage : (rehearsal.performStage schedule r stage).1 =
            (rehearsal.performStage schedule r' stage).1 ∧
          (rehearsal.performStage schedule r stage).2.steps =
            (rehearsal.performStage schedule r' stage).2.steps := by
        cases stage with
        | inOrder actions => exact perform_of_steps h actions
        | together branches =>
            obtain ⟨hend, hsteps⟩ :=
              performBranches_of_steps h branches (schedule.turns branches.length)
            refine ⟨?_, hsteps⟩
            simp only [performStage]
            rw [hend]
      simp only [performStages]
      cases hrun : rehearsal.performStage schedule r stage with
      | mk outcome t =>
          cases hrun' : rehearsal.performStage schedule r' stage with
          | mk outcome' t' =>
              rw [hrun, hrun'] at hstage
              obtain ⟨rfl, hsteps⟩ := hstage
              cases outcome with
              | error failure => exact ⟨rfl, hsteps⟩
              | ok _ => exact ih hsteps

end Host

/-- Whether lines are only shown where actions follow each other. -/
def Stage.SpeaksInOrder : Stage → Prop
  | .inOrder _ => True
  | .together branches => ∀ branch ∈ branches, spoken branch = []

namespace Host

theorem output_performStage {schedule : Schedule} {r : Rehearsal} {stage : Stage}
    (hs : stage.SpeaksInOrder) (h : (rehearsal.performStage schedule r stage).1 = .ok ()) :
    (rehearsal.performStage schedule r stage).2.console.output =
      r.console.output ++ shownLines (spoken stage.actions) := by
  cases stage with
  | inOrder actions => exact output_perform h
  | together branches =>
      have hquiet : spoken (Stage.together branches).actions = [] := by
        rw [Stage.actions, List.flatten_eq_flatMap]
        exact spoken_flatMap_eq_nil hs
      rw [hquiet]
      exact (output_performBranches hs r _).trans (String.append_empty).symm

theorem output_performStages {schedule : Schedule} {r : Rehearsal} {stages : List Stage}
    (hs : ∀ stage ∈ stages, stage.SpeaksInOrder)
    (h : (rehearsal.performStages schedule r stages).1 = .ok ()) :
    (rehearsal.performStages schedule r stages).2.console.output =
      r.console.output ++ shownLines (spoken (stages.flatMap Stage.actions)) := by
  induction stages generalizing r with
  | nil => simp [performStages, shownLines]
  | cons stage rest ih =>
      rw [performStages] at h ⊢
      have hstage : (rehearsal.performStage schedule r stage).1 = .ok () → _ :=
        output_performStage (hs stage List.mem_cons_self)
      cases hrun : rehearsal.performStage schedule r stage with
      | mk outcome r' =>
          rw [hrun] at h hstage
          cases outcome with
          | error failure => simp at h
          | ok _ =>
              rw [ih (fun s hm => hs s (List.mem_cons_of_mem stage hm)) h, hstage rfl,
                List.flatMap_cons, spoken_append, shownLines_append, String.append_assoc]

end Host

def Task.echo? : Task → Option String
  | .echo text => some text
  | _ => none

/-- The texts that a target echoes. -/
def Target.echoes (target : Target) : List String :=
  target.tasks.filterMap Task.echo?

theorem spoken_runLine (d : WatcomDriver) (fixed : String) (output : Path)
    (line : Except Failure String) : spoken (d.runLine fixed output line) = [] := by
  cases line <;> rfl

theorem CompileUnit.spoken_actions (u : CompileUnit) : spoken u.actions = [] := by
  unfold CompileUnit.actions
  cases u.compiler with
  | gnu d => rfl
  | watcom d => exact spoken_runLine d _ _ _

theorem BinaryTask.spoken_linkActions (b : BinaryTask) (params : Params) :
    spoken (b.linkActions params) = [] := by
  unfold BinaryTask.linkActions
  cases b.compiler with
  | gnu d => rfl
  | watcom d =>
      cases b.mode with
      | executable => exact spoken_runLine d _ _ _
      | sharedLibrary => rfl

theorem speaksInOrder_compileStage (jobs : Nat) (units : List CompileUnit) :
    (compileStage jobs units).SpeaksInOrder := by
  unfold compileStage
  split
  · intro branch hm
    obtain ⟨u, -, rfl⟩ := List.mem_map.mp hm
    exact u.spoken_actions
  · trivial

theorem Task.stages_speak (task : Task) (jobs : Nat) (t : PresetTable) :
    (∀ stage ∈ (task.stages jobs t).1, stage.SpeaksInOrder) ∧
      spoken ((task.stages jobs t).1.flatMap Stage.actions) = task.echo?.toList := by
  cases task with
  | echo text => exact ⟨by simp [Task.stages, Stage.SpeaksInOrder], rfl⟩
  | exec command directory => exact ⟨by simp [Task.stages, Stage.SpeaksInOrder], rfl⟩
  | object o =>
      simp only [Task.stages]
      split
      · exact ⟨by simp [Stage.SpeaksInOrder], rfl⟩
      · next units t' _ =>
        refine ⟨by simp [Stage.SpeaksInOrder], ?_⟩
        rw [List.flatMap_singleton]
        exact spoken_flatMap_eq_nil fun u _ => u.spoken_actions
  | binary b =>
      simp only [Task.stages, BinaryTask.stages]
      split
      · exact ⟨by simp [Stage.SpeaksInOrder], rfl⟩
      · split
        · exact ⟨by simp [Stage.SpeaksInOrder], rfl⟩
        · split
          · exact ⟨by simp [Stage.SpeaksInOrder], rfl⟩
          · next units t' _ =>
            constructor
            · intro stage hm
              rcases List.mem_cons.mp hm with rfl | hm
              · exact speaksInOrder_compileStage jobs units
              · rw [List.mem_singleton.mp hm]
                trivial
            · rw [List.flatMap_cons, List.flatMap_singleton, spoken_append,
                actions_compileStage, spoken_flatMap_eq_nil fun u _ => u.spoken_actions]
              exact b.spoken_linkActions _

theorem stagesOf_speak (jobs : Nat) (t : PresetTable) (tasks : List Task) :
    (∀ stage ∈ (stagesOf jobs t tasks).1, stage.SpeaksInOrder) ∧
      spoken ((stagesOf jobs t tasks).1.flatMap Stage.actions) = tasks.filterMap Task.echo? := by
  induction tasks generalizing t with
  | nil => exact ⟨by simp [stagesOf], rfl⟩
  | cons task rest ih =>
      obtain ⟨hfirst, hlines⟩ := task.stages_speak jobs t
      obtain ⟨hrest, hmore⟩ := ih (task.stages jobs t).2
      have hsplit : (stagesOf jobs t (task :: rest)).1 =
          (task.stages jobs t).1 ++ (stagesOf jobs (task.stages jobs t).2 rest).1 := rfl
      rw [hsplit]
      constructor
      · intro stage hm
        rcases List.mem_append.mp hm with hm | hm
        · exact hfirst stage hm
        · exact hrest stage hm
      · rw [List.flatMap_append, spoken_append, hlines, hmore, List.filterMap_cons]
        cases task.echo? <;> rfl

namespace Project

theorem run_of_target_ok {p : Project} {name? : Option String} {target : Target}
    (ht : p.target name? = .ok target) (jobs : Nat) (r : Rehearsal) :
    p.run Host.rehearsal name? jobs r =
      Host.rehearsal.performStages (Schedule.inOrder jobs) r
        (target.stages jobs p.presets).1 := by
  simp only [Project.run, Project.stages, ht, Except.map]

/-- A rehearsal that ends well has shown the echoes of its target, and noted the steps that it notes
with any console. -/
theorem rehearsal_spec {p : Project} {name? : Option String} {target : Target}
    (ht : p.target name? = .ok target) {jobs : Nat}
    (hok : (p.run Host.rehearsal name? jobs {}).1 = .ok ()) (console : Console) :
    let r := (p.run Host.rehearsal name? jobs { console }).2
    (p.run Host.rehearsal name? jobs { console }).1 = .ok () ∧
      r.steps = (p.run Host.rehearsal name? jobs {}).2.steps ∧
      r.console.output = console.output ++ shownLines target.echoes := by
  intro r
  obtain ⟨hspeak, hlines⟩ := stagesOf_speak jobs p.presets target.tasks
  have hall : ∀ stage ∈ (target.stages jobs p.presets).1, stage.SpeaksInOrder := by
    intro stage hm
    rcases List.mem_cons.mp hm with rfl | hm
    · trivial
    · exact hspeak stage hm
  have hempty : ({ console } : Rehearsal).steps = ({} : Rehearsal).steps := rfl
  obtain ⟨hend, hsteps⟩ := Host.performStages_of_steps hempty (Schedule.inOrder jobs)
    (target.stages jobs p.presets).1
  simp only [← run_of_target_ok ht] at hend hsteps
  have hends : (p.run Host.rehearsal name? jobs { console }).1 = .ok () := hend.trans hok
  refine ⟨hends, hsteps, ?_⟩
  simp only [r]
  rw [run_of_target_ok ht] at hends ⊢
  rw [Host.output_performStages hall hends]
  exact congrArg (fun lines => console.output ++ shownLines lines) hlines

end Project

end DeclarativeBuild
