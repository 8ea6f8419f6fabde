import DeclarativeBuild.Project.Build
import DeclarativeBuild.Proofs.Run.Stages

/-!
# Runs and rehearsals

A run with one worker does what a rehearsal of the same target notes, up to the first call that
fails.  The presets that were looked up before either of them make no difference.
-/

namespace DeclarativeBuild

open PresetTable

namespace Project

variable {σ : Type} {p q : Project} {name? : Option String}

/-- The project with another table of presets. -/
def withPresets (p : Project) (t : PresetTable) : Project :=
  { p with presets := t }

/-- What a target does with one worker, as one list. -/
def orderedActions (p : Project) (target : Target) : List Action :=
  (target.stages 1 p.presets).1.flatMap Stage.actions

theorem run_of_target {target : Target} (ht : p.target name? = .ok target) (h : Host σ) (s : σ) :
    p.run h name? 1 s = h.perform s (p.orderedActions target) := by
  simp only [run, stages, ht, Except.map]
  exact h.performStages_of_isInOrder _ s (target.isInOrder_stages p.presets)

theorem run_of_error {failure : Failure} (ht : p.target name? = .error failure) (h : Host σ)
    (s : σ) : p.run h name? 1 s = (.error failure, s) := by
  simp only [run, stages, ht, Except.map]

/-- What is remembered of presets does not show in what a target does. -/
theorem orderedActions_congr (hagree : Agree p.presets q.presets) (target : Target) :
    p.orderedActions target = q.orderedActions target := by
  unfold orderedActions
  rw [(target.forgetful_stages 1 _ _ hagree).1]

theorem run_traced (p : Project) (h : Host σ) (name? : Option String) (t : σ × List Call) :
    (p.run h.traced name? 1 t).1 = (p.run h name? 1 t.1).1 ∧
      (p.run h.traced name? 1 t).2.1 = (p.run h name? 1 t.1).2 := by
  cases ht : p.target name? with
  | error failure => simp [run_of_error ht]
  | ok target =>
      rw [run_of_target ht, run_of_target ht]
      exact h.perform_traced t _

/-- The calls of a run with one worker follow the steps of a rehearsal of the same target, which may
have looked up other presets before: they are its steps as far as they go, all of them if no call
fails, and otherwise the last call is the only one that fails and the run fails as it does. -/
theorem run_followsPlan (p : Project) (history other : List Operation)
    (hd : declarations other = declarations history) (h : Host σ) (s : σ) (name? : Option String)
    (console : Console) :
    let run := (p.withPresets (after history)).run h.traced name? 1 (s, [])
    let plan := (p.withPresets (after other)).run Host.rehearsal name? 1 { console }
    (run.1, run.2.1) = (p.withPresets (after history)).run h name? 1 s ∧
      FollowsPlan run.2.2 run.1 plan.2.steps plan.1 := by
  intro run plan
  have htraced := run_traced (p.withPresets (after history)) h name? (s, [])
  refine ⟨Prod.ext htraced.1 htraced.2, ?_⟩
  cases ht : p.target name? with
  | error failure =>
      have hrun : run = (.error failure, s, []) :=
        run_of_error (p := p.withPresets (after history)) ht h.traced (s, [])
      have hplan : plan = (.error failure, { console }) :=
        run_of_error (p := p.withPresets (after other)) ht Host.rehearsal { console }
      rw [hrun, hplan]
      exact .nil
  | ok target =>
      have hrun : run = _ := run_of_target (p := p.withPresets (after history)) ht h.traced (s, [])
      have hplan : plan = _ :=
        run_of_target (p := p.withPresets (after other)) ht Host.rehearsal { console }
      have hactions : (p.withPresets (after other)).orderedActions target =
          (p.withPresets (after history)).orderedActions target :=
        orderedActions_congr (agree_after hd) target
      rw [hactions] at hplan
      obtain ⟨hend, hsteps⟩ := Host.perform_rehearsal { console }
        ((p.withPresets (after history)).orderedActions target)
      obtain ⟨calls, hcalls, hfollows⟩ := h.perform_followsPlan (s, [])
        ((p.withPresets (after history)).orderedActions target)
      rw [hrun, hplan, hend, hsteps, hcalls]
      exact hfollows

/-- A project whose only target runs two commands. -/
def twoCommands : Project where
  defaultTarget := some "all"
  targets := [⟨"all", [.exec "make" ⟨"/p"⟩, .exec "make install" ⟨"/p"⟩]⟩]

theorem run_followsPlan_make :
    let history : List Operation := [.declare { name := "a", parent? := none, params := {} },
      .resolve "a"]
    let run := (twoCommands.withPresets (after history)).run (Host.exiting fun _ => 2).traced none 1
      ((), [])
    let plan := (twoCommands.withPresets (after (history.take 1))).run Host.rehearsal none 1 {}
    declarations (history.take 1) = declarations history ∧
      run.1 = .error (.commandFailed "sh -c make" 2) ∧ plan.2.steps.length = 2 ∧
      FollowsPlan run.2.2 run.1 plan.2.steps plan.1 :=
  ⟨rfl, rfl, rfl,
    (twoCommands.run_followsPlan _ _ rfl (Host.exiting fun _ => 2) () none {}).2⟩

end Project

end DeclarativeBuild
