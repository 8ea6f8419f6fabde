import DeclarativeBuild.Proofs.Run.Interleaving

/-!
# Planned steps

Whatever a host answers and in whatever order branches go on, nothing is begun that the stages do
not plan.
-/

namespace DeclarativeBuild

variable {σ : Type} {h : Host σ}

/-- The steps that a branch may still begin. -/
def Lane.planned : Lane → List Step
  | .ready rest | .calling _ rest => plannedSteps rest
  | .ended _ => []

/-- The steps of a stage if nothing fails. -/
def Stage.plan (stage : Stage) : List Step :=
  stage.branches.flatMap plannedSteps

theorem Lane.Advance.planned_cases {lane lane' : Lane} {s s' : σ} {e : Option Event}
    (ha : Lane.Advance h lane s e lane' s') :
    Event.steps e.toList ++ lane'.planned = lane.planned ∨
      Event.steps e.toList = [] ∧ ∃ failure, lane' = .ended (.error failure) := by
  cases ha with
  | say | log | finish => exact .inl rfl
  | fail failure => exact .inr ⟨rfl, failure, rfl⟩
  | begins step rest => exact .inl (plannedSteps_action step rest).symm
  | ends step rest =>
      unfold resume
      cases (h.call s step).1.failure? with
      | none => exact .inl rfl
      | some failure => exact .inr ⟨rfl, failure, rfl⟩

theorem Lane.Advance.planned_sublist {lane lane' : Lane} {s s' : σ} {e : Option Event}
    (ha : Lane.Advance h lane s e lane' s') :
    (Event.steps e.toList ++ lane'.planned).Sublist lane.planned := by
  rcases ha.planned_cases with heq | ⟨he, failure, rfl⟩
  · exact heq ▸ List.Sublist.refl _
  · rw [he]
    exact List.nil_sublist _

namespace Interleaved

variable {lanes lanes' : List Lane} {s s' : σ} {events : List Event}

/-- Nothing is begun that was not planned, and nothing more often than planned. -/
theorem steps_subperm (hi : Interleaved h lanes s events lanes' s') :
    (Event.steps events ++ lanes'.flatMap Lane.planned).Subperm (lanes.flatMap Lane.planned) := by
  induction hi with
  | pause => exact List.Subperm.refl _
  | @advance before after _ lane lane' _ _ _ e events ha _ ih =>
      simp only [List.flatMap_append, List.flatMap_cons] at ih ⊢
      rw [Event.steps_append, List.append_assoc]
      -- A branch that fails gives up what it had planned: hence a part of the plan, not all of it.
      refine ((List.subperm_append_left _).mpr ih).trans ?_
      refine (List.perm_append_comm_assoc _ _ _).subperm.trans ?_
      rw [← List.append_assoc (Event.steps e.toList)]
      exact (ha.planned_sublist.append_right _ |>.append_left _).subperm

theorem ended_mem (hi : Interleaved h lanes s events lanes' s') {result : Except Failure Unit}
    (hm : Lane.ended result ∈ lanes) : Lane.ended result ∈ lanes' := by
  induction hi with
  | pause => exact hm
  | @advance before after _ lane lane' _ _ _ e events ha _ ih =>
      apply ih
      rcases List.mem_append.mp hm with hm | hm
      · exact List.mem_append_left _ hm
      · rcases List.mem_cons.mp hm with rfl | hm
        · cases ha
        · exact List.mem_append_right _ (List.mem_cons_of_mem _ hm)

/-- If every branch ends well, exactly the planned steps were begun. -/
theorem steps_perm (hi : Interleaved h lanes s events lanes' s')
    (hok : ∀ lane ∈ lanes', lane = .ended (.ok ())) :
    (Event.steps events).Perm (lanes.flatMap Lane.planned) := by
  induction hi with
  | pause lanes s =>
      have hnil : lanes.flatMap Lane.planned = [] := by
        rw [List.flatMap_eq_nil_iff]
        intro lane hl
        rw [hok lane hl]
        rfl
      rw [hnil]
      rfl
  | @advance before after _ lane lane' _ _ _ e events ha hi ih =>
      have heq : Event.steps e.toList ++ lane'.planned = lane.planned := by
        rcases ha.planned_cases with heq | ⟨-, failure, rfl⟩
        · exact heq
        · have hm := hi.ended_mem (List.mem_append_right before List.mem_cons_self)
          simpa using hok _ hm
      have hih := ih hok
      simp only [List.flatMap_append, List.flatMap_cons] at hih ⊢
      rw [Event.steps_append, ← heq]
      refine (hih.append_left _).trans ?_
      refine (List.perm_append_comm_assoc _ _ _).trans ?_
      rw [List.append_assoc]

end Interleaved

theorem firstError_eq_ok_iff {results : List (Except Failure Unit)} :
    firstError results = .ok () ↔ ∀ r ∈ results, r = .ok () := by
  induction results with
  | nil => simp [firstError]
  | cons r rest ih =>
      cases r with
      | error failure => simp [firstError]
      | ok _ => simpa [firstError] using ih

theorem flatMap_planned_ready (branches : List (List Action)) :
    (branches.map Lane.ready).flatMap Lane.planned = branches.flatMap plannedSteps := by
  rw [List.flatMap_map]
  rfl

namespace StageRuns

variable {stage : Stage} {s s' : σ} {events : List Event} {result : Except Failure Unit}

theorem steps_subperm (hs : StageRuns h stage s events result s') :
    (Event.steps events).Subperm stage.plan := by
  obtain ⟨results, hi, -⟩ := hs
  have hsub := hi.steps_subperm
  rw [flatMap_planned_ready] at hsub
  exact (List.sublist_append_left _ _).subperm.trans hsub

theorem steps_perm (hs : StageRuns h stage s events (.ok ()) s') :
    (Event.steps events).Perm stage.plan := by
  obtain ⟨results, hi, hr⟩ := hs
  have hall := firstError_eq_ok_iff.mp hr.symm
  have hperm := hi.steps_perm (by
    intro lane hl
    obtain ⟨r, hr, rfl⟩ := List.mem_map.mp hl
    rw [hall r hr])
  rwa [flatMap_planned_ready] at hperm

end StageRuns

/-- Whatever the host, a run begins no step that its stages do not plan, and all of them if it ends
well. -/
theorem StagesRun.steps_planned {stages : List Stage} {s s' : σ} {traces : List (List Event)}
    {result : Except Failure Unit} (hr : StagesRun h stages s traces result s') :
    (Event.steps traces.flatten).Subperm (stages.flatMap Stage.plan) ∧
      (result = .ok () → (Event.steps traces.flatten).Perm (stages.flatMap Stage.plan)) := by
  induction hr with
  | nil => exact ⟨List.Subperm.refl _, fun _ => List.Perm.refl _⟩
  | stop hs =>
      refine ⟨?_, by simp⟩
      rw [List.flatten_singleton, List.flatMap_cons]
      exact hs.steps_subperm.trans (List.sublist_append_left _ _).subperm
  | next hs _ ih =>
      rw [List.flatten_cons, Event.steps_append, List.flatMap_cons]
      refine ⟨?_, fun hok => hs.steps_perm.append (ih.2 hok)⟩
      exact (hs.steps_perm.append_right _).subperm.trans ((List.subperm_append_left _).mpr ih.1)

/-- Stages plan some steps, in this order; on any host and with any interleaving only these are
begun, and all of them if the run ends well. -/
def Issues (stages : List Stage) (steps : List Step) : Prop :=
  stages.flatMap Stage.plan = steps ∧
    ∀ {σ : Type} {h : Host σ} {s s' traces result}, StagesRun h stages s traces result s' →
      (Event.steps traces.flatten).Subperm steps ∧
        (result = .ok () → (Event.steps traces.flatten).Perm steps)

theorem issues_of_plan {stages : List Stage} {steps : List Step}
    (hp : stages.flatMap Stage.plan = steps) : Issues stages steps :=
  ⟨hp, fun hr => hp ▸ hr.steps_planned⟩

/-- The steps that units are compiled with. -/
def compileSteps (units : List CompileUnit) : List Step :=
  units.flatMap fun u => plannedSteps u.actions

theorem plannedSteps_append_sublist (as bs : List Action) :
    (plannedSteps (as ++ bs)).Sublist (plannedSteps as ++ plannedSteps bs) := by
  induction as using actions_induction with
  | nil => exact List.Sublist.refl _
  | say line rest ih => exact ih
  | log line rest ih => exact ih
  | step step rest ih =>
      rw [List.cons_append, plannedSteps_action, plannedSteps_action, List.cons_append]
      exact ih.cons_cons step
  | fail failure rest => exact List.nil_sublist _

theorem plannedSteps_append {as : List Action} (hok : plannedEnd as = .ok ()) (bs : List Action) :
    plannedSteps (as ++ bs) = plannedSteps as ++ plannedSteps bs := by
  induction as using actions_induction with
  | nil => rfl
  | say line rest ih => exact ih hok
  | log line rest ih => exact ih hok
  | step step rest ih =>
      rw [plannedEnd_action] at hok
      rw [List.cons_append, plannedSteps_action, plannedSteps_action, ih hok, List.cons_append]
  | fail failure rest => cases hok

theorem plannedSteps_flatMap_sublist (units : List CompileUnit) :
    (plannedSteps (units.flatMap CompileUnit.actions)).Sublist (compileSteps units) := by
  induction units with
  | nil => exact List.Sublist.refl _
  | cons u rest ih => exact (plannedSteps_append_sublist _ _).trans (ih.append_left _)

theorem plannedSteps_flatMap {units : List CompileUnit}
    (hok : ∀ u ∈ units, plannedEnd u.actions = .ok ()) :
    plannedSteps (units.flatMap CompileUnit.actions) = compileSteps units := by
  induction units with
  | nil => rfl
  | cons u rest ih =>
      rw [List.flatMap_cons, plannedSteps_append (hok u List.mem_cons_self),
        ih fun v hv => hok v (List.mem_cons_of_mem u hv)]
      rfl

theorem plan_compileStage (jobs : Nat) (units : List CompileUnit) :
    (compileStage jobs units).plan = compileSteps units ∨
      (compileStage jobs units).plan = plannedSteps (units.flatMap CompileUnit.actions) := by
  unfold compileStage
  split
  · left
    rw [Stage.plan, Stage.branches, List.flatMap_map]
    rfl
  · right
    rw [Stage.plan, Stage.branches, List.flatMap_singleton]

theorem plan_compileStage_sublist (jobs : Nat) (units : List CompileUnit) :
    (compileStage jobs units).plan.Sublist (compileSteps units) := by
  rcases plan_compileStage jobs units with heq | heq
  · exact heq ▸ List.Sublist.refl _
  · exact heq ▸ plannedSteps_flatMap_sublist units

/-- Units that no rule stands against are planned alike for any number of workers. -/
theorem plan_compileStage_eq {units : List CompileUnit}
    (hok : ∀ u ∈ units, plannedEnd u.actions = .ok ()) (jobs : Nat) :
    (compileStage jobs units).plan = compileSteps units := by
  rcases plan_compileStage jobs units with heq | heq
  · exact heq
  · exact heq.trans (plannedSteps_flatMap hok)

end DeclarativeBuild
