import DeclarativeBuild.Proofs.Run.Planned

/-!
# Hosts that answer alike

On a host whose answers depend on the step alone, the order in which branches go on cannot be told
from how a stage ends: the calls that one list of all its actions makes are among those that were
made, and decide the result.
-/

namespace DeclarativeBuild

variable {σ : Type}

/-- The answer to a step is the same whenever it is asked for. -/
def Host.Answers (h : Host σ) (answer : Step → Call) : Prop :=
  ∀ s step, (h.call s step).1 = answer step

theorem Host.answers_exiting (code : Invocation → Int) :
    (exiting code).Answers fun step => ((exiting code).call () step).1 :=
  fun _ _ => rfl

section Answers

variable (answer : Step → Call)

/-- The calls that actions make one after the other, up to the first failure. -/
def callsOf : List Action → List Call
  | [] => []
  | .say _ :: rest | .log _ :: rest => callsOf rest
  | .run command :: rest =>
      answer (.run command) ::
        if (answer (.run command)).failure? = none then callsOf rest else []
  | .move source target :: rest =>
      answer (.move source target) ::
        if (answer (.move source target)).failure? = none then callsOf rest else []
  | .fail _ :: _ => []

/-- How these actions end. -/
def endOf : List Action → Except Failure Unit
  | [] => .ok ()
  | .say _ :: rest | .log _ :: rest => endOf rest
  | .run command :: rest =>
      match (answer (.run command)).failure? with
      | none => endOf rest
      | some failure => .error failure
  | .move source target :: rest =>
      match (answer (.move source target)).failure? with
      | none => endOf rest
      | some failure => .error failure
  | .fail failure :: _ => .error failure

variable {answer}

theorem callsOf_of_none {step : Step} (ha : (answer step).failure? = none) (rest : List Action) :
    callsOf answer (step.action :: rest) = answer step :: callsOf answer rest := by
  cases step <;> simp [Step.action, callsOf, ha]

theorem callsOf_of_some {step : Step} {failure : Failure}
    (ha : (answer step).failure? = some failure) (rest : List Action) :
    callsOf answer (step.action :: rest) = [answer step] := by
  cases step <;> simp [Step.action, callsOf, ha]

theorem endOf_of_none {step : Step} (ha : (answer step).failure? = none) (rest : List Action) :
    endOf answer (step.action :: rest) = endOf answer rest := by
  cases step <;> simp [Step.action, endOf, ha]

theorem endOf_of_some {step : Step} {failure : Failure}
    (ha : (answer step).failure? = some failure) (rest : List Action) :
    endOf answer (step.action :: rest) = .error failure := by
  cases step <;> simp [Step.action, endOf, ha]

/-- Actions that end well are followed by the next ones. -/
theorem append_of_ok {as : List Action} (hok : endOf answer as = .ok ()) (bs : List Action) :
    endOf answer (as ++ bs) = endOf answer bs ∧
      callsOf answer (as ++ bs) = callsOf answer as ++ callsOf answer bs := by
  induction as using actions_induction with
  | nil => exact ⟨rfl, rfl⟩
  | say line rest ih => exact ih hok
  | log line rest ih => exact ih hok
  | step step rest ih =>
      cases ha : (answer step).failure? with
      | none =>
          rw [endOf_of_none ha] at hok
          obtain ⟨hend, hcalls⟩ := ih hok
          rw [List.cons_append, endOf_of_none ha, callsOf_of_none ha, callsOf_of_none ha, hcalls]
          exact ⟨hend, rfl⟩
      | some failure =>
          rw [endOf_of_some ha] at hok
          cases hok
  | fail failure rest => cases hok

/-- Actions that fail are the last ones. -/
theorem append_of_error {as : List Action} {failure : Failure}
    (herr : endOf answer as = .error failure) (bs : List Action) :
    endOf answer (as ++ bs) = .error failure ∧ callsOf answer (as ++ bs) = callsOf answer as := by
  induction as using actions_induction with
  | nil => cases herr
  | say line rest ih => exact ih herr
  | log line rest ih => exact ih herr
  | step step rest ih =>
      cases ha : (answer step).failure? with
      | none =>
          rw [endOf_of_none ha] at herr
          obtain ⟨hend, hcalls⟩ := ih herr
          rw [List.cons_append, endOf_of_none ha, callsOf_of_none ha, callsOf_of_none ha, hcalls]
          exact ⟨hend, rfl⟩
      | some other =>
          rw [endOf_of_some ha] at herr
          rw [List.cons_append, endOf_of_some ha, callsOf_of_some ha, callsOf_of_some ha]
          exact ⟨herr, rfl⟩
  | fail other rest => exact ⟨herr, rfl⟩

/-- Branches after each other end with the failure of the first that has one. -/
theorem endOf_flatten (branches : List (List Action)) :
    endOf answer branches.flatten = firstError (branches.map (endOf answer)) := by
  induction branches with
  | nil => rfl
  | cons actions rest ih =>
      rw [List.flatten_cons, List.map_cons]
      cases hend : endOf answer actions with
      | error failure => exact (append_of_error hend _).1
      | ok _ => exact (append_of_ok hend _).1.trans ih

/-- One after the other, branches make some of the calls that they make each for itself. -/
theorem callsOf_flatten_sublist (branches : List (List Action)) :
    (callsOf answer branches.flatten).Sublist (branches.flatMap (callsOf answer)) := by
  induction branches with
  | nil => exact List.Sublist.refl _
  | cons actions rest ih =>
      rw [List.flatten_cons, List.flatMap_cons]
      cases hend : endOf answer actions with
      | error failure =>
          rw [(append_of_error hend _).2]
          exact List.sublist_append_left _ _
      | ok _ =>
          rw [(append_of_ok hend _).2]
          exact ih.append_left _

/-- Branches that all end well make all their calls. -/
theorem callsOf_flatten_of_ok {branches : List (List Action)}
    (hok : endOf answer branches.flatten = .ok ()) :
    callsOf answer branches.flatten = branches.flatMap (callsOf answer) := by
  induction branches with
  | nil => rfl
  | cons actions rest ih =>
      rw [List.flatten_cons] at hok ⊢
      cases hend : endOf answer actions with
      | error failure =>
          rw [(append_of_error hend _).1] at hok
          cases hok
      | ok _ =>
          obtain ⟨hrest, hcalls⟩ := append_of_ok hend rest.flatten
          rw [hcalls, List.flatMap_cons, ih (hrest.symm.trans hok)]

/-- Actions that end well make all the calls they plan, and none of them fails. -/
theorem callsOf_of_ok (hs : ∀ step, (answer step).step = step) {actions : List Action}
    (hok : endOf answer actions = .ok ()) :
    (callsOf answer actions).map Call.step = plannedSteps actions ∧
      ∀ c ∈ callsOf answer actions, c.failure? = none := by
  induction actions using actions_induction with
  | nil => simp [callsOf, plannedSteps]
  | say line rest ih => exact ih hok
  | log line rest ih => exact ih hok
  | step step rest ih =>
      cases ha : (answer step).failure? with
      | none =>
          rw [endOf_of_none ha] at hok
          obtain ⟨hsteps, hall⟩ := ih hok
          rw [callsOf_of_none ha, plannedSteps_action, List.map_cons, hs, hsteps]
          refine ⟨rfl, ?_⟩
          intro c hc
          rcases List.mem_cons.mp hc with rfl | hc
          · exact ha
          · exact hall c hc
      | some failure =>
          rw [endOf_of_some ha] at hok
          cases hok
  | fail failure rest => cases hok

/-- The calls and the end are those of the run that notes its calls. -/
theorem Host.Answers.perform_traced {h : Host σ} (ha : h.Answers answer) (t : σ × List Call)
    (actions : List Action) :
    (h.traced.perform t actions).1 = endOf answer actions ∧
      (h.traced.perform t actions).2.2 = t.2 ++ callsOf answer actions := by
  induction actions using actions_induction generalizing t with
  | nil => exact ⟨rfl, (List.append_nil _).symm⟩
  | say line rest ih => exact ih (h.say line t.1, t.2)
  | log line rest ih => exact ih (h.log line t.1, t.2)
  | step step rest ih =>
      rw [perform_action, announce_traced, call_traced, ha]
      cases hc : (answer step).failure? with
      | none =>
          obtain ⟨hend, hcalls⟩ := ih ((h.call (h.announce t.1 step) step).2, t.2 ++ [answer step])
          rw [endOf_of_none hc, callsOf_of_none hc]
          refine ⟨hend, hcalls.trans ?_⟩
          rw [List.append_assoc, List.singleton_append]
      | some failure =>
          rw [endOf_of_some hc, callsOf_of_some hc]
          exact ⟨rfl, rfl⟩
  | fail failure rest => exact ⟨rfl, (List.append_nil _).symm⟩

/-- The events that a branch still has before it. -/
def Lane.due (answer : Step → Call) : Lane → List Event
  | .ready rest => (callsOf answer rest).flatMap Call.events
  | .calling step rest => ((callsOf answer (step.action :: rest)).flatMap Call.events).tail
  | .ended _ => []

/-- How a branch will end. -/
def Lane.result (answer : Step → Call) : Lane → Except Failure Unit
  | .ready rest => endOf answer rest
  | .calling step rest => endOf answer (step.action :: rest)
  | .ended result => result

variable {h : Host σ}

/-- Going on changes nothing of what a branch will do. -/
theorem Lane.Advance.due_eq (ha : h.Answers answer) {lane lane' : Lane} {s s' : σ}
    {e : Option Event} (hl : Lane.Advance h lane s e lane' s') :
    lane.due answer = e.toList ++ lane'.due answer ∧ lane.result answer = lane'.result answer := by
  cases hl with
  | say | log | fail | finish => exact ⟨rfl, rfl⟩
  | begins step rest =>
      have hstep : (answer step).step = step := ha s step ▸ h.step_call s step
      refine ⟨?_, rfl⟩
      cases hc : (answer step).failure? with
      | none => simp [due, callsOf_of_none hc, Call.events, hstep]
      | some failure => simp [due, callsOf_of_some hc, Call.events, hstep]
  | ends step rest =>
      rw [ha, resume]
      cases hc : (answer step).failure? with
      | none => simp [due, Lane.result, callsOf_of_none hc, endOf_of_none hc, Call.events]
      | some failure => simp [due, Lane.result, callsOf_of_some hc, endOf_of_some hc, Call.events]

namespace Interleaved

variable {lanes lanes' : List Lane} {s s' : σ} {events : List Event}

theorem results_eq (ha : h.Answers answer) (hi : Interleaved h lanes s events lanes' s') :
    lanes.map (Lane.result answer) = lanes'.map (Lane.result answer) := by
  induction hi with
  | pause => rfl
  | advance hl _ ih =>
      rw [← ih]
      simp only [List.map_append, List.map_cons, (hl.due_eq ha).2]

/-- Every branch has its own events, whatever happens on the others. -/
theorem events_perm (ha : h.Answers answer) (hi : Interleaved h lanes s events lanes' s') :
    (lanes.flatMap (Lane.due answer)).Perm (events ++ lanes'.flatMap (Lane.due answer)) := by
  induction hi with
  | pause => exact List.Perm.refl _
  | @advance before after _ lane lane' _ _ _ e events hl _ ih =>
      simp only [List.flatMap_append, List.flatMap_cons] at ih ⊢
      rw [(hl.due_eq ha).1, List.append_assoc, List.append_assoc]
      exact (List.perm_append_comm_assoc _ _ _).trans (ih.append_left _)

/-- The events of a branch that is alone come in its own order. -/
theorem events_eq (ha : h.Answers answer) (hi : Interleaved h lanes s events lanes' s')
    (hone : lanes.length = 1) :
    lanes.flatMap (Lane.due answer) = events ++ lanes'.flatMap (Lane.due answer) := by
  induction hi with
  | pause => rfl
  | @advance before after _ lane lane' _ _ _ e events hl _ ih =>
      -- There is nothing on either side of a branch that is alone.
      have hlen : before.length = 0 ∧ after.length = 0 := by
        simp only [List.length_append, List.length_cons] at hone
        omega
      obtain ⟨hb, haf⟩ := hlen
      rw [List.length_eq_zero_iff] at hb haf
      subst hb haf
      have hrest := ih rfl
      simp only [List.nil_append, List.flatMap_cons, List.flatMap_nil, List.append_nil] at hrest ⊢
      rw [(hl.due_eq ha).1, hrest, List.append_assoc]

end Interleaved

theorem flatMap_due_ended (results : List (Except Failure Unit)) :
    (results.map Lane.ended).flatMap (Lane.due answer) = [] := by
  rw [List.flatMap_map]
  exact List.flatMap_eq_nil_iff.mpr fun _ _ => rfl

theorem flatMap_due_ready (branches : List (List Action)) :
    (branches.map Lane.ready).flatMap (Lane.due answer) =
      (branches.flatMap (callsOf answer)).flatMap Call.events := by
  rw [List.flatMap_map, List.flatMap_assoc]
  rfl

theorem Stage.flatten_branches (stage : Stage) : stage.branches.flatten = stage.actions := by
  cases stage with
  | inOrder actions => exact List.append_nil actions
  | together branches => rfl

namespace StageRuns

variable {stage : Stage} {s s' : σ} {events : List Event} {result : Except Failure Unit}

theorem result_eq (ha : h.Answers answer) (hs : StageRuns h stage s events result s') :
    result = endOf answer stage.actions := by
  obtain ⟨results, hi, rfl⟩ := hs
  have hres := hi.results_eq ha
  rw [List.map_map, List.map_map] at hres
  rw [← stage.flatten_branches, endOf_flatten]
  exact congrArg firstError (hres.trans (List.map_id results)).symm

/-- Every branch makes its calls, also those after a branch that fails. -/
theorem events_perm (ha : h.Answers answer) (hs : StageRuns h stage s events result s') :
    ((stage.branches.flatMap (callsOf answer)).flatMap Call.events).Perm events := by
  obtain ⟨results, hi, -⟩ := hs
  have hperm := hi.events_perm ha
  rwa [flatMap_due_ready, flatMap_due_ended, List.append_nil] at hperm

theorem calls_perm (ha : h.Answers answer) (hs : StageRuns h stage s events result s') :
    (stage.branches.flatMap (callsOf answer)).Perm (Event.calls events) := by
  have hperm := (hs.events_perm ha).filterMap Event.ended?
  rwa [← Event.calls, ← Event.calls, Event.calls_flatMap_events] at hperm

theorem calls_subperm (ha : h.Answers answer) (hs : StageRuns h stage s events result s') :
    (callsOf answer stage.actions).Subperm (Event.calls events) := by
  rw [← stage.flatten_branches]
  exact (callsOf_flatten_sublist _).subperm.trans (hs.calls_perm ha).subperm

theorem events_eq (ha : h.Answers answer) (hs : StageRuns h stage s events result s')
    (ho : stage.isInOrder = true) :
    events = (callsOf answer stage.actions).flatMap Call.events := by
  obtain ⟨results, hi, -⟩ := hs
  cases stage with
  | together branches => simp [Stage.isInOrder] at ho
  | inOrder actions =>
      have heq := hi.events_eq ha rfl
      rw [flatMap_due_ready, flatMap_due_ended, List.append_nil] at heq
      rw [← heq]
      exact congrArg _ (List.append_nil _)

end StageRuns

namespace StagesRun

variable {stages : List Stage} {s s' : σ} {traces : List (List Event)}
    {result : Except Failure Unit}

/-- Stages end as their actions do one after the other, whose calls are all made. -/
theorem agrees (ha : h.Answers answer) (hr : StagesRun h stages s traces result s') :
    result = endOf answer (stages.flatMap Stage.actions) ∧
      (callsOf answer (stages.flatMap Stage.actions)).Subperm (Event.calls traces.flatten) := by
  induction hr with
  | nil => exact ⟨rfl, List.Subperm.refl _⟩
  | stop hs =>
      have herr := (hs.result_eq ha).symm
      obtain ⟨hend, hcalls⟩ := append_of_error herr _
      rw [List.flatMap_cons, List.flatten_singleton, hend, hcalls]
      exact ⟨rfl, hs.calls_subperm ha⟩
  | next hs _ ih =>
      have hok := (hs.result_eq ha).symm
      obtain ⟨hend, hcalls⟩ := append_of_ok hok _
      rw [List.flatMap_cons, List.flatten_cons, hend, hcalls, Event.calls_append]
      exact ⟨ih.1, (hs.calls_subperm ha).append ih.2⟩

/-- If no stage has branches, nothing is left open. -/
theorem events_eq (ha : h.Answers answer) (hr : StagesRun h stages s traces result s')
    (ho : ∀ stage ∈ stages, stage.isInOrder = true) :
    traces.flatten = (callsOf answer (stages.flatMap Stage.actions)).flatMap Call.events := by
  induction hr with
  | nil => rfl
  | stop hs =>
      have herr := (hs.result_eq ha).symm
      rw [List.flatMap_cons, List.flatten_singleton, (append_of_error herr _).2]
      exact hs.events_eq ha (ho _ List.mem_cons_self)
  | next hs _ ih =>
      have hok := (hs.result_eq ha).symm
      rw [List.flatMap_cons, List.flatten_cons, (append_of_ok hok _).2, List.flatMap_append,
        hs.events_eq ha (ho _ List.mem_cons_self),
        ih fun stage hm => ho stage (List.mem_cons_of_mem _ hm)]

end StagesRun

end Answers

end DeclarativeBuild
