import DeclarativeBuild.Run.Host

/-!
# Calls

What a run asks of its host, and how a run that stops at its first failure stands to the steps that
were planned for it.
-/

namespace DeclarativeBuild

/-- A step that a host was asked for, and how it ended. -/
inductive Call where
  | ran (command : Invocation) (outcome : Except Failure Int)
  | moved (source target : Path) (outcome : Except Failure Unit)

namespace Call

def step : Call → Step
  | ran command _ => .run command
  | moved source target _ => .move source target

/-- The failure that a call ends its run with: the host's own, or that of a command whose exit code
is not zero. -/
def failure? : Call → Option Failure
  | ran command (.ok code) => if code = 0 then none else some (.commandFailed command.display code)
  | ran _ (.error failure) => some failure
  | moved _ _ (.ok _) => none
  | moved _ _ (.error failure) => some failure

end Call

def Step.action : Step → Action
  | .run command => .run command
  | .move source target => .move source target

namespace Host

variable {σ : Type}

def call (h : Host σ) (s : σ) : Step → Call × σ
  | .run command => ((.ran command (h.execute command s).1), (h.execute command s).2)
  | .move source target => ((.moved source target (h.move source target s).1),
      (h.move source target s).2)

/-- What is logged before a step. -/
def announce (h : Host σ) (s : σ) : Step → σ
  | .run command => h.log ⟨.debug, command.display⟩ s
  | .move _ _ => s

@[simp] theorem step_call (h : Host σ) (s : σ) (step : Step) : (h.call s step).1.step = step := by
  cases step <;> rfl

theorem act_action (h : Host σ) (s : σ) (step : Step) :
    h.act s step.action =
      ((match (h.call (h.announce s step) step).1.failure? with
        | none => .ok ()
        | some failure => .error failure), (h.call (h.announce s step) step).2) := by
  cases step with
  | run command =>
      simp only [act, Step.action, runChecked, announce, call, Call.failure?]
      cases h.execute command (h.log ⟨.debug, command.display⟩ s) with
      | mk outcome s' =>
          cases outcome with
          | error failure => rfl
          | ok code => by_cases hc : code = 0 <;> simp [hc]
  | move source target =>
      simp only [act, Step.action, announce, call, Call.failure?]
      cases h.move source target s with
      | mk outcome s' => cases outcome <;> rfl

theorem perform_append (h : Host σ) (s : σ) (as bs : List Action) :
    h.perform s (as ++ bs) =
      match h.perform s as with
      | (.error failure, s') => (.error failure, s')
      | (.ok _, s') => h.perform s' bs := by
  induction as generalizing s with
  | nil => rfl
  | cons a rest ih =>
      simp only [List.cons_append, perform]
      cases h.act s a with
      | mk outcome s' =>
          cases outcome with
          | error failure => rfl
          | ok _ => exact ih s'

/-- The host where commands end with given exit codes and all files can be moved. -/
def exiting (code : Invocation → Int) : Host Unit where
  execute command _ := (.ok (code command), ())
  move _ _ _ := (.ok (), ())
  say _ _ := ()
  log _ _ := ()

/-- The host that also notes every call. -/
def traced (h : Host σ) : Host (σ × List Call) where
  execute command t :=
    let (outcome, s) := h.execute command t.1
    (outcome, s, t.2 ++ [.ran command outcome])
  move source target t :=
    let (outcome, s) := h.move source target t.1
    (outcome, s, t.2 ++ [.moved source target outcome])
  say line t := (h.say line t.1, t.2)
  log line t := (h.log line t.1, t.2)

theorem call_traced (h : Host σ) (t : σ × List Call) (step : Step) :
    h.traced.call t step =
      ((h.call t.1 step).1, (h.call t.1 step).2, t.2 ++ [(h.call t.1 step).1]) := by
  cases step <;> rfl

theorem announce_traced (h : Host σ) (t : σ × List Call) (step : Step) :
    h.traced.announce t step = (h.announce t.1 step, t.2) := by
  cases step <;> rfl

end Host

/-- The steps that actions take on a host where every step succeeds. -/
def plannedSteps : List Action → List Step
  | [] => []
  | .say _ :: rest | .log _ :: rest => plannedSteps rest
  | .run command :: rest => .run command :: plannedSteps rest
  | .move source target :: rest => .move source target :: plannedSteps rest
  | .fail _ :: _ => []

/-- How actions end on a host where every step succeeds. -/
def plannedEnd : List Action → Except Failure Unit
  | [] => .ok ()
  | .say _ :: rest | .log _ :: rest | .run _ :: rest | .move _ _ :: rest => plannedEnd rest
  | .fail failure :: _ => .error failure

@[simp] theorem plannedSteps_action (step : Step) (rest : List Action) :
    plannedSteps (step.action :: rest) = step :: plannedSteps rest := by
  cases step <;> rfl

@[simp] theorem plannedEnd_action (step : Step) (rest : List Action) :
    plannedEnd (step.action :: rest) = plannedEnd rest := by
  cases step <;> rfl

/-- Induction on actions, where commands and moves are one case. -/
theorem actions_induction {motive : List Action → Prop} (nil : motive [])
    (say : ∀ line rest, motive rest → motive (.say line :: rest))
    (log : ∀ line rest, motive rest → motive (.log line :: rest))
    (step : ∀ (step : Step) rest, motive rest → motive (step.action :: rest))
    (fail : ∀ failure rest, motive (.fail failure :: rest)) (actions : List Action) :
    motive actions := by
  induction actions with
  | nil => exact nil
  | cons a rest ih =>
      cases a with
      | say line => exact say line rest ih
      | log line => exact log line rest ih
      | run command => exact step (.run command) rest ih
      | move source target => exact step (.move source target) rest ih
      | fail failure => exact fail failure rest

/-- Calls follow a plan up to the first that fails, which alone decides how the run ends; without
one they are the whole plan, and the run ends as planned. -/
structure FollowsPlan (calls : List Call) (result : Except Failure Unit) (plan : List Step)
    (planned : Except Failure Unit) : Prop where
  initial : calls.map Call.step <+: plan
  complete : (∀ c ∈ calls, c.failure? = none) → calls.map Call.step = plan ∧ result = planned
  stopped : (∃ c ∈ calls, c.failure? ≠ none) →
    ∃ before last failure, calls = before ++ [last] ∧ (∀ c ∈ before, c.failure? = none) ∧
      last.failure? = some failure ∧ result = .error failure

namespace FollowsPlan

variable {calls : List Call} {result planned : Except Failure Unit} {plan : List Step} {c : Call}

theorem nil : FollowsPlan [] planned [] planned := by
  refine ⟨List.prefix_rfl, fun _ => ⟨rfl, rfl⟩, ?_⟩
  rintro ⟨c, hc, _⟩
  simp at hc

theorem fails {failure : Failure} (hc : c.failure? = some failure) :
    FollowsPlan [c] (.error failure) (c.step :: plan) planned := by
  refine ⟨⟨plan, rfl⟩, fun h => ?_, fun _ => ⟨[], c, failure, rfl, by simp, hc, rfl⟩⟩
  have := h c List.mem_cons_self
  simp [hc] at this

theorem cons (hc : c.failure? = none) (h : FollowsPlan calls result plan planned) :
    FollowsPlan (c :: calls) result (c.step :: plan) planned := by
  refine ⟨(List.prefix_cons_inj c.step).mpr h.initial, fun hall => ?_, ?_⟩
  · obtain ⟨hsteps, hend⟩ := h.complete fun d hd => hall d (List.mem_cons_of_mem c hd)
    exact ⟨by rw [List.map_cons, hsteps], hend⟩
  · rintro ⟨d, hd, hdf⟩
    have hd' : d ∈ calls := by
      rcases List.mem_cons.mp hd with rfl | hd
      · exact absurd hc hdf
      · exact hd
    obtain ⟨before, last, failure, rfl, hbefore, hlast, hend⟩ := h.stopped ⟨d, hd', hdf⟩
    refine ⟨c :: before, last, failure, rfl, ?_, hlast, hend⟩
    intro e he
    rcases List.mem_cons.mp he with rfl | he
    · exact hc
    · exact hbefore e he

end FollowsPlan

namespace Host

variable {σ : Type}

theorem perform_action (h : Host σ) (s : σ) (step : Step) (rest : List Action) :
    h.perform s (step.action :: rest) =
      match (h.call (h.announce s step) step).1.failure? with
      | none => h.perform (h.call (h.announce s step) step).2 rest
      | some failure => (.error failure, (h.call (h.announce s step) step).2) := by
  simp only [perform, act_action]
  cases (h.call (h.announce s step) step).1.failure? <;> rfl

/-- A rehearsal takes the planned steps and ends as planned. -/
theorem perform_rehearsal (r : Rehearsal) (actions : List Action) :
    (rehearsal.perform r actions).1 = plannedEnd actions ∧
      (rehearsal.perform r actions).2.steps = r.steps ++ plannedSteps actions := by
  induction actions using actions_induction generalizing r with
  | nil => simp [perform, plannedEnd, plannedSteps]
  | say line rest ih => exact ih (rehearsal.say line r)
  | log line rest ih => exact ih (rehearsal.log line r)
  | step step rest ih =>
      rw [perform_action, plannedEnd_action, plannedSteps_action]
      cases step with
      | run command =>
          obtain ⟨hend, hsteps⟩ := ih (rehearsal.call (rehearsal.announce r (.run command))
            (.run command)).2
          refine ⟨hend, hsteps.trans ?_⟩
          simp [call, announce, rehearsal]
      | move source target =>
          obtain ⟨hend, hsteps⟩ := ih (rehearsal.call r (.move source target)).2
          refine ⟨hend, hsteps.trans ?_⟩
          simp [call, rehearsal]
  | fail failure rest => simp [perform, act, plannedEnd, plannedSteps]

/-- Noting the calls changes neither a run's end nor what it leaves. -/
theorem perform_traced (h : Host σ) (t : σ × List Call) (actions : List Action) :
    (h.traced.perform t actions).1 = (h.perform t.1 actions).1 ∧
      (h.traced.perform t actions).2.1 = (h.perform t.1 actions).2 := by
  induction actions using actions_induction generalizing t with
  | nil => exact ⟨rfl, rfl⟩
  | say line rest ih => exact ih (h.say line t.1, t.2)
  | log line rest ih => exact ih (h.log line t.1, t.2)
  | step step rest ih =>
      rw [perform_action, perform_action, announce_traced, call_traced]
      cases (h.call (h.announce t.1 step) step).1.failure? with
      | none => exact ih _
      | some failure => exact ⟨rfl, rfl⟩
  | fail failure rest => exact ⟨rfl, rfl⟩

/-- On any host, actions follow their plan. -/
theorem perform_followsPlan (h : Host σ) (t : σ × List Call) (actions : List Action) :
    ∃ calls, (h.traced.perform t actions).2.2 = t.2 ++ calls ∧
      FollowsPlan calls (h.traced.perform t actions).1 (plannedSteps actions)
        (plannedEnd actions) := by
  induction actions using actions_induction generalizing t with
  | nil => exact ⟨[], (List.append_nil _).symm, .nil⟩
  | say line rest ih => exact ih (h.say line t.1, t.2)
  | log line rest ih => exact ih (h.log line t.1, t.2)
  | step step rest ih =>
      rw [perform_action, announce_traced, call_traced, plannedSteps_action, plannedEnd_action]
      have hstep := h.step_call (h.announce t.1 step) step
      cases hc : (h.call (h.announce t.1 step) step).1.failure? with
      | some failure =>
          refine ⟨[(h.call (h.announce t.1 step) step).1], rfl, ?_⟩
          have hfails : FollowsPlan _ _ (_ :: plannedSteps rest) (plannedEnd rest) := .fails hc
          rwa [hstep] at hfails
      | none =>
          obtain ⟨calls, hcalls, hfollows⟩ := ih ((h.call (h.announce t.1 step) step).2,
            t.2 ++ [(h.call (h.announce t.1 step) step).1])
          refine ⟨(h.call (h.announce t.1 step) step).1 :: calls, ?_, ?_⟩
          · rw [hcalls, List.append_assoc, List.singleton_append]
          · have hcons := hfollows.cons hc
            rwa [hstep] at hcons
  | fail failure rest => exact ⟨[], (List.append_nil _).symm, .nil⟩

end Host

end DeclarativeBuild
