import DeclarativeBuild.Proofs.Run.Linking

/-!
# Branches that run alone

A branch beside which nothing runs does what performing its actions does: each call ends before the
next begins, and they follow the plan.  On any branch, a failure is that of a call or was planned.
-/

namespace DeclarativeBuild

variable {σ : Type} {h : Host σ} {s s' : σ} {events : List Event} {result : Except Failure Unit}

theorem plannedEnd_append_of_ok {as : List Action} (hok : plannedEnd as = .ok ())
    (bs : List Action) : plannedEnd (as ++ bs) = plannedEnd bs := by
  induction as using actions_induction with
  | nil => rfl
  | say line rest ih => exact ih hok
  | log line rest ih => exact ih hok
  | step step rest ih =>
      rw [plannedEnd_action] at hok
      rw [List.cons_append, plannedEnd_action, ih hok]
  | fail failure rest => cases hok

/-- What stands behind actions that are planned to fail is not planned. -/
theorem planned_append_of_error {as : List Action} {failure : Failure}
    (herror : plannedEnd as = .error failure) (bs : List Action) :
    plannedSteps (as ++ bs) = plannedSteps as ∧ plannedEnd (as ++ bs) = .error failure := by
  induction as using actions_induction with
  | nil => cases herror
  | say line rest ih => exact ih herror
  | log line rest ih => exact ih herror
  | step step rest ih =>
      rw [plannedEnd_action] at herror
      obtain ⟨hsteps, hend⟩ := ih herror
      rw [List.cons_append, plannedSteps_action, plannedSteps_action, plannedEnd_action, hsteps]
      exact ⟨rfl, hend⟩
  | fail other rest => exact ⟨rfl, herror⟩

/-- What performing the rest of a branch leads to; inside a call, what is left of it. -/
def Lane.Performs (h : Host σ) : Lane → σ → List Event → Except Failure Unit → σ → Prop
  | .ready rest, s, events, result, s' => ∃ calls, events = calls.flatMap Call.events ∧
      ∀ noted, h.traced.perform (s, noted) rest = (result, s', noted ++ calls)
  | .calling step rest, s, events, result, s' => ∃ calls,
      .begun step :: events = calls.flatMap Call.events ∧
      ∀ noted, (match (h.call s step).1.failure? with
        | none => h.traced.perform ((h.call s step).2, noted ++ [(h.call s step).1]) rest
        | some failure => (.error failure, (h.call s step).2, noted ++ [(h.call s step).1])) =
        (result, s', noted ++ calls)
  | .ended found, s, events, result, s' => events = [] ∧ found = result ∧ s = s'

theorem Lane.Advance.performs {lane lane' : Lane} {s'' : σ} {e : Option Event}
    (ha : Advance h lane s e lane' s') (hp : lane'.Performs h s' events result s'') :
    lane.Performs h s (e.toList ++ events) result s'' := by
  cases ha with
  | say | log => exact hp
  | fail failure rest =>
      obtain ⟨rfl, rfl, rfl⟩ := hp
      exact ⟨[], rfl, fun noted => by simp [Host.perform, Host.act]⟩
  | finish =>
      obtain ⟨rfl, rfl, rfl⟩ := hp
      exact ⟨[], rfl, fun noted => by simp [Host.perform]⟩
  | begins step rest =>
      obtain ⟨calls, hevents, hperform⟩ := hp
      refine ⟨calls, hevents, fun noted => ?_⟩
      rw [Host.perform_action, Host.announce_traced, Host.call_traced]
      exact hperform noted
  | ends step rest =>
      have hstep := h.step_call s step
      rw [resume] at hp
      cases hf : (h.call s step).1.failure? with
      | none =>
          rw [hf] at hp
          obtain ⟨calls, rfl, hperform⟩ := hp
          refine ⟨(h.call s step).1 :: calls, ?_, fun noted => ?_⟩
          · simp [Call.events, hstep]
          · simp [hf, hperform]
      | some failure =>
          rw [hf] at hp
          obtain ⟨rfl, rfl, rfl⟩ := hp
          refine ⟨[(h.call s step).1], ?_, fun noted => ?_⟩
          · simp [Call.events, hstep]
          · simp [hf]

namespace Interleaved

variable {lanes lanes' : List Lane} {lane : Lane}

theorem length_eq (hi : Interleaved h lanes s events lanes' s') : lanes.length = lanes'.length := by
  induction hi with
  | pause => rfl
  | advance _ _ ih => simpa using ih

theorem performs (hi : Interleaved h lanes s events lanes' s') (hl : lanes = [lane])
    (hl' : lanes' = [.ended result]) : lane.Performs h s events result s' := by
  induction hi generalizing lane with
  | pause lanes s =>
      obtain rfl : lane = .ended result := by simpa [hl] using hl'
      exact ⟨rfl, rfl, rfl⟩
  | @advance before after _ old next _ _ _ e events ha _ ih =>
      obtain ⟨rfl, rfl, rfl⟩ : before = [] ∧ old = lane ∧ after = [] := by
        cases before with
        | nil => simpa using hl
        | cons => simp at hl
      exact ha.performs (ih rfl hl')

/-- A branch fails as one of its calls does, or as was planned. -/
theorem exists_of_ended_error (hi : Interleaved h lanes s events lanes' s') {failure : Failure}
    (hm : .ended (.error failure) ∈ lanes') :
    (∃ c ∈ Event.calls events, c.failure? = some failure) ∨
      ∃ lane ∈ lanes, lane.outlook = .error failure := by
  induction hi with
  | pause => exact .inr ⟨_, hm, rfl⟩
  | @advance before after _ old next s _ _ e events ha _ ih =>
      have hnext : next.outlook = .error failure →
          (∃ c ∈ Event.calls e.toList, c.failure? = some failure) ∨
            old.outlook = .error failure := by
        intro ho
        cases ha with
        | say | log | fail | finish => exact .inr ho
        | begins step rest => exact .inr ((plannedEnd_action step rest).trans ho)
        | ends step rest =>
            rw [Lane.resume] at ho
            cases hf : (h.call s step).1.failure? with
            | none => exact .inr (by rwa [hf] at ho)
            | some other =>
                rw [hf] at ho
                obtain rfl := Except.error.inj ho
                exact .inl ⟨_, List.mem_singleton_self _, hf⟩
      rw [Event.calls_append]
      rcases ih hm with ⟨c, hc, hf⟩ | ⟨lane, hl, ho⟩
      · exact .inl ⟨c, List.mem_append_right _ hc, hf⟩
      · simp only [List.mem_append, List.mem_cons] at hl
        rcases hl with hl | rfl | hl
        · exact .inr ⟨lane, List.mem_append_left _ hl, ho⟩
        · rcases hnext ho with ⟨c, hc, hf⟩ | hold
          · exact .inl ⟨c, List.mem_append_left _ hc, hf⟩
          · exact .inr ⟨old, by simp, hold⟩
        · exact .inr ⟨lane, by simp [hl], ho⟩

end Interleaved

/-- Calls that follow a plan to a good end are all of it. -/
theorem FollowsPlan.completes {actions : List Action} {calls : List Call}
    (hf : FollowsPlan calls (.ok ()) (plannedSteps actions) (plannedEnd actions)) :
    (Lane.ready actions).Completes calls := by
  have hall : ∀ c ∈ calls, c.failure? = none := by
    by_contra hnot
    obtain ⟨c, hc, hfails⟩ : ∃ c ∈ calls, c.failure? ≠ none := by simpa using hnot
    obtain ⟨_, _, _, -, -, -, hresult⟩ := hf.stopped ⟨c, hc, hfails⟩
    cases hresult
  obtain ⟨hsteps, hend⟩ := hf.complete hall
  exact ⟨hsteps, hend.symm, hall⟩

theorem firstError_singleton (result : Except Failure Unit) : firstError [result] = result := by
  cases result <;> rfl

theorem mem_of_firstError_eq_error {results : List (Except Failure Unit)} {failure : Failure}
    (h : firstError results = .error failure) : .error failure ∈ results := by
  induction results with
  | nil => cases h
  | cons result rest ih =>
      cases result with
      | error other =>
          obtain rfl : other = failure := Except.error.inj h
          exact List.mem_cons_self
      | ok _ => exact List.mem_cons_of_mem _ (ih h)

namespace StageRuns

/-- The calls of a stage in order follow each other, and its plan. -/
theorem follows {actions : List Action} (hs : StageRuns h (.inOrder actions) s events result s') :
    ∃ calls, events = calls.flatMap Call.events ∧
      FollowsPlan calls result (plannedSteps actions) (plannedEnd actions) ∧
      h.perform s actions = (result, s') := by
  obtain ⟨results, hi, rfl⟩ := hs
  obtain ⟨found, rfl⟩ : ∃ found, results = [found] := by
    have hlength := hi.length_eq
    simp only [Stage.branches, List.map_singleton, List.length_singleton,
      List.length_map] at hlength
    exact List.length_eq_one_iff.mp hlength.symm
  rw [firstError_singleton]
  obtain ⟨calls, hevents, hperform⟩ := hi.performs rfl rfl
  obtain ⟨followed, hcalls, hfollows⟩ := h.perform_followsPlan (s, []) actions
  obtain ⟨hend, hstate⟩ := h.perform_traced (s, []) actions
  rw [hperform []] at hcalls hfollows hend hstate
  obtain rfl : calls = followed := by simpa using hcalls
  exact ⟨calls, hevents, hfollows, Prod.ext hend.symm hstate.symm⟩

/-- A stage fails as a call of it does, or as one of its branches was planned to. -/
theorem exists_of_error {stage : Stage} {failure : Failure}
    (hs : StageRuns h stage s events (.error failure) s') :
    (∃ c ∈ Event.calls events, c.failure? = some failure) ∨
      ∃ actions ∈ stage.branches, plannedEnd actions = .error failure := by
  obtain ⟨results, hi, herror⟩ := hs
  have hm : Lane.ended (.error failure) ∈ results.map Lane.ended :=
    List.mem_map_of_mem (mem_of_firstError_eq_error herror.symm)
  rcases hi.exists_of_ended_error hm with hcall | ⟨lane, hl, ho⟩
  · exact .inl hcall
  · obtain ⟨actions, hbranch, rfl⟩ := List.mem_map.mp hl
    exact .inr ⟨actions, hbranch, ho⟩

end StageRuns

end DeclarativeBuild
