import DeclarativeBuild.Proofs.Run.Calls
import DeclarativeBuild.Proofs.Run.Stages
import Mathlib.Data.List.Perm.Subperm

/-!
# Interleaved runs

The branches of a stage may be taken up, and their calls begin and end, in any order.  Nothing
bounds how many are under way at once, so whatever a limited number of workers can do is among these
runs; performing the branches one by one in the order of a schedule is one of them too.
-/

namespace DeclarativeBuild

variable {σ : Type}

/-- A call begins, or has ended. -/
inductive Event where
  | begun (step : Step)
  | ended (call : Call)

namespace Event

def begun? : Event → Option Step
  | begun step => some step
  | ended _ => none

def ended? : Event → Option Call
  | begun _ => none
  | ended call => some call

/-- The steps that were begun, in this order. -/
def steps (events : List Event) : List Step :=
  events.filterMap begun?

/-- The calls that have ended, in this order. -/
def calls (events : List Event) : List Call :=
  events.filterMap ended?

end Event

/-- A call that nothing happens during. -/
def Call.events (c : Call) : List Event :=
  [.begun c.step, .ended c]

namespace Event

@[simp] theorem steps_append (xs ys : List Event) : steps (xs ++ ys) = steps xs ++ steps ys :=
  List.filterMap_append

@[simp] theorem calls_append (xs ys : List Event) : calls (xs ++ ys) = calls xs ++ calls ys :=
  List.filterMap_append

@[simp] theorem steps_flatMap_events (cs : List Call) :
    steps (cs.flatMap Call.events) = cs.map Call.step := by
  induction cs with
  | nil => rfl
  | cons c rest ih => rw [List.flatMap_cons, steps_append, ih]; rfl

@[simp] theorem calls_flatMap_events (cs : List Call) : calls (cs.flatMap Call.events) = cs := by
  induction cs with
  | nil => rfl
  | cons c rest ih => rw [List.flatMap_cons, calls_append, ih]; rfl

end Event

/-- How far a branch has come: between two actions, inside a call, or at its end. -/
inductive Lane where
  | ready (rest : List Action)
  | calling (step : Step) (rest : List Action)
  | ended (result : Except Failure Unit)

namespace Lane

/-- How a branch goes on when a call has ended. -/
def resume (call : Call) (rest : List Action) : Lane :=
  match call.failure? with
  | none => .ready rest
  | some failure => .ended (.error failure)

/-- What may happen next on a branch. -/
inductive Advance (h : Host σ) : Lane → σ → Option Event → Lane → σ → Prop
  | say (line : String) (rest : List Action) (s : σ) :
      Advance h (.ready (.say line :: rest)) s none (.ready rest) (h.say line s)
  | log (line : LogLine) (rest : List Action) (s : σ) :
      Advance h (.ready (.log line :: rest)) s none (.ready rest) (h.log line s)
  | fail (failure : Failure) (rest : List Action) (s : σ) :
      Advance h (.ready (.fail failure :: rest)) s none (.ended (.error failure)) s
  | finish (s : σ) : Advance h (.ready []) s none (.ended (.ok ())) s
  | begins (step : Step) (rest : List Action) (s : σ) :
      Advance h (.ready (step.action :: rest)) s (some (.begun step)) (.calling step rest)
        (h.announce s step)
  | ends (step : Step) (rest : List Action) (s : σ) :
      Advance h (.calling step rest) s (some (.ended (h.call s step).1))
        (resume (h.call s step).1 rest) (h.call s step).2

end Lane

/-- Branches go on in any order.  The events are those of all branches, as time passes. -/
inductive Interleaved (h : Host σ) : List Lane → σ → List Event → List Lane → σ → Prop
  | pause (lanes : List Lane) (s : σ) : Interleaved h lanes s [] lanes s
  | advance {before after lanes : List Lane} {lane lane' : Lane} {s s' s'' : σ} {e : Option Event}
      {events : List Event} (ha : Lane.Advance h lane s e lane' s')
      (hi : Interleaved h (before ++ lane' :: after) s' events lanes s'') :
      Interleaved h (before ++ lane :: after) s (e.toList ++ events) lanes s''

/-- The first failure of a list of results. -/
def firstError : List (Except Failure Unit) → Except Failure Unit
  | [] => .ok ()
  | .error failure :: _ => .error failure
  | .ok _ :: rest => firstError rest

def Stage.branches : Stage → List (List Action)
  | .inOrder actions => [actions]
  | .together branches => branches

/-- A stage runs until all its branches have ended.  Its failure is that of the first branch that
fails in declaration order, whichever failed first in time. -/
def StageRuns (h : Host σ) (stage : Stage) (s : σ) (events : List Event)
    (result : Except Failure Unit) (s' : σ) : Prop :=
  ∃ results, Interleaved h (stage.branches.map .ready) s events (results.map .ended) s' ∧
    result = firstError results

/-- Stages run one after the other up to the first that fails.  There is one list of events for
every stage that was started. -/
inductive StagesRun (h : Host σ) :
    List Stage → σ → List (List Event) → Except Failure Unit → σ → Prop
  | nil (s : σ) : StagesRun h [] s [] (.ok ()) s
  | stop {stage : Stage} {rest : List Stage} {s s' : σ} {events : List Event} {failure : Failure}
      (hs : StageRuns h stage s events (.error failure) s') :
      StagesRun h (stage :: rest) s [events] (.error failure) s'
  | next {stage : Stage} {rest : List Stage} {s s' s'' : σ} {events : List Event}
      {traces : List (List Event)} {result : Except Failure Unit}
      (hs : StageRuns h stage s events (.ok ()) s') (hr : StagesRun h rest s' traces result s'') :
      StagesRun h (stage :: rest) s (events :: traces) result s''

namespace Interleaved

variable {h : Host σ}

theorem trans {lanes lanes' lanes'' : List Lane} {s s' s'' : σ} {es es' : List Event}
    (hi : Interleaved h lanes s es lanes' s') (hj : Interleaved h lanes' s' es' lanes'' s'') :
    Interleaved h lanes s (es ++ es') lanes'' s'' := by
  induction hi with
  | pause => exact hj
  | advance ha _ ih =>
      rw [List.append_assoc]
      exact .advance ha (ih hj)

/-- One branch goes on alone to its end. -/
theorem alone (before after : List Lane) (s : σ) (actions : List Action) :
    ∃ events, Interleaved h (before ++ .ready actions :: after) s events
      (before ++ .ended (h.perform s actions).1 :: after) (h.perform s actions).2 := by
  induction actions using actions_induction generalizing s with
  | nil => exact ⟨_, .advance (.finish s) (.pause _ _)⟩
  | say line rest ih =>
      obtain ⟨events, hi⟩ := ih (h.say line s)
      exact ⟨_, .advance (.say line rest s) hi⟩
  | log line rest ih =>
      obtain ⟨events, hi⟩ := ih (h.log line s)
      exact ⟨_, .advance (.log line rest s) hi⟩
  | step step rest ih =>
      rw [h.perform_action]
      have hends := Lane.Advance.ends (h := h) step rest (h.announce s step)
      unfold Lane.resume at hends
      cases hc : (h.call (h.announce s step) step).1.failure? with
      | none =>
          rw [hc] at hends
          obtain ⟨events, hi⟩ := ih (h.call (h.announce s step) step).2
          exact ⟨_, .advance (.begins step rest s) (.advance hends hi)⟩
      | some failure =>
          rw [hc] at hends
          exact ⟨_, .advance (.begins step rest s) (.advance hends (.pause _ _))⟩
  | fail failure rest => exact ⟨_, .advance (.fail failure rest s) (.pause _ _)⟩

/-- A branch that has come anywhere can go on alone to its end. -/
theorem alone_from (before after : List Lane) (lane : Lane) (s : σ) :
    ∃ events result s', Interleaved h (before ++ lane :: after) s events
      (before ++ .ended result :: after) s' := by
  cases lane with
  | ready rest =>
      obtain ⟨events, hi⟩ := alone (h := h) before after s rest
      exact ⟨events, _, _, hi⟩
  | calling step rest =>
      have hends := Lane.Advance.ends (h := h) step rest s
      unfold Lane.resume at hends
      cases hc : (h.call s step).1.failure? with
      | none =>
          rw [hc] at hends
          obtain ⟨events, hi⟩ := alone (h := h) before after (h.call s step).2 rest
          exact ⟨_, _, _, .advance hends hi⟩
      | some failure =>
          rw [hc] at hends
          exact ⟨_, _, _, .advance hends (.pause _ _)⟩
  | ended result => exact ⟨_, _, _, .pause _ _⟩

/-- Branches never wait for each other: from wherever they are, all of them can come to their
end. -/
theorem completes (results : List (Except Failure Unit)) (lanes : List Lane) (s : σ) :
    ∃ (events : List Event) (results' : List (Except Failure Unit)) (s' : σ),
      Interleaved h (results.map .ended ++ lanes) s events (results'.map .ended) s' := by
  induction lanes generalizing results s with
  | nil =>
      refine ⟨[], results, s, ?_⟩
      rw [List.append_nil]
      exact .pause _ s
  | cons lane rest ih =>
      obtain ⟨events, result, s', hi⟩ := alone_from (h := h) (results.map .ended) rest lane s
      obtain ⟨events', results', s'', hi'⟩ := ih (results ++ [result]) s'
      rw [List.map_append, List.append_assoc] at hi'
      exact ⟨events ++ events', results', s'', hi.trans hi'⟩

theorem alone_at {lanes : List Lane} {i : Nat} {actions : List Action}
    (hl : lanes[i]? = some (.ready actions)) (s : σ) :
    ∃ events, Interleaved h lanes s events (lanes.set i (.ended (h.perform s actions).1))
      (h.perform s actions).2 := by
  obtain ⟨hi, hget⟩ := List.getElem?_eq_some_iff.mp hl
  obtain ⟨events, hrun⟩ := alone (h := h) (lanes.take i) (lanes.drop (i + 1)) s actions
  refine ⟨events, ?_⟩
  rw [List.set_eq_take_append_cons_drop, if_pos hi]
  rwa [← hget, List.getElem_cons_drop, List.take_append_drop] at hrun

end Interleaved

/-- Lanes of which some have ended as noted. -/
def settle (lanes : List Lane) : List (Nat × Except Failure Unit) → List Lane
  | [] => lanes
  | (turn, result) :: rest => settle (lanes.set turn (.ended result)) rest

@[simp] theorem length_settle (lanes : List Lane) (results : List (Nat × Except Failure Unit)) :
    (settle lanes results).length = lanes.length := by
  induction results generalizing lanes with
  | nil => rfl
  | cons r rest ih => rw [settle, ih, List.length_set]

theorem getElem?_settle_of_notMem {i : Nat} {results : List (Nat × Except Failure Unit)}
    (lanes : List Lane) (hi : i ∉ results.map Prod.fst) :
    (settle lanes results)[i]? = lanes[i]? := by
  induction results generalizing lanes with
  | nil => rfl
  | cons r rest ih =>
      rw [List.map_cons, List.mem_cons, not_or] at hi
      rw [settle, ih _ hi.2, List.getElem?_set_ne (Ne.symm hi.1)]

theorem getElem?_settle {i : Nat} {results : List (Nat × Except Failure Unit)}
    {lanes : List Lane} (hd : (results.map Prod.fst).Nodup) (hi : i ∈ results.map Prod.fst)
    (hlt : i < lanes.length) :
    (settle lanes results)[i]? = some (.ended ((results.lookup i).getD (.ok ()))) := by
  induction results generalizing lanes with
  | nil => simp at hi
  | cons r rest ih =>
      obtain ⟨turn, result⟩ := r
      rw [List.map_cons, List.nodup_cons] at hd
      by_cases ht : i = turn
      · subst ht
        rw [settle, getElem?_settle_of_notMem _ hd.1, List.getElem?_set_self hlt]
        simp
      · have hb : (i == turn) = false := by simpa using ht
        have hi' : i ∈ rest.map Prod.fst := by simpa [ht] using hi
        rw [settle, ih hd.2 hi' (by simpa using hlt), List.lookup_cons, hb]

/-- Once every turn was taken, all lanes have ended as noted. -/
theorem settle_eq_map {lanes : List Lane} {results : List (Nat × Except Failure Unit)}
    (hp : (results.map Prod.fst).Perm (List.range lanes.length)) :
    settle lanes results =
      ((List.range lanes.length).map fun i => (results.lookup i).getD (.ok ())).map .ended := by
  apply List.ext_getElem?
  intro i
  by_cases hlt : i < lanes.length
  · have hmem : i ∈ results.map Prod.fst := hp.mem_iff.mpr (List.mem_range.mpr hlt)
    rw [getElem?_settle (hp.nodup_iff.mpr List.nodup_range) hmem hlt]
    simp [hlt]
  · rw [List.getElem?_eq_none (by simpa using hlt), List.getElem?_eq_none (by simpa using hlt)]

namespace Host

variable {h : Host σ}

theorem map_fst_performBranches (branches : List (List Action)) (s : σ) (turns : List Nat) :
    (h.performBranches branches s turns).1.map Prod.fst = turns := by
  induction turns generalizing s with
  | nil => rfl
  | cons turn rest ih => simp [performBranches, ih]

/-- Performing branches one by one is an interleaved run of them. -/
theorem performBranches_interleaved (branches : List (List Action)) {turns : List Nat}
    (hd : turns.Nodup) {lanes : List Lane} (s : σ)
    (hl : ∀ turn ∈ turns, lanes[turn]? = some (.ready (branches[turn]?.getD []))) :
    ∃ events, Interleaved h lanes s events
      (settle lanes (h.performBranches branches s turns).1)
      (h.performBranches branches s turns).2 := by
  induction turns generalizing lanes s with
  | nil => exact ⟨[], .pause lanes s⟩
  | cons turn rest ih =>
      obtain ⟨hturn, hrest⟩ := List.nodup_cons.mp hd
      obtain ⟨events, hi⟩ := Interleaved.alone_at (h := h) (hl turn List.mem_cons_self) s
      -- No turn comes twice, so the branches of the other turns are still where they were.
      have hl' : ∀ other ∈ rest,
          (lanes.set turn (.ended (h.perform s (branches[turn]?.getD [])).1))[other]? =
            some (.ready (branches[other]?.getD [])) := by
        intro other ho
        have hne : turn ≠ other := fun heq => hturn (heq ▸ ho)
        rw [List.getElem?_set_ne hne]
        exact hl other (List.mem_cons_of_mem turn ho)
      obtain ⟨events', hi'⟩ := ih hrest (h.perform s (branches[turn]?.getD [])).2 hl'
      exact ⟨events ++ events', hi.trans hi'⟩

theorem firstError_map {α : Type} (g : α → Except Failure Unit) (items : List α) :
    firstError (items.map g) =
      match items.findSome? fun a =>
        match g a with
        | .error failure => some failure
        | .ok _ => none with
      | some failure => .error failure
      | none => .ok () := by
  induction items with
  | nil => rfl
  | cons a rest ih =>
      rw [List.map_cons, List.findSome?_cons]
      cases hg : g a with
      | error failure => rfl
      | ok _ => exact ih

theorem firstFailure_eq (results : List (Nat × Except Failure Unit)) (n : Nat) :
    firstFailure results n =
      firstError ((List.range n).map fun i => (results.lookup i).getD (.ok ())) := by
  rw [firstError_map, firstFailure]
  congr 2
  funext i
  rcases results.lookup i with _ | _ | _ <;> rfl

theorem performStage_runs (schedule : Schedule) (stage : Stage) (s : σ) :
    ∃ events, StageRuns h stage s events (h.performStage schedule s stage).1
      (h.performStage schedule s stage).2 := by
  cases stage with
  | inOrder actions =>
      obtain ⟨events, hi⟩ := Interleaved.alone (h := h) [] [] s actions
      refine ⟨events, [(h.perform s actions).1], hi, ?_⟩
      cases hr : (h.perform s actions).1 with
      | error failure => simpa [performStage, firstError] using hr
      | ok _ => simpa [performStage, firstError] using hr
  | together branches =>
      have hperm := schedule.turns_perm branches.length
      have hnd : (schedule.turns branches.length).Nodup := hperm.nodup_iff.mpr List.nodup_range
      have hready : ∀ turn ∈ schedule.turns branches.length,
          (branches.map Lane.ready)[turn]? = some (.ready (branches[turn]?.getD [])) := by
        intro turn hturn
        have hlt : turn < branches.length := by simpa using hperm.mem_iff.mp hturn
        simp [hlt]
      obtain ⟨events, hi⟩ := performBranches_interleaved (h := h) branches hnd s hready
      have hkeys := map_fst_performBranches (h := h) branches s (schedule.turns branches.length)
      rw [settle_eq_map (by rwa [hkeys, List.length_map]), List.length_map] at hi
      exact ⟨events, _, hi, firstFailure_eq _ _⟩

/-- Performing stages with any schedule is an interleaved run of them. -/
theorem performStages_run (schedule : Schedule) (stages : List Stage) (s : σ) :
    ∃ traces, StagesRun h stages s traces (h.performStages schedule s stages).1
      (h.performStages schedule s stages).2 := by
  induction stages generalizing s with
  | nil => exact ⟨[], .nil s⟩
  | cons stage rest ih =>
      obtain ⟨events, hs⟩ := performStage_runs (h := h) schedule stage s
      rw [performStages]
      revert hs
      obtain ⟨outcome, s'⟩ := h.performStage schedule s stage
      intro hs
      cases outcome with
      | error failure => exact ⟨[events], .stop hs⟩
      | ok _ =>
          obtain ⟨traces, hr⟩ := ih s'
          exact ⟨events :: traces, .next hs hr⟩

end Host

end DeclarativeBuild
