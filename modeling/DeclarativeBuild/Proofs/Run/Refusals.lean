import DeclarativeBuild.Proofs.Compiler.DriveLines
import DeclarativeBuild.Proofs.Run.Alone
import DeclarativeBuild.Proofs.Run.Parameters

/-!
# Refusals

A task that cannot be run as it is described asks nothing of the host: all its presets are looked
up, and the objects of a binary compared, before its first step.  What the emulated compiler refuses
is only found when the run comes to it.  Everything before it has been done by then, and it is the
last that happens.
-/

namespace DeclarativeBuild

open PresetTable

variable {σ : Type} {h : Host σ} {t : PresetTable}

namespace PresetTable

/-- A preset that is named does not resolve if applying it fails, and resolves if it does not. -/
theorem exists_of_apply_eq_error (ht : t.Sound) {preset? : Option String} {own : Params}
    {failure : Failure} (h : (t.apply preset? own).1 = .error failure) :
    ∃ name ∈ preset?.toList, Resolution t.find? name (.error failure) := by
  cases preset? with
  | none => cases h
  | some name =>
      refine ⟨name, by simp, ?_⟩
      have hres := (resolve_spec ht name).1
      simp only [apply] at h
      cases hr : (t.resolve name).1 with
      | error other =>
          rw [hr] at h hres
          obtain rfl : other = failure := by simpa [Except.map] using h
          exact hres
      | ok params => simp [hr, Except.map] at h

theorem not_resolution_of_apply_eq_ok (ht : t.Sound) {preset? : Option String} {own params : Params}
    (h : (t.apply preset? own).1 = .ok params) {name : String} (hn : name ∈ preset?.toList)
    (failure : Failure) : ¬Resolution t.find? name (.error failure) := by
  intro hfails
  cases preset? with
  | none => simp at hn
  | some named =>
      obtain rfl : name = named := by simpa using hn
      have heq := (resolve_spec ht name).1.unique hfails
      simp [apply, heq, Except.map] at h

end PresetTable

/-- The presets that a task and its objects name. -/
def Task.presetNames : Task → List String
  | .echo _ | .exec _ _ => []
  | .object o => o.preset?.toList
  | .binary b => b.presetNames

/-- What stands in the way of a task before it is run: objects of a binary that would be written
twice, and presets that do not resolve. -/
inductive Task.Hindered (find : String → Option Preset) : Task → Failure → Prop
  | collision {b : BinaryTask} {path : Path} (hpath : FirstRepeat (Task.binary b).compiled path) :
      Hindered find (.binary b) (.outputCollision path)
  | preset {task : Task} {name : String} {failure : Failure} (hname : name ∈ task.presetNames)
      (hfails : Resolution find name (.error failure)) : Hindered find task failure

theorem FirstRepeat.not_apart {paths : List Path} {path : Path} (h : FirstRepeat paths path) :
    ¬Apart paths := by
  obtain ⟨before, after, rfl, -, hm⟩ := h
  rw [Apart, List.map_append, List.map_cons, List.nodup_append]
  rintro ⟨-, -, hne⟩
  exact hne _ hm _ List.mem_cons_self rfl

/-- The units of an object task are there if its preset can be applied, and fail as it does if
not. -/
theorem ObjectTask.compileUnits_cases (o : ObjectTask) (outer? : Option Params) (t : PresetTable) :
    (o.compileUnits outer? t).2 = (t.apply o.preset? o.params).2 ∧
      ((∃ failure, (t.apply o.preset? o.params).1 = .error failure ∧
        (o.compileUnits outer? t).1 = .error failure) ∨
      ∃ own units, (t.apply o.preset? o.params).1 = .ok own ∧
        (o.compileUnits outer? t).1 = .ok units) := by
  rw [o.compileUnits_eq]
  cases ha : (t.apply o.preset? o.params).1 with
  | error failure => simp [lookThen, ha]
  | ok own => simp [lookThen, ha]

/-- The units of a binary's objects are there if all their presets resolve; if not, they fail as one
of these presets does. -/
theorem compileUnitsOf_spec (outer : Params) (objects : List ObjectTask) (ht : t.Sound) :
    (∀ failure, (compileUnitsOf outer t objects).1 = .error failure →
      ∃ name ∈ objects.flatMap (·.preset?.toList), Resolution t.find? name (.error failure)) ∧
    ∀ units, (compileUnitsOf outer t objects).1 = .ok units →
      ∀ name ∈ objects.flatMap (·.preset?.toList), ∀ failure,
        ¬Resolution t.find? name (.error failure) := by
  induction objects generalizing t with
  | nil => simp [compileUnitsOf]
  | cons o rest ih =>
      have hcons := congrFun (compileUnitsOf_cons outer o rest) t
      obtain ⟨htable, ⟨failure, hown, hfirst⟩ | ⟨own, units, hown, hfirst⟩⟩ :=
        o.compileUnits_cases (some outer) t
      · simp only [lookThen, hfirst] at hcons
        obtain ⟨name, hname, hfails⟩ := exists_of_apply_eq_error ht hown
        rw [hcons]
        refine ⟨fun other h => ?_, by simp⟩
        obtain rfl : failure = other := Except.error.inj h
        exact ⟨name, List.mem_flatMap.mpr ⟨o, List.mem_cons_self, hname⟩, hfails⟩
      · simp only [lookThen, hfirst, htable] at hcons
        -- What is remembered of the first object's preset changes no other answer.
        obtain ⟨herror, hok⟩ := ih (sound_apply ht o.preset? o.params)
        rw [find?_apply] at herror hok
        rw [hcons]
        cases hmore : (compileUnitsOf outer (t.apply o.preset? o.params).2 rest).1 with
        | error failure =>
            refine ⟨fun other h => ?_, by simp⟩
            obtain rfl : failure = other := Except.error.inj h
            obtain ⟨name, hname, hfails⟩ := herror failure hmore
            exact ⟨name, by simp [hname], hfails⟩
        | ok more =>
            refine ⟨by simp, fun _ _ name hname failure => ?_⟩
            rw [List.flatMap_cons, List.mem_append] at hname
            rcases hname with hname | hname
            · exact not_resolution_of_apply_eq_ok ht hown hname failure
            · exact hok more hmore name hname failure

/-- A task with something in its way is nothing but a failure. -/
theorem Task.stages_of_hindered (ht : t.Sound) {task : Task} {failure : Failure}
    (hh : task.Hindered t.find? failure) (jobs : Nat) :
    ∃ other, task.Hindered t.find? other ∧ (task.stages jobs t).1 = [.inOrder [.fail other]] := by
  cases task with
  | echo | exec =>
      cases hh with
      | preset hname => simp [presetNames] at hname
  | object o =>
      obtain ⟨-, ⟨other, hown, hunits⟩ | ⟨own, units, hown, hunits⟩⟩ := o.compileUnits_cases none t
      · obtain ⟨name, hname, hfails⟩ := exists_of_apply_eq_error ht hown
        refine ⟨other, .preset hname hfails, ?_⟩
        rw [congrFun (Task.stages_object o jobs) t]
        simp only [lookThen, hunits]
      · cases hh with
        | preset hname hfails =>
            exact absurd hfails (not_resolution_of_apply_eq_ok ht hown hname failure)
  | binary b =>
      cases hc : b.collision? with
      | some path =>
          refine ⟨_, .collision (BinaryTask.firstRepeat_of_collision?_eq_some hc), ?_⟩
          simp only [stages, BinaryTask.stages, hc]
      | none =>
          simp only [stages, b.stages_eq jobs hc, lookThen]
          cases hparams : (t.apply b.preset? b.params).1 with
          | error other =>
              obtain ⟨name, hname, hfails⟩ := exists_of_apply_eq_error ht hparams
              exact ⟨other, .preset (List.mem_append_left _ hname) hfails, rfl⟩
          | ok params =>
              obtain ⟨herror, hok⟩ :=
                compileUnitsOf_spec params b.objects (sound_apply ht b.preset? b.params)
              rw [find?_apply] at herror hok
              cases hunits : (compileUnitsOf params (t.apply b.preset? b.params).2 b.objects).1 with
              | error other =>
                  obtain ⟨name, hname, hfails⟩ := herror other hunits
                  exact ⟨other, .preset (List.mem_append_right _ hname) hfails,
                    by simp only [hunits]⟩
              | ok units =>
                  cases hh with
                  | collision hpath =>
                      exact absurd (BinaryTask.apart_of_collision?_eq_none hc) hpath.not_apart
                  | preset hname hfails =>
                      rcases List.mem_append.mp hname with hname | hname
                      · exact absurd hfails (not_resolution_of_apply_eq_ok ht hparams hname failure)
                      · exact absurd hfails (hok units hunits _ hname failure)

/-- What a task comes to, one after the other: a source to compile, or a binary to link. -/
inductive Work where
  | compile (u : CompileUnit)
  | link (b : BinaryTask) (params : Params)

namespace Work

def actions : Work → List Action
  | compile u => u.actions
  | link b params => b.linkActions params

/-- What the emulated compiler does not do: it takes no path without a name on its drive, and makes
no shared libraries. -/
inductive Refused : Work → Failure → Prop
  | source {u : CompileUnit} {d : WatcomDriver} {p : Path} {failure : Failure}
      (compiler_eq : u.compiler = .watcom d) (hp : p ∈ u.source :: u.params.includes.map Path.mk)
      (hfails : d.drivePath p = .error failure) : Refused (.compile u) failure
  | operand {b : BinaryTask} {params : Params} {d : WatcomDriver} {p : Path} {failure : Failure}
      (compiler_eq : b.compiler = .watcom d) (mode_eq : b.mode = .executable)
      (hp : p ∈ b.objectFiles ++ b.libraries) (hfails : d.drivePath p = .error failure) :
      Refused (.link b params) failure
  | shared {b : BinaryTask} {params : Params} {d : WatcomDriver}
      (compiler_eq : b.compiler = .watcom d) (mode_eq : b.mode = .sharedLibrary) :
      Refused (.link b params) (.unsupported "watcom" "create shared libraries")

/-- Work that is refused plans nothing but its refusal. -/
theorem Refused.planned {x : Work} {failure : Failure} (hx : x.Refused failure) :
    plannedSteps x.actions = [] ∧
      ∃ other, x.Refused other ∧ plannedEnd x.actions = .error other := by
  cases hx with
  | @source u d p _ hc hp hfails =>
      cases hline : d.objectLine u.source u.params with
      | ok line =>
          obtain ⟨operand, hoperand⟩ := WatcomDriver.drivePath_of_objectLine hline hp
          simp [hoperand] at hfails
      | error other =>
          obtain ⟨q, hq, hrefused⟩ := WatcomDriver.exists_of_objectLine_eq_error hline
          have hactions : (compile u).actions =
              .log ⟨.info, "compile " ++ u.source.text ++ " -> " ++ u.output.text⟩ ::
                [.fail other] := by
            simp only [actions, CompileUnit.actions, hc, Compiler.compileActions, hline]
            rfl
          rw [hactions]
          exact ⟨rfl, other, .source hc hq hrefused, rfl⟩
  | @operand b params d p _ hc hmode hp hfails =>
      cases hline : d.executableLine b.objectFiles b.libraries params with
      | ok line =>
          obtain ⟨operand, hoperand⟩ := WatcomDriver.drivePath_of_executableLine hline hp
          simp [hoperand] at hfails
      | error other =>
          obtain ⟨q, hq, hrefused⟩ := WatcomDriver.exists_of_executableLine_eq_error hline
          simp only [actions, BinaryTask.linkActions, hc, hmode, Compiler.linkActions, hline]
          exact ⟨rfl, other, .operand hc hmode hq hrefused, rfl⟩
  | @shared b params d hc hmode =>
      have hrefused : (link b params).Refused _ := .shared hc hmode
      simp only [actions, BinaryTask.linkActions, hc, hmode, Compiler.linkActions]
      exact ⟨rfl, _, hrefused, rfl⟩

theorem refused_of_plannedEnd {u : CompileUnit} {failure : Failure}
    (h : plannedEnd u.actions = .error failure) : (compile u).Refused failure := by
  cases hc : u.compiler with
  | gnu d =>
      simp only [CompileUnit.actions, hc, Compiler.compileActions] at h
      cases h
  | watcom d =>
      simp only [CompileUnit.actions, hc, Compiler.compileActions] at h
      cases hline : d.objectLine u.source u.params with
      | ok line =>
          rw [hline] at h
          cases h
      | error other =>
          rw [hline] at h
          obtain rfl : other = failure := Except.error.inj h
          obtain ⟨q, hq, hrefused⟩ := WatcomDriver.exists_of_objectLine_eq_error hline
          exact .source hc hq hrefused

end Work

theorem exists_of_plannedEnd_flatMap {units : List CompileUnit} {failure : Failure}
    (h : plannedEnd (units.flatMap CompileUnit.actions) = .error failure) :
    ∃ u ∈ units, plannedEnd u.actions = .error failure := by
  induction units with
  | nil => cases h
  | cons u rest ih =>
      rw [List.flatMap_cons] at h
      cases hu : plannedEnd u.actions with
      | error other =>
          rw [(planned_append_of_error hu _).2] at h
          exact ⟨u, List.mem_cons_self, hu.trans h⟩
      | ok _ =>
          rw [plannedEnd_append_of_ok hu] at h
          obtain ⟨v, hv, hfails⟩ := ih h
          exact ⟨v, List.mem_cons_of_mem u hv, hfails⟩

/-- A run that one of some units ends, because a call of it fails or because it is refused.  Nothing
but these units was begun. -/
structure StoppedWithin (units : List CompileUnit) (events : List Event) (failure : Failure) :
    Prop where
  begun : (Event.steps events).Subperm (compileSteps units)
  cause : (∃ c ∈ Event.calls events, c.failure? = some failure) ∨
    ∃ u ∈ units, (Work.compile u).Refused failure

/-- The events of compiling some units and of nothing else: every call that was begun has ended, and
each unit was compiled by calls of its own that succeeded.  Unless the units may run beside each
other, they come in declaration order, and no call begins before the last one has ended. -/
structure Compiled (units : List CompileUnit) (beside : Prop) (events : List Event) : Prop where
  begun : (Event.steps events).Perm ((Event.calls events).map Call.step)
  calls : ∃ parts, List.Forall₂ CompileUnit.CompiledBy units parts ∧
    parts.flatten.Perm (Event.calls events) ∧
    (∀ part ∈ parts, part.Sublist (Event.calls events)) ∧
    (¬beside → events = parts.flatten.flatMap Call.events)

theorem Compiled.of_completes {units : List CompileUnit} {calls : List Call}
    (hc : (Lane.ready (units.flatMap CompileUnit.actions)).Completes calls) (beside : Prop) :
    Compiled units beside (calls.flatMap Call.events) := by
  obtain ⟨parts, rfl, hparts⟩ := hc.flatMap
  refine ⟨by simp, parts, hparts.imp fun _ _ => CompileUnit.compiledBy_of_completes, ?_, ?_,
    fun _ => rfl⟩
  · rw [Event.calls_flatMap_events]
  · intro part hm
    rw [Event.calls_flatMap_events]
    exact List.sublist_flatten_of_mem hm

section Runs

variable {s s' : σ} {events : List Event} {result : Except Failure Unit}

/-- Where refused work stands behind some units, the run is stopped by one of them, or compiles them
all and ends with the refusal. -/
theorem StageRuns.stopped_or_refused {before : List CompileUnit} {x : Work} {failure : Failure}
    (hx : x.Refused failure) {more : List Action}
    (hs : StageRuns h (.inOrder (before.flatMap CompileUnit.actions ++ (x.actions ++ more))) s
      events result s') :
    (∃ cause, result = .error cause ∧ StoppedWithin before events cause) ∨
      ∃ refusal, x.Refused refusal ∧ result = .error refusal ∧ Compiled before False events := by
  obtain ⟨hnone, refusal, hrefusal, hrefused⟩ := hx.planned
  obtain ⟨hsteps, hend⟩ := planned_append_of_error hrefused more
  rw [hnone] at hsteps
  obtain ⟨calls, rfl, hfollows, -⟩ := hs.follows
  have hbegun : (Event.steps (calls.flatMap Call.events)).Subperm (compileSteps before) := by
    have hsub := hfollows.initial.sublist.trans (plannedSteps_append_sublist _ _)
    rw [hsteps, List.append_nil] at hsub
    rw [Event.steps_flatMap_events]
    exact (hsub.trans (plannedSteps_flatMap_sublist before)).subperm
  by_cases hall : ∀ c ∈ calls, c.failure? = none
  · obtain ⟨hmade, hresult⟩ := hfollows.complete hall
    cases hplanned : plannedEnd (before.flatMap CompileUnit.actions) with
    | error cause =>
        obtain ⟨u, hu, hfails⟩ := exists_of_plannedEnd_flatMap hplanned
        rw [(planned_append_of_error hplanned _).2] at hresult
        exact .inl ⟨cause, hresult, hbegun, .inr ⟨u, hu, Work.refused_of_plannedEnd hfails⟩⟩
    | ok _ =>
        rw [plannedEnd_append_of_ok hplanned, hend] at hresult
        rw [plannedSteps_append hplanned, hsteps, List.append_nil] at hmade
        exact .inr ⟨refusal, hrefusal, hresult, .of_completes ⟨hmade, hplanned, hall⟩ _⟩
  · obtain ⟨c, hc, hfails⟩ : ∃ c ∈ calls, c.failure? ≠ none := by simpa using hall
    obtain ⟨first, last, cause, rfl, -, hlast, hresult⟩ := hfollows.stopped ⟨c, hc, hfails⟩
    refine .inl ⟨cause, hresult, hbegun, .inl ⟨last, ?_, hlast⟩⟩
    rw [Event.calls_flatMap_events]
    exact List.mem_append_right first (List.mem_singleton_self last)

theorem exists_of_mem_branches_compileStage {jobs : Nat} {units : List CompileUnit}
    {actions : List Action} {failure : Failure}
    (ha : actions ∈ (compileStage jobs units).branches)
    (hfails : plannedEnd actions = .error failure) :
    ∃ u ∈ units, (Work.compile u).Refused failure := by
  unfold compileStage at ha
  split at ha
  · obtain ⟨u, hu, rfl⟩ := List.mem_map.mp ha
    exact ⟨u, hu, Work.refused_of_plannedEnd hfails⟩
  · obtain rfl := List.mem_singleton.mp ha
    obtain ⟨u, hu, hunit⟩ := exists_of_plannedEnd_flatMap hfails
    exact ⟨u, hu, Work.refused_of_plannedEnd hunit⟩

theorem compileStage_eq_inOrder {jobs : Nat} {units : List CompileUnit}
    (hnot : ¬(1 < jobs ∧ ∀ u ∈ units, u.compiler.runsParallel = true)) :
    compileStage jobs units = .inOrder (units.flatMap CompileUnit.actions) := by
  unfold compileStage
  rw [if_neg]
  simpa using hnot

/-- A stage that compiles some units and fails is stopped by one of them. -/
theorem StageRuns.stoppedWithin {jobs : Nat} {units : List CompileUnit} {failure : Failure}
    (hs : StageRuns h (compileStage jobs units) s events (.error failure) s') :
    StoppedWithin units events failure where
  begun := hs.steps_subperm.trans (plan_compileStage_sublist jobs units).subperm
  cause := by
    rcases hs.exists_of_error with hcall | ⟨actions, ha, hfails⟩
    · exact .inl hcall
    · exact .inr (exists_of_mem_branches_compileStage ha hfails)

/-- A stage that compiles some units and ends well has compiled them all. -/
theorem StageRuns.compiled {jobs : Nat} {units : List CompileUnit}
    (hs : StageRuns h (compileStage jobs units) s events (.ok ()) s') :
    Compiled units (1 < jobs ∧ ∀ u ∈ units, u.compiler.runsParallel = true) events := by
  by_cases hbeside : 1 < jobs ∧ ∀ u ∈ units, u.compiler.runsParallel = true
  · obtain ⟨parts, hparts, hperm, hsub⟩ := hs.compiledBy
    exact ⟨hs.steps_perm_calls, parts, hparts, hperm, hsub, absurd hbeside⟩
  · rw [compileStage_eq_inOrder hbeside] at hs
    obtain ⟨calls, rfl, hfollows, -⟩ := hs.follows
    exact .of_completes hfollows.completes _

end Runs

/-- What a task comes to, and the units that are before it in declaration order. -/
inductive Task.ComesTo (t : PresetTable) : Task → List CompileUnit → Work → Prop
  | object {o : ObjectTask} {before after : List CompileUnit} {u : CompileUnit}
      (units_eq : (o.compileUnits none t).1 = .ok (before ++ u :: after)) :
      ComesTo t (.object o) before (.compile u)
  | part {b : BinaryTask} {params : Params} {before after : List CompileUnit} {u : CompileUnit}
      (hp : b.Prepared t params (before ++ u :: after)) : ComesTo t (.binary b) before (.compile u)
  | link {b : BinaryTask} {params : Params} {units : List CompileUnit}
      (hp : b.Prepared t params units) : ComesTo t (.binary b) units (.link b params)

/-- Whether the units before some work may have run beside each other: only those that are linked,
if there are workers and every compiler allows it. -/
def Work.Beside (jobs : Nat) (before : List CompileUnit) : Work → Prop
  | .compile _ => False
  | .link _ _ => 1 < jobs ∧ ∀ u ∈ before, u.compiler.runsParallel = true

theorem Work.Refused.not_runsParallel {u : CompileUnit} {failure : Failure}
    (hx : (Work.compile u).Refused failure) : u.compiler.runsParallel = false := by
  cases hx with
  | source compiler_eq => rw [compiler_eq]; rfl

/-- A task that comes to refused work is stopped before it, or ends there with everything before it
done and nothing else. -/
theorem Task.ComesTo.stopped_or_refused {task : Task} {before : List CompileUnit} {x : Work}
    (hc : task.ComesTo t before x) {failure : Failure} (hx : x.Refused failure) {jobs : Nat}
    {s s' : σ} {traces : List (List Event)} {result : Except Failure Unit}
    (hr : StagesRun h (task.stages jobs t).1 s traces result s') :
    (∃ cause, result = .error cause ∧ StoppedWithin before traces.flatten cause) ∨
      ∃ refusal, x.Refused refusal ∧ result = .error refusal ∧
        Compiled before (x.Beside jobs before) traces.flatten := by
  cases hc with
  | @object o _ after u units_eq =>
      rw [congrFun (Task.stages_object o jobs) t] at hr
      simp only [lookThen, units_eq] at hr
      obtain ⟨events, rfl, hs⟩ := hr.single
      rw [List.flatMap_append, List.flatMap_cons] at hs
      rw [List.flatten_singleton]
      exact hs.stopped_or_refused hx
  | @part b params _ after u hp =>
      have hmem : u ∈ before ++ u :: after := List.mem_append_right _ List.mem_cons_self
      have hnot : ¬(1 < jobs ∧ ∀ v ∈ before ++ u :: after, v.compiler.runsParallel = true) := by
        rintro ⟨-, hall⟩
        simpa [hx.not_runsParallel] using hall u hmem
      rw [Task.stages, hp.stages_eq, compileStage_eq_inOrder hnot, List.flatMap_append,
        List.flatMap_cons] at hr
      obtain ⟨events, cause, rfl, rfl, hs⟩ | ⟨_, _, _, -, hs, -⟩ := hr.pair
      · rw [List.flatten_singleton]
        exact hs.stopped_or_refused hx
      · -- The stage with the refused unit does not end well.
        obtain ⟨_, hcause, -⟩ | ⟨_, -, hcause, -⟩ := hs.stopped_or_refused (x := .compile u) hx
        all_goals cases hcause
  | @link b params _ hp =>
      rw [Task.stages, hp.stages_eq] at hr
      obtain ⟨events, cause, rfl, rfl, hs⟩ | ⟨compiling, linking, _, rfl, hs, hl⟩ := hr.pair
      · rw [List.flatten_singleton]
        exact .inl ⟨cause, rfl, hs.stoppedWithin⟩
      · obtain ⟨hnone, refusal, hrefusal, hrefused⟩ := hx.planned
        obtain ⟨calls, rfl, hfollows, -⟩ := hl.follows
        have hsteps : calls.map Call.step <+: [] := hnone ▸ hfollows.initial
        obtain rfl : calls = [] := List.map_eq_nil_iff.mp (List.prefix_nil.mp hsteps)
        have hresult : result = .error refusal :=
          (hfollows.complete (by simp)).2.trans hrefused
        refine .inr ⟨refusal, hrefusal, hresult, ?_⟩
        rw [List.flatten_cons, List.flatten_singleton, List.flatMap_nil, List.append_nil]
        exact hs.compiled

/-- A task with something in its way does nothing and fails. -/
theorem Task.Hindered.run (ht : t.Sound) {task : Task} {failure : Failure}
    (hh : task.Hindered t.find? failure) {jobs : Nat} {s s' : σ} {traces : List (List Event)}
    {result : Except Failure Unit} (hr : StagesRun h (task.stages jobs t).1 s traces result s') :
    traces.flatten = [] ∧ s' = s ∧
      ∃ other, task.Hindered t.find? other ∧ result = .error other := by
  obtain ⟨other, hother, hstages⟩ := Task.stages_of_hindered ht hh jobs
  rw [hstages] at hr
  obtain ⟨events, rfl, hs⟩ := hr.single
  obtain ⟨calls, rfl, hfollows, hperform⟩ := hs.follows
  have hsteps : calls.map Call.step <+: [] := hfollows.initial
  obtain rfl : calls = [] := List.map_eq_nil_iff.mp (List.prefix_nil.mp hsteps)
  obtain ⟨rfl, rfl⟩ : .error other = result ∧ s = s' := Prod.mk.inj hperform
  exact ⟨rfl, rfl, other, hother, rfl⟩

/-- However a task is run, with any number of workers and on any host: if its binary writes an
object twice, or a preset of it does not resolve, nothing is asked of the host.  If the task comes
to work that the emulated compiler refuses, then either a unit before it stops the run, and nothing
else was begun, or the units before it were compiled, the run ends with the refusal, and nothing
else was asked of the host. -/
theorem Task.fails_before_calls (task : Task) (history : List Operation) (jobs : Nat) (h : Host σ)
    (s : σ) :
    let t := after history
    let find := firstNamed (declarations history)
    (∀ schedule, ∃ traces, StagesRun h (task.stages jobs t).1 s traces
      (h.performStages schedule s (task.stages jobs t).1).1
      (h.performStages schedule s (task.stages jobs t).1).2) ∧
    ∀ {traces result s'}, StagesRun h (task.stages jobs t).1 s traces result s' →
      ((∃ failure, task.Hindered find failure) → traces.flatten = [] ∧ s' = s ∧
        ∃ failure, task.Hindered find failure ∧ result = .error failure) ∧
      ∀ {before x}, task.ComesTo t before x → (∃ failure, x.Refused failure) →
        (∃ cause, result = .error cause ∧ StoppedWithin before traces.flatten cause) ∨
          ∃ refusal, x.Refused refusal ∧ result = .error refusal ∧
            Compiled before (x.Beside jobs before) traces.flatten := by
  intro t find
  refine ⟨fun schedule => Host.performStages_run schedule _ s, fun hr => ⟨?_, ?_⟩⟩
  · rintro ⟨failure, hh⟩
    have hfind : t.find? = find := find?_after history
    rw [← hfind] at hh ⊢
    exact hh.run (sound_after history) hr
  · rintro before x hc ⟨failure, hx⟩
    exact hc.stopped_or_refused hx hr

theorem not_stoppedWithin {units : List CompileUnit} {events : List Event} {failure : Failure}
    (hcalls : ∀ c ∈ Event.calls events, c.failure? = none)
    (hunits : ∀ u ∈ units, plannedEnd u.actions = .ok ()) :
    ¬StoppedWithin units events failure := by
  rintro ⟨-, ⟨c, hc, hfails⟩ | ⟨u, hu, hrefused⟩⟩
  · simp [hcalls c hc] at hfails
  · obtain ⟨-, other, -, hend⟩ := hrefused.planned
    simp [show plannedEnd (Work.compile u).actions = .ok () from hunits u hu] at hend

section Dotted

/-- A source for the emulated compiler. -/
def dottedUnit (name : String) : CompileUnit where
  compiler := .watcom ⟨⟨"dosbox"⟩, [], "wcl", ⟨"/p"⟩⟩
  source := ⟨"/p/" ++ name ++ ".c"⟩
  output := ⟨"/p/" ++ name ++ ".obj"⟩
  params := {}

/-- A binary of two sources of which the compiler takes the first only. -/
def dottedBinary : BinaryTask where
  mode := .executable
  output := ⟨"/p/app.exe"⟩
  objects := ["a", "b.1"].map fun name =>
    ⟨[(dottedUnit name).source], none, [(dottedUnit name).output], (dottedUnit name).compiler, none,
      {}, false⟩
  libraries := []
  compiler := (dottedUnit "app").compiler
  preset? := none
  params := {}

/-- A library of one source whose preset has a parent that nothing declares. -/
def orphanedBinary : BinaryTask where
  mode := .sharedLibrary
  output := ⟨"/p/x.so"⟩
  objects := [⟨[⟨"/p/x.c"⟩], none, [⟨"/p/x.o"⟩], overlapCompiler, some "child", {}, true⟩]
  libraries := []
  compiler := overlapCompiler
  preset? := none
  params := {}

theorem fails_before_calls_dotted :
    let h := Host.exiting fun _ => 0
    let orphan : Operation := .declare { name := "child", parent? := some "none", params := {} }
    (∃ traces failure, StagesRun h ((Task.binary dottedBinary).stages 4 (after [])).1 () traces
        (.error failure) () ∧
      (Task.binary dottedBinary).ComesTo (after []) [dottedUnit "a"] (.compile (dottedUnit "b.1")) ∧
      (Work.compile (dottedUnit "b.1")).Refused failure ∧
      Compiled [dottedUnit "a"] False traces.flatten) ∧
    ∀ {traces result s'}, StagesRun h ((Task.binary orphanedBinary).stages 4 (after [orphan])).1 ()
      traces result s' → traces.flatten = [] := by
  intro h orphan
  refine ⟨?_, fun hr => ?_⟩
  · have hprepared : dottedBinary.Prepared (after []) {} [dottedUnit "a", dottedUnit "b.1"] :=
      ⟨by decide +kernel, rfl, rfl⟩
    have hc : (Task.binary dottedBinary).ComesTo (after []) [dottedUnit "a"]
      (.compile (dottedUnit "b.1")) := .part hprepared
    have hx : (Work.compile (dottedUnit "b.1")).Refused _ := .source rfl List.mem_cons_self rfl
    obtain ⟨hruns, hends⟩ := (Task.binary dottedBinary).fails_before_calls [] 4 h ()
    obtain ⟨traces, hr⟩ := hruns (.inOrder 4)
    have ha : h.Answers (fun step => (h.call () step).1) := Host.answers_exiting _
    rcases (hends hr).2 hc ⟨_, hx⟩ with
      ⟨cause, -, hstopped⟩ | ⟨refusal, hrefused, hresult, hcompiled⟩
    · have hcalls : ∀ c ∈ Event.calls traces.flatten, c.failure? = none := by
        rw [hr.events_eq ha (by decide), Event.calls_flatMap_events]
        decide +kernel
      exact absurd hstopped (not_stoppedWithin hcalls (by decide +kernel))
    · rw [hresult] at hr
      exact ⟨traces, refusal, hr, hc, hrefused, hcompiled⟩
  · have hascent : Ascent (firstNamed (declarations [orphan])) "child" (["child"] ++ ["none"]) :=
      .climb rfl rfl (.stay "none")
    have hh := ((Task.binary orphanedBinary).fails_before_calls [orphan] 4 h ()).2 hr
    exact (hh.1 ⟨_, .preset (by decide) (.unknown hascent rfl)⟩).1

end Dotted

end DeclarativeBuild
