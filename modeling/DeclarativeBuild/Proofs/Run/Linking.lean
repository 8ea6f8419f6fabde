import DeclarativeBuild.Proofs.Run.Parallel
import DeclarativeBuild.Proofs.Task.Collisions
import DeclarativeBuild.Proofs.Task.Operands

/-!
# What a link is given

A binary is linked from what its nested objects ask for.  Before a link begins, each source of the
binary has been compiled to its object by calls that succeeded.  Nothing is assumed of the host,
which may answer the same command differently each time.
-/

namespace DeclarativeBuild

variable {σ : Type} {h : Host σ}

theorem Call.eq_of_step_run {c : Call} {command : Invocation} (hc : c.step = .run command)
    (hn : c.failure? = none) : c = .ran command (.ok 0) := by
  cases c with
  | moved source target outcome => cases hc
  | ran other outcome =>
      obtain rfl : other = command := Step.run.inj hc
      cases outcome with
      | error failure => cases hn
      | ok code =>
          have hzero : code = 0 := by
            by_contra hne
            simp [failure?, hne] at hn
          rw [hzero]

theorem Call.eq_of_step_move {c : Call} {source target : Path} (hc : c.step = .move source target)
    (hn : c.failure? = none) : c = .moved source target (.ok ()) := by
  cases c with
  | ran command outcome => cases hc
  | moved source' target' outcome =>
      obtain ⟨rfl, rfl⟩ := Step.move.inj hc
      cases outcome with
      | error failure => cases hn
      | ok _ => rfl

theorem plannedEnd_append {as bs : List Action} (hok : plannedEnd (as ++ bs) = .ok ()) :
    plannedEnd as = .ok () ∧ plannedEnd bs = .ok () := by
  induction as using actions_induction with
  | nil => exact ⟨rfl, hok⟩
  | say line rest ih => exact ih hok
  | log line rest ih => exact ih hok
  | step step rest ih =>
      rw [List.cons_append, plannedEnd_action] at hok
      rw [plannedEnd_action]
      exact ih hok
  | fail failure rest => cases hok

namespace Lane

/-- The steps that a branch still waits for if nothing fails. -/
def awaited : Lane → List Step
  | .ready rest => plannedSteps rest
  | .calling step rest => step :: plannedSteps rest
  | .ended _ => []

/-- How a branch ends if no call fails. -/
def outlook : Lane → Except Failure Unit
  | .ready rest | .calling _ rest => plannedEnd rest
  | .ended result => result

/-- A branch comes to a good end by these calls. -/
structure Completes (lane : Lane) (calls : List Call) : Prop where
  steps_eq : calls.map Call.step = lane.awaited
  outlook_eq : lane.outlook = .ok ()
  succeeded : ∀ c ∈ calls, c.failure? = none

theorem Completes.ended : (Lane.ended (.ok ())).Completes [] :=
  ⟨rfl, rfl, by simp⟩

theorem Advance.completes {lane lane' : Lane} {s s' : σ} {e : Option Event} {calls : List Call}
    (ha : Advance h lane s e lane' s') (hc : lane'.Completes calls) :
    lane.Completes (Event.calls e.toList ++ calls) := by
  cases ha with
  | say | log | finish => exact ⟨hc.steps_eq, hc.outlook_eq, hc.succeeded⟩
  | fail failure => cases hc.outlook_eq
  | begins step rest =>
      refine ⟨?_, ?_, hc.succeeded⟩
      · exact hc.steps_eq.trans (plannedSteps_action step rest).symm
      · exact (plannedEnd_action step rest).trans hc.outlook_eq
  | ends step rest =>
      -- A call that fails ends its branch at once, and not well.
      have hsucceeds : (h.call s step).1.failure? = none := by
        cases hf : (h.call s step).1.failure? with
        | none => rfl
        | some failure =>
            have houtlook := hc.outlook_eq
            rw [resume, hf] at houtlook
            cases houtlook
      have hnext : resume (h.call s step).1 rest = .ready rest := by rw [resume, hsucceeds]
      rw [hnext] at hc
      refine ⟨?_, hc.outlook_eq, ?_⟩
      · change (h.call s step).1.step :: calls.map Call.step = step :: plannedSteps rest
        rw [h.step_call, hc.steps_eq]
        rfl
      · intro c hm
        rcases List.mem_cons.mp hm with rfl | hm
        · exact hsucceeds
        · exact hc.succeeded c hm

theorem Completes.append {as bs : List Action} {calls : List Call}
    (hc : (Lane.ready (as ++ bs)).Completes calls) :
    ∃ first more, calls = first ++ more ∧ (Lane.ready as).Completes first ∧
      (Lane.ready bs).Completes more := by
  obtain ⟨hend, hend'⟩ := plannedEnd_append hc.outlook_eq
  have hsteps : calls.map Call.step = plannedSteps as ++ plannedSteps bs :=
    hc.steps_eq.trans (plannedSteps_append hend bs)
  obtain ⟨first, more, rfl, hfirst, hmore⟩ := List.map_eq_append_iff.mp hsteps
  refine ⟨first, more, rfl, ⟨hfirst, hend, ?_⟩, ⟨hmore, hend', ?_⟩⟩
  · exact fun c hm => hc.succeeded c (List.mem_append_left more hm)
  · exact fun c hm => hc.succeeded c (List.mem_append_right first hm)

theorem Completes.flatMap {α : Type} {f : α → List Action} {items : List α} {calls : List Call}
    (hc : (Lane.ready (items.flatMap f)).Completes calls) :
    ∃ parts : List (List Call), calls = parts.flatten ∧
      List.Forall₂ (fun a part => (Lane.ready (f a)).Completes part) items parts := by
  induction items generalizing calls with
  | nil =>
      have hnil : calls = [] := List.map_eq_nil_iff.mp hc.steps_eq
      exact ⟨[], hnil, .nil⟩
  | cons a rest ih =>
      rw [List.flatMap_cons] at hc
      obtain ⟨first, more, rfl, hfirst, hmore⟩ := hc.append
      obtain ⟨parts, rfl, hparts⟩ := ih hmore
      exact ⟨first :: parts, rfl, .cons hfirst hparts⟩

end Lane

theorem forall₂_focus {α β : Type} {R : α → β → Prop} {before after : List α} {a : α}
    {found : List β} (hf : List.Forall₂ R (before ++ a :: after) found) :
    ∃ first b more, found = first ++ b :: more ∧ R a b ∧
      ∀ {a' b'}, R a' b' → List.Forall₂ R (before ++ a' :: after) (first ++ b' :: more) := by
  induction before generalizing found with
  | nil =>
      obtain ⟨b, more, hb, hmore, rfl⟩ := List.forall₂_cons_left_iff.mp hf
      exact ⟨[], b, more, rfl, hb, fun hr => .cons hr hmore⟩
  | cons x rest ih =>
      obtain ⟨y, found, hy, hfound, rfl⟩ := List.forall₂_cons_left_iff.mp hf
      obtain ⟨first, b, more, rfl, hb, hnext⟩ := ih hfound
      exact ⟨y :: first, b, more, rfl, hb, fun hr => .cons hy (hnext hr)⟩

/-- If all branches end well, the calls that were made are those of each branch, in its order. -/
theorem Interleaved.exists_completes {lanes lanes' : List Lane} {s s' : σ} {events : List Event}
    (hi : Interleaved h lanes s events lanes' s') (hok : ∀ lane ∈ lanes', lane = .ended (.ok ())) :
    ∃ parts, List.Forall₂ Lane.Completes lanes parts ∧
      parts.flatten.Perm (Event.calls events) ∧
      ∀ part ∈ parts, part.Sublist (Event.calls events) := by
  induction hi with
  | pause lanes s =>
      refine ⟨lanes.map fun _ => [], ?_, ?_, ?_⟩
      · rw [List.forall₂_map_right_iff, List.forall₂_same]
        intro lane hl
        rw [hok lane hl]
        exact .ended
      · have hnil : (lanes.map fun _ => ([] : List Call)).flatten = [] := by simp
        rw [hnil]
        rfl
      · intro part hp
        obtain ⟨lane, -, rfl⟩ := List.mem_map.mp hp
        exact List.nil_sublist _
  | @advance before after _ lane lane' _ _ _ e events ha _ ih =>
      obtain ⟨parts, hparts, hperm, hsub⟩ := ih hok
      -- Only the branch that goes on gets another call, which comes before its later ones.
      obtain ⟨first, part, more, rfl, hpart, hnext⟩ := forall₂_focus hparts
      refine ⟨first ++ (Event.calls e.toList ++ part) :: more, hnext (ha.completes hpart), ?_, ?_⟩
      · rw [Event.calls_append]
        refine List.Perm.trans ?_ (hperm.append_left (Event.calls e.toList))
        simp only [List.flatten_append, List.flatten_cons, List.append_assoc]
        exact List.perm_append_comm_assoc _ _ _
      · intro part' hm
        rw [Event.calls_append]
        have hcases : part' = Event.calls e.toList ++ part ∨ part' ∈ first ++ part :: more := by
          simp only [List.mem_append, List.mem_cons] at hm ⊢
          tauto
        rcases hcases with rfl | hold
        · exact (hsub part (by simp)).append_left _
        · exact (hsub part' hold).trans (List.sublist_append_right _ _)

theorem StageRuns.exists_completes {stage : Stage} {s s' : σ} {events : List Event}
    (hs : StageRuns h stage s events (.ok ()) s') :
    ∃ parts, List.Forall₂ (fun actions part => (Lane.ready actions).Completes part)
        stage.branches parts ∧
      parts.flatten.Perm (Event.calls events) ∧
      ∀ part ∈ parts, part.Sublist (Event.calls events) := by
  obtain ⟨results, hi, hr⟩ := hs
  have hok : ∀ lane ∈ results.map Lane.ended, lane = .ended (.ok ()) := by
    intro lane hl
    obtain ⟨result, hm, rfl⟩ := List.mem_map.mp hl
    rw [firstError_eq_ok_iff.mp hr.symm result hm]
  obtain ⟨parts, hparts, hperm, hsub⟩ := hi.exists_completes hok
  exact ⟨parts, List.forall₂_map_left_iff.mp hparts, hperm, hsub⟩

theorem map_step_flatten {branches : List (List Action)} {parts : List (List Call)}
    (hp : List.Forall₂ (fun actions part => (Lane.ready actions).Completes part) branches parts) :
    parts.flatten.map Call.step = branches.flatMap plannedSteps := by
  induction hp with
  | nil => rfl
  | cons hc _ ih =>
      rw [List.flatten_cons, List.map_append, List.flatMap_cons, hc.steps_eq, ih]
      rfl

/-- In a stage that ends well, all calls that were begun have ended. -/
theorem StageRuns.steps_perm_calls {stage : Stage} {s s' : σ} {events : List Event}
    (hs : StageRuns h stage s events (.ok ()) s') :
    (Event.steps events).Perm ((Event.calls events).map Call.step) := by
  obtain ⟨parts, hparts, hperm, -⟩ := hs.exists_completes
  have hplan : parts.flatten.map Call.step = stage.plan := map_step_flatten hparts
  exact (hplan ▸ hs.steps_perm).trans (hperm.map Call.step)

/-- The calls that compile a unit: one of its driver, or one of the emulator after which the object
is moved to its place. -/
inductive CompileUnit.CompiledBy (u : CompileUnit) : List Call → Prop
  | driver {d : GnuDriver} (compiler_eq : u.compiler = .gnu d) :
      CompiledBy u [.ran (d.objectCommand u.output u.source u.params) (.ok 0)]
  | emulator {d : WatcomDriver} {line : String} (compiler_eq : u.compiler = .watcom d)
      (line_eq : d.objectLine u.source u.params = .ok line) :
      CompiledBy u [.ran (d.emulatorCommand line) (.ok 0),
        .moved (d.mount.join ⟨WatcomDriver.objectOutput⟩) u.output (.ok ())]

theorem CompileUnit.compiledBy_of_completes {u : CompileUnit} {calls : List Call}
    (hc : (Lane.ready u.actions).Completes calls) : u.CompiledBy calls := by
  obtain ⟨hsteps, hend, hsucceeded⟩ := hc
  cases hu : u.compiler with
  | gnu d =>
      rw [Lane.awaited, CompileUnit.actions, hu] at hsteps
      obtain ⟨c, rest, rfl, hstep, hrest⟩ := List.map_eq_cons_iff.mp hsteps
      obtain rfl := List.map_eq_nil_iff.mp hrest
      rw [Call.eq_of_step_run hstep (hsucceeded c List.mem_cons_self)]
      exact .driver hu
  | watcom d =>
      rw [Lane.awaited, CompileUnit.actions, hu] at hsteps
      rw [Lane.outlook, CompileUnit.actions, hu] at hend
      simp only [Compiler.compileActions] at hsteps hend
      cases hline : d.objectLine u.source u.params with
      | error failure =>
          rw [hline] at hend
          cases hend
      | ok line =>
          rw [hline] at hsteps
          obtain ⟨c, rest, rfl, hstep, hrest⟩ := List.map_eq_cons_iff.mp hsteps
          obtain ⟨c', rest, rfl, hstep', hrest⟩ := List.map_eq_cons_iff.mp hrest
          obtain rfl := List.map_eq_nil_iff.mp hrest
          rw [Call.eq_of_step_run hstep (hsucceeded c List.mem_cons_self),
            Call.eq_of_step_move hstep' (hsucceeded c' (by simp))]
          exact .emulator hu hline

/-- Whether units are compiled beside or after each other, each has calls of its own. -/
theorem StageRuns.compiledBy {jobs : Nat} {units : List CompileUnit} {s s' : σ}
    {events : List Event} (hs : StageRuns h (compileStage jobs units) s events (.ok ()) s') :
    ∃ parts, List.Forall₂ CompileUnit.CompiledBy units parts ∧
      parts.flatten.Perm (Event.calls events) ∧
      ∀ part ∈ parts, part.Sublist (Event.calls events) := by
  obtain ⟨parts, hparts, hperm, hsub⟩ := hs.exists_completes
  unfold compileStage at hparts
  split at hparts
  · rw [Stage.branches, List.forall₂_map_left_iff] at hparts
    exact ⟨parts, hparts.imp fun _ _ => CompileUnit.compiledBy_of_completes, hperm, hsub⟩
  · obtain ⟨calls, rest, hcalls, hnil, rfl⟩ := List.forall₂_cons_left_iff.mp hparts
    obtain rfl := List.forall₂_nil_left_iff.mp hnil
    obtain ⟨parts, rfl, hunits⟩ := hcalls.flatMap
    rw [List.flatten_singleton] at hperm
    refine ⟨parts, hunits.imp fun _ _ => CompileUnit.compiledBy_of_completes, hperm, ?_⟩
    intro part hm
    exact (List.sublist_flatten_of_mem hm).trans (hsub _ List.mem_cons_self)

/-- Of some units exactly one writes a path, however it is spelled. -/
def WrittenOnce (units : List CompileUnit) (path : Path) : Prop :=
  ∃ before u after, units = before ++ u :: after ∧ u.output = path ∧
    ∀ other ∈ before ++ after, other.output.components ≠ path.components

theorem writtenOnce_of_apart {units : List CompileUnit} {path : Path}
    (ha : Apart (units.map CompileUnit.output)) (hm : path ∈ units.map CompileUnit.output) :
    WrittenOnce units path := by
  obtain ⟨u, hu, rfl⟩ := List.mem_map.mp hm
  obtain ⟨before, after, rfl⟩ := List.append_of_mem hu
  refine ⟨before, u, after, rfl, rfl, ?_⟩
  intro other ho heq
  rw [Apart, List.map_map, List.map_append, List.map_cons, List.nodup_middle,
    List.nodup_cons, ← List.map_append] at ha
  exact ha.1 (List.mem_map.mpr ⟨other, ho, heq⟩)

theorem ObjectTask.operands_of_file?_eq_none {o : ObjectTask} (ho : o.file? = none) :
    o.operands = o.units.map Prod.snd := by
  rw [operands, ho]

theorem StagesRun.single {stage : Stage} {s s' : σ} {traces : List (List Event)}
    {result : Except Failure Unit} (hr : StagesRun h [stage] s traces result s') :
    ∃ events, traces = [events] ∧ StageRuns h stage s events result s' := by
  cases hr with
  | stop hs => exact ⟨_, rfl, hs⟩
  | next hs hnil =>
      cases hnil
      exact ⟨_, rfl, hs⟩

theorem StageRuns.fails {failure : Failure} {s s' : σ} {events : List Event}
    {result : Except Failure Unit}
    (hs : StageRuns h (.inOrder [.fail failure]) s events result s') :
    Event.steps events = [] ∧ ∃ other, result = .error other := by
  refine ⟨List.subperm_nil.mp hs.steps_subperm, ?_⟩
  cases result with
  | error other => exact ⟨other, rfl⟩
  | ok _ =>
      obtain ⟨parts, hparts, -⟩ := hs.exists_completes
      obtain ⟨part, -, hc, -⟩ := List.forall₂_cons_left_iff.mp hparts
      cases hc.outlook_eq

namespace BinaryTask

variable {b : BinaryTask} {t : PresetTable} {params : Params} {units : List CompileUnit}

/-- What is known of a run of a binary that comes to its link. -/
structure Linked (b : BinaryTask) (params : Params) (units : List CompileUnit)
    (compiling linking : List Event) : Prop where
  units_eq : units.map (fun u => (u.source, u.output)) = b.objects.flatMap ObjectTask.units
  begun : (Event.steps compiling).Perm ((Event.calls compiling).map Call.step)
  compiled : ∃ parts, List.Forall₂ CompileUnit.CompiledBy units parts ∧
    parts.flatten.Perm (Event.calls compiling) ∧
    ∀ part ∈ parts, part.Sublist (Event.calls compiling)
  written : ∀ o ∈ b.objects, o.file? = none → ∀ path ∈ o.operands, WrittenOnce units path
  linked : ∀ step ∈ Event.steps linking,
    b.compiler.Links b.mode b.output (b.objects.flatMap ObjectTask.operands) b.libraries params step

theorem Prepared.writtenOnce (hp : b.Prepared t params units) {o : ObjectTask}
    (ho : o ∈ b.objects) (hn : o.file? = none) {path : Path} (hm : path ∈ o.operands) :
    WrittenOnce units path := by
  rw [ObjectTask.operands_of_file?_eq_none hn] at hm
  have hapart : Apart (units.map CompileUnit.output) := by
    rw [hp.map_output]
    exact apart_of_collision?_eq_none hp.distinct
  apply writtenOnce_of_apart hapart
  rw [hp.map_output]
  exact List.mem_flatMap.mpr ⟨o, ho, hm⟩

theorem Prepared.linked (hp : b.Prepared t params units)
    (ho : b.objectFiles = b.objects.flatMap ObjectTask.operands) {jobs : Nat} {s s' s'' : σ}
    {compiling linking : List Event} {result : Except Failure Unit}
    (hc : StageRuns h (compileStage jobs units) s compiling (.ok ()) s')
    (hl : StageRuns h (.inOrder (b.linkActions params)) s' linking result s'') :
    b.Linked params units compiling linking := by
  refine ⟨map_pair_compileUnitsOf hp.units_eq, hc.steps_perm_calls, hc.compiledBy, ?_, ?_⟩
  · exact fun o ho hn path hm => hp.writtenOnce ho hn hm
  · intro step hm
    have hplan : step ∈ plannedSteps (b.linkActions params) := by
      have hmem := hl.steps_subperm.subset hm
      rwa [Stage.plan, Stage.branches, List.flatMap_singleton] at hmem
    rw [← ho]
    exact Compiler.links_of_mem_plannedSteps hplan

/-- A binary that was read is linked from what its nested elements ask for, in their order: the
object that is there already, or one object for each source.  However its steps are taken up and
whatever they are answered, its link only begins once every unit was compiled by calls of its own
that succeeded, and each object that was not there already is written by exactly one unit. -/
theorem links_compiled_objects {scope : Scope} {mode : LinkMode} {e : Element}
    (hb : BinaryTask.ofElement scope mode e = .ok b) (jobs : Nat) (t : PresetTable) (h : Host σ)
    (s : σ) :
    List.Forall₂ scope.Provides (e.childrenNamed "object") b.objects ∧
    (∀ schedule, ∃ traces, StagesRun h (b.stages jobs t).1 s traces
      (h.performStages schedule s (b.stages jobs t).1).1
      (h.performStages schedule s (b.stages jobs t).1).2) ∧
    ∀ {traces result s'}, StagesRun h (b.stages jobs t).1 s traces result s' →
      (∃ compiling failure, traces = [compiling] ∧ result = .error failure ∧
        ∀ step ∈ Event.steps compiling, ∃ params units, b.Prepared t params units ∧
          step ∈ compileSteps units) ∨
      ∃ params units compiling linking, traces = [compiling, linking] ∧
        b.Prepared t params units ∧ b.Linked params units compiling linking := by
  obtain ⟨hprovides, hobjects⟩ := provides_of_ofElement hb
  refine ⟨hprovides, fun schedule => Host.performStages_run schedule _ s, ?_⟩
  intro traces result s' hr
  rcases b.prepared_or_fails jobs t with ⟨params, units, hp⟩ | ⟨failure, hfails⟩
  · rw [hp.stages_eq] at hr
    obtain ⟨compiling, failure, rfl, rfl, hc⟩ | ⟨compiling, linking, s'', rfl, hc, hl⟩ := hr.pair
    · left
      refine ⟨compiling, failure, rfl, rfl, fun step hm => ⟨params, units, hp, ?_⟩⟩
      exact (plan_compileStage_sublist jobs units).subset (hc.steps_subperm.subset hm)
    · right
      exact ⟨params, units, compiling, linking, rfl, hp, hp.linked hobjects hc hl⟩
  · left
    rw [hfails] at hr
    obtain ⟨compiling, rfl, hs⟩ := hr.single
    obtain ⟨hnone, other, rfl⟩ := hs.fails
    refine ⟨compiling, other, rfl, rfl, fun step hm => ?_⟩
    rw [hnone] at hm
    cases hm

end BinaryTask

section Mixed

/-- An executable of a source, an object that is there already, and a set of sources. -/
def mixedBinary : Element :=
  .mk "executable" [("output", "app"), ("compiler", "gcc")]
    [.mk "object" [("src", "start.c"), ("output", "start.o")] [] none,
      .mk "object" [("file", "extra.o")] [] none,
      .mk "object" [("src-set", "all")] [] none] none

def mixedBinaryTask : BinaryTask where
  mode := .executable
  output := ⟨"/p/app"⟩
  objects :=
    [⟨[⟨"/p/start.c"⟩], none, [⟨"/p/start.o"⟩], overlapCompiler, none, {}, false⟩,
      ⟨[], some ⟨"/p/extra.o"⟩, [⟨"/p/extra.o"⟩], overlapCompiler, none, {}, false⟩,
      ⟨[⟨"/p/main.c"⟩, ⟨"/p/main.cpp"⟩], none, [⟨"/p/main.c.o"⟩, ⟨"/p/main.cpp.o"⟩],
        overlapCompiler, none, {}, false⟩]
  libraries := []
  compiler := overlapCompiler
  preset? := none
  params := {}

theorem mixedBinary_prepared :
    mixedBinaryTask.Prepared {} {} (mixedBinaryTask.objects.flatMap fun o => o.unitsWith {}) :=
  ⟨by decide +kernel, rfl, rfl⟩

/-- The link is begun with the objects in the order of the elements. -/
theorem mixedBinary_links :
    BinaryTask.ofElement overlapScope .executable mixedBinary = .ok mixedBinaryTask ∧
    ∃ traces, StagesRun (Host.exiting fun _ => 0) (mixedBinaryTask.stages 4 {}).1 () traces
      (.ok ()) () ∧
    ∃ params units compiling linking, traces = [compiling, linking] ∧
      mixedBinaryTask.Linked params units compiling linking ∧
      mixedBinaryTask.objects.flatMap ObjectTask.operands =
        [⟨"/p/start.o"⟩, ⟨"/p/extra.o"⟩, ⟨"/p/main.c.o"⟩, ⟨"/p/main.cpp.o"⟩] ∧
      (Event.steps linking).head? = some (.run { program := ⟨"gcc"⟩, args :=
        ["-o", "/p/app", "/p/start.o", "/p/extra.o", "/p/main.c.o", "/p/main.cpp.o"] }) := by
  have hread : BinaryTask.ofElement overlapScope .executable mixedBinary = .ok mixedBinaryTask := by
    decide +kernel
  obtain ⟨-, hruns, hlinks⟩ :=
    BinaryTask.links_compiled_objects hread 4 {} (Host.exiting fun _ => 0) ()
  obtain ⟨traces, hr⟩ := hruns (.inOrder 4)
  have hend : ((Host.exiting fun _ => 0).performStages (.inOrder 4) ()
      (mixedBinaryTask.stages 4 {}).1).1 = .ok () := by decide +kernel
  rw [hend] at hr
  refine ⟨hread, traces, hr, ?_⟩
  rcases hlinks hr with ⟨_, failure, -, hfailed, -⟩ | ⟨params, units, compiling, linking, htraces,
    -, hlinked⟩
  · cases hfailed
  · have hstages := hr
    rw [mixedBinary_prepared.stages_eq] at hstages
    obtain ⟨_, _, hsplit, hc⟩ := compilesThenLinks (Host.answers_exiting _) hstages
    obtain ⟨rfl, rfl⟩ := List.cons.inj (htraces.symm.trans hsplit)
    obtain ⟨-, hstarts⟩ := hc.linked linking (List.mem_singleton_self linking)
    exact ⟨params, units, compiling, linking, htraces, hlinked, by decide +kernel,
      hstarts.head?_of_gnu rfl⟩

end Mixed

end DeclarativeBuild
