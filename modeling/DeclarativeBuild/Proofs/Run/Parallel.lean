import DeclarativeBuild.Proofs.Compiler.DriveLines
import DeclarativeBuild.Proofs.Run.Answers

/-!
# Compiling beside each other

A binary that compiles its objects beside each other ends as one that does so one by one, and links
if and only if all of them were compiled.
-/

namespace DeclarativeBuild

variable {σ : Type} {h : Host σ} {answer : Step → Call}

theorem head?_callsOf (hs : ∀ step, (answer step).step = step) (actions : List Action) :
    ((callsOf answer actions).map Call.step).head? = (plannedSteps actions).head? := by
  induction actions using actions_induction with
  | nil => rfl
  | say line rest ih => exact ih
  | log line rest ih => exact ih
  | step step rest ih =>
      cases ha : (answer step).failure? with
      | none => simp [callsOf_of_none ha, hs]
      | some failure => simp [callsOf_of_some ha, hs]
  | fail failure rest => rfl

theorem endOf_flatMap_eq_ok_iff {α : Type} (f : α → List Action) (items : List α) :
    endOf answer (items.flatMap f) = .ok () ↔ ∀ a ∈ items, endOf answer (f a) = .ok () := by
  rw [List.flatMap_def, endOf_flatten, firstError_eq_ok_iff, List.map_map]
  exact List.forall_mem_map

theorem isInOrder_compileStage_of_not_runsParallel {units : List CompileUnit} {u : CompileUnit}
    (hu : u ∈ units) (hw : u.compiler.runsParallel = false) (jobs : Nat) :
    (compileStage jobs units).isInOrder = true := by
  have hall : units.all (·.compiler.runsParallel) = false :=
    List.all_eq_false.mpr ⟨u, hu, by simp [hw]⟩
  simp [compileStage, hall, Stage.isInOrder]

/-- Units that all succeed make all the calls that were planned for them. -/
theorem map_step_callsOf_units (hs : ∀ step, (answer step).step = step) {units : List CompileUnit}
    (hok : ∀ u ∈ units, endOf answer u.actions = .ok ()) :
    (callsOf answer (units.flatMap CompileUnit.actions)).map Call.step = compileSteps units := by
  induction units with
  | nil => rfl
  | cons u rest ih =>
      have hu := hok u List.mem_cons_self
      rw [List.flatMap_cons, (append_of_ok hu _).2, List.map_append, (callsOf_of_ok hs hu).1,
        ih fun v hv => hok v (List.mem_cons_of_mem u hv)]
      rfl

/-- The steps of a link of objects and libraries, which takes the driver, or the emulator and a move
to where the executable belongs. -/
inductive Compiler.Links (c : Compiler) (mode : LinkMode) (output : Path)
    (objects libraries : List Path) (p : Params) : Step → Prop
  | driver {d : GnuDriver} (compiler_eq : c = .gnu d) :
      Links c mode output objects libraries p (.run (d.linkCommand mode output objects libraries p))
  | emulator {d : WatcomDriver} {line : String} (compiler_eq : c = .watcom d)
      (mode_eq : mode = .executable) (line_eq : d.executableLine objects libraries p = .ok line) :
      Links c mode output objects libraries p (.run (d.emulatorCommand line))
  | delivery {d : WatcomDriver} {line : String} (compiler_eq : c = .watcom d)
      (mode_eq : mode = .executable) (line_eq : d.executableLine objects libraries p = .ok line) :
      Links c mode output objects libraries p
        (.move (d.mount.join ⟨WatcomDriver.executableOutput⟩) output)

/-- A link that the emulated compiler refuses: it makes no shared libraries, and takes no operand
without a name on its drive. -/
inductive Compiler.RefusesLink (c : Compiler) (mode : LinkMode) (operands : List Path) :
    Failure → Prop
  | shared {d : WatcomDriver} (compiler_eq : c = .watcom d) (mode_eq : mode = .sharedLibrary) :
      RefusesLink c mode operands (.unsupported "watcom" "create shared libraries")
  | operand {d : WatcomDriver} {p : Path} {failure : Failure} (compiler_eq : c = .watcom d)
      (mode_eq : mode = .executable) (hp : p ∈ operands) (hfails : d.drivePath p = .error failure) :
      RefusesLink c mode operands failure

namespace Compiler

variable {c : Compiler} {mode : LinkMode} {output : Path} {objects libraries : List Path}
variable {p : Params}

/-- A link is begun with a command, or is nothing but its refusal. -/
theorem linkActions_cases (c : Compiler) (mode : LinkMode) (output : Path)
    (objects libraries : List Path) (p : Params) :
    (∃ command rest, plannedSteps (c.linkActions mode output objects libraries p) =
        .run command :: rest ∧ c.Links mode output objects libraries p (.run command)) ∨
      ∃ failure, c.linkActions mode output objects libraries p = [.fail failure] ∧
        c.RefusesLink mode (objects ++ libraries) failure := by
  unfold linkActions
  split
  · exact .inl ⟨_, [], rfl, .driver rfl⟩
  · next d =>
    cases hline : d.executableLine objects libraries p with
    | error failure =>
        obtain ⟨q, hq, hrefused⟩ := WatcomDriver.exists_of_executableLine_eq_error hline
        exact .inr ⟨failure, rfl, .operand rfl rfl hq hrefused⟩
    | ok line => exact .inl ⟨_, _, rfl, .emulator rfl rfl hline⟩
  · exact .inr ⟨_, rfl, .shared rfl rfl⟩

theorem links_of_mem_plannedSteps {step : Step}
    (hm : step ∈ plannedSteps (c.linkActions mode output objects libraries p)) :
    c.Links mode output objects libraries p step := by
  unfold linkActions at hm
  split at hm
  · obtain rfl := List.mem_singleton.mp hm
    exact .driver rfl
  · next d =>
    cases hline : d.executableLine objects libraries p with
    | error failure =>
        rw [hline] at hm
        cases hm
    | ok line =>
        rw [hline] at hm
        rcases List.mem_cons.mp hm with rfl | hm
        · exact .emulator rfl rfl hline
        · obtain rfl := List.mem_singleton.mp hm
          exact .delivery rfl rfl hline
  · cases hm

end Compiler

/-- How the link of a binary goes on: it begins with a command that links the binary's objects and
libraries, or its compiler refuses it, and that is what the run ends with. -/
inductive BinaryTask.LinkStarts (b : BinaryTask) (params : Params) (linking : List Event) :
    Except Failure Unit → Prop
  | begins {command : Invocation} {result : Except Failure Unit}
      (first : (Event.steps linking).head? = some (.run command))
      (links : b.compiler.Links b.mode b.output b.objectFiles b.libraries params (.run command)) :
      BinaryTask.LinkStarts b params linking result
  | refused {failure : Failure} (nothing : Event.steps linking = [])
      (refuses : b.compiler.RefusesLink b.mode (b.objectFiles ++ b.libraries) failure) :
      BinaryTask.LinkStarts b params linking (.error failure)

/-- A driver on the host refuses no link. -/
theorem BinaryTask.LinkStarts.head?_of_gnu {b : BinaryTask} {params : Params}
    {linking : List Event} {result : Except Failure Unit} {d : GnuDriver}
    (hl : b.LinkStarts params linking result) (hc : b.compiler = .gnu d) :
    (Event.steps linking).head? =
      some (.run (d.linkCommand b.mode b.output b.objectFiles b.libraries params)) := by
  cases hl with
  | begins first links =>
      cases links with
      | driver compiler_eq =>
          obtain rfl := Compiler.gnu.inj (hc.symm.trans compiler_eq)
          exact first
      | emulator compiler_eq => cases hc.symm.trans compiler_eq
  | refused nothing refuses => cases refuses <;> cases hc.symm.trans ‹b.compiler = .watcom _›

/-- What is known of a run of a binary, of which the events of compiling its units and those of the
stages that followed are given. -/
structure CompilesThenLinks (h : Host σ) (b : BinaryTask) (params : Params)
    (units : List CompileUnit) (compiling : List Event) (following : List (List Event))
    (result : Except Failure Unit) : Prop where
  once : (Event.steps compiling).Subperm (compileSteps units)
  links_iff (s : σ) : following ≠ [] ↔ ∀ u ∈ units, (h.perform s u.actions).1 = .ok ()
  finished : following ≠ [] →
    ((Event.calls compiling).map Call.step).Perm (compileSteps units) ∧
      ∀ c ∈ Event.calls compiling, c.failure? = none
  linked : ∀ linking ∈ following, following = [linking] ∧ b.LinkStarts params linking result

/-- Of two stages, the second one is run if and only if the first one ends well. -/
theorem StagesRun.pair {first second : Stage} {s s' : σ} {traces : List (List Event)}
    {result : Except Failure Unit} (hr : StagesRun h [first, second] s traces result s') :
    (∃ events failure, traces = [events] ∧ result = .error failure ∧
      StageRuns h first s events (.error failure) s') ∨
      ∃ events events' s'', traces = [events, events'] ∧ StageRuns h first s events (.ok ()) s'' ∧
        StageRuns h second s'' events' result s' := by
  cases hr with
  | stop hs => exact .inl ⟨_, _, rfl, rfl, hs⟩
  | next hs hr =>
      right
      cases hr with
      | stop hs' => exact ⟨_, _, _, rfl, hs, hs'⟩
      | next hs' hnil =>
          cases hnil
          exact ⟨_, _, _, rfl, hs, hs'⟩

theorem StageRuns.linkStarts (ha : h.Answers answer) {b : BinaryTask} {params : Params} {s s' : σ}
    {linking : List Event} {result : Except Failure Unit}
    (hl : StageRuns h (.inOrder (b.linkActions params)) s linking result s') :
    b.LinkStarts params linking result := by
  have hs : ∀ step, (answer step).step = step := fun step => ha s step ▸ h.step_call s step
  have hevents := hl.events_eq ha rfl
  have hresult := hl.result_eq ha
  rw [Stage.actions, BinaryTask.linkActions] at hevents hresult
  obtain ⟨command, rest, hplan, hlinks⟩ | ⟨failure, hfail, hrefuses⟩ :=
    b.compiler.linkActions_cases b.mode b.output b.objectFiles b.libraries params
  · refine .begins ?_ hlinks
    rw [hevents, Event.steps_flatMap_events, head?_callsOf hs]
    exact congrArg List.head? hplan
  · rw [hfail] at hevents hresult
    obtain rfl : result = .error failure := hresult
    exact .refused (by rw [hevents]; rfl) hrefuses

theorem compilesThenLinks (ha : h.Answers answer) {b : BinaryTask} {params : Params} {jobs : Nat}
    {units : List CompileUnit} {s s' : σ} {traces : List (List Event)}
    {result : Except Failure Unit}
    (hr : StagesRun h [compileStage jobs units, .inOrder (b.linkActions params)] s traces result
      s') :
    ∃ compiling following, traces = compiling :: following ∧
      CompilesThenLinks h b params units compiling following result := by
  have hs : ∀ step, (answer step).step = step := fun step => ha s step ▸ h.step_call s step
  have hend : ∀ s u, (h.perform s (CompileUnit.actions u)).1 = endOf answer u.actions :=
    fun s u => (h.perform_traced (s, []) u.actions).1.symm.trans (ha.perform_traced (s, []) _).1
  have honce : ∀ {events r s''}, StageRuns h (compileStage jobs units) s events r s'' →
      (Event.steps events).Subperm (compileSteps units) :=
    fun hrun => hrun.steps_subperm.trans (plan_compileStage_sublist jobs units).subperm
  obtain ⟨compiling, failure, rfl, -, hc⟩ | ⟨compiling, linking, s'', rfl, hc, hl⟩ := hr.pair
  · -- The stage fails as its first failing unit does, so there is one.
    refine ⟨compiling, [], rfl, honce hc, fun s => ?_, by simp, by simp⟩
    have herr := hc.result_eq ha
    rw [actions_compileStage] at herr
    refine ⟨fun hne => absurd rfl hne, fun hall => ?_⟩
    have hok : endOf answer (units.flatMap CompileUnit.actions) = .ok () :=
      (endOf_flatMap_eq_ok_iff _ _).mpr fun u hu => (hend s u).symm.trans (hall u hu)
    rw [hok] at herr
    cases herr
  · have hok := (hc.result_eq ha).symm
    have hcalls := hc.calls_perm ha
    rw [← callsOf_flatten_of_ok (by rwa [Stage.flatten_branches]), Stage.flatten_branches] at hcalls
    rw [actions_compileStage] at hok hcalls
    have hall := (endOf_flatMap_eq_ok_iff _ _).mp hok
    refine ⟨compiling, [linking], rfl, honce hc, fun s => ?_, fun _ => ⟨?_, ?_⟩, ?_⟩
    · exact ⟨fun _ u hu => (hend s u).trans (hall u hu), fun _ => List.cons_ne_nil _ _⟩
    · rw [← map_step_callsOf_units hs hall]
      exact (hcalls.map Call.step).symm
    · intro c hm
      exact (callsOf_of_ok hs hok).2 c (hcalls.mem_iff.mpr hm)
    · intro events hm
      obtain rfl := List.mem_singleton.mp hm
      exact ⟨rfl, hl.linkStarts ha⟩

/-- A binary whose units are compiled with any number of workers, in any order, ends as with one
worker.  The calls that are made with one worker are made in any case; where a compiler cannot run
beside itself they are all, in the same order.  Once nothing stands in the way of the binary, each
of its steps is begun once at most, and its link is come to if and only if all its units were
compiled, after they were.  Then a command that links its objects is begun, unless its compiler
refuses the link. -/
theorem BinaryTask.run_agrees (b : BinaryTask) (jobs : Nat) (t : PresetTable)
    (ha : h.Answers answer) (s : σ) :
    let sequential := h.traced.performStages (Schedule.inOrder 1) (s, []) (b.stages 1 t).1
    (∀ schedule, ∃ traces, StagesRun h (b.stages jobs t).1 s traces
      (h.performStages schedule s (b.stages jobs t).1).1
      (h.performStages schedule s (b.stages jobs t).1).2) ∧
    ∀ {traces result s'}, StagesRun h (b.stages jobs t).1 s traces result s' →
      result = sequential.1 ∧
      sequential.2.2.Subperm (Event.calls traces.flatten) ∧
      ∀ {params units}, b.Prepared t params units →
        (∃ compiling following, traces = compiling :: following ∧
          CompilesThenLinks h b params units compiling following result) ∧
        ((∃ u ∈ units, u.compiler.runsParallel = false) →
          traces.flatten = sequential.2.2.flatMap Call.events) := by
  intro sequential
  refine ⟨fun schedule => Host.performStages_run schedule _ s, ?_⟩
  intro traces result s' hr
  have hseq : sequential = h.traced.perform (s, []) ((b.stages 1 t).1.flatMap Stage.actions) :=
    h.traced.performStages_of_isInOrder _ _ (b.isInOrder_stages t)
  obtain ⟨hend, hcalls⟩ := ha.perform_traced (s, []) ((b.stages 1 t).1.flatMap Stage.actions)
  rw [← hseq, ← b.flatMap_actions_stages jobs] at hend hcalls
  rw [List.nil_append] at hcalls
  rw [hend, hcalls]
  obtain ⟨hresult, hsub⟩ := hr.agrees ha
  refine ⟨hresult, hsub, ?_⟩
  intro params units hp
  rw [hp.stages_eq] at hr ⊢
  refine ⟨compilesThenLinks ha hr, ?_⟩
  rintro ⟨u, hu, hw⟩
  apply hr.events_eq ha
  intro stage hm
  rcases List.mem_cons.mp hm with rfl | hm
  · exact isInOrder_compileStage_of_not_runsParallel hu hw jobs
  · rw [List.mem_singleton.mp hm]
    rfl

/-- A binary of two sources without any presets. -/
def twoSources : BinaryTask where
  mode := .executable
  output := ⟨"app"⟩
  objects := ["a", "b"].map fun name =>
    ⟨[⟨name ++ ".c"⟩], none, [⟨name ++ ".o"⟩], .gnu ⟨"gcc", .c, .gcc, ⟨"gcc"⟩⟩, none, {}, false⟩
  libraries := []
  compiler := .gnu ⟨"gcc", .c, .gcc, ⟨"gcc"⟩⟩
  preset? := none
  params := {}

theorem twoSources_prepared :
    twoSources.Prepared {} {} (twoSources.objects.flatMap fun o => o.unitsWith {}) :=
  ⟨by decide +kernel, rfl, rfl⟩

/-- With four workers, a first source that cannot be compiled decides every run.  If both sources can
be compiled, every run goes on to link their objects. -/
theorem twoSources_run_agrees :
    let failing := Host.exiting fun command => if command.args.contains "a.c" then 1 else 0
    let succeeding := Host.exiting fun _ => 0
    failing.Answers (fun step => (failing.call () step).1) ∧
      succeeding.Answers (fun step => (succeeding.call () step).1) ∧
      (∀ {traces result s'}, StagesRun failing (twoSources.stages 4 {}).1 () traces result s' →
        result = .error (.commandFailed "gcc -o a.o -c a.c" 1) ∧ traces.length = 1) ∧
      (∃ traces result s', StagesRun succeeding (twoSources.stages 4 {}).1 () traces result s') ∧
      ∀ {traces result s'}, StagesRun succeeding (twoSources.stages 4 {}).1 () traces result s' →
        result = .ok () ∧ ∃ compiling linking, traces = [compiling, linking] ∧
          (Event.steps linking).head? =
            some (.run { program := ⟨"gcc"⟩, args := ["-o", "app", "a.o", "b.o"] }) := by
  intro failing succeeding
  have hfailing : failing.Answers (fun step => (failing.call () step).1) :=
    Host.answers_exiting _
  have hsucceeding : succeeding.Answers (fun step => (succeeding.call () step).1) :=
    Host.answers_exiting _
  have hp := twoSources_prepared
  obtain ⟨-, hfails⟩ := twoSources.run_agrees 4 {} hfailing ()
  obtain ⟨hruns, hlinks⟩ := twoSources.run_agrees 4 {} hsucceeding ()
  refine ⟨hfailing, hsucceeding, ?_, ?_, ?_⟩
  · intro traces result s' hr
    obtain ⟨hresult, -, hlink⟩ := hfails hr
    obtain ⟨⟨compiling, following, rfl, hc⟩, -⟩ := hlink hp
    refine ⟨hresult.trans (by decide +kernel), ?_⟩
    have hnone : following = [] := by
      by_contra hne
      have hfirst := (hc.links_iff ()).mp hne _ List.mem_cons_self
      exact absurd hfirst (by decide +kernel)
    rw [hnone, List.length_singleton]
  · obtain ⟨traces, hr⟩ := hruns (.inOrder 4)
    exact ⟨traces, _, _, hr⟩
  · intro traces result s' hr
    obtain ⟨hresult, -, hlink⟩ := hlinks hr
    obtain ⟨⟨compiling, following, rfl, hc⟩, -⟩ := hlink hp
    have hok : result = .ok () := hresult.trans (by decide +kernel)
    refine ⟨hok, ?_⟩
    have hall : ∀ u ∈ twoSources.objects.flatMap fun o => o.unitsWith {},
        (succeeding.perform () u.actions).1 = .ok () := by decide +kernel
    obtain ⟨linking, hm⟩ := List.exists_mem_of_ne_nil _ ((hc.links_iff ()).mpr hall)
    obtain ⟨rfl, hstarts⟩ := hc.linked linking hm
    exact ⟨compiling, linking, rfl, hstarts.head?_of_gnu rfl⟩

end DeclarativeBuild
