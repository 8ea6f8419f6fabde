import DeclarativeBuild.CommandLine.Run
import DeclarativeBuild.Proofs.Import.Definitions
import DeclarativeBuild.Proofs.Json.Documents
import DeclarativeBuild.Proofs.Markup.Trees
import DeclarativeBuild.Proofs.Run.Echoes

/-!
# The output of a plan

A plan is printed after all that its rehearsal has said.  Standard output is a JSON document of the
steps if and only if nothing but blanks was said.
-/

namespace DeclarativeBuild

namespace Json

def text? : Json → Option String
  | text s => some s
  | _ => none

def items? : Json → Option (List Json)
  | list items => some items
  | _ => none

def pair? : Json → Option (String × String)
  | list [text k, text v] => some (k, v)
  | _ => none

def member? (name : String) : Json → Option Json
  | object members => members.lookup name
  | _ => none

end Json

/-- A command from its members; those that are left out are empty. -/
def Invocation.ofJson? (v : Json) : Option Invocation := do
  let program ← (← v.member? "program").text?
  let args ← (← (← v.member? "args").items?).mapM Json.text?
  let environment ← match v.member? "env" with
    | some pairs => pairs.items? >>= (·.mapM Json.pair?)
    | none => some []
  let directory ← match v.member? "cwd" with
    | some path => path.text?.map fun s => some ⟨s⟩
    | none => some none
  return { program := ⟨program⟩, args, environment, directory }

def Step.ofJson? (v : Json) : Option Step := do
  let kind ← (← v.member? "kind").text?
  if kind = "run" then return .run (← Invocation.ofJson? v)
  else if kind = "move" then
    return .move ⟨← (← v.member? "from").text?⟩ ⟨← (← v.member? "to").text?⟩
  else none

/-- The steps that a document lists. -/
def readPlan (source : String) : Option (List Step) := do
  (← (← Json.read source).items?).mapM Step.ofJson?

section Decoding

open JsonValue

theorem mapM_documents {α : Type} {encode : α → JsonValue} {decode? : Json → Option α}
    (h : ∀ a, decode? (encode a).document = some a) (as : List α) :
    (documents (as.map encode)).mapM decode? = some as := by
  induction as with
  | nil => rfl
  | cons a rest ih =>
      rw [List.map_cons, documents, List.mapM_cons, h, ih]
      rfl

theorem mapM_pair?_documents (pairs : List (String × String)) :
    (documents (pairs.map fun (k, v) => list [text k, text v])).mapM Json.pair? = some pairs :=
  mapM_documents (fun _ => rfl) pairs

theorem Invocation.ofJson?_document (command : Invocation) :
    Invocation.ofJson? (Step.run command).toJson.document = some command := by
  have hargs : ∀ args : List String,
      (documents (args.map JsonValue.text)).mapM Json.text? = some args :=
    mapM_documents fun _ => rfl
  obtain ⟨⟨program⟩, args, environment, directory⟩ := command
  cases environment with
  | nil =>
      cases directory <;>
        simp [ofJson?, Step.toJson, document, memberDocuments, Json.member?, List.lookup_cons,
          Json.text?, Json.items?, hargs]
  | cons pair pairs =>
      have henv := mapM_pair?_documents (pair :: pairs)
      cases directory <;>
        simp_all [ofJson?, Step.toJson, document, memberDocuments, Json.member?, List.lookup_cons,
          Json.text?, Json.items?]

theorem Step.ofJson?_document (step : Step) : Step.ofJson? step.toJson.document = some step := by
  cases step with
  | move source target => rfl
  | run command =>
      have hrun := Invocation.ofJson?_document command
      have hkind : (Step.run command).toJson.document.member? "kind" = some (.text "run") := rfl
      simp only [Step.ofJson?, hkind, hrun, Option.bind_eq_bind, Option.bind_some, Json.text?]
      rfl

/-- A plan with blanks before it and a line end after it is read back as its steps. -/
theorem readPlan_planText (steps : List Step) {before : String}
    (hb : ∀ c ∈ before.toList, Json.isBlank c = true) :
    readPlan (before ++ planText steps ++ "\n") = some steps := by
  have hread : Json.read (before ++ planText steps ++ "\n") =
      some (.list (documents (steps.map Step.toJson))) := by
    rw [planText, read_pretty _ hb, document]
  rw [readPlan, hread]
  exact mapM_documents Step.ofJson?_document steps

theorem toList_shownLines_append (lines : List String) (last : String) :
    (shownLines (lines ++ [last])).toList = (shownLines lines ++ last).toList ++ ['\n'] := by
  rw [shownLines_append, String.toList_append, String.toList_append, List.append_assoc]
  simp [shownLines]

theorem isBlank_shownLines_iff (lines : List String) :
    (∀ c ∈ (shownLines lines).toList, Json.isBlank c = true) ↔
      ∀ line ∈ lines, ∀ c ∈ line.toList, Json.isBlank c = true := by
  induction lines using List.reverseRecOn with
  | nil => simp [shownLines]
  | append_singleton lines last ih =>
      have hend : Json.isBlank '\n' = true := by decide
      simp only [toList_shownLines_append, String.toList_append, List.mem_append,
        List.mem_singleton, or_imp, forall_and, forall_eq, ih, hend, and_true]

/-- Lines and a plan below them are a document if and only if the lines are blank. -/
theorem read_planText_iff (lines : List String) (steps : List Step) :
    (Json.read (shownLines lines ++ planText steps ++ "\n")).isSome = true ↔
      ∀ line ∈ lines, ∀ c ∈ line.toList, Json.isBlank c = true := by
  rw [← isBlank_shownLines_iff]
  constructor
  · intro hsome
    by_contra hb
    -- All lines are ended, so the first token of the plan does not continue one of theirs.
    have hnone : Json.read (shownLines lines ++ planText steps ++ "\n") = none := by
      induction lines using List.reverseRecOn with
      | nil => simp [shownLines] at hb
      | append_singleton lines last _ =>
          exact read_pretty_eq_none _ (toList_shownLines_append lines last) hb
    rw [hnone] at hsome
    cases hsome
  · intro hb
    rw [planText, read_pretty _ hb]
    rfl

end Decoding

namespace Project

/-- A target that was found is also found by its own name. -/
theorem target_name {p : Project} {name? : Option String} {target : Target}
    (h : p.target name? = .ok target) : p.target (some target.name) = .ok target := by
  unfold Project.target at h ⊢
  cases hname : name?.or p.defaultTarget with
  | none => simp [hname] at h
  | some name =>
      rw [hname] at h
      simp only at h
      cases hfind : p.targets.find? (·.name == name) with
      | none => simp [hfind] at h
      | some found =>
          rw [hfind] at h
          obtain rfl := Except.ok.inj h
          have hsame : found.name = name := by simpa using List.find?_some hfind
          simp only [Option.some_or, hsame, hfind]

end Project

namespace CommandLine

/-- A plan that is shown stands below the echoes of its target. -/
theorem runBuild_showPlan {s : Session} {p : Project} {target? : Option String} {target : Target}
    (ht : p.target target? = .ok target)
    (hok : (p.run Host.rehearsal (some target.name) s.jobs {}).1 = .ok ()) (m : Machine) :
    (runBuild s p target? .showPlan m).1 = .ok () ∧
      (runBuild s p target? .showPlan m).2.console.output =
        m.console.output ++ shownLines target.echoes ++
          planText (p.run Host.rehearsal (some target.name) s.jobs {}).2.steps ++ "\n" := by
  let kind := if target?.isSome then "target" else "default target"
  let announced := Host.machine.log ⟨.info, "running " ++ kind ++ " `" ++ target.name ++ "`"⟩ m
  let rehearsed := p.run Host.rehearsal (some target.name) s.jobs { console := announced.console }
  have hannounced : announced.console.output = m.console.output := Host.output_log _ _
  obtain ⟨hend, hsteps, hsaid⟩ :=
    Project.rehearsal_spec (Project.target_name ht) hok announced.console
  have hbuild : p.build s { target?, rehearse := true } m =
      (rehearsed.1.map fun _ => .planned target.name rehearsed.2.steps,
        { announced with console := rehearsed.2.console }) := by
    simp only [Project.build, ht]
    rfl
  have hrehearse : (BuildMode.showPlan != BuildMode.run) = true := rfl
  have houtcome : rehearsed.1 = .ok () := hend
  simp only [runBuild, hrehearse, hbuild, houtcome, Except.map, Machine.write, if_true, true_and]
  rw [← hsteps, ← hannounced, ← hsaid, String.append_assoc]

/-- The session of a request, with the number of jobs that it asks for. -/
def planSession (w : World) (options : Options) (jobs? : Option Nat) : Session :=
  match jobs? with
  | some n => (session w options).setJobs n
  | none => session w options

/-- What loading the project of a request comes to. -/
def planProject (w : World) (depth : Nat) (options : Options) (jobs? : Option Nat) :
    Except ImportFault Project :=
  (Project.load w depth (planSession w options jobs?)
    ((session w options).resolve (options.file?.getD defaultFile))).1

theorem output_loadProject (depth : Nat) (s : Session) (file : Path) (m : Machine) :
    (loadProject depth s file m).2.console.output = m.console.output := by
  unfold loadProject
  generalize (Project.load m.world depth s file) = loaded
  obtain ⟨result, journal⟩ := loaded
  simp only
  induction journal generalizing m with
  | nil => rfl
  | cons line rest ih => exact (ih _).trans (Host.output_log line m.console)

theorem runCommand_showPlan {depth : Nat} {options : Options} {target? : Option String}
    {jobs? : Option Nat} {file : Path} {m m' : Machine} {w : World} {p : Project}
    (hload : loadProject depth (planSession w options jobs?) file m = (.ok p, m')) :
    runCommand depth (session w options) file (.build target? .showPlan jobs?) m =
      runBuild (planSession w options jobs?) p target? .showPlan m' := by
  cases jobs? <;>
    · simp only [planSession] at hload
      rw [runCommand.eq_def]
      simp only [planSession, hload]

theorem runRequest_of_runCommand {depth : Nat} {r : Request} {m : Machine}
    {ended : Except ImportFault Unit × Machine}
    (h : runCommand depth (session m.world r.options)
      ((session m.world r.options).resolve (r.options.file?.getD defaultFile)) r.command
      { m with console :=
        { m.console with verbosity := (session m.world r.options).verbosity } } = ended) :
    (runRequest depth r m).2.console.output = ended.2.console.output ∧
      (ended.1 = .ok () → (runRequest depth r m).1 = .exited 0) := by
  obtain ⟨outcome, m'⟩ := ended
  simp only [runRequest, h]
  rcases outcome with (failure | path) | _
  · exact ⟨rfl, by simp⟩
  · exact ⟨rfl, by simp⟩
  · exact ⟨rfl, fun _ => rfl⟩

/-- What a plan request shows is what building the project that it loads shows. -/
theorem runRequest_showPlan {depth : Nat} {options : Options} {target? : Option String}
    {jobs? : Option Nat} {m : Machine} {p : Project}
    (hp : planProject m.world depth options jobs? = .ok p) :
    ∃ m', m'.console.output = m.console.output ∧
      ((runBuild (planSession m.world options jobs?) p target? .showPlan m').1 = .ok () →
        (runRequest depth ⟨options, .build target? .showPlan jobs?⟩ m).1 = .exited 0) ∧
      (runRequest depth ⟨options, .build target? .showPlan jobs?⟩ m).2.console.output =
        (runBuild (planSession m.world options jobs?) p target? .showPlan m').2.console.output := by
  let s := session m.world options
  let file := s.resolve (options.file?.getD defaultFile)
  let asked := { m with console := { m.console with verbosity := s.verbosity } }
  let planned := planSession m.world options jobs?
  let loaded := loadProject depth planned file asked
  have hload : loadProject depth planned file asked = (.ok p, loaded.2) := Prod.ext hp rfl
  have hcommand : runCommand depth s file (.build target? .showPlan jobs?) asked =
      runBuild planned p target? .showPlan loaded.2 :=
    runCommand_showPlan hload
  obtain ⟨houtput, hcode⟩ :=
    runRequest_of_runCommand (r := ⟨options, .build target? .showPlan jobs?⟩) hcommand
  exact ⟨loaded.2, output_loadProject depth planned file asked, hcode, houtput⟩

section PlanRequest

variable {words : List String} {options : Options} {target? : Option String} {jobs? : Option Nat}
variable {depth : Nat} {m : Machine} {p : Project} {target : Target}

/-- A target that can be rehearsed is planned with exit code 0, and its plan is shown below what it
echoes. -/
theorem run_showPlan (hread : read words = .request ⟨options, .build target? .showPlan jobs?⟩)
    (hm : m.console.output = "") (hp : planProject m.world depth options jobs? = .ok p)
    (ht : p.target target? = .ok target)
    (hok : (p.run Host.rehearsal (some target.name) (planSession m.world options jobs?).jobs
      {}).1 = .ok ()) :
    (run depth words m).1 = .exited 0 ∧
      (run depth words m).2.console.output = shownLines target.echoes ++
        planText (p.run Host.rehearsal (some target.name)
          (planSession m.world options jobs?).jobs {}).2.steps ++ "\n" := by
  have hrun : run depth words m = runRequest depth ⟨options, .build target? .showPlan jobs?⟩ m := by
    rw [run, hread]
  obtain ⟨m', hm', hcode, hout⟩ := runRequest_showPlan (p := p) hp
  obtain ⟨hbuild, hshown⟩ := runBuild_showPlan ht hok m'
  rw [hrun]
  refine ⟨hcode hbuild, ?_⟩
  rw [hout, hshown, hm', hm, String.empty_append]

/-- A target that can be rehearsed is planned with exit code 0.  Standard output then has the echoes
of the target and below them the plan; it is a JSON document, and one that is read back as the steps
of the rehearsal, if and only if all echoes are blank. -/
theorem plan_readable_iff
    (hread : read words = .request ⟨options, .build target? .showPlan jobs?⟩)
    (hm : m.console.output = "") (hp : planProject m.world depth options jobs? = .ok p)
    (ht : p.target target? = .ok target) :
    let jobs := (planSession m.world options jobs?).jobs
    let rehearsal := p.run Host.rehearsal (some target.name) jobs {}
    let output := (run depth words m).2.console.output
    rehearsal.1 = .ok () →
      (run depth words m).1 = .exited 0 ∧
      output = shownLines target.echoes ++ planText rehearsal.2.steps ++ "\n" ∧
      ((Json.read output).isSome = true ↔
        ∀ text ∈ target.echoes, ∀ c ∈ text.toList, Json.isBlank c = true) ∧
      (readPlan output = some rehearsal.2.steps ↔
        ∀ text ∈ target.echoes, ∀ c ∈ text.toList, Json.isBlank c = true) := by
  intro jobs rehearsal output hok
  obtain ⟨hcode, houtput⟩ := run_showPlan hread hm hp ht hok
  have hjson := read_planText_iff target.echoes rehearsal.2.steps
  rw [← houtput] at hjson
  refine ⟨hcode, houtput, hjson, fun hplan => ?_, fun hb => ?_⟩
  · apply hjson.mp
    rw [readPlan] at hplan
    cases hdocument : Json.read output with
    | none => simp [hdocument] at hplan
    | some document => rfl
  · simp only [output]
    rw [houtput]
    exact readPlan_planText _ ((isBlank_shownLines_iff _).mpr hb)

end PlanRequest

/-- A world with a target that echoes a text before it runs a command, and one that does not. -/
def echoing : World :=
  .holding [(["build.xml"], "<buildcc default=\"all\"><target name=\"all\"><echo>hi</echo>" ++
    "<exec>make</exec></target><target name=\"quiet\"><exec>make</exec></target></buildcc>")] []

/-- The target that echoes, and the one that does not. -/
def loud : Element :=
  .mk "target" [("name", "all")] [.mk "echo" [] [] (some "hi"), .mk "exec" [] [] (some "make")] none

def quiet : Element :=
  .mk "target" [("name", "quiet")] [.mk "exec" [] [] (some "make")] none

def echoingRoot : Element :=
  .mk "buildcc" [("default", "all")] [loud, quiet] none

theorem readDescription_echoing :
    echoing.readDescription ⟨"/build.xml"⟩ = .ok (⟨"/build.xml"⟩, echoingRoot) := by
  have h : echoing.disk.isLinkless = true := World.isLinkless_holding _ _
  have hroot : Markup.readDocument
      ("<buildcc default=\"all\"><target name=\"all\"><echo>hi</echo>" ++
        "<exec>make</exec></target><target name=\"quiet\"><exec>make</exec></target></buildcc>") =
      some echoingRoot :=
    (Markup.readDocument_of_ofList String.ofList_append).trans (by decide +kernel)
  exact World.readDescription_of_entryAt rfl ((Disk.entryAt_eq_descend h _ _ _).trans rfl) hroot rfl

theorem configFiles_echoing : echoing.configFiles ⟨"/"⟩ = [] := by
  have h : echoing.disk.isLinkless = true := World.isLinkless_holding _ _
  have hisFile : echoing.isFile = fun p => echoing.isFile p := rfl
  rw [World.configFiles, hisFile]
  simp only [World.isFile, Disk.isFile, Disk.entryAt, Disk.locate_eq_descend h]
  rfl

def loudTarget : Target := ⟨"all", [.echo "hi", .exec "make" ⟨"/"⟩]⟩

def quietTarget : Target := ⟨"quiet", [.exec "make" ⟨"/"⟩]⟩

theorem ofElement_echoing (p : Project) :
    Target.ofElement (p.scope echoing ⟨"/"⟩) loud = .ok loudTarget ∧
      Target.ofElement (p.scope echoing ⟨"/"⟩) quiet = .ok quietTarget := by
  have hhi : (p.scope echoing ⟨"/"⟩).props.expand "hi" = .ok "hi" :=
    Properties.expand_of_plain (Template.segments_of_not_mem (by decide)) _
  have hmake : (p.scope echoing ⟨"/"⟩).props.expand "make" = .ok "make" :=
    Properties.expand_of_plain (Template.segments_of_not_mem (by decide)) _
  constructor
  · simp only [loud, Target.ofElement, Element.require, Element.attribute?, Element.attributes,
      Element.children, Task.ofElement, Element.tag, Element.text?, List.mapM_cons, List.mapM_nil,
      List.lookup_cons_self, Option.getD_some, hhi, hmake]
    rfl
  · simp only [quiet, Target.ofElement, Element.require, Element.attribute?, Element.attributes,
      Element.children, Task.ofElement, Element.tag, Element.text?, List.mapM_cons, List.mapM_nil,
      List.lookup_cons_self, Option.getD_some, hmake]
    rfl

theorem finish_echoing (depth : Nat) {l : Loading} (hl : l.project.targets = []) :
    ∃ p, l.finish echoing (depth + 1) ⟨"/build.xml"⟩ = .ok p ∧ p.defaultTarget = some "all" ∧
      p.targets = [loudTarget, quietTarget] := by
  have hdirectory : Path.directory ⟨"/build.xml"⟩ = ⟨"/"⟩ := by rfl
  have hsections : ∀ l : Loading,
      runFrom l (Project.importSections echoing (Project.importFile echoing depth) echoingRoot
        ⟨"/"⟩) =
      (.ok (), { l with project := (l.project.putTarget loudTarget).putTarget quietTarget }) := by
    intro l
    have hread : Project.importSections echoing (Project.importFile echoing depth) echoingRoot
        ⟨"/"⟩ = [loud, quiet].forM (Project.declareTarget echoing ⟨"/"⟩) := rfl
    rw [hread, forM_cons, forM_cons, runFrom_bind, Project.runFrom_declareTarget,
      (ofElement_echoing _).1]
    simp only
    rw [runFrom_bind, Project.runFrom_declareTarget, (ofElement_echoing _).2]
    rfl
  have hread : runFrom l (Project.importFile echoing (depth + 1) ⟨"/build.xml"⟩) =
      (.ok echoingRoot, l.leave { (l.enter ⟨"/build.xml"⟩) with
        project := ((l.enter ⟨"/build.xml"⟩).project.putTarget loudTarget).putTarget
          quietTarget }) := by
    rw [Project.runFrom_importFile, readDescription_echoing]
    simp only [hdirectory, hsections]
    rfl
  unfold Loading.finish Project.importMain
  rw [runFrom_bind_of_ok hread]
  refine ⟨_, rfl, rfl, ?_⟩
  change putBy Target.name quietTarget (putBy Target.name loudTarget l.project.targets) = _
  rw [hl]
  rfl

/-- The options of a command line that names the description. -/
def echoingOptions : Options := { file? := some ⟨"/build.xml"⟩ }

theorem targets_opening (w : World) (s : Session) (directory : Path) :
    (Loading.opening w s directory).project.targets = [] := by
  have hnote : ∀ l : Loading, (runFrom l (Project.noteHidden s w)).2.project = l.project := by
    unfold Project.noteHidden
    -- A hidden property leaves a line in the journal and nothing else.
    induction (Properties.builtin w.environment).toList with
    | nil => exact fun l => rfl
    | cons entry rest ih =>
        intro l
        obtain ⟨name, value⟩ := entry
        rw [forM_cons]
        by_cases hany : s.overrides.any (·.1 == name) = true
        · simp only [hany, if_true]
          exact ih _
        · simp only [hany]
          exact ih _
  rw [Loading.opening, hnote]
  rfl

theorem planProject_echoing (depth : Nat) :
    ∃ p, planProject echoing (depth + 1) echoingOptions none = .ok p ∧ p.defaultTarget = some "all" ∧
      p.targets = [loudTarget, quietTarget] := by
  let s : Session := Session.loadSettings { cwd := echoing.cwd } echoing ⟨"/"⟩
  have hparent : (Path.mk "/build.xml").parent? = some ⟨"/"⟩ := by rfl
  have hresolve : ∀ s : Session, s.resolve ⟨"/build.xml"⟩ = ⟨"/build.xml"⟩ :=
    fun s => if_pos (by rfl)
  have hsession : planSession echoing echoingOptions none = s.setDiscovers true := by
    simp only [planSession, session, echoingOptions, Option.getD_some, hresolve, hparent]
    rfl
  have hload := load_setDiscovers echoing (depth + 1) s ⟨"/build.xml"⟩
  simp only [hresolve, hparent, Option.getD_some, configFiles_echoing] at hload
  rw [planProject, hsession]
  change ∃ p, (Project.load echoing (depth + 1) (s.setDiscovers true)
    (Session.resolve _ ⟨"/build.xml"⟩)).1 = .ok p ∧ _
  rw [hresolve, hload]
  exact finish_echoing depth (targets_opening echoing s ⟨"/"⟩)

/-- The target without echoes is planned as a document of its only step. -/
theorem plan_readable_iff_quiet :
    let words := ["--file", "/build.xml", "build", "quiet", "--plan"]
    let step : Step := .run { Invocation.shell "make" with directory := some ⟨"/"⟩ }
    read words = .request ⟨echoingOptions, .build (some "quiet") .showPlan none⟩ ∧
      (run 1 words { world := echoing }).1 = .exited 0 ∧
      readPlan (run 1 words { world := echoing }).2.console.output = some [step] := by
  intro words step
  have hread : read words = .request ⟨echoingOptions, .build (some "quiet") .showPlan none⟩ := by
    decide +kernel
  obtain ⟨p, hp, -, htargets⟩ := planProject_echoing 0
  have ht : p.target (some "quiet") = .ok quietTarget := by
    simp only [Project.target, htargets]
    rfl
  have hrun : ∀ jobs, (p.run Host.rehearsal (some quietTarget.name) jobs {}).1 = .ok () ∧
      (p.run Host.rehearsal (some quietTarget.name) jobs {}).2.steps = [step] := by
    intro jobs
    rw [Project.run_of_target_ok (Project.target_name ht)]
    exact ⟨rfl, rfl⟩
  have hblank : ∀ text ∈ quietTarget.echoes, ∀ c ∈ text.toList, Json.isBlank c = true := by
    decide
  obtain ⟨hcode, -, -, hplan⟩ :=
    plan_readable_iff (m := { world := echoing }) hread rfl hp ht (hrun _).1
  rw [(hrun _).2] at hplan
  exact ⟨hread, hcode, hplan.mpr hblank⟩

/-- The plan of the target that echoes a text is no document, though its rehearsal ends well. -/
theorem plan_unreadable_loud :
    let words := ["--file", "/build.xml", "build", "all", "--plan"]
    let output := (run 1 words { world := echoing }).2.console.output
    (∃ p, planProject echoing 1 echoingOptions none = .ok p ∧
      p.target (some "all") = .ok loudTarget ∧
      ∀ jobs, (p.run Host.rehearsal (some "all") jobs {}).1 = .ok ()) ∧
    (run 1 words { world := echoing }).1 = .exited 0 ∧
    output = "hi\n" ++ planText [.run { Invocation.shell "make" with directory := some ⟨"/"⟩ }] ++
      "\n" ∧
    Json.read output = none := by
  intro words output
  have hread : read words = .request ⟨echoingOptions, .build (some "all") .showPlan none⟩ := by
    decide +kernel
  obtain ⟨p, hp, -, htargets⟩ := planProject_echoing 0
  have ht : p.target (some "all") = .ok loudTarget := by
    simp only [Project.target, htargets]
    rfl
  have hrun : ∀ jobs, (p.run Host.rehearsal (some "all") jobs {}).1 = .ok () ∧
      (p.run Host.rehearsal (some "all") jobs {}).2.steps =
        [.run { Invocation.shell "make" with directory := some ⟨"/"⟩ }] := by
    intro jobs
    rw [Project.run_of_target_ok ht]
    exact ⟨rfl, rfl⟩
  obtain ⟨hcode, hshown⟩ := run_showPlan (m := { world := echoing }) hread rfl hp ht (hrun _).1
  have houtput : output = _ := hshown
  rw [show loudTarget.name = "all" from rfl, (hrun _).2] at houtput
  refine ⟨⟨p, hp, ht, fun jobs => (hrun jobs).1⟩, hcode, houtput, ?_⟩
  rw [houtput]
  cases hdocument : Json.read (shownLines loudTarget.echoes ++ planText _ ++ "\n") with
  | none => rfl
  | some document =>
      have hblank := (read_planText_iff _ _).mp (Option.isSome_of_eq_some hdocument)
      exact absurd (hblank "hi" (by decide) 'h' (by decide)) (by decide)

end CommandLine

end DeclarativeBuild
