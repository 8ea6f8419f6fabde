import DeclarativeBuild.Proofs.Import.Precedence
import DeclarativeBuild.Proofs.Tables

/-!
# Definitions of targets

The targets of a project are those that were read without a failure, over all files that came into it.
A name has the place where it was first defined and the tasks that it was last defined with.
-/

namespace DeclarativeBuild

open Import Project

/-- A table of targets once more of them have been read. -/
def enterTargets (read : List Target) (table : List Target) : List Target :=
  read.foldl (fun table t => putBy Target.name t table) table

theorem enterTargets_append (read more : List Target) (table : List Target) :
    enterTargets (read ++ more) table = enterTargets more (enterTargets read table) :=
  List.foldl_append

theorem map_name_enterTargets (read : List Target) :
    (enterTargets read []).map Target.name = (read.map Target.name).eraseDups :=
  map_key_putAll read

theorem nodup_name_enterTargets (read : List Target) :
    ((enterTargets read []).map Target.name).Nodup :=
  nodup_key_putAll read

/-- A target in the table is the last one of its name. -/
theorem last_of_mem_enterTargets {read : List Target} {t : Target}
    (h : t ∈ enterTargets read []) : read.reverse.find? (·.name == t.name) = some t :=
  last_of_mem_putAll h

theorem getElem?_enterTargets {read table : List Target} {i : Nat} {t : Target}
    (hi : table[i]? = some t) (hread : ∀ r ∈ read, r.name ≠ t.name) :
    (enterTargets read table)[i]? = some t :=
  getElem?_putAll hi hread

/-- An element that defines a target, and what it can refer to when it is read. -/
structure Definition where
  scope : Scope
  element : Element

namespace Definition

/-- The target, unless it cannot be read. -/
def target? (d : Definition) : Option Target :=
  (Target.ofElement d.scope d.element).toOption

theorem name_of_target? {d : Definition} {t : Target} (h : d.target? = some t) :
    d.element.attribute? "name" = some t.name := by
  unfold target? Target.ofElement Element.require at h
  cases hname : d.element.attribute? "name" with
  | none => simp [hname, bind, Except.bind, Except.toOption] at h
  | some name =>
      rw [hname] at h
      cases htasks : d.element.children.mapM (Task.ofElement d.scope) with
      | error failure => simp [htasks, bind, Except.bind, Except.toOption] at h
      | ok tasks =>
          simp only [htasks, bind, Except.bind, pure, Except.pure, Except.toOption] at h
          rw [← Option.some.inj h]

/-- The targets that are read, of several definitions. -/
def enter (definitions : List Definition) (table : List Target) : List Target :=
  enterTargets (definitions.filterMap target?) table

theorem enter_append (definitions more : List Definition) (table : List Target) :
    enter (definitions ++ more) table = enter more (enter definitions table) := by
  rw [enter, List.filterMap_append, enterTargets_append]
  rfl

end Definition

section Passing

variable {ε σ ι τ β : Type} {act : ι → ExceptT ε (StateM σ) PUnit} {inner : ι → σ → List τ}

/-- What comes of a part of the state where items are gone through, told by what is passed. -/
theorem view_forM (view : σ → β) {change : List τ → β → β} (hnil : ∀ b, change [] b = b)
    (happend : ∀ xs ys b, change (xs ++ ys) b = change ys (change xs b))
    (h : ∀ i s, view (runFrom s (act i)).2 = change (inner i s) (view s)) (items : List ι) (s : σ) :
    view (runFrom s (items.forM act)).2 = change (passing act inner items s) (view s) := by
  induction items generalizing s with
  | nil => exact (hnil _).symm
  | cons i rest ih =>
      have hi := h i s
      rw [forM_cons, runFrom_bind, passing, happend, ← hi]
      cases runFrom s (act i) with
      | mk outcome s' =>
          cases outcome with
          | error e => exact (hnil _).symm
          | ok _ => exact ih s'

end Passing

namespace Project

/-- The definitions that come with a section, where `inner` tells those of a file that it imports. -/
def sectionDefinitions (w : World) (inner : Path → Loading → List Definition) (directory : Path)
    (e : Element) (l : Loading) : List Definition :=
  match e.tag with
  | "import" =>
    match e.require "file" >>= l.project.props.expand with
    | .ok file => inner (directory.join ⟨file⟩) l
    | .error _ => []
  | "property" | "preset" | "fileset" => []
  | _ => [⟨l.project.scope w directory, e⟩]

def sectionsDefinitions (w : World) (importer : Path → Import Element)
    (inner : Path → Loading → List Definition) (root : Element) (directory : Path) (l : Loading) :
    List Definition :=
  passing (readSection w importer directory) (sectionDefinitions w inner directory) root.sections l

/-- The definitions that are come to in a file and in those that it imports, up to a failure. -/
def fileDefinitions (w : World) : Nat → Path → Loading → List Definition
  | 0, _, _ => []
  | depth + 1, path, l =>
    match w.readDescription path with
    | .error _ => []
    | .ok (full, root) =>
      sectionsDefinitions w (importFile w depth) (fileDefinitions w depth) root full.directory
        (l.enter full)

theorem targets_declareProperty (e : Element) (l : Loading) :
    (runFrom l (declareProperty e)).2.project.targets = l.project.targets := by
  rw [runFrom_declareProperty]

theorem targets_declarePreset (directory : Path) (e : Element) (l : Loading) :
    (runFrom l (declarePreset directory e)).2.project.targets = l.project.targets := by
  rw [runFrom_declarePreset]
  cases Preset.ofElement l.project.props directory e <;> rfl

theorem targets_declareFileset (directory : Path) (e : Element) (l : Loading) :
    (runFrom l (declareFileset directory e)).2.project.targets = l.project.targets := by
  rw [runFrom_declareFileset]
  cases Fileset.ofElement l.project.props directory e <;> rfl

theorem targets_declareTarget (w : World) (directory : Path) (e : Element) (l : Loading) :
    (runFrom l (declareTarget w directory e)).2.project.targets =
      Definition.enter [⟨l.project.scope w directory, e⟩] l.project.targets := by
  rw [runFrom_declareTarget]
  simp only [Definition.enter, List.filterMap_cons, List.filterMap_nil, Definition.target?]
  cases Target.ofElement (l.project.scope w directory) e with
  | error failure => rfl
  | ok target => rfl

section Sections

variable {w : World} {importer : Path → Import Element} {inner : Path → Loading → List Definition}

theorem targets_readSection
    (hin : ∀ path l, (runFrom l (importer path)).2.project.targets =
      Definition.enter (inner path l) l.project.targets)
    (directory : Path) (e : Element) (l : Loading) :
    (runFrom l (readSection w importer directory e)).2.project.targets =
      Definition.enter (sectionDefinitions w inner directory e l) l.project.targets := by
  unfold readSection
  split
  · next htag =>
    rw [runFrom_followImport]
    simp only [sectionDefinitions, htag]
    cases e.require "file" >>= l.project.props.expand with
    | error failure => rfl
    | ok file => exact hin _ l
  · next htag =>
    simp only [sectionDefinitions, htag]
    exact targets_declareProperty e l
  · next htag =>
    simp only [sectionDefinitions, htag]
    exact targets_declarePreset directory e l
  · next htag =>
    simp only [sectionDefinitions, htag]
    exact targets_declareFileset directory e l
  · next himport hproperty hpreset hfileset =>
    have htarget : sectionDefinitions w inner directory e l =
        [⟨l.project.scope w directory, e⟩] := by
      simp only [sectionDefinitions]
    rw [htarget]
    exact targets_declareTarget w directory e l

theorem targets_importSections
    (hin : ∀ path l, (runFrom l (importer path)).2.project.targets =
      Definition.enter (inner path l) l.project.targets)
    (root : Element) (directory : Path) (l : Loading) :
    (runFrom l (importSections w importer root directory)).2.project.targets =
      Definition.enter (sectionsDefinitions w importer inner root directory l)
        l.project.targets := by
  rw [importSections_eq]
  exact view_forM (fun l : Loading => l.project.targets) (fun _ => rfl) Definition.enter_append
    (targets_readSection hin directory) root.sections l

end Sections

/-- However an import ends, the table has the definitions that were come to. -/
theorem targets_importFile (w : World) (depth : Nat) (path : Path) (l : Loading) :
    (runFrom l (importFile w depth path)).2.project.targets =
      Definition.enter (fileDefinitions w depth path l) l.project.targets := by
  -- What a file imports is read at a smaller depth, whatever failed there.
  induction depth generalizing path l with
  | zero => rfl
  | succ depth ih =>
      rw [runFrom_importFile, fileDefinitions]
      cases w.readDescription path with
      | error failure => rfl
      | ok found =>
          obtain ⟨full, root⟩ := found
          exact targets_importSections ih root full.directory (l.enter full)

end Project

namespace ImportCall

/-- The definitions that a call comes to. -/
def definitions : ImportCall → Loading → List Definition
  | file w depth path, l | main w depth path, l => fileDefinitions w depth path l
  | node w depth root directory, l =>
    sectionsDefinitions w (importFile w depth) (fileDefinitions w depth) root directory l

/-- The definitions that several calls come to. -/
def allDefinitions : List ImportCall → Loading → List Definition
  | [], _ => []
  | c :: rest, l => c.definitions l ++ allDefinitions rest (c.after l)

theorem targets_after (c : ImportCall) (l : Loading) :
    (after l c).project.targets = Definition.enter (c.definitions l) l.project.targets := by
  cases c with
  | file w depth path =>
      change (runFrom l (importFile w depth path >>= fun _ => pure ())).2.project.targets = _
      rw [definitions, ← targets_importFile, runFrom_bind]
      obtain ⟨outcome, l'⟩ := runFrom l (importFile w depth path)
      cases outcome <;> rfl
  | main w depth path =>
      change (runFrom l (importMain w depth path)).2.project.targets = _
      rw [definitions, ← targets_importFile, importMain, runFrom_bind]
      obtain ⟨outcome, l'⟩ := runFrom l (importFile w depth path)
      cases outcome <;> rfl
  | node w depth root directory =>
      exact targets_importSections (targets_importFile w depth) root directory l

theorem targets_foldl_after (calls : List ImportCall) (l : Loading) :
    (calls.foldl after l).project.targets =
      Definition.enter (allDefinitions calls l) l.project.targets := by
  induction calls generalizing l with
  | nil => rfl
  | cons c rest ih =>
      rw [List.foldl_cons, ih, targets_after, allDefinitions, Definition.enter_append]

end ImportCall

/-- Whatever is read into a project, and however each call ends, no two targets have one name; they
stand in the order in which their names were first read, each as it was last read.  A call that does
not read a target of a name, as none is defined or none can be read, leaves the target of that name
where and as it is. -/
theorem targets_follow_definitions (w : World) (s : Session) (root : Path)
    (calls : List ImportCall) :
    let opened : Loading := { project := Project.start w s root }
    let reached := calls.foldl ImportCall.after opened
    let read := (ImportCall.allDefinitions calls opened).filterMap Definition.target?
    (reached.project.targets.map Target.name).Nodup ∧
    reached.project.targets.map Target.name = (read.map Target.name).eraseDups ∧
    (∀ t ∈ reached.project.targets, read.reverse.find? (·.name == t.name) = some t) ∧
    ∀ (c : ImportCall) (i : Nat) (t : Target), reached.project.targets[i]? = some t →
      (∀ d ∈ c.definitions reached,
        d.element.attribute? "name" = some t.name → d.target? = none) →
      (c.after reached).project.targets[i]? = some t := by
  intro opened reached read
  have htable : reached.project.targets = enterTargets read [] :=
    ImportCall.targets_foldl_after calls opened
  rw [htable]
  refine ⟨nodup_name_enterTargets read, map_name_enterTargets read,
    fun t => last_of_mem_enterTargets, fun c i t hi hnone => ?_⟩
  rw [ImportCall.targets_after, htable]
  refine getElem?_enterTargets hi fun r hr hname => ?_
  obtain ⟨d, hd, hread⟩ := List.mem_filterMap.mp hr
  have hgiven : d.element.attribute? "name" = some t.name := by
    rw [← hname]
    exact Definition.name_of_target? hread
  rw [hnone d hd hgiven] at hread
  cases hread

namespace Element

/-- A description of targets that echo texts; one without a text is no task. -/
def describing (targets : List (String × List String)) : Element :=
  .mk "buildcc" [] (targets.map fun (name, texts) =>
    .mk "target" [("name", name)] (texts.map fun text =>
      if text = "" then .mk "say" [] [] none else .mk "echo" [] [] (some text)) none) none

end Element

/-- Two targets; new tasks for the first of them, and then a target that cannot be read. -/
def redefiningCalls : List ImportCall :=
  [.node swallowing 0 (.describing [("all", ["first"]), ("other", ["kept"])]) ⟨"/proj"⟩,
    .node swallowing 0 (.describing [("all", ["last", "more"]), ("third", [""])]) ⟨"/proj"⟩]

theorem targets_follow_definitions_redefiningCalls :
    let opened : Loading := { project := Project.start swallowing { cwd := ⟨"/proj"⟩ } ⟨"/proj"⟩ }
    let reached := redefiningCalls.foldl ImportCall.after opened
    let failing : ImportCall :=
      .node swallowing 0 (.describing [("other", ["lost", ""]), ("new", ["never"])]) ⟨"/proj"⟩
    reached.project.targets =
      [⟨"all", [.echo "last", .echo "more"]⟩, ⟨"other", [.echo "kept"]⟩] ∧
    (failing.after reached).project.targets[1]? = some ⟨"other", [.echo "kept"]⟩ := by
  intro opened reached failing
  have hreached : reached.project.targets =
      [⟨"all", [.echo "last", .echo "more"]⟩, ⟨"other", [.echo "kept"]⟩] := by
    decide +kernel
  have hfailing : ∀ d ∈ failing.definitions reached,
      d.element.attribute? "name" = some "other" → d.target? = none := by
    decide +kernel
  obtain ⟨-, -, -, hleft⟩ :=
    targets_follow_definitions swallowing { cwd := ⟨"/proj"⟩ } ⟨"/proj"⟩ redefiningCalls
  exact ⟨hreached, hleft failing 1 ⟨"other", [.echo "kept"]⟩ (by rw [hreached]; rfl) hfailing⟩

end DeclarativeBuild
