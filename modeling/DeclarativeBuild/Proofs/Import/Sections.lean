import DeclarativeBuild.Proofs.Import.Moments
import DeclarativeBuild.Proofs.Task.Expansions

/-!
# How sections are read

Each section of a file is read with the properties of its own moment: all of its templates are
expanded with them, whether or not the reading succeeds.  A file is its sections one after the other
up to the first that fails, between the moments at which its file properties are set and put back.
-/

namespace DeclarativeBuild

open Import Project

section Passing

variable {ε σ ι τ : Type}

/-- Items are gone through up to the first that fails, where a relation tells how each of them goes
and what is passed with it. -/
inductive Passes (R : ι → σ → List τ → Except ε Unit × σ → Prop) :
    List ι → σ → List τ → Except ε Unit × σ → Prop
  | done (s : σ) : Passes R [] s [] (.ok (), s)
  | stopped {i : ι} {rest : List ι} {s s' : σ} {passed : List τ} {e : ε}
      (fails : R i s passed (.error e, s')) : Passes R (i :: rest) s passed (.error e, s')
  | next {i : ι} {rest : List ι} {s s' : σ} {passed more : List τ} {found : Except ε Unit × σ}
      (first : R i s passed (.ok (), s')) (others : Passes R rest s' more found) :
      Passes R (i :: rest) s (passed ++ more) found

theorem passes_passing {R : ι → σ → List τ → Except ε Unit × σ → Prop}
    {act : ι → ExceptT ε (StateM σ) PUnit} {inner : ι → σ → List τ} {items : List ι}
    (h : ∀ i ∈ items, ∀ s, R i s (inner i s) (runFrom s (act i))) (s : σ) :
    Passes R items s (passing act inner items s) (runFrom s (items.forM act)) := by
  induction items generalizing s with
  | nil => exact .done s
  | cons i rest ih =>
      have hi := h i List.mem_cons_self s
      rw [forM_cons, runFrom_bind, passing]
      cases hs : runFrom s (act i) with
      | mk outcome s' =>
          rw [hs] at hi
          cases outcome with
          | error e =>
              rw [List.append_nil]
              exact .stopped hi
          | ok _ => exact .next hi (ih (fun j hj => h j (List.mem_cons_of_mem i hj)) s')

end Passing

namespace Properties

/-- What comes of the value of an element: it is only expanded if its name has no value. -/
inductive OwnRuns (p : Properties) (name : String) (e : Element) :
    Except Failure Unit × Properties → Prop
  | unwritten (none_eq : e.attribute? "value" = none) : OwnRuns p name e (.ok (), p)
  | taken (some_eq : (p.get? name).isSome = true) : OwnRuns p name e (.ok (), p)
  | given {template text : String} (written : e.attribute? "value" = some template)
      (free : p.get? name = none) (expands : p.expand template = .ok text) :
      OwnRuns p name e (.ok (), ⟨p.entries ++ [(name, text)]⟩)
  | refused {template : String} {failure : Failure} (written : e.attribute? "value" = some template)
      (free : p.get? name = none) (expands : p.expand template = .error failure) :
      OwnRuns p name e (.error failure, p)

mutual

/-- What comes of a property element, and the properties with which its templates and those inside of
it are expanded. -/
inductive ElementRuns : String → Element → Properties → List Properties →
    Except Failure Unit × Properties → Prop
  | skipped {outer : String} {e : Element} {p : Properties} (condition : p.holds e = .ok false) :
      ElementRuns outer e p [p] (.ok (), p)
  | unclear {outer : String} {e : Element} {p : Properties} {failure : Failure}
      (condition : p.holds e = .error failure) : ElementRuns outer e p [p] (.error failure, p)
  | unnamed {outer : String} {e : Element} {p : Properties} (condition : p.holds e = .ok true)
      (none_eq : e.attribute? "name" = none) :
      ElementRuns outer e p [p] (.error (.missingAttribute e.tag "name"), p)
  | refused {outer name : String} {e : Element} {p p' : Properties} {failure : Failure}
      (condition : p.holds e = .ok true) (named : e.attribute? "name" = some name)
      (own : p.OwnRuns (outer ++ name) e (.error failure, p')) :
      ElementRuns outer e p [p] (.error failure, p')
  | entered {outer name : String} {e : Element} {p p' : Properties} {more : List Properties}
      {found : Except Failure Unit × Properties} (condition : p.holds e = .ok true)
      (named : e.attribute? "name" = some name) (own : p.OwnRuns (outer ++ name) e (.ok (), p'))
      (inner : ChildrenRun (outer ++ name ++ ".") e.children p' more found) :
      ElementRuns outer e p (p :: more) found

/-- What comes of the property elements among some, and the properties at each of them and after the
last one. -/
inductive ChildrenRun : String → List Element → Properties → List Properties →
    Except Failure Unit × Properties → Prop
  | done {outer : String} (p : Properties) : ChildrenRun outer [] p [p] (.ok (), p)
  | other {outer : String} {e : Element} {rest : List Element} {p : Properties}
      {passed : List Properties} {found : Except Failure Unit × Properties}
      (tag_ne : e.tag ≠ "property") (others : ChildrenRun outer rest p passed found) :
      ChildrenRun outer (e :: rest) p passed found
  | stopped {outer : String} {e : Element} {rest : List Element} {p p' : Properties}
      {passed : List Properties} {failure : Failure} (tag_eq : e.tag = "property")
      (fails : ElementRuns outer e p passed (.error failure, p')) :
      ChildrenRun outer (e :: rest) p passed (.error failure, p')
  | next {outer : String} {e : Element} {rest : List Element} {p p' : Properties}
      {passed more : List Properties} {found : Except Failure Unit × Properties}
      (tag_eq : e.tag = "property") (first : ElementRuns outer e p passed (.ok (), p'))
      (others : ChildrenRun outer rest p' more found) :
      ChildrenRun outer (e :: rest) p (passed ++ more) found

end

theorem ownRuns_declareOwn (name : String) (e : Element) (p : Properties) :
    p.OwnRuns name e (runFrom p (declareOwn name e)) := by
  unfold declareOwn
  cases hvalue : e.attribute? "value" with
  | none => exact .unwritten hvalue
  | some template =>
      simp only [runFrom_get_bind]
      cases hget : p.get? name with
      | some value =>
          have hhas : p.contains name = true := by rw [contains, hget]; rfl
          rw [if_pos hhas]
          exact .taken (by rw [hget]; rfl)
      | none =>
          have hfree : p.contains name = false := by rw [contains, hget]; rfl
          rw [if_neg (by simp [hfree]), runFrom_get_bind, runFrom_lift_bind]
          cases hexpand : p.expand template with
          | error failure => exact .refused hvalue hget hexpand
          | ok text =>
              have hdeclare : (p.declare name text).2 = ⟨p.entries ++ [(name, text)]⟩ := by
                rw [declare, hfree]
                rfl
              change OwnRuns p name e (.ok (), (p.declare name text).2)
              rw [hdeclare]
              exact .given hvalue hget hexpand

mutual

theorem elementRuns_declareElement (outer : String) : (e : Element) → (p : Properties) →
    ElementRuns outer e p (elementMoments outer e p) (runFrom p (declareElement outer e))
  | .mk tag attributes children text?, p => by
      rw [declareElement_eq, runFrom_bind, elementMoments]
      generalize he : Element.mk tag attributes children text? = e
      have hchildren : children = e.children := by rw [← he]; rfl
      unfold enterElement
      simp only [runFrom_get_bind, runFrom_lift_bind]
      cases hcondition : p.holds e with
      | error failure => exact .unclear hcondition
      | ok holds =>
          cases holds with
          | false => exact .skipped hcondition
          | true =>
              simp only [if_true, runFrom_lift_bind, Element.require]
              cases hname : e.attribute? "name" with
              | none => exact .unnamed hcondition hname
              | some name =>
                  have hown := ownRuns_declareOwn (outer ++ name) e p
                  simp only [runFrom_bind]
                  cases hs : runFrom p (declareOwn (outer ++ name) e) with
                  | mk outcome p' =>
                      rw [hs] at hown
                      cases outcome with
                      | error failure => exact .refused hcondition hname hown
                      | ok _ =>
                          refine .entered hcondition hname hown ?_
                          rw [← hchildren]
                          exact childrenRun_declareChildren _ children p'

theorem childrenRun_declareChildren (outer : String) : (elements : List Element) →
    (p : Properties) →
    ChildrenRun outer elements p (childrenMoments outer elements p)
      (runFrom p (declareChildren outer elements))
  | [], p => by
      rw [childrenMoments, declareChildren]
      exact .done p
  | e :: rest, p => by
      rw [childrenMoments, declareChildren]
      by_cases htag : e.tag = "property"
      · have he := elementRuns_declareElement outer e p
        simp only [htag, beq_self_eq_true, if_true]
        rw [runFrom_bind]
        cases hs : runFrom p (declareElement outer e) with
        | mk outcome p' =>
            rw [hs] at he
            cases outcome with
            | error failure =>
                rw [List.append_nil]
                exact .stopped htag he
            | ok _ => exact .next htag he (childrenRun_declareChildren outer rest p')
      · have hother : (e.tag == "property") = false := beq_false_of_ne htag
        simp only [hother, Bool.false_eq_true, if_false]
        exact .other htag (childrenRun_declareChildren outer rest p)

end

end Properties

namespace Project

/-- What the elements of a target can refer to now. -/
def scope (p : Project) (w : World) (directory : Path) : Scope where
  world := w
  props := p.props
  filesets := p.filesets
  toolchain := p.toolchain
  base := directory

end Project

/-- What there is once a preset has been read.  A name that is taken keeps its preset. -/
def Loading.withPreset (l : Loading) (preset : Preset) : Loading where
  project := { l.project with presets := (l.project.presets.declare preset).2 }
  journal := l.journal ++ if l.project.presets.contains preset.name then
      [⟨.debug, "preset `" ++ preset.name ++ "` already declared, ignoring redefinition"⟩,
        ⟨.debug, "preset `" ++ preset.name ++ "` already declared, keeping the first"⟩]
    else []

/-- Why a declaration cannot be read with the properties and in the scope that it is come to with. -/
inductive Scope.Refuses (s : Scope) (e : Element) : Failure → Prop
  | preset {failure : Failure} (tag_eq : e.tag = "preset")
      (fails : Preset.ofElement s.props s.base e = .error failure) : Scope.Refuses s e failure
  | fileset {failure : Failure} (tag_eq : e.tag = "fileset")
      (fails : Fileset.ofElement s.props s.base e = .error failure) : Scope.Refuses s e failure
  | target {failure : Failure} (tag_eq : e.tag = "target")
      (fails : Target.ofElement s e = .error failure) : Scope.Refuses s e failure

/-- How files that are imported are read: with which moments, and what comes of them. -/
abbrev Importing := Path → Loading → List Moment → Except ImportFault Element × Loading → Prop

/-- How a section is read, at one moment or, if there are elements or a file inside of it, at several
of them.  Its own templates are expanded with the properties that are there when it is come to. -/
inductive World.SectionRuns (w : World) (importing : Importing) (file? : Option Path)
    (directory : Path) (e : Element) (l : Loading) :
    List Moment → Except ImportFault Unit × Loading → Prop
  | unnamed (tag_eq : e.tag = "import") (unwritten : e.attribute? "file" = none) :
      World.SectionRuns w importing file? directory e l [⟨file?, l.project.props⟩]
        (.error (.failed (.missingAttribute e.tag "file")), l)
  | lost {template : String} {failure : Failure} (tag_eq : e.tag = "import")
      (written : e.attribute? "file" = some template)
      (expands : l.project.props.expand template = .error failure) :
      World.SectionRuns w importing file? directory e l [⟨file?, l.project.props⟩]
        (.error (.failed failure), l)
  | imports {template file : String} {moments : List Moment} {l' : Loading}
      {outcome : Except ImportFault Element} (tag_eq : e.tag = "import")
      (written : e.attribute? "file" = some template)
      (expands : l.project.props.expand template = .ok file)
      (inside : importing (directory.join ⟨file⟩) l moments (outcome, l')) :
      World.SectionRuns w importing file? directory e l (⟨file?, l.project.props⟩ :: moments)
        (outcome.map fun _ => (), l')
  | property {stores : List Properties} {props : Properties} {outcome : Except Failure Unit}
      (tag_eq : e.tag = "property")
      (declares : Properties.ElementRuns "" e l.project.props stores (outcome, props)) :
      World.SectionRuns w importing file? directory e l
        (⟨file?, l.project.props⟩ :: stores.map (⟨file?, ·⟩))
        (outcome.mapError .failed, { l with project := { l.project with props } })
  | preset {preset : Preset} (tag_eq : e.tag = "preset")
      (read : Preset.ofElement l.project.props directory e = .ok preset)
      (expanded : preset.ExpandedFrom l.project.props directory e) :
      World.SectionRuns w importing file? directory e l [⟨file?, l.project.props⟩]
        (.ok (), l.withPreset preset)
  | fileset {fileset : Fileset} (tag_eq : e.tag = "fileset")
      (read : Fileset.ofElement l.project.props directory e = .ok fileset)
      (expanded : fileset.ExpandedFrom l.project.props directory e) :
      World.SectionRuns w importing file? directory e l [⟨file?, l.project.props⟩]
        (.ok (), { l with project := l.project.putFileset fileset })
  | target {target : Target} (tag_eq : e.tag = "target")
      (read : Target.ofElement (l.project.scope w directory) e = .ok target)
      (expanded : target.ExpandedFrom (l.project.scope w directory) e) :
      World.SectionRuns w importing file? directory e l [⟨file?, l.project.props⟩]
        (.ok (), { l with project := l.project.putTarget target })
  | refused {failure : Failure} (refuses : (l.project.scope w directory).Refuses e failure)
      (wants : ∀ name, failure = .undefinedProperty name →
        ∃ template, e.Writes template ∧ l.project.props.expand template = .error failure) :
      World.SectionRuns w importing file? directory e l [⟨file?, l.project.props⟩]
        (.error (.failed failure), l)

/-- How a file is imported: its sections are read from the moment on at which the file properties have
been set, and these are put back however the reading ends. -/
def World.Imports (w : World) : Nat → Importing
  | 0, path, l, moments, found => moments = [] ∧ found = (.error (.tooDeep path), l)
  | depth + 1, path, l, moments, found =>
    (∃ failure, w.readDescription path = .error failure ∧ moments = [] ∧
      found = (.error (.failed failure), l)) ∨
    ∃ full root passed outcome inner, w.readDescription path = .ok (full, root) ∧
      Passes (w.SectionRuns (w.Imports depth) (some full) full.directory) root.sections
        (l.enter full) passed (outcome, inner) ∧
      moments = passed ++ [⟨some full, inner.project.props⟩] ∧
      found = (outcome.map fun _ => root, l.leave inner)

namespace Project

theorem runFrom_declarePreset (directory : Path) (e : Element) (l : Loading) :
    runFrom l (declarePreset directory e) =
      match Preset.ofElement l.project.props directory e with
      | .error failure => (.error (.failed failure), l)
      | .ok preset => (.ok (), l.withPreset preset) := by
  unfold declarePreset
  rw [runFrom_bind_of_ok (runFrom_project l)]
  cases Preset.ofElement l.project.props directory e with
  | error failure => rfl
  | ok preset =>
      simp only [runFrom_bind, runFrom_check_ok, runFrom_update, Loading.withPreset]
      unfold PresetTable.declare
      cases l.project.presets.contains preset.name with
      | false => simp
      | true => simp [runFrom_bind, List.append_assoc]

theorem runFrom_declareFileset (directory : Path) (e : Element) (l : Loading) :
    runFrom l (declareFileset directory e) =
      match Fileset.ofElement l.project.props directory e with
      | .error failure => (.error (.failed failure), l)
      | .ok fileset => (.ok (), { l with project := l.project.putFileset fileset }) := by
  unfold declareFileset
  rw [runFrom_bind_of_ok (runFrom_project l)]
  cases Fileset.ofElement l.project.props directory e with
  | error failure => rfl
  | ok fileset => rfl

theorem runFrom_declareTarget (w : World) (directory : Path) (e : Element) (l : Loading) :
    runFrom l (declareTarget w directory e) =
      match Target.ofElement (l.project.scope w directory) e with
      | .error failure => (.error (.failed failure), l)
      | .ok t => (.ok ⟨⟩, { l with project := l.project.putTarget t }) := by
  have hscope : declareTarget w directory e = Import.project >>= fun p =>
      check (Target.ofElement (p.scope w directory) e) >>= fun t => update (·.putTarget t) := rfl
  rw [hscope, runFrom_bind_of_ok (runFrom_project l)]
  cases Target.ofElement (l.project.scope w directory) e with
  | error failure => rfl
  | ok t => rfl

theorem tag_mem_of_mem_sections {root e : Element} (h : e ∈ root.sections) :
    e.tag ∈ ["import", "property", "preset", "fileset", "target"] := by
  obtain ⟨tag, htag, he⟩ := List.mem_flatMap.mp h
  obtain rfl : e.tag = tag := by simpa using (List.mem_filter.mp he).2
  exact htag

section Sections

variable {w : World} {importer : Path → Import Element} {importing : Importing}
variable {inner : Path → Loading → List Moment}

theorem sectionRuns_followImport
    (hin : ∀ path l, importing path l (inner path l) (runFrom l (importer path)))
    (file? : Option Path) (directory : Path) {e : Element} (htag : e.tag = "import")
    (l : Loading) :
    w.SectionRuns importing file? directory e l (sectionMoments file? inner directory e l)
      (runFrom l (followImport importer directory e)) := by
  rw [runFrom_followImport, sectionMoments]
  simp only [htag]
  cases hwritten : e.attribute? "file" with
  | none =>
      have hrequire : e.require "file" = .error (.missingAttribute e.tag "file") := by
        rw [Element.require, hwritten]
      rw [hrequire]
      exact .unnamed htag hwritten
  | some template =>
      have hrequire : (e.require "file" >>= l.project.props.expand) =
          l.project.props.expand template := by
        rw [Element.require, hwritten]
        rfl
      rw [hrequire]
      cases hexpand : l.project.props.expand template with
      | error failure => exact .lost htag hwritten hexpand
      | ok file => exact .imports htag hwritten hexpand (hin _ l)

/-- Sections are read at their moments, if the files that they import are. -/
theorem sectionRuns_readSection
    (hin : ∀ path l, importing path l (inner path l) (runFrom l (importer path)))
    (file? : Option Path) (directory : Path) {e : Element}
    (he : e.tag ∈ ["import", "property", "preset", "fileset", "target"]) (l : Loading) :
    w.SectionRuns importing file? directory e l (sectionMoments file? inner directory e l)
      (runFrom l (readSection w importer directory e)) := by
  unfold readSection
  split
  · next htag => exact sectionRuns_followImport hin file? directory htag l
  · next htag =>
    rw [runFrom_declareProperty, sectionMoments]
    simp only [htag]
    exact .property htag (Properties.elementRuns_declareElement "" e l.project.props)
  · next htag =>
    rw [runFrom_declarePreset, sectionMoments]
    simp only [htag]
    cases hread : Preset.ofElement l.project.props directory e with
    | ok preset => exact .preset htag hread (Preset.expandedFrom_of_ofElement hread)
    | error failure =>
        refine .refused (.preset htag hread) ?_
        rintro name rfl
        exact Preset.accounts_ofElement name hread
  · next htag =>
    rw [runFrom_declareFileset, sectionMoments]
    simp only [htag]
    cases hread : Fileset.ofElement l.project.props directory e with
    | ok fileset => exact .fileset htag hread (Fileset.expandedFrom_of_ofElement hread)
    | error failure =>
        refine .refused (.fileset htag hread) ?_
        rintro name rfl
        exact Fileset.accounts_ofElement name hread
  · next himport hproperty hpreset hfileset =>
    have htag : e.tag = "target" := by
      simp only [List.mem_cons, List.not_mem_nil, or_false] at he
      tauto
    rw [runFrom_declareTarget, sectionMoments]
    simp only [htag]
    cases hread : Target.ofElement (l.project.scope w directory) e with
    | ok target => exact .target htag hread (Target.expandedFrom_of_ofElement hread)
    | error failure =>
        refine .refused (.target htag hread) ?_
        rintro name rfl
        exact Target.accounts_ofElement name hread

end Sections

/-- A file is imported at its moments: they are those at which its sections, and those of the files
inside of it, are read. -/
theorem imports_importFile (w : World) (depth : Nat) (path : Path) (l : Loading) :
    w.Imports depth path l (fileMoments w depth path l) (runFrom l (importFile w depth path)) := by
  induction depth generalizing path l with
  | zero => exact ⟨rfl, rfl⟩
  | succ depth ih =>
      rw [runFrom_importFile, fileMoments]
      cases hd : w.readDescription path with
      | error failure => exact .inl ⟨failure, hd, rfl, rfl⟩
      | ok found =>
          obtain ⟨full, root⟩ := found
          have hsections := passes_passing (s := l.enter full) fun e (he : e ∈ root.sections) s =>
            sectionRuns_readSection (w := w) ih (some full) full.directory
              (tag_mem_of_mem_sections he) s
          simp only [sectionsMoments]
          rw [importSections_eq]
          exact .inr ⟨full, root, _, _, _, hd, hsections, rfl, rfl⟩

end Project
end DeclarativeBuild
