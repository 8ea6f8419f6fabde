import DeclarativeBuild.Preset
import DeclarativeBuild.Proofs.Task.Operands

/-!
# Templates of elements

Presets, filesets and targets are read with the properties that are there when their element is come
to.  Each of their texts and paths is what a template of the element expands to with these, and a
reading that fails for want of a property was expanding such a template.
-/

namespace DeclarativeBuild

variable {α β : Type}

/-- A template that an element writes as an attribute or as its text, or one inside of it does. -/
inductive Element.Writes : Element → String → Prop
  | attribute {e : Element} {name template : String}
      (written : e.attribute? name = some template) : Writes e template
  | text (e : Element) : Writes e (e.text?.getD "")
  | inside {e child : Element} {template : String} (hm : child ∈ e.children)
      (written : Writes child template) : Writes e template

/-- An outcome that is the want of a property only if a template of the element wants it. -/
def Element.Accounts (e : Element) (props : Properties) (outcome : Except Failure α) : Prop :=
  ∀ name, outcome = .error (.undefinedProperty name) →
    ∃ template, e.Writes template ∧ props.expand template = .error (.undefinedProperty name)

/-- A template stands for a path: what it expands to, seen from the directory of the description. -/
def Scope.Places (s : Scope) (template : String) (path : Path) : Prop :=
  ∃ text, s.props.expand template = .ok text ∧ path = s.base.join ⟨text⟩

/-- Parameters whose texts are expanded from the elements inside of one. -/
structure Params.ExpandedFrom (props : Properties) (base : Path) (e : Element) (params : Params) :
    Prop where
  includes : List.Forall₂ (fun child dir => ∃ template text, child.attribute? "dir" = some template ∧
    props.expand template = .ok text ∧ dir = (base.join ⟨text⟩).text)
    (e.childrenNamed "include") params.includes
  defines : List.Forall₂ (fun child define => ∃ template, child.attribute? "key" = some template ∧
    props.expand template = .ok define) (e.childrenNamed "define") params.defines
  opts : List.Forall₂ (fun child opt => ∃ template, child.attribute? "value" = some template ∧
    props.expand template = .ok opt) (e.childrenNamed "opt") params.opts

/-- A preset of the name that its element writes, over the one that it names. -/
structure Preset.ExpandedFrom (props : Properties) (base : Path) (e : Element) (preset : Preset) :
    Prop where
  name_eq : e.attribute? "name" = some preset.name
  parent?_eq : preset.parent? = e.attribute? "parent"
  params : preset.params.ExpandedFrom props base e

/-- A file or a wildcard of a fileset, as its element writes it. -/
inductive FileSource.ExpandedFrom (props : Properties) (base : Path) (e : Element) :
    FileSource → Prop
  | file {template text : String} (tag_eq : e.tag = "file")
      (written : e.attribute? "path" = some template) (expands : props.expand template = .ok text) :
      FileSource.ExpandedFrom props base e (.file (base.join ⟨text⟩))
  | wildcard {template text : String} (tag_eq : e.tag = "wildcard")
      (written : e.attribute? "pattern" = some template)
      (expands : props.expand template = .ok text) :
      FileSource.ExpandedFrom props base e (.wildcard (base.join ⟨text⟩).text)

structure Fileset.ExpandedFrom (props : Properties) (base : Path) (e : Element) (f : Fileset) :
    Prop where
  name_eq : e.attribute? "name" = some f.name
  sources : List.Forall₂ (FileSource.ExpandedFrom props base) e.children f.sources

/-- An object task whose paths are those that its element writes. -/
structure ObjectTask.ExpandedFrom (s : Scope) (e : Element) (o : ObjectTask) : Prop where
  source : ∀ template, e.attribute? "src" = some template →
    ∃ path, s.Places template path ∧ o.sources = [path]
  prebuilt : ∀ template, e.attribute? "file" = some template →
    ∃ path, s.Places template path ∧ o.file? = some path
  placed : ∀ template, e.attribute? "file" = none → e.attribute? "output" = some template →
    ∃ path, s.Places template path ∧ o.outputs = [path]
  params : o.params.ExpandedFrom s.props s.base e

structure BinaryTask.ExpandedFrom (s : Scope) (e : Element) (b : BinaryTask) : Prop where
  output : ∃ template, e.attribute? "output" = some template ∧ s.Places template b.output
  objects : List.Forall₂ (ObjectTask.ExpandedFrom s) (e.childrenNamed "object") b.objects
  libraries : List.Forall₂ (fun child path => ∃ template,
    child.attribute? "libpath" = some template ∧ s.Places template path)
    (e.childrenNamed "link") b.libraries
  params : b.params.ExpandedFrom s.props s.base e

inductive Task.ExpandedFrom (s : Scope) (e : Element) : Task → Prop
  | echo {text : String} (expands : s.props.expand (e.text?.getD "") = .ok text) :
      Task.ExpandedFrom s e (.echo text)
  | exec {text : String} (expands : s.props.expand (e.text?.getD "") = .ok text) :
      Task.ExpandedFrom s e (.exec text s.base)
  | object {o : ObjectTask} (read : o.ExpandedFrom s e) : Task.ExpandedFrom s e (.object o)
  | binary {b : BinaryTask} (read : b.ExpandedFrom s e) : Task.ExpandedFrom s e (.binary b)

structure Target.ExpandedFrom (s : Scope) (e : Element) (t : Target) : Prop where
  name_eq : e.attribute? "name" = some t.name
  tasks : List.Forall₂ (Task.ExpandedFrom s) e.children t.tasks

namespace Element

theorem require_eq_ok_iff {e : Element} {name value : String} :
    e.require name = .ok value ↔ e.attribute? name = some value := by
  unfold require
  cases e.attribute? name <;> simp

theorem mem_children_of_childrenNamed {e child : Element} {tag : String}
    (h : child ∈ e.childrenNamed tag) : child ∈ e.children :=
  (List.mem_filter.mp h).1

namespace Accounts

variable {e child : Element} {props : Properties}

theorem ok (a : α) : e.Accounts props (.ok a) := by
  intro name h
  cases h

theorem bind {x : Except Failure α} {f : α → Except Failure β} (hx : e.Accounts props x)
    (hf : ∀ a, x = .ok a → e.Accounts props (f a)) : e.Accounts props (x >>= f) := by
  intro name h
  rcases bind_eq_error_iff.mp h with hfails | ⟨a, ha, hfails⟩
  · exact hx name hfails
  · exact hf a ha name hfails

theorem map {x : Except Failure α} (hx : e.Accounts props x) (f : α → β) :
    e.Accounts props (x.map f) := by
  intro name h
  cases x with
  | error failure => exact hx name (by simpa [Except.map] using h)
  | ok a => simp [Except.map] at h

theorem mapM {f : α → Except Failure β} {items : List α}
    (hf : ∀ a ∈ items, e.Accounts props (f a)) : e.Accounts props (items.mapM f) := by
  intro name h
  obtain ⟨a, hm, hfails⟩ := exists_of_mapM_eq_error h
  exact hf a hm name hfails

theorem of_inside {outcome : Except Failure α} (hm : child ∈ e.children)
    (h : child.Accounts props outcome) : e.Accounts props outcome := by
  intro name hfails
  obtain ⟨template, hwritten, hexpand⟩ := h name hfails
  exact ⟨template, .inside hm hwritten, hexpand⟩

theorem expand {template : String} (h : e.Writes template) :
    e.Accounts props (props.expand template) :=
  fun _ hfails => ⟨template, h, hfails⟩

theorem require (name : String) : e.Accounts props (e.require name) := by
  intro other h
  unfold Element.require Failure.missingAttribute at h
  split at h <;> cases h

/-- A template that must be there is looked for before it is expanded. -/
theorem require_bind {name : String} {f : String → Except Failure β}
    (hf : ∀ template, e.Writes template → e.Accounts props (f template)) :
    e.Accounts props (e.require name >>= f) :=
  bind (.require name) fun template h => hf template (.attribute (require_eq_ok_iff.mp h))

end Accounts

end Element

namespace Params

variable {props : Properties} {base : Path} {e : Element}

theorem forall₂_values {tag name : String} {found : List String}
    (h : values props e tag name = .ok found) :
    List.Forall₂ (fun child value => ∃ template, child.attribute? name = some template ∧
      props.expand template = .ok value) (e.childrenNamed tag) found := by
  refine (mapM_eq_ok_iff.mp h).imp fun child value hread => ?_
  obtain ⟨template, hwritten, hexpand⟩ := bind_eq_ok_iff.mp hread
  exact ⟨template, Element.require_eq_ok_iff.mp hwritten, hexpand⟩

theorem expandedFrom_of_ofElement {params : Params} (h : ofElement props base e = .ok params) :
    params.ExpandedFrom props base e := by
  unfold ofElement at h
  obtain ⟨debugSymbols?, -, h⟩ := bind_eq_ok_iff.mp h
  obtain ⟨forShlib?, -, h⟩ := bind_eq_ok_iff.mp h
  obtain ⟨dirs, hdirs, h⟩ := bind_eq_ok_iff.mp h
  obtain ⟨defines, hdefines, h⟩ := bind_eq_ok_iff.mp h
  obtain ⟨opts, hopts, h⟩ := bind_eq_ok_iff.mp h
  cases h
  refine ⟨?_, forall₂_values hdefines, forall₂_values hopts⟩
  rw [List.forall₂_map_right_iff]
  refine (forall₂_values hdirs).imp ?_
  rintro child text ⟨template, hwritten, hexpand⟩
  exact ⟨template, text, hwritten, hexpand, rfl⟩

theorem accounts_values (tag name : String) : e.Accounts props (values props e tag name) :=
  .mapM fun _ hm => .of_inside (Element.mem_children_of_childrenNamed hm)
    (.require_bind fun _ hwritten => .expand hwritten)

theorem accounts_flag (name : String) : e.Accounts props (flag e name) := by
  intro other h
  unfold flag at h
  split at h <;> simp at h

theorem accounts_ofElement : e.Accounts props (ofElement props base e) :=
  .bind (accounts_flag _) fun _ _ => .bind (accounts_flag _) fun _ _ =>
    .bind (accounts_values _ _) fun _ _ => .bind (accounts_values _ _) fun _ _ =>
      .bind (accounts_values _ _) fun _ _ => .ok _

end Params

section Declarations

variable {props : Properties} {base : Path} {e : Element}

theorem Preset.expandedFrom_of_ofElement {preset : Preset}
    (h : Preset.ofElement props base e = .ok preset) : preset.ExpandedFrom props base e := by
  obtain ⟨name, hname, h⟩ := bind_eq_ok_iff.mp h
  obtain ⟨params, hparams, h⟩ := bind_eq_ok_iff.mp h
  cases h
  exact ⟨Element.require_eq_ok_iff.mp hname, rfl, Params.expandedFrom_of_ofElement hparams⟩

theorem Preset.accounts_ofElement : e.Accounts props (Preset.ofElement props base e) :=
  .bind (.require _) fun _ _ => .bind Params.accounts_ofElement fun _ _ => .ok _

namespace Fileset

theorem expandedFrom_sourceOfElement {source : FileSource}
    (h : sourceOfElement props base e = .ok source) : source.ExpandedFrom props base e := by
  unfold sourceOfElement at h
  split at h
  · next htag =>
    obtain ⟨template, hwritten, h⟩ := bind_eq_ok_iff.mp h
    obtain ⟨text, hexpand, h⟩ := bind_eq_ok_iff.mp h
    cases h
    exact .file htag (Element.require_eq_ok_iff.mp hwritten) hexpand
  · next htag =>
    obtain ⟨template, hwritten, h⟩ := bind_eq_ok_iff.mp h
    obtain ⟨text, hexpand, h⟩ := bind_eq_ok_iff.mp h
    cases h
    exact .wildcard htag (Element.require_eq_ok_iff.mp hwritten) hexpand
  · cases h

theorem expandedFrom_of_ofElement {f : Fileset} (h : ofElement props base e = .ok f) :
    f.ExpandedFrom props base e := by
  obtain ⟨sources, hsources, h⟩ := bind_eq_ok_iff.mp h
  obtain ⟨name, hname, h⟩ := bind_eq_ok_iff.mp h
  cases h
  exact ⟨Element.require_eq_ok_iff.mp hname,
    (mapM_eq_ok_iff.mp hsources).imp fun _ _ => expandedFrom_sourceOfElement⟩

theorem accounts_sourceOfElement : e.Accounts props (sourceOfElement props base e) := by
  unfold sourceOfElement
  split
  · exact .require_bind fun _ hwritten => .bind (.expand hwritten) fun _ _ => .ok _
  · exact .require_bind fun _ hwritten => .bind (.expand hwritten) fun _ _ => .ok _
  · intro name h
    cases h

theorem accounts_ofElement : e.Accounts props (ofElement props base e) :=
  .bind (.mapM fun _ hm => .of_inside hm accounts_sourceOfElement) fun _ _ =>
    .bind (.require _) fun _ _ => .ok _

end Fileset

end Declarations

variable {s : Scope} {e : Element}

namespace Scope

theorem path_eq_ok_iff {template : String} {path : Path} :
    s.path template = .ok path ↔ s.Places template path := by
  unfold Scope.path Places
  rw [bind_eq_ok_iff]
  refine exists_congr fun text => and_congr_right fun _ => ?_
  exact ⟨fun h => (Except.ok.inj h).symm, fun h => congrArg Except.ok h.symm⟩

theorem accounts_path {template : String} (h : e.Writes template) :
    e.Accounts s.props (s.path template) :=
  .bind (.expand h) fun _ _ => .ok _

theorem accounts_compiler (outer? : Option Compiler) :
    e.Accounts s.props (s.compiler e outer?) := by
  intro name h
  unfold Scope.compiler at h
  split at h
  · cases h
  · unfold Toolchain.find Toolchain.orUnknown at h
    split at h
    · split at h <;> simp at h
    · split at h <;> simp at h
    · simp at h

/-- The files of a fileset were settled when it was read. -/
theorem accounts_filesetFiles (name : String) : e.Accounts s.props (s.filesetFiles name) := by
  have hsource : ∀ source : FileSource, e.Accounts s.props (source.files s.world) := by
    intro source
    unfold FileSource.files
    split
    · exact .ok _
    · split
      · refine .mapM fun sighting _ other h => ?_
        unfold Wildcard.Sighting.path at h
        split at h <;> simp at h
      · intro other h
        cases h
  unfold Scope.filesetFiles
  split
  · intro other h
    cases h
  · exact .bind (.mapM fun source _ => hsource source) fun _ _ => .ok _

end Scope

namespace ObjectTask

variable {outer? : Option Compiler} {o : ObjectTask}

theorem expandedFrom_of_ofElement (h : ofElement s outer? e = .ok o) : o.ExpandedFrom s e := by
  have hread := ofElement_eq_ok_iff.mp h
  refine ⟨fun template hsrc => ?_, fun template hfile => ?_, fun template hfile houtput => ?_,
    Params.expandedFrom_of_ofElement hread.reads.params_eq⟩
  · have hsources := hread.sources_eq
    simp only [readSources, hsrc] at hsources
    cases hpath : s.path template with
    | error failure => simp [hpath, Except.map] at hsources
    | ok path =>
        rw [hpath] at hsources
        exact ⟨path, Scope.path_eq_ok_iff.mp hpath, (Except.ok.inj hsources).symm⟩
  · obtain ⟨path, hpath, hsome, -⟩ := hread.prebuilt hfile
    exact ⟨path, Scope.path_eq_ok_iff.mp hpath, hsome⟩
  · obtain ⟨_, path, -, hpath, houtputs⟩ := hread.placed hfile houtput
    exact ⟨path, Scope.path_eq_ok_iff.mp hpath, houtputs⟩

theorem ExpandedFrom.forShlib (h : o.ExpandedFrom s e) (shared : Bool) :
    { o with forShlib := shared }.ExpandedFrom s e :=
  ⟨h.source, h.prebuilt, h.placed, h.params⟩

theorem accounts_readSources : e.Accounts s.props (readSources s e) := by
  unfold readSources
  split
  · next template hsrc => exact .map (Scope.accounts_path (.attribute hsrc)) _
  · exact Scope.accounts_filesetFiles _
  · exact .ok _

theorem accounts_readOutputs (sources : List Path) (file? : Option Path) (c : Compiler) :
    e.Accounts s.props (readOutputs s e sources file? c) := by
  unfold readOutputs
  split
  · exact .ok _
  · next houtput =>
    split
    · intro name h
      cases h
    · exact .map (Scope.accounts_path (.attribute houtput)) _
  · split
    · intro name h
      cases h
    · exact .ok _

theorem accounts_ofElement : e.Accounts s.props (ofElement s outer? e) := by
  have hcurrent : e.Accounts s.props (checkDeprecated e) := by
    intro name h
    unfold checkDeprecated at h
    split at h
    · cases h
    · split at h <;> cases h
  have hfile : e.Accounts s.props ((e.attribute? "file").mapM s.path) := by
    cases hwritten : e.attribute? "file" with
    | none => exact .ok _
    | some template => exact .bind (Scope.accounts_path (.attribute hwritten)) fun _ _ => .ok _
  exact .bind hcurrent fun _ _ => .bind accounts_readSources fun _ _ => .bind hfile fun _ _ =>
    .bind (Scope.accounts_compiler outer?) fun _ _ => .bind (accounts_readOutputs _ _ _) fun _ _ =>
      .bind Params.accounts_ofElement fun _ _ => .ok _

end ObjectTask

namespace BinaryTask

variable {mode : LinkMode} {b : BinaryTask}

theorem expandedFrom_of_ofElement (h : ofElement s mode e = .ok b) : b.ExpandedFrom s e := by
  have hread := readFrom_of_ofElement h
  have hplaces : ∀ (child : Element) name path, child.require name >>= s.path = .ok path →
      ∃ template, child.attribute? name = some template ∧ s.Places template path := by
    intro child name path hpath
    obtain ⟨template, hwritten, hpath⟩ := bind_eq_ok_iff.mp hpath
    exact ⟨template, Element.require_eq_ok_iff.mp hwritten, Scope.path_eq_ok_iff.mp hpath⟩
  refine ⟨hplaces e _ _ hread.output_eq, hread.objects.imp ?_,
    hread.libraries.imp fun child path => hplaces child _ path,
    Params.expandedFrom_of_ofElement hread.reads.params_eq⟩
  rintro child o ⟨object, hobject, rfl⟩
  exact (ObjectTask.expandedFrom_of_ofElement hobject).forShlib _

theorem accounts_ofElement : e.Accounts s.props (ofElement s mode e) := by
  have hobject : ∀ c, ∀ child ∈ e.childrenNamed "object",
      e.Accounts s.props (ObjectTask.ofElement s (some c) child >>= fun object =>
        pure { object with forShlib := mode == LinkMode.sharedLibrary }) := fun c child hm =>
    .of_inside (Element.mem_children_of_childrenNamed hm)
      (.bind ObjectTask.accounts_ofElement fun _ _ => .ok _)
  have hlibrary : ∀ child ∈ e.childrenNamed "link",
      e.Accounts s.props (child.require "libpath" >>= s.path) := fun child hm =>
    .of_inside (Element.mem_children_of_childrenNamed hm)
      (.require_bind fun _ hwritten => Scope.accounts_path hwritten)
  exact .require_bind fun _ houtput => .bind (Scope.accounts_path houtput) fun _ _ =>
    .bind (Scope.accounts_compiler none) fun c _ => .bind (.mapM (hobject c)) fun _ _ =>
      .bind (.mapM hlibrary) fun _ _ => .bind Params.accounts_ofElement fun _ _ => .ok _

end BinaryTask

theorem Task.expandedFrom_of_ofElement {t : Task} (h : Task.ofElement s e = .ok t) :
    t.ExpandedFrom s e := by
  unfold Task.ofElement at h
  split at h <;> try
    obtain ⟨_, hread, h⟩ := bind_eq_ok_iff.mp h
    cases h
  · exact .echo hread
  · exact .exec hread
  · exact .object (ObjectTask.expandedFrom_of_ofElement hread)
  · exact .binary (BinaryTask.expandedFrom_of_ofElement hread)
  · exact .binary (BinaryTask.expandedFrom_of_ofElement hread)
  · cases h

theorem Task.accounts_ofElement : e.Accounts s.props (Task.ofElement s e) := by
  unfold Task.ofElement
  split
  · exact .bind (.expand (.text e)) fun _ _ => .ok _
  · exact .bind (.expand (.text e)) fun _ _ => .ok _
  · exact .bind ObjectTask.accounts_ofElement fun _ _ => .ok _
  · exact .bind BinaryTask.accounts_ofElement fun _ _ => .ok _
  · exact .bind BinaryTask.accounts_ofElement fun _ _ => .ok _
  · intro name h
    cases h

theorem Target.expandedFrom_of_ofElement {t : Target} (h : Target.ofElement s e = .ok t) :
    t.ExpandedFrom s e := by
  obtain ⟨name, hname, h⟩ := bind_eq_ok_iff.mp h
  obtain ⟨tasks, htasks, h⟩ := bind_eq_ok_iff.mp h
  cases h
  exact ⟨Element.require_eq_ok_iff.mp hname,
    (mapM_eq_ok_iff.mp htasks).imp fun _ _ => Task.expandedFrom_of_ofElement⟩

theorem Target.accounts_ofElement : e.Accounts s.props (Target.ofElement s e) :=
  .bind (.require _) fun _ _ =>
    .bind (.mapM fun _ hm => .of_inside hm Task.accounts_ofElement) fun _ _ => .ok _

end DeclarativeBuild
