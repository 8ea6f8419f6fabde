import DeclarativeBuild.Proofs.Results
import DeclarativeBuild.Task.Reader

/-!
# Tasks that were read

What holds of a task because it was read from a description.
-/

namespace DeclarativeBuild

/-- An element names a preset and writes parameters. -/
structure Scope.Reads (s : Scope) (e : Element) (preset? : Option String) (own : Params) :
    Prop where
  preset_eq : preset? = e.attribute? "preset"
  params_eq : Params.ofElement s.props s.base e = .ok own

variable {s : Scope} {e : Element}

/-- What an object task is made of, each part as it is read from the element. -/
structure ObjectTask.ReadFrom (s : Scope) (outer? : Option Compiler) (e : Element)
    (o : ObjectTask) : Prop where
  current : checkDeprecated e = .ok ()
  sources_eq : readSources s e = .ok o.sources
  file?_eq : (e.attribute? "file").mapM s.path = .ok o.file?
  compiler_eq : s.compiler e outer? = .ok o.compiler
  outputs_eq : readOutputs s e o.sources o.file? o.compiler = .ok o.outputs
  reads : s.Reads e o.preset? o.params
  forShlib_eq : o.forShlib = false

theorem ObjectTask.ofElement_eq_ok_iff {outer? : Option Compiler} {o : ObjectTask} :
    ObjectTask.ofElement s outer? e = .ok o ↔ ReadFrom s outer? e o := by
  unfold ObjectTask.ofElement
  constructor
  · intro h
    obtain ⟨_, hcurrent, h⟩ := bind_eq_ok_iff.mp h
    obtain ⟨sources, hsources, h⟩ := bind_eq_ok_iff.mp h
    obtain ⟨file?, hfile, h⟩ := bind_eq_ok_iff.mp h
    obtain ⟨compiler, hcompiler, h⟩ := bind_eq_ok_iff.mp h
    obtain ⟨outputs, houtputs, h⟩ := bind_eq_ok_iff.mp h
    obtain ⟨params, hparams, h⟩ := bind_eq_ok_iff.mp h
    cases h
    exact ⟨hcurrent, hsources, hfile, hcompiler, houtputs, ⟨rfl, hparams⟩, rfl⟩
  · intro h
    simp only [bind_eq_ok_iff]
    refine ⟨(), h.current, _, h.sources_eq, _, h.file?_eq, _, h.compiler_eq, _, h.outputs_eq, _,
      h.reads.params_eq, ?_⟩
    rw [← h.reads.preset_eq, ← h.forShlib_eq]
    rfl

theorem ObjectTask.reads_of_ofElement {outer? : Option Compiler} {o : ObjectTask}
    (h : ObjectTask.ofElement s outer? e = .ok o) :
    s.Reads e o.preset? o.params ∧ o.forShlib = false :=
  have hread := ofElement_eq_ok_iff.mp h
  ⟨hread.reads, hread.forShlib_eq⟩

/-- What a binary task is made of, each part as it is read from the element or one inside it.  The
objects of a shared library, and only those, are for one. -/
structure BinaryTask.ReadFrom (s : Scope) (mode : LinkMode) (e : Element) (b : BinaryTask) :
    Prop where
  mode_eq : b.mode = mode
  output_eq : e.require "output" >>= s.path = .ok b.output
  compiler_eq : s.compiler e none = .ok b.compiler
  objects : List.Forall₂
    (fun child o => ∃ object, ObjectTask.ofElement s (some b.compiler) child = .ok object ∧
      o = { object with forShlib := mode == .sharedLibrary })
    (e.childrenNamed "object") b.objects
  libraries : List.Forall₂ (fun child path => child.require "libpath" >>= s.path = .ok path)
    (e.childrenNamed "link") b.libraries
  reads : s.Reads e b.preset? b.params

theorem BinaryTask.readFrom_of_ofElement {mode : LinkMode} {b : BinaryTask}
    (h : BinaryTask.ofElement s mode e = .ok b) : ReadFrom s mode e b := by
  unfold BinaryTask.ofElement at h
  obtain ⟨template, htemplate, h⟩ := bind_eq_ok_iff.mp h
  obtain ⟨output, houtput, h⟩ := bind_eq_ok_iff.mp h
  obtain ⟨compiler, hcompiler, h⟩ := bind_eq_ok_iff.mp h
  obtain ⟨objects, hobjects, h⟩ := bind_eq_ok_iff.mp h
  obtain ⟨libraries, hlibraries, h⟩ := bind_eq_ok_iff.mp h
  obtain ⟨params, hparams, h⟩ := bind_eq_ok_iff.mp h
  cases h
  refine ⟨rfl, bind_eq_ok_iff.mpr ⟨template, htemplate, houtput⟩, hcompiler, ?_,
    mapM_eq_ok_iff.mp hlibraries, rfl, hparams⟩
  refine (mapM_eq_ok_iff.mp hobjects).imp fun child o hchild => ?_
  obtain ⟨object, hobject, ho⟩ := bind_eq_ok_iff.mp hchild
  exact ⟨object, hobject, (Except.ok.inj ho).symm⟩

theorem BinaryTask.reads_of_ofElement {mode : LinkMode} {b : BinaryTask}
    (h : BinaryTask.ofElement s mode e = .ok b) :
    b.mode = mode ∧ s.Reads e b.preset? b.params ∧
      List.Forall₂ (fun child o => s.Reads child o.preset? o.params) (e.childrenNamed "object")
        b.objects ∧
      ∀ o ∈ b.objects, o.forShlib = (mode == .sharedLibrary) := by
  have hread := readFrom_of_ofElement h
  have hobjects : List.Forall₂ (fun o child => o.forShlib = (mode == .sharedLibrary) ∧
      s.Reads child o.preset? o.params) b.objects (e.childrenNamed "object") := by
    refine (hread.objects.imp ?_).flip
    rintro child o ⟨object, hobject, rfl⟩
    exact ⟨rfl, (ObjectTask.ofElement_eq_ok_iff.mp hobject).reads⟩
  obtain ⟨hshared, hreads⟩ := (List.forall₂_and_left _ _).mp hobjects
  exact ⟨hread.mode_eq, hread.reads, hreads.flip, hshared⟩

theorem Task.object_of_ofElement {o : ObjectTask} (h : Task.ofElement s e = .ok (.object o)) :
    ObjectTask.ofElement s none e = .ok o := by
  unfold Task.ofElement at h
  split at h <;> try
    obtain ⟨_, ha, h⟩ := bind_eq_ok_iff.mp h
    cases h
  · exact ha
  · cases h

theorem Task.binary_of_ofElement {b : BinaryTask} (h : Task.ofElement s e = .ok (.binary b)) :
    ∃ mode, BinaryTask.ofElement s mode e = .ok b := by
  unfold Task.ofElement at h
  split at h <;> try
    obtain ⟨_, ha, h⟩ := bind_eq_ok_iff.mp h
    cases h
  · exact ⟨_, ha⟩
  · exact ⟨_, ha⟩
  · cases h

end DeclarativeBuild
