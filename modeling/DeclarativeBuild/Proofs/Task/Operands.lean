import DeclarativeBuild.Proofs.Task.Reading

/-!
# What objects give to a link

A nested object gives a link the file that it names or one object for each of its sources, in their
order.  Reading a task settles which.
-/

namespace DeclarativeBuild

/-- The objects that a task gives to a link: the one that is there already, or what its units are
compiled to. -/
def ObjectTask.operands (o : ObjectTask) : List Path :=
  match o.file? with
  | some file => [file]
  | none => o.units.map Prod.snd

/-- An element asks for what a task gives: an existing object, one source with an object of its own
choice, or sources with the objects that the compiler puts beside them. -/
inductive Scope.Provides (s : Scope) (e : Element) (o : ObjectTask) : Prop
  | prebuilt {template : String} {file : Path} (named : e.attribute? "file" = some template)
      (place : s.path template = .ok file) (file_eq : o.file? = some file)
      (units_eq : o.units = [])
  | placed {template : String} {source output : Path} (unnamed : e.attribute? "file" = none)
      (read : ObjectTask.readSources s e = .ok [source])
      (named : e.attribute? "output" = some template) (place : s.path template = .ok output)
      (file_eq : o.file? = none) (units_eq : o.units = [(source, output)])
  | beside {sources : List Path} (unnamed : e.attribute? "file" = none)
      (read : ObjectTask.readSources s e = .ok sources)
      (unplaced : e.attribute? "output" = none) (file_eq : o.file? = none)
      (units_eq : o.units = sources.map fun source => (source, o.compiler.defaultObject source))

variable {s : Scope} {e : Element}

/-- What a task gives does not depend on what its objects are linked into. -/
theorem Scope.Provides.forShlib {o : ObjectTask} (h : s.Provides e o) (shared : Bool) :
    s.Provides e { o with forShlib := shared } := by
  cases h with
  | prebuilt named place file_eq units_eq => exact .prebuilt named place file_eq units_eq
  | placed unnamed read named place file_eq units_eq =>
      exact .placed unnamed read named place file_eq units_eq
  | beside unnamed read unplaced file_eq units_eq =>
      exact .beside unnamed read unplaced file_eq units_eq

namespace ObjectTask

variable {outer? : Option Compiler} {o : ObjectTask} {sources outputs : List Path}
  {file? : Option Path} {c : Compiler}

theorem readOutputs_eq_ok (h : readOutputs s e sources file? c = .ok outputs) :
    (∃ file, file? = some file ∧ outputs = [file]) ∨
    (∃ template source output, file? = none ∧ e.attribute? "output" = some template ∧
      sources = [source] ∧ s.path template = .ok output ∧ outputs = [output]) ∨
    (file? = none ∧ e.attribute? "output" = none ∧ outputs = sources.map c.defaultObject) := by
  unfold readOutputs at h
  split at h
  · next file =>
    cases h
    exact .inl ⟨file, rfl, rfl⟩
  · next template houtput =>
    right; left
    split at h
    · cases h
    · next hone =>
      obtain ⟨source, rfl⟩ := List.length_eq_one_iff.mp (not_not.mp hone)
      cases hp : s.path template with
      | error failure => simp [hp, Except.map] at h
      | ok output =>
          refine ⟨template, source, output, rfl, houtput, rfl, hp, ?_⟩
          simpa [hp, Except.map] using h.symm
  · next houtput =>
    right; right
    split at h
    · cases h
    · cases h
      exact ⟨rfl, houtput, rfl⟩

theorem file?_of_mapM {f : String → Except Failure Path} {template? : Option String}
    (h : template?.mapM f = .ok file?) :
    (template? = none ∧ file? = none) ∨
      ∃ template file, template? = some template ∧ f template = .ok file ∧ file? = some file := by
  cases template? with
  | none =>
      obtain rfl : none = file? := Except.ok.inj h
      exact .inl ⟨rfl, rfl⟩
  | some template =>
      right
      change some <$> f template = .ok file? at h
      cases hf : f template with
      | error failure =>
          rw [hf] at h
          cases h
      | ok file =>
          rw [hf] at h
          cases h
          exact ⟨template, file, rfl, hf, rfl⟩

theorem ReadFrom.file?_eq_none (h : ReadFrom s outer? e o) (hfile : e.attribute? "file" = none) :
    o.file? = none := by
  simpa [hfile] using file?_of_mapM h.file?_eq

theorem ReadFrom.prebuilt {template : String} (h : ReadFrom s outer? e o)
    (hfile : e.attribute? "file" = some template) :
    ∃ file, s.path template = .ok file ∧ o.file? = some file ∧ o.outputs = [file] ∧
      o.units = [] := by
  obtain ⟨file, hplace, hsome⟩ : ∃ file, s.path template = .ok file ∧ o.file? = some file := by
    simpa [hfile] using file?_of_mapM h.file?_eq
  have houtputs := h.outputs_eq
  simp only [hsome, readOutputs] at houtputs
  exact ⟨file, hplace, hsome, (Except.ok.inj houtputs).symm, by simp [units, hsome]⟩

theorem ReadFrom.placed {template : String} (h : ReadFrom s outer? e o)
    (hfile : e.attribute? "file" = none) (houtput : e.attribute? "output" = some template) :
    ∃ source output, o.sources = [source] ∧ s.path template = .ok output ∧
      o.outputs = [output] := by
  rcases readOutputs_eq_ok h.outputs_eq with ⟨file, hsome, -⟩ |
    ⟨template', source, output, -, hnamed, hone, hplace, houtputs⟩ | ⟨-, hnone, -⟩
  · simp [h.file?_eq_none hfile] at hsome
  · obtain rfl := Option.some.inj (hnamed.symm.trans houtput)
    exact ⟨source, output, hone, hplace, houtputs⟩
  · simp [houtput] at hnone

theorem ReadFrom.beside (h : ReadFrom s outer? e o) (hfile : e.attribute? "file" = none)
    (houtput : e.attribute? "output" = none) :
    o.outputs = o.sources.map o.compiler.defaultObject := by
  rcases readOutputs_eq_ok h.outputs_eq with ⟨file, hsome, -⟩ |
    ⟨template, source, output, -, hnamed, -⟩ | ⟨-, -, houtputs⟩
  · simp [h.file?_eq_none hfile] at hsome
  · simp [houtput] at hnamed
  · exact houtputs

theorem ReadFrom.length_outputs (h : ReadFrom s outer? e o) (hfile : e.attribute? "file" = none) :
    o.outputs.length = o.sources.length := by
  cases houtput : e.attribute? "output" with
  | some template =>
      obtain ⟨source, output, hone, -, houtputs⟩ := h.placed hfile houtput
      rw [hone, houtputs, List.length_singleton, List.length_singleton]
  | none => rw [h.beside hfile houtput, List.length_map]

/-- A task that was read gives what its element asks for, and nothing else is linked of it. -/
theorem provides_of_ofElement (h : ObjectTask.ofElement s outer? e = .ok o) :
    s.Provides e o ∧ o.outputs = o.operands := by
  have hread := ofElement_eq_ok_iff.mp h
  cases hfile : e.attribute? "file" with
  | some template =>
      obtain ⟨file, hplace, hsome, houtputs, hunits⟩ := hread.prebuilt hfile
      exact ⟨.prebuilt hfile hplace hsome hunits, by rw [houtputs, operands, hsome]⟩
  | none =>
      have hnone := hread.file?_eq_none hfile
      cases houtput : e.attribute? "output" with
      | some template =>
          obtain ⟨source, output, hone, hplace, houtputs⟩ := hread.placed hfile houtput
          have hunits : o.units = [(source, output)] := by simp [units, hnone, hone, houtputs]
          exact ⟨.placed hfile (hone ▸ hread.sources_eq) houtput hplace hnone hunits,
            by simp [houtputs, operands, hnone, hunits]⟩
      | none =>
          have houtputs := hread.beside hfile houtput
          have hunits : o.units =
              o.sources.map fun source => (source, o.compiler.defaultObject source) := by
            rw [units, hnone, houtputs]
            simpa using List.zip_map' (f := id) (g := o.compiler.defaultObject) (l := o.sources)
          exact ⟨.beside hfile hread.sources_eq houtput hnone hunits,
            by simp [houtputs, operands, hnone, hunits, Function.comp_def]⟩

end ObjectTask

/-- The objects of a binary are those that its nested elements ask for, in their order. -/
theorem BinaryTask.provides_of_ofElement {mode : LinkMode} {b : BinaryTask}
    (h : BinaryTask.ofElement s mode e = .ok b) :
    List.Forall₂ s.Provides (e.childrenNamed "object") b.objects ∧
      b.objectFiles = b.objects.flatMap ObjectTask.operands := by
  have hread : List.Forall₂ (fun o child => o.outputs = o.operands ∧ s.Provides child o) b.objects
      (e.childrenNamed "object") := by
    refine ((readFrom_of_ofElement h).objects.imp ?_).flip
    rintro child o ⟨object, hobject, rfl⟩
    obtain ⟨hprovides, houtputs⟩ := ObjectTask.provides_of_ofElement hobject
    exact ⟨houtputs, hprovides.forShlib _⟩
  obtain ⟨houtputs, hprovides⟩ := (List.forall₂_and_left _ _).mp hread
  exact ⟨hprovides.flip, List.flatMap_congr houtputs⟩

end DeclarativeBuild
