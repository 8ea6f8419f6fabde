import DeclarativeBuild.Proofs.Task.Collisions
import DeclarativeBuild.Proofs.Task.Operands

/-!
# Sources and their objects

An element that is read as an object task either names an object that is there already, and then
nothing is compiled, or has one object for each of its sources.  An element that does not say what
to compile, or puts other than one source in one place, is refused.
-/

namespace DeclarativeBuild

namespace Toolchain

/-- The first compiler in the lookup order that meets a condition. -/
def IsFirst (t : Toolchain) (meets : Compiler → Prop) (c : Compiler) : Prop :=
  meets c ∧ ∃ before after, t.compilers = before ++ c :: after ∧ ∀ other ∈ before, ¬meets other

variable {t : Toolchain} {c : Compiler}

theorem orUnknown_eq_ok_iff {query : CompilerQuery} {found? : Option Compiler} :
    orUnknown query found? = .ok c ↔ found? = some c := by
  cases found? <;> simp [orUnknown]

theorem find?_eq_some_iff_isFirst {meets : Compiler → Bool} :
    t.compilers.find? meets = some c ↔ t.IsFirst (meets · = true) c := by
  rw [List.find?_eq_some_iff_append, IsFirst]
  simp only [Bool.not_eq_true', Bool.not_eq_true]

theorem find_name_eq_ok_iff {name : String} {tag? : Option String} :
    t.find (some name) tag? = .ok c ↔ t.IsFirst (·.name = name) c := by
  rw [find, orUnknown_eq_ok_iff, find?_eq_some_iff_isFirst]
  simp only [beq_iff_eq]

theorem find_tag_eq_ok_iff {tag : String} :
    t.find none (some tag) = .ok c ↔
      ∃ language, Language.ofTag? tag = some language ∧ t.IsFirst (·.language = language) c := by
  simp only [find, orUnknown_eq_ok_iff, Option.bind_eq_some_iff, find?_eq_some_iff_isFirst,
    beq_iff_eq]

end Toolchain

namespace Scope

section

variable (s : Scope) (outer? : Option Compiler) (e : Element)

/-- An element chooses the compiler that it names, else one for the language that it names, else the
one around it. -/
inductive Chooses : Compiler → Prop
  | named {name : String} {c : Compiler} (written : e.attribute? "compiler" = some name)
      (first : s.toolchain.IsFirst (·.name = name) c) : Chooses c
  | forLanguage {tag : String} {language : Language} {c : Compiler}
      (unnamed : e.attribute? "compiler" = none) (written : e.attribute? "lang" = some tag)
      (means : Language.ofTag? tag = some language)
      (first : s.toolchain.IsFirst (·.language = language) c) : Chooses c
  | around {c : Compiler} (unnamed : e.attribute? "compiler" = none)
      (untagged : e.attribute? "lang" = none) (given : outer? = some c) : Chooses c

/-- An element lists the source that it writes, else those of the fileset that it names, else
none. -/
inductive Lists : List Path → Prop
  | written {template : String} {source : Path} (src : e.attribute? "src" = some template)
      (place : s.path template = .ok source) : Lists [source]
  | named {name : String} {f : Fileset} {sources : List Path}
      (unwritten : e.attribute? "src" = none) (set : e.attribute? "src-set" = some name)
      (found : s.filesets.find? (·.name == name) = some f)
      (files : f.files s.world = .ok sources) : Lists sources
  | nothing (unwritten : e.attribute? "src" = none) (unnamed : e.attribute? "src-set" = none) :
      Lists []

end

variable {s : Scope} {outer? : Option Compiler} {e : Element}

theorem compiler_eq_ok_iff {c : Compiler} :
    s.compiler e outer? = .ok c ↔ s.Chooses outer? e c := by
  unfold compiler
  constructor
  · intro h
    split at h
    · next hname htag =>
      cases h
      exact .around hname htag rfl
    · next hother =>
      cases hname : e.attribute? "compiler" with
      | some name =>
          rw [hname] at h
          exact .named hname (Toolchain.find_name_eq_ok_iff.mp h)
      | none =>
          rw [hname] at h
          cases htag : e.attribute? "lang" with
          | some tag =>
              rw [htag] at h
              obtain ⟨language, hmeans, hfirst⟩ := Toolchain.find_tag_eq_ok_iff.mp h
              exact .forLanguage hname htag hmeans hfirst
          | none => simp [htag, Toolchain.find] at h
  · rintro (⟨hname, hfirst⟩ | ⟨hname, htag, hmeans, hfirst⟩ | ⟨hname, htag, rfl⟩)
    · rw [hname]
      exact Toolchain.find_name_eq_ok_iff.mpr hfirst
    · rw [hname, htag]
      exact Toolchain.find_tag_eq_ok_iff.mpr ⟨_, hmeans, hfirst⟩
    · rw [hname, htag]

theorem filesetFiles_eq_ok_iff {name : String} {sources : List Path} :
    s.filesetFiles name = .ok sources ↔
      ∃ f, s.filesets.find? (·.name == name) = some f ∧ f.files s.world = .ok sources := by
  unfold filesetFiles
  cases s.filesets.find? (·.name == name) <;> simp

theorem readSources_eq_ok_iff {sources : List Path} :
    ObjectTask.readSources s e = .ok sources ↔ s.Lists e sources := by
  unfold ObjectTask.readSources
  constructor
  · intro h
    split at h
    · next template hsrc =>
      obtain ⟨source, hplace, rfl⟩ :
          ∃ source, s.path template = .ok source ∧ [source] = sources := by
        cases hp : s.path template <;> simp_all [Except.map]
      exact .written hsrc hplace
    · next name hsrc hset =>
      obtain ⟨f, hfound, hfiles⟩ := filesetFiles_eq_ok_iff.mp h
      exact .named hsrc hset hfound hfiles
    · next hsrc hset =>
      cases h
      exact .nothing hsrc hset
  · rintro (⟨hsrc, hplace⟩ | ⟨hsrc, hset, hfound, hfiles⟩ | ⟨hsrc, hset⟩)
    · simp [hsrc, hplace, Except.map]
    · simpa [hsrc, hset] using filesetFiles_eq_ok_iff.mpr ⟨_, hfound, hfiles⟩
    · simp [hsrc, hset]

end Scope

namespace ObjectTask

variable {s : Scope} {outer? : Option Compiler} {e : Element} {o : ObjectTask}

/-- The objects of a task are those that its element asks for, one for each source unless the object
is there already. -/
structure Paired (s : Scope) (e : Element) (o : ObjectTask) : Prop where
  prebuilt : ∀ template, e.attribute? "file" = some template →
    ∃ file, s.path template = .ok file ∧ o.outputs = [file] ∧ o.units = []
  length_eq : e.attribute? "file" = none → o.outputs.length = o.sources.length
  units_eq : e.attribute? "file" = none →
    o.units.map Prod.fst = o.sources ∧ o.units.map Prod.snd = o.outputs
  placed : e.attribute? "file" = none → ∀ template, e.attribute? "output" = some template →
    ∃ output, s.path template = .ok output ∧ o.outputs = [output]
  beside : e.attribute? "file" = none → e.attribute? "output" = none →
    ∀ i : Nat, o.outputs[i]? = o.sources[i]?.map o.compiler.defaultObject

theorem ReadFrom.paired (h : ReadFrom s outer? e o) : o.Paired s e where
  prebuilt _ hfile := by
    obtain ⟨file, hplace, -, houtputs, hunits⟩ := h.prebuilt hfile
    exact ⟨file, hplace, houtputs, hunits⟩
  length_eq := h.length_outputs
  units_eq hfile := by
    have hlength := h.length_outputs hfile
    rw [units, h.file?_eq_none hfile]
    exact ⟨List.map_fst_zip (Nat.le_of_eq hlength.symm), List.map_snd_zip (Nat.le_of_eq hlength)⟩
  placed hfile template houtput := by
    obtain ⟨_, output, -, hplace, houtputs⟩ := h.placed hfile houtput
    exact ⟨output, hplace, houtputs⟩
  beside hfile houtput i := by rw [h.beside hfile houtput, List.getElem?_map]

theorem ReadFrom.says_sources (h : ReadFrom s outer? e o) (hfile : e.attribute? "file" = none) :
    e.attribute? "src" ≠ none ∨ e.attribute? "src-set" ≠ none := by
  by_contra hnothing
  obtain ⟨hsrc, hset⟩ : e.attribute? "src" = none ∧ e.attribute? "src-set" = none := by
    simpa using hnothing
  have hsources : o.sources = [] := by
    have hread := h.sources_eq
    simp only [readSources, hsrc, hset] at hread
    exact (Except.ok.inj hread).symm
  cases houtput : e.attribute? "output" with
  | some template =>
      obtain ⟨source, _, hone, -⟩ := h.placed hfile houtput
      simp [hsources] at hone
  | none =>
      have houtputs := h.outputs_eq
      simp [readOutputs, h.file?_eq_none hfile, houtput, hsources, Element.has, hset] at houtputs

/-- An element that is read as an object task lists the sources and chooses the compiler of the
task, whose objects are those that the element asks for, one for each source in their order unless
the object is there already.  Without such an object, an element is refused that puts other than one
source in one place or that says nothing of sources. -/
theorem ofElement_pairs_sources (s : Scope) (outer? : Option Compiler) (e : Element) :
    (∀ o, ofElement s outer? e = .ok o →
      s.Lists e o.sources ∧ s.Chooses outer? e o.compiler ∧ o.Paired s e) ∧
    (e.attribute? "file" = none →
      (e.attribute? "output" ≠ none ∧ (∀ source, ¬s.Lists e [source])) ∨
        (e.attribute? "src" = none ∧ e.attribute? "src-set" = none) →
      ∃ failure, ofElement s outer? e = .error failure) := by
  refine ⟨fun o ho => ?_, fun hfile hunfit => ?_⟩
  · have h := ofElement_eq_ok_iff.mp ho
    exact ⟨Scope.readSources_eq_ok_iff.mp h.sources_eq, Scope.compiler_eq_ok_iff.mp h.compiler_eq,
      h.paired⟩
  · cases hread : ofElement s outer? e with
    | error failure => exact ⟨failure, rfl⟩
    | ok o =>
        have h := ofElement_eq_ok_iff.mp hread
        rcases hunfit with ⟨houtput, hnone⟩ | ⟨hsrc, hset⟩
        · obtain ⟨template, houtput⟩ := Option.ne_none_iff_exists'.mp houtput
          obtain ⟨source, _, hone, -⟩ := h.placed hfile houtput
          exact absurd (Scope.readSources_eq_ok_iff.mp (hone ▸ h.sources_eq)) (hnone source)
        · rcases h.says_sources hfile with hsome | hsome
          · exact absurd hsrc hsome
          · exact absurd hset hsome

/-- An element without a compiler of its own, whose sources are those of a fileset. -/
def twoSources (attributes : List (String × String)) : Element :=
  .mk "object" (("src-set", "all") :: attributes) [] none

def twoSourcesTask : ObjectTask where
  sources := [⟨"/p/main.c"⟩, ⟨"/p/main.cpp"⟩]
  file? := none
  outputs := [⟨"/p/main.c.o"⟩, ⟨"/p/main.cpp.o"⟩]
  compiler := overlapCompiler
  preset? := none
  params := {}
  forShlib := false

theorem ofElement_pairs_sources_twoSources :
    ofElement overlapScope (some overlapCompiler) (twoSources []) = .ok twoSourcesTask ∧
    overlapScope.Lists (twoSources []) twoSourcesTask.sources ∧
    overlapScope.Chooses (some overlapCompiler) (twoSources []) overlapCompiler ∧
    twoSourcesTask.Paired overlapScope (twoSources []) ∧
    ∃ failure, ofElement overlapScope (some overlapCompiler) (twoSources [("output", "all.o")]) =
      .error failure := by
  have hread : ofElement overlapScope (some overlapCompiler) (twoSources []) =
      .ok twoSourcesTask := by decide +kernel
  have hboth : readSources overlapScope (twoSources [("output", "all.o")]) =
      .ok twoSourcesTask.sources := by decide +kernel
  obtain ⟨hlists, hchooses, hpaired⟩ :=
    (ofElement_pairs_sources overlapScope (some overlapCompiler) (twoSources [])).1 _ hread
  refine ⟨hread, hlists, hchooses, hpaired,
    (ofElement_pairs_sources overlapScope (some overlapCompiler) _).2 (by decide +kernel)
      (.inl ⟨by decide +kernel, fun source hlone => ?_⟩)⟩
  have hlone := Scope.readSources_eq_ok_iff.mpr hlone
  rw [hboth] at hlone
  simp [twoSourcesTask] at hlone

end ObjectTask
end DeclarativeBuild
