import DeclarativeBuild.Proofs.Disk.Places
import DeclarativeBuild.Proofs.Import.Ancestors
import DeclarativeBuild.Proofs.Import.Definitions
import DeclarativeBuild.Proofs.Import.Recurrence
import DeclarativeBuild.Proofs.Markup.Trees
import DeclarativeBuild.Proofs.Task.Written

/-!
# The mounted directory

The emulated compiler works on the directory of the main file as its path was given.  The paths in a
description are seen from the directory of its absolute path.  Both have the same steps, and a file
that is imported downward adds its own, so that all that is written in it as a path downward is on
the drive, unless a name on the way there has two dots.
-/

namespace DeclarativeBuild

open Import Project

/-- No compiler comes or goes from one project in the making to another. -/
def SameCompilers (l l' : Loading) : Prop :=
  l'.project.toolchain = l.project.toolchain

instance : Std.Refl SameCompilers := ⟨fun _ => rfl⟩

instance : IsTrans Loading SameCompilers := ⟨fun _ _ _ h h' => h'.trans h⟩

namespace SameCompilers

variable {α : Type} {w : World} {importer : Path → Import Element}

theorem check (outcome : Except Failure α) : Ensures SameCompilers (check outcome) := by
  intro l
  cases outcome <;> rfl

theorem note (level : LogLevel) (text : String) : Ensures SameCompilers (note level text) :=
  fun _ => rfl

theorem followImport (h : ∀ path, Ensures SameCompilers (importer path)) (directory : Path)
    (e : Element) : Ensures SameCompilers (followImport importer directory e) := by
  unfold Project.followImport
  refine .bind (fun _ => rfl) fun p => .bind (check _) fun file => ?_
  exact (h _).bind fun _ => .pure _

theorem readSection (h : ∀ path, Ensures SameCompilers (importer path)) (directory : Path)
    (e : Element) : Ensures SameCompilers (readSection w importer directory e) := by
  unfold Project.readSection
  split
  · exact followImport h directory e
  · exact .bind (fun _ => rfl) fun _ => .bind (fun _ => rfl) fun _ => check _
  · unfold declarePreset
    refine .bind (fun _ => rfl) fun p => .bind (check _) fun preset => .bind (fun _ => rfl) ?_
    intro _
    split
    · exact .bind (note _ _) fun _ => note _ _
    · exact .pure _
  · exact .bind (fun _ => rfl) fun _ => .bind (check _) fun _ _ => rfl
  · exact .bind (fun _ => rfl) fun _ => .bind (check _) fun _ _ => rfl

theorem importFile (w : World) (depth : Nat) (path : Path) :
    Ensures SameCompilers (importFile w depth path) := by
  induction depth generalizing path with
  | zero => exact .throw _
  | succ depth ih =>
      intro l
      rw [runFrom_importFile]
      cases w.readDescription path with
      | error failure => rfl
      | ok found =>
          obtain ⟨full, root⟩ := found
          have hsections := Ensures.forM (readSection (w := w) ih full.directory) root.sections
            (l.enter full)
          rw [← importSections_eq] at hsections
          exact hsections

theorem importConfig (w : World) (depth : Nat) (file : Path) :
    Ensures SameCompilers (importConfig w depth file) := by
  intro l
  have himport := importFile w depth file (l.announce file)
  rw [runFrom_importConfig]
  generalize runFrom (l.announce file) (Project.importFile w depth file) = found at himport ⊢
  obtain ⟨outcome, l'⟩ := found
  cases outcome with
  | ok root => exact himport
  | error fault =>
      cases fault with
      | tooDeep path => exact himport
      | failed failure => cases failure <;> exact himport

theorem noteHidden (s : Session) (w : World) : Ensures SameCompilers (noteHidden s w) := by
  unfold Project.noteHidden
  refine .forM ?_ _
  rintro ⟨name, value⟩
  dsimp only
  split
  · exact note _ _
  · exact .pure _

end SameCompilers

/-- The main file as it is taken up when a project is loaded. -/
def World.mainVisit (w : World) (depth : Nat) (s : Session) (buildFile : Path) : Visit :=
  let file := s.resolve buildFile
  let directory := file.parent?.getD s.cwd
  ⟨file, (runFrom (Loading.opening w s directory)
    ((w.configsBefore s directory).forM (importConfig w depth))).2⟩

/-- A file that is taken up inside of another one, each by a path downward from the directory of the
file around it.  The names lead from the first directory to the last. -/
inductive World.Below (w : World) (first : Visit) : List String → Visit → Prop
  | itself : World.Below w first [] first
  | inside {names more : List String} {v u : Visit} {full rel : Path} {root : Element}
      {file : String} (above : World.Below w first names v) (opens : w.Opens v u)
      (description : w.readDescription v.path = .ok (full, root))
      (named : u.path = full.directory.join rel) (down : rel.GoesDown (more ++ [file])) :
      World.Below w first (names ++ more) u

/-- What some section of the file of a visit can refer to when it is come to. -/
inductive World.ReadsIn (w : World) (v : Visit) : Scope → Prop
  | intro {full : Path} {root e : Element} {before after : List Element} {depth : Nat} {l : Loading}
      (description : w.readDescription v.path = .ok (full, root))
      (sections : root.sections = before ++ e :: after)
      (done : runFrom (v.found.enter full)
        (before.forM (readSection w (importFile w depth) full.directory)) = (.ok (), l)) :
      World.ReadsIn w v (l.project.scope w full.directory)

/-- What comes of a section of the file of a visit, and what it can refer to when it is come to. -/
inductive World.Reads (w : World) (v : Visit) :
    Element → Scope → Except ImportFault Unit × Loading → Prop
  | intro {full : Path} {root e : Element} {before after : List Element} {depth : Nat} {l : Loading}
      (description : w.readDescription v.path = .ok (full, root))
      (sections : root.sections = before ++ e :: after)
      (done : runFrom (v.found.enter full)
        (before.forM (readSection w (importFile w depth) full.directory)) = (.ok (), l)) :
      World.Reads w v e (l.project.scope w full.directory)
        (runFrom l (readSection w (importFile w depth) full.directory e))

namespace World

variable {w : World} {s : Session} {buildFile path full : Path} {root : Element}
variable {v u first : Visit} {names : List String}

theorem sameCompilers_mainVisit (w : World) (depth : Nat) (s : Session) (buildFile : Path) :
    (w.mainVisit depth s buildFile).found.project.toolchain =
      Toolchain.builtin s.settings.programs ((s.resolve buildFile).parent?.getD s.cwd) := by
  have hopening := SameCompilers.noteHidden s w
    { project := start w s ((s.resolve buildFile).parent?.getD s.cwd) }
  exact (Ensures.forM (SameCompilers.importConfig w depth) _ _).trans hopening

/-- A project that is loaded is what the main file comes to. -/
theorem finish_mainVisit_of_load {depth : Nat} {p : Project}
    (h : (load w depth s buildFile).1 = .ok p) :
    (w.mainVisit depth s buildFile).found.finish w depth (s.resolve buildFile) = .ok p := by
  have hfound : (w.mainVisit depth s buildFile).found = (runFrom (Loading.opening w s _)
      ((w.configsBefore s ((s.resolve buildFile).parent?.getD s.cwd)).forM
        (importConfig w depth))).2 := rfl
  rw [hfound]
  rw [load_eq] at h
  generalize runFrom (Loading.opening w s _) _ = read at h ⊢
  obtain ⟨outcome, l⟩ := read
  cases outcome with
  | error fault => cases h
  | ok _ => exact h

/-- A file that can be read is in a directory, which its path was written with. -/
theorem directory_of_readText (hp : path.isAbsolute = true) (hfull : w.absolute path = .ok full)
    {text : String} (h : w.readText full = .ok text) :
    full.directory.isAbsolute = true ∧
      Disk.location full.directory = (Disk.location path).dropLast ∧
      ∃ directory, path.parent? = some directory ∧
        directory.components = full.directory.components := by
  obtain ⟨found, hfound, habsolute, hsame⟩ := Disk.exists_absolute? hp w.cwd
  obtain rfl : found = full := by simpa [absolute, hfound] using hfull
  have hne : Disk.location found ≠ [] := fun hnil =>
    Disk.readText_ne_ok_of_location_eq_nil habsolute hnil text h
  obtain ⟨directory, hdirectory⟩ := Option.ne_none_iff_exists'.mp
    (mt (Disk.parent?_eq_none_iff habsolute).mp hne)
  obtain ⟨written, hwritten⟩ := Option.ne_none_iff_exists'.mp
    (mt (Disk.parent?_eq_none_iff hp).mp (hsame ▸ hne))
  have heq : found.directory = directory := by rw [Path.directory, hdirectory, Option.getD_some]
  have hdirectory' := Path.isAbsolute_of_mem_parents habsolute (List.mem_of_head? hdirectory)
  have hwritten' := Path.isAbsolute_of_mem_parents hp (List.mem_of_head? hwritten)
  rw [heq]
  refine ⟨hdirectory', ?_, written, hwritten, ?_⟩
  · rw [Disk.location_parent? habsolute hdirectory, hsame]
  · rw [Path.components_eq_location hdirectory', Path.components_eq_location hwritten',
      Disk.location_parent? habsolute hdirectory, Disk.location_parent? hp hwritten, hsame]

/-- The directory of a file that a path leads down to has the names on the way. -/
theorem components_of_goesDown {base rel : Path} {more : List String} {file : String}
    (hb : base.isAbsolute = true) (hdown : rel.GoesDown (more ++ [file]))
    (h : w.readDescription (base.join rel) = .ok (full, root)) :
    full.directory.isAbsolute = true ∧
      full.directory.components = base.components ++ more.map .name := by
  obtain ⟨hfull, text, htext⟩ := exists_text_of_readDescription h
  obtain ⟨hdirectory, hlocation, -⟩ :=
    directory_of_readText (Path.isAbsolute_join hb rel) hfull htext
  refine ⟨hdirectory, ?_⟩
  rw [Disk.location_join_of_relative hb hdown.1, hdown.location_eq, ← List.append_assoc,
    List.dropLast_concat] at hlocation
  have hmore : more.map Path.component = more.map .name := by
    have hnames := hdown.2
    rw [Path.filter_components_of_relative hdown.1, hdown.location_eq, List.map_append,
      List.map_append] at hnames
    exact List.append_inj_left' hnames rfl
  rw [Path.components_eq_location hdirectory, Path.components_eq_location hb, hlocation,
    List.map_append, hmore, List.cons_append]

theorem Opens.sameCompilers (h : w.Opens v u) : SameCompilers v.found u.found := by
  cases h with
  | @intro full directory root e before after depth l file description directory_eq imports done =>
      have hfollowed := Ensures.forM
        (SameCompilers.followImport (SameCompilers.importFile w depth) directory) before
        (v.found.enter full)
      rw [done] at hfollowed
      exact hfollowed

theorem Below.sameCompilers (h : w.Below first names v) : SameCompilers first.found v.found := by
  induction h with
  | itself => exact refl_of SameCompilers _
  | inside above opens description named down ih =>
      exact trans_of SameCompilers ih opens.sameCompilers

theorem Below.components {base : List Component}
    (hfirst : ∀ full root, w.readDescription first.path = .ok (full, root) →
      full.directory.isAbsolute = true ∧ full.directory.components = base)
    (h : w.Below first names v) (hd : w.readDescription v.path = .ok (full, root)) :
    full.directory.isAbsolute = true ∧
      full.directory.components = base ++ names.map .name := by
  induction h generalizing full root with
  | itself =>
      rw [List.map_nil, List.append_nil]
      exact hfirst full root hd
  | inside above opens description named down ih =>
      obtain ⟨habsolute, hcomponents⟩ := ih description
      rw [named] at hd
      rw [List.map_append, ← List.append_assoc, ← hcomponents]
      exact components_of_goesDown habsolute down hd

theorem ReadsIn.sameCompilers {scope : Scope} (h : w.ReadsIn v scope) :
    scope.toolchain = v.found.project.toolchain := by
  cases h with
  | @intro full root e before after depth l description sections done =>
      have hread := Ensures.forM
        (SameCompilers.readSection (w := w) (SameCompilers.importFile w depth) full.directory)
        before (v.found.enter full)
      rw [done] at hread
      exact hread

/-- A section is read in what it can refer to when it is come to. -/
theorem Reads.sectionRuns {e : Element} {scope : Scope} {found : Except ImportFault Unit × Loading}
    (h : w.Reads v e scope found) :
    ∃ inner file? l moments, scope = l.project.scope w scope.base ∧
      w.SectionRuns (w.Imports inner) file? scope.base e l moments found := by
  cases h with
  | @intro full root e before after depth l description sections done =>
      have hsection : e ∈ root.sections := by
        rw [sections]
        exact List.mem_append_right before List.mem_cons_self
      have hruns := sectionRuns_readSection (w := w) (imports_importFile w depth) (some full)
        full.directory (tag_mem_of_mem_sections hsection) l
      exact ⟨_, _, l, _, rfl, hruns⟩

end World

/-- The only compiler in the emulator is the built-in one. -/
theorem Toolchain.mount_of_mem_builtin {programs : ProgramSettings} {mount : Path}
    {d : WatcomDriver} (h : .watcom d ∈ (builtin programs mount).compilers) : d.mount = mount := by
  simp only [builtin, List.mem_cons, reduceCtorEq, Compiler.watcom.injEq, List.not_mem_nil,
    or_false, false_or] at h
  rw [h]

/-- A path downward from a directory below the mounted one is on the drive exactly if no name on the
way from there has two dots. -/
theorem WatcomDriver.exists_drivePath_iff {d : WatcomDriver} {base rel : Path}
    {above names : List String} (hb : base.isAbsolute = true)
    (hbase : base.components = d.mount.components ++ above.map .name)
    (hdown : rel.GoesDown names) :
    (∃ short, d.drivePath (base.join rel) = .ok short) ↔
      ∀ name ∈ above ++ names, name.toList.count '.' ≤ 1 := by
  have hleads : d.LeadsTo (base.join rel) (above ++ names) := by
    unfold LeadsTo
    rw [if_pos (Path.isAbsolute_join hb rel), hdown.components_join hb, hbase, List.map_append,
      List.append_assoc]
  simp only [drivePath_eq_ok_iff]
  constructor
  · rintro ⟨short, found, hfound, hdots, -⟩
    rwa [hleads.unique hfound] at hdots
  · exact fun hdots => ⟨_, _, hleads, hdots, rfl⟩

/-- The main file's directory has the steps of the mounted one, however its path was written, and a
file that is imported downward from it adds the names on the way.  So a path downward that is
written in such a file is on the drive exactly if no name has two dots, on the way to the file or
in the path.  Presets, filesets and targets are read from their elements in the scope that these are
come to in. -/
theorem written_paths_on_drive (w : World) (depth : Nat) (s : Session) (buildFile : Path)
    (hc : s.cwd.isAbsolute = true) :
    let main := w.mainVisit depth s buildFile
    let mount := main.path.parent?.getD s.cwd
    (∃ full, w.absolute main.path = .ok full ∧
      ∀ text, w.readText full = .ok text → full.directory.components = mount.components) ∧
    (∀ p, (load w depth s buildFile).1 = .ok p → main.found.finish w depth main.path = .ok p) ∧
    ∀ above v scope, w.Below main above v → w.ReadsIn v scope →
      scope.base.components = mount.components ++ above.map .name ∧
      scope.toolchain = Toolchain.builtin s.settings.programs mount ∧
      (∀ e found, w.Reads v e scope found → ∃ inner file? l moments,
        scope = l.project.scope w scope.base ∧
          w.SectionRuns (w.Imports inner) file? scope.base e l moments found) ∧
      ∀ e text path names, scope.Settles e text path → Path.GoesDown ⟨text⟩ names →
        ∀ d, .watcom d ∈ scope.toolchain.compilers →
          ((∃ short, d.drivePath path = .ok short) ↔
            ∀ name ∈ above ++ names, name.toList.count '.' ≤ 1) := by
  intro main mount
  have hmain : main.path.isAbsolute = true := isAbsolute_resolve hc buildFile
  have hagree : ∀ full, w.absolute main.path = .ok full → ∀ text, w.readText full = .ok text →
      full.directory.isAbsolute = true ∧ full.directory.components = mount.components := by
    intro full hfull text htext
    obtain ⟨hdirectory, -, written, hwritten, hsame⟩ :=
      World.directory_of_readText hmain hfull htext
    refine ⟨hdirectory, hsame.symm.trans ?_⟩
    rw [show mount = written from (congrArg (Option.getD · s.cwd) hwritten)]
  refine ⟨?_, fun p hp => World.finish_mainVisit_of_load hp, ?_⟩
  · obtain ⟨full, hfull, -⟩ := Disk.exists_absolute? hmain w.cwd
    have habsolute : w.absolute main.path = .ok full := by simp [World.absolute, hfull]
    exact ⟨full, habsolute, fun text htext => (hagree full habsolute text htext).2⟩
  · intro above v scope hbelow hreads
    have htoolchain : scope.toolchain = Toolchain.builtin s.settings.programs mount := by
      rw [hreads.sameCompilers, hbelow.sameCompilers]
      exact World.sameCompilers_mainVisit w depth s buildFile
    have hbase : scope.base.isAbsolute = true ∧
        scope.base.components = mount.components ++ above.map .name := by
      cases hreads with
      | intro description sections done =>
          refine hbelow.components (fun full root hd => ?_) description
          obtain ⟨hfull, text, htext⟩ := World.exists_text_of_readDescription hd
          exact hagree full hfull text htext
    refine ⟨hbase.2, htoolchain, fun e found hread => hread.sectionRuns, ?_⟩
    intro e text path names hsettles hdown d hd
    rw [htoolchain] at hd
    obtain rfl := hsettles.path_eq
    refine WatcomDriver.exists_drivePath_iff hbase.1 ?_ hdown
    rw [Toolchain.mount_of_mem_builtin hd]
    exact hbase.2

/-- A description in a directory of some name, and one that imports it. -/
def importingFrom (directory : String) : World :=
  .holding [(["proj", "build.xml"],
      "<buildcc><import file=\"" ++ directory ++ "/lib.xml\"/></buildcc>"),
    (["proj", directory, "lib.xml"], "<buildcc><target name=\"all\">" ++
      "<object compiler=\"watcom\" src=\"main.c\"/></target></buildcc>")]
    [["proj"], ["proj", directory]]

def importingRoot (directory : String) : Element :=
  .mk "buildcc" [] [.mk "import" [("file", directory ++ "/lib.xml")] [] none] none

/-- The object that the imported description compiles. -/
def compiling : Element :=
  .mk "object" [("compiler", "watcom"), ("src", "main.c")] [] none

def compilingRoot : Element :=
  .mk "buildcc" [] [.mk "target" [("name", "all")] [compiling] none] none

theorem readDescription_importingFrom {directory : String} (hm : directory ∈ ["v1", "v1.0.2"]) :
    (importingFrom directory).readDescription ⟨"/proj/./build.xml"⟩ =
        .ok (⟨"/proj/build.xml"⟩, importingRoot directory) ∧
      (importingFrom directory).readDescription ⟨"/proj/" ++ directory ++ "/lib.xml"⟩ =
        .ok (⟨"/proj/" ++ directory ++ "/lib.xml"⟩, compilingRoot) := by
  have h : (importingFrom directory).disk.isLinkless = true := World.isLinkless_holding _ _
  have hlib : Markup.readDocument ("<buildcc><target name=\"all\">" ++
      "<object compiler=\"watcom\" src=\"main.c\"/></target></buildcc>") = some compilingRoot :=
    (Markup.readDocument_of_ofList String.ofList_append).trans (by decide +kernel)
  have hbuild : Markup.readDocument ("<buildcc><import file=\"" ++ directory ++
      "/lib.xml\"/></buildcc>") = some (importingRoot directory) := by
    obtain rfl | rfl : directory = "v1" ∨ directory = "v1.0.2" := by simpa using hm
    all_goals
      simp only [String.reduceAppend]
      exact (Markup.readDocument_of_ofList rfl).trans (by decide +kernel)
  obtain rfl | rfl : directory = "v1" ∨ directory = "v1.0.2" := by simpa using hm
  all_goals
    simp only [String.reduceAppend]
    constructor
    · exact World.readDescription_of_entryAt (by rfl)
        ((Disk.entryAt_eq_descend h _ _ _).trans rfl) hbuild rfl
    · exact World.readDescription_of_entryAt rfl
        ((Disk.entryAt_eq_descend h _ _ _).trans rfl) hlib rfl

theorem exists_ofElement_compiling {scope : Scope} {mount path : Path}
    (ht : scope.toolchain = .builtin {} mount) (hp : scope.path "main.c" = .ok path) :
    ∃ o, ObjectTask.ofElement scope none compiling = .ok o := by
  have hsources : ObjectTask.readSources scope compiling = .ok [path] := by
    have hsrc : compiling.attribute? "src" = some "main.c" := by decide
    simp only [ObjectTask.readSources, hsrc, hp]
    rfl
  have hcompiler : scope.compiler compiling none =
      .ok (.watcom ⟨⟨"dosbox"⟩, [], "wcl", mount⟩) := by
    have hname : compiling.attribute? "compiler" = some "watcom" := by decide
    simp only [Scope.compiler, hname, ht]
    rfl
  unfold ObjectTask.ofElement
  rw [hsources, hcompiler]
  exact ⟨_, rfl⟩

theorem exists_written_importingFrom (depth : Nat) {directory : String}
    (hm : directory ∈ ["v1", "v1.0.2"]) :
    let w := importingFrom directory
    ∃ v scope,
      w.Below (w.mainVisit depth { cwd := ⟨"/proj"⟩, discovers := false } ⟨"./build.xml"⟩)
        [directory] v ∧
      w.ReadsIn v scope ∧ scope.toolchain = .builtin {} ⟨"/proj"⟩ ∧
      scope.Settles compiling "main.c" ⟨"/proj/" ++ directory ++ "/main.c"⟩ := by
  intro w
  let main := w.mainVisit depth { cwd := ⟨"/proj"⟩, discovers := false } ⟨"./build.xml"⟩
  let lib : Path := ⟨"/proj/" ++ directory ++ "/lib.xml"⟩
  obtain ⟨hbuild, hlib⟩ := readDescription_importingFrom hm
  have hpath : ({ cwd := ⟨"/proj"⟩, discovers := false } : Session).resolve ⟨"./build.xml"⟩ =
      ⟨"/proj/./build.xml"⟩ := by decide +kernel
  have hmount : (Path.mk "/proj/./build.xml").parent?.getD ⟨"/proj"⟩ = ⟨"/proj"⟩ := by
    decide +kernel
  have hdirectory : Path.directory ⟨"/proj/build.xml"⟩ = ⟨"/proj"⟩ := by decide +kernel
  have hfile : ∀ directory ∈ ["v1", "v1.0.2"],
      Template.segments (directory ++ "/lib.xml").toList =
          (directory ++ "/lib.xml").toList.map .char ∧
        (Path.mk "/proj").join ⟨directory ++ "/lib.xml"⟩ =
          ⟨"/proj/" ++ directory ++ "/lib.xml"⟩ ∧
        Path.GoesDown ⟨directory ++ "/lib.xml"⟩ ([directory] ++ ["lib.xml"]) ∧
        (Path.directory ⟨"/proj/" ++ directory ++ "/lib.xml"⟩).join ⟨"main.c"⟩ =
          ⟨"/proj/" ++ directory ++ "/main.c"⟩ := by
    decide +kernel
  obtain ⟨hplain, hjoin, hdown, hsource⟩ := hfile directory hm
  let l : Loading := main.found.enter ⟨"/proj/build.xml"⟩
  have hdescription : w.readDescription main.path =
      .ok (⟨"/proj/build.xml"⟩, importingRoot directory) :=
    (congrArg w.readDescription hpath).trans hbuild
  have hfirst : runFrom l (List.forM [] (followImport (importFile w 0) ⟨"/proj"⟩)) = (.ok (), l) :=
    rfl
  have hopens : w.Opens main ⟨(Path.mk "/proj").join ⟨directory ++ "/lib.xml"⟩, l⟩ :=
    .intro hdescription hdirectory.symm (List.nil_append _).symm hfirst
      (Properties.expand_of_plain hplain _)
  rw [hjoin] at hopens
  have hbelow : w.Below main [directory] ⟨lib, l⟩ :=
    .inside .itself hopens hdescription (by rw [hdirectory, hjoin]) hdown
  let scope := (l.enter lib).project.scope w lib.directory
  have hnone : runFrom (l.enter lib) (List.forM [] (readSection w (importFile w 0) lib.directory)) =
      (.ok (), l.enter lib) := rfl
  have hreads : w.ReadsIn ⟨lib, l⟩ scope := .intro hlib (List.nil_append _).symm hnone
  have htoolchain : scope.toolchain = .builtin {} ⟨"/proj"⟩ := by
    rw [hreads.sameCompilers, hbelow.sameCompilers, World.sameCompilers_mainVisit, hpath, hmount]
  refine ⟨_, _, hbelow, hreads, htoolchain, ?_⟩
  have hexpand : scope.props.expand "main.c" = .ok "main.c" :=
    Properties.expand_of_plain (Template.segments_of_not_mem (by decide)) _
  have hplace : scope.path "main.c" = .ok ⟨"/proj/" ++ directory ++ "/main.c"⟩ := by
    rw [Scope.path_of_expand hexpand]
    exact congrArg _ hsource
  obtain ⟨o, ho⟩ := exists_ofElement_compiling htoolchain hplace
  have hsources := ObjectTask.sources_of_ofElement ho rfl hplace
  exact .source ho rfl hexpand (hsources ▸ List.mem_singleton_self _)

/-- A source beside a description that is imported from a directory of a plain name. -/
theorem written_paths_on_drive_importingFrom :
    let w := importingFrom "v1"
    let main := w.mainVisit 2 { cwd := ⟨"/proj"⟩, discovers := false } ⟨"./build.xml"⟩
    ∃ v scope path d, w.Below main ["v1"] v ∧ w.ReadsIn v scope ∧
      scope.Settles compiling "main.c" path ∧ .watcom d ∈ scope.toolchain.compilers ∧
      ∃ short, d.drivePath path = .ok short := by
  intro w main
  obtain ⟨v, scope, hbelow, hreads, htoolchain, hsettles⟩ :=
    exists_written_importingFrom 2 (show "v1" ∈ ["v1", "v1.0.2"] by decide)
  have hd : .watcom ⟨⟨"dosbox"⟩, [], "wcl", ⟨"/proj"⟩⟩ ∈ scope.toolchain.compilers := by
    rw [htoolchain]
    decide
  obtain ⟨-, -, hplaces⟩ := written_paths_on_drive w 2 { cwd := ⟨"/proj"⟩, discovers := false }
    ⟨"./build.xml"⟩ (by decide)
  obtain ⟨-, -, -, hdrive⟩ := hplaces ["v1"] v scope hbelow hreads
  have hok := hdrive compiling "main.c" _ ["main.c"] hsettles (by decide +kernel) _ hd
  exact ⟨v, scope, _, _, hbelow, hreads, hsettles, hd, hok.mpr (by decide)⟩

/-- The directory's name has two dots, so no source beside the description is on the drive. -/
theorem written_path_off_drive :
    let w := importingFrom "v1.0.2"
    let main := w.mainVisit 2 { cwd := ⟨"/proj"⟩, discovers := false } ⟨"./build.xml"⟩
    ∃ v scope path d, w.Below main ["v1.0.2"] v ∧ w.ReadsIn v scope ∧
      scope.Settles compiling "main.c" path ∧ Path.GoesDown ⟨"main.c"⟩ ["main.c"] ∧
      "main.c".toList.count '.' ≤ 1 ∧ .watcom d ∈ scope.toolchain.compilers ∧
      ∀ short, d.drivePath path ≠ .ok short := by
  intro w main
  obtain ⟨v, scope, hbelow, hreads, htoolchain, hsettles⟩ :=
    exists_written_importingFrom 2 (show "v1.0.2" ∈ ["v1", "v1.0.2"] by decide)
  have hd : .watcom ⟨⟨"dosbox"⟩, [], "wcl", ⟨"/proj"⟩⟩ ∈ scope.toolchain.compilers := by
    rw [htoolchain]
    decide
  have hfails : (WatcomDriver.drivePath ⟨⟨"dosbox"⟩, [], "wcl", ⟨"/proj"⟩⟩
      ⟨"/proj/" ++ "v1.0.2" ++ "/main.c"⟩).toOption = none := by decide +kernel
  refine ⟨v, scope, _, _, hbelow, hreads, hsettles, by decide +kernel, by decide, hd, ?_⟩
  intro short hok
  rw [hok] at hfails
  cases hfails

end DeclarativeBuild
