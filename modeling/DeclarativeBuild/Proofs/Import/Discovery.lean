import DeclarativeBuild.Project.Load
import DeclarativeBuild.Proofs.Disk.Linkless
import DeclarativeBuild.Proofs.Import.Depth

/-!
# Configuration files

A project is loaded after the configuration files above it.  One that holds another document is
passed over; what stops the import of any other stops the loading, unless it is another document
inside of it, which is taken for the file itself.
-/

namespace DeclarativeBuild

open Import Project

namespace Loading

/-- What is there once it has been noted that a configuration file is taken up. -/
def announce (l : Loading) (file : Path) : Loading :=
  { l with journal := l.journal ++ [⟨.trace, "importing config file `" ++ file.text ++ "`"⟩] }

/-- What is there once a warning has been noted that a file holds another document. -/
def passOver (l : Loading) (full : Path) (tag : String) : Loading :=
  { l with journal := l.journal ++
    [⟨.warn, "config file `" ++ full.text ++ "` is not a buildcc file (root is `" ++ tag ++
      "`), ignoring"⟩] }

end Loading

/-- How configuration files are to be read: one is passed over only if it holds another document
itself, and then it declares nothing; what else stops the import of one is the end. -/
inductive ConfigsRead (w : World) (depth : Nat) :
    List Path → Loading → Except ImportFault Unit → Loading → Prop
  | done (l : Loading) : ConfigsRead w depth [] l (.ok ()) l
  | skipped {file full : Path} {files : List Path} {root : Element} {l l' : Loading}
      {outcome : Except ImportFault Unit} (absolute : w.absolute file = .ok full)
      (document : w.readDocument full = .ok root) (foreign : root.tag ≠ rootTag)
      (rest : ConfigsRead w depth files ((l.announce file).passOver full root.tag) outcome l') :
      ConfigsRead w depth (file :: files) l outcome l'
  | imported {file : Path} {files : List Path} {found : Element} {l inner l' : Loading}
      {outcome : Except ImportFault Unit}
      (read : runFrom (l.announce file) (importFile w depth file) = (.ok found, inner))
      (rest : ConfigsRead w depth files inner outcome l') :
      ConfigsRead w depth (file :: files) l outcome l'
  | stopped {file : Path} {files : List Path} {l l' : Loading} {fault : ImportFault}
      (own : ∀ full root, w.absolute file = .ok full → w.readDocument full = .ok root →
        root.tag = rootTag)
      (failed : runFrom (l.announce file) (importFile w depth file) = (.error fault, l')) :
      ConfigsRead w depth (file :: files) l (.error fault) l'

/-- Some configuration file that is a description imports, perhaps indirectly, another document. -/
def Swallows (w : World) (depth : Nat) (files : List Path) (l : Loading) : Prop :=
  ∃ before file after inner read nested tag, files = before ++ file :: after ∧
    ConfigsRead w depth before l (.ok ()) inner ∧ w.readDescription file = .ok read ∧
    (runFrom (inner.announce file) (importFile w depth file)).1 =
      .error (.failed (.foreignDocument nested tag))

variable {w : World} {depth : Nat} {file full : Path} {tag : String}

theorem runFrom_importConfig (w : World) (depth : Nat) (file : Path) (l : Loading) :
    runFrom l (importConfig w depth file) =
      match runFrom (l.announce file) (importFile w depth file) with
      | (.ok _, l') => (.ok (), l')
      | (.error (.failed (.foreignDocument full tag)), l') => (.ok (), l'.passOver full tag)
      | (.error fault, l') => (.error fault, l') := by
  have hdiscard : runFrom (l.announce file) (discard (importFile w depth file)) =
      match runFrom (l.announce file) (importFile w depth file) with
      | (.error fault, l') => (.error fault, l')
      | (.ok _, l') => (.ok (), l') := by
    change runFrom _ (importFile w depth file >>= fun _ => pure ()) = _
    rw [runFrom_bind]
    cases runFrom (l.announce file) (importFile w depth file) with
    | mk outcome l' => cases outcome <;> rfl
  have hannounce : runFrom l (note .trace ("importing config file `" ++ file.text ++ "`")) =
      (.ok ⟨⟩, l.announce file) := runFrom_note l _ _
  unfold importConfig
  rw [runFrom_bind_of_ok hannounce, runFrom_tryCatch, hdiscard]
  obtain ⟨outcome, l'⟩ := runFrom (l.announce file) (importFile w depth file)
  cases outcome with
  | ok found => rfl
  | error fault =>
      cases fault with
      | tooDeep path => rfl
      | failed failure => cases failure <;> rfl

/-- A file without a description leaves everything as it was. -/
theorem importFile_of_error {failure : Failure} (h : w.readDescription file = .error failure)
    (l : Loading) :
    runFrom l (importFile w (depth + 1) file) = (.error (.failed failure), l) := by
  rw [runFrom_importFile, h]

theorem readDescription_of_foreign {root : Element} (absolute : w.absolute file = .ok full)
    (document : w.readDocument full = .ok root) (foreign : root.tag ≠ rootTag) :
    w.readDescription file = .error (.foreignDocument full root.tag) := by
  simp [World.readDescription, absolute, document, foreign]

theorem absolute_ne_foreign : w.absolute file ≠ .error (.foreignDocument full tag) := by
  unfold World.absolute
  split <;> simp

theorem readDocument_ne_foreign {path : Path} :
    w.readDocument path ≠ .error (.foreignDocument full tag) := by
  unfold World.readDocument Element.ofSource
  split
  · simp
  · split <;> simp

theorem exists_root_of_foreign (h : w.readDescription file = .error (.foreignDocument full tag)) :
    ∃ root, w.absolute file = .ok full ∧ w.readDocument full = .ok root ∧ root.tag ≠ rootTag ∧
      root.tag = tag := by
  unfold World.readDescription at h
  cases ha : w.absolute file with
  | error failure =>
      simp only [ha] at h
      cases h
      exact absurd ha absolute_ne_foreign
  | ok q =>
      simp only [ha] at h
      cases hr : w.readDocument q with
      | error failure =>
          simp only [hr] at h
          cases h
          exact absurd hr readDocument_ne_foreign
      | ok root =>
          simp only [hr] at h
          split at h
          · cases h
          · next hforeign =>
            cases h
            exact ⟨root, rfl, hr, hforeign, rfl⟩

/-- Going through configuration files never ends with the report of another document. -/
theorem forM_importConfig_ne_foreign {files : List Path} {l : Loading} :
    (runFrom l (files.forM (importConfig w depth))).1 ≠
      .error (.failed (.foreignDocument full tag)) := by
  intro h
  obtain ⟨before, file, after, inner, -, -, hfile⟩ :=
    runFrom_forM_eq_error (Prod.ext h rfl : runFrom l (files.forM (importConfig w depth)) =
      (.error (.failed (.foreignDocument full tag)),
        (runFrom l (files.forM (importConfig w depth))).2))
  rw [runFrom_importConfig] at hfile
  split at hfile
  · cases hfile
  · cases hfile
  · next hother _ => exact hother _ _ (Except.error.inj (Prod.ext_iff.mp hfile).1)

namespace ConfigsRead

/-- There is one way to read the first files. -/
theorem of_append {before rest : List Path} {l inner l' : Loading}
    {outcome : Except ImportFault Unit} (h : ConfigsRead w (depth + 1) before l (.ok ()) inner)
    (hall : ConfigsRead w (depth + 1) (before ++ rest) l outcome l') :
    ConfigsRead w (depth + 1) rest inner outcome l' := by
  generalize hok : (Except.ok () : Except ImportFault Unit) = first at h
  induction h with
  | done l => exact hall
  | skipped absolute document foreign _ ih =>
      have hdescription := readDescription_of_foreign absolute document foreign
      cases hall with
      | skipped absolute' document' foreign' rest' =>
          obtain rfl := Except.ok.inj (absolute.symm.trans absolute')
          obtain rfl := Except.ok.inj (document.symm.trans document')
          exact ih rest' hok
      | imported read' rest' =>
          rw [importFile_of_error hdescription] at read'
          cases read'
      | stopped own' failed' => exact absurd (own' _ _ absolute document) foreign
  | imported read _ ih =>
      cases hall with
      | skipped absolute' document' foreign' rest' =>
          rw [importFile_of_error (readDescription_of_foreign absolute' document' foreign')] at read
          cases read
      | imported read' rest' =>
          obtain ⟨-, rfl⟩ := Prod.ext_iff.mp (read.symm.trans read')
          exact ih rest' hok
      | stopped own' failed' => cases read.symm.trans failed'
  | stopped own failed => cases hok

end ConfigsRead

/-- Another document that a configuration file imports is to be reported. -/
theorem Swallows.eq_foreign {files : List Path} {l l' : Loading}
    {outcome : Except ImportFault Unit} (h : Swallows w (depth + 1) files l)
    (hall : ConfigsRead w (depth + 1) files l outcome l') :
    ∃ nested tag, outcome = .error (.failed (.foreignDocument nested tag)) := by
  obtain ⟨before, file, after, inner, read, nested, tag, rfl, hbefore, hread, hfault⟩ := h
  cases hbefore.of_append hall with
  | skipped absolute document foreign _ =>
      rw [readDescription_of_foreign absolute document foreign] at hread
      cases hread
  | imported read' _ =>
      rw [read'] at hfault
      cases hfault
  | stopped own failed =>
      rw [failed] at hfault
      obtain rfl := Except.error.inj hfault
      exact ⟨nested, tag, rfl⟩

/-- What is passed over in the files that remain is passed over in all of them. -/
theorem Swallows.cons {files : List Path} {l inner : Loading}
    (h : Swallows w (depth + 1) files inner)
    (hfile : ∀ {before : List Path} {l' : Loading},
      ConfigsRead w (depth + 1) before inner (.ok ()) l' →
      ConfigsRead w (depth + 1) (file :: before) l (.ok ()) l') :
    Swallows w (depth + 1) (file :: files) l := by
  obtain ⟨before, p, after, l', read, nested, tag, rfl, hbefore, hp⟩ := h
  exact ⟨file :: before, p, after, l', read, nested, tag, rfl, hfile hbefore, hp⟩

/-- Configuration files are read as they are to be, unless another document that one of them imports
is passed over. -/
theorem configsRead_or_swallows (w : World) (depth : Nat) (files : List Path) (l : Loading) :
    ConfigsRead w (depth + 1) files l (runFrom l (files.forM (importConfig w (depth + 1)))).1
      (runFrom l (files.forM (importConfig w (depth + 1)))).2 ∨ Swallows w (depth + 1) files l := by
  induction files generalizing l with
  | nil => exact .inl (.done l)
  | cons file files ih =>
      have hstep := runFrom_importConfig w (depth + 1) file l
      cases hfile : runFrom (l.announce file) (importFile w (depth + 1) file) with
      | mk outcome inner =>
          rw [hfile] at hstep
          cases outcome with
          | ok found =>
              rw [forM_cons, runFrom_bind_of_ok hstep]
              exact (ih inner).imp (.imported hfile) fun hrest => hrest.cons (.imported hfile)
          | error fault =>
              by_cases hforeign : ∃ full tag, fault = .failed (.foreignDocument full tag)
              · obtain ⟨full, tag, rfl⟩ := hforeign
                rw [forM_cons, runFrom_bind_of_ok hstep]
                -- The report is about this file if it holds no description, and else about another.
                cases hd : w.readDescription file with
                | ok read =>
                    exact .inr ⟨[], file, files, l, read, full, tag, rfl, .done l, hd,
                      congrArg Prod.fst hfile⟩
                | error failure =>
                    rw [importFile_of_error hd] at hfile
                    obtain ⟨rfl, rfl⟩ : failure = .foreignDocument full tag ∧
                        l.announce file = inner := by simpa using hfile
                    obtain ⟨root, ha, hr, hne, rfl⟩ := exists_root_of_foreign hd
                    exact (ih _).imp (.skipped ha hr hne) fun hrest =>
                      hrest.cons (.skipped ha hr hne)
              · have hstop : runFrom l (importConfig w (depth + 1) file) =
                    (.error fault, inner) := by
                  rw [hstep]
                  split <;> simp_all
                rw [forM_cons, runFrom_bind_of_error hstop]
                refine .inl (.stopped (fun full root ha hr => ?_) hfile)
                refine Decidable.byContradiction fun hne => hforeign ⟨full, root.tag, ?_⟩
                rw [importFile_of_error (readDescription_of_foreign ha hr hne)] at hfile
                exact (Except.error.inj (Prod.ext_iff.mp hfile).1).symm

/-- What is there when the configuration files are about to be read. -/
def Loading.opening (w : World) (s : Session) (directory : Path) : Loading :=
  (runFrom { project := start w s directory } (noteHidden s w)).2

/-- What a project comes to that is read on from here. -/
def Loading.finish (w : World) (depth : Nat) (buildFile : Path) (l : Loading) :
    Except ImportFault Project :=
  (runFrom l (importMain w depth buildFile)).1.map fun _ =>
    (runFrom l (importMain w depth buildFile)).2.project

theorem runFrom_noteHidden (w : World) (s : Session) (l : Loading) :
    (runFrom l (noteHidden s w)).1 = .ok () := by
  unfold noteHidden
  induction (Properties.builtin w.environment).toList generalizing l with
  | nil => rfl
  | cons entry rest ih =>
      have hstep : ∃ l', runFrom l (if s.overrides.any (·.1 == entry.1) then
          note .trace ("property `" ++ entry.1 ++ "` already declared, keeping first value")
          else pure ()) = (.ok (), l') := by
        split <;> exact ⟨_, rfl⟩
      obtain ⟨l', hl'⟩ := hstep
      rw [forM_cons, runFrom_bind_of_ok hl']
      exact ih l'

/-- The configuration files that are read before a build file in a directory. -/
def World.configsBefore (w : World) (s : Session) (directory : Path) : List Path :=
  if s.discovers then w.configFiles directory else []

theorem load_eq (w : World) (depth : Nat) (s : Session) (buildFile : Path) :
    let file := s.resolve buildFile
    let directory := file.parent?.getD s.cwd
    let read := runFrom (Loading.opening w s directory)
      ((w.configsBefore s directory).forM (importConfig w depth))
    (load w depth s buildFile).1 = read.1.bind fun _ => read.2.finish w depth file := by
  intro file directory read
  have hopen : runFrom { project := start w s directory } (noteHidden s w) =
      (.ok (), Loading.opening w s directory) := Prod.ext (runFrom_noteHidden w s _) rfl
  have hconfigs : (if s.discovers then (w.configFiles directory).forM (importConfig w depth)
      else pure ()) = (w.configsBefore s directory).forM (importConfig w depth) := by
    unfold World.configsBefore
    split <;> rfl
  have hload : runFrom { project := start w s directory } (loadInto w depth s file directory) =
      runFrom (Loading.opening w s directory)
        ((w.configsBefore s directory).forM (importConfig w depth) >>= fun _ =>
          importMain w depth file >>= fun _ => Import.project >>= fun p =>
            note .trace ("resolved project:\n" ++ p.listing w)) := by
    rw [← hconfigs, loadInto, runFrom_bind_of_ok hopen]
    cases s.discovers <;> rfl
  let loaded := runFrom { project := start w s directory } (loadInto w depth s file directory)
  change (loaded.1.map fun _ => loaded.2.project) = _
  simp only [loaded]
  rw [hload, runFrom_bind]
  cases hread : read with
  | mk outcome l =>
      change runFrom _ ((w.configsBefore s directory).forM (importConfig w depth)) = _ at hread
      rw [hread]
      cases outcome with
      | error fault => rfl
      | ok _ =>
          change ((runFrom l _).1.map fun _ => (runFrom l _).2.project) = l.finish w depth file
          unfold Loading.finish
          rw [runFrom_bind]
          cases runFrom l (importMain w depth file) with
          | mk outcome l' => cases outcome <;> rfl

theorem load_setDiscovers (w : World) (depth : Nat) (s : Session) (buildFile : Path) :
    let file := s.resolve buildFile
    let directory := file.parent?.getD s.cwd
    let read := runFrom (Loading.opening w s directory)
      ((w.configFiles directory).forM (importConfig w depth))
    (load w depth (s.setDiscovers true) buildFile).1 =
      read.1.bind fun _ => read.2.finish w depth file :=
  load_eq w depth (s.setDiscovers true) buildFile

/-- Loading reads the configuration files and then the build file.  The configuration files are read
as they are to be if and only if no document inside of one is taken for the file itself. -/
theorem load_configFiles (w : World) (depth : Nat) (s : Session) (buildFile : Path) :
    let file := s.resolve buildFile
    let directory := file.parent?.getD s.cwd
    let configs := w.configFiles directory
    let found := Loading.opening w s directory
    let read := runFrom found (configs.forM (importConfig w (depth + 1)))
    (load w (depth + 1) (s.setDiscovers true) buildFile).1 =
        (read.1.bind fun _ => read.2.finish w (depth + 1) file) ∧
      (ConfigsRead w (depth + 1) configs found read.1 read.2 ↔
        ¬Swallows w (depth + 1) configs found) := by
  intro file directory configs found read
  refine ⟨?_, fun h hs => ?_, (configsRead_or_swallows w depth configs found).resolve_right⟩
  · exact load_setDiscovers w (depth + 1) s buildFile
  · obtain ⟨nested, tag, hread⟩ := hs.eq_foreign h
    exact forM_importConfig_ne_foreign hread

/-- A world with a configuration file that imports another document, and a build file below it. -/
def swallowing : World :=
  .holding [(["config.xml"], "<buildcc><import file=\"other.xml\"/></buildcc>"),
    (["other.xml"], "<settings/>"), (["proj", "build.xml"], "<buildcc/>")] [["proj"]]

theorem reads_swallowing : swallowing.imports ⟨"/config.xml"⟩ ["other.xml"] = true ∧
    swallowing.isForeign ⟨"/other.xml"⟩ "settings" = true ∧
    swallowing.isBare ⟨"/proj/build.xml"⟩ = true := by
  have h : swallowing.disk.isLinkless = true := World.isLinkless_holding _ _
  have hconfig : swallowing.readDescription ⟨"/config.xml"⟩ =
      .ok (⟨"/config.xml"⟩, .mk "buildcc" [] [.mk "import" [("file", "other.xml")] [] none] none) :=
    World.readDescription_of_entryAt rfl ((Disk.entryAt_eq_descend h _ _ _).trans rfl)
      ((Markup.readDocument_of_ofList rfl).trans (by decide +kernel)) rfl
  have hdocument : swallowing.readDocument ⟨"/other.xml"⟩ = .ok (.mk "settings" [] [] none) :=
    World.readDocument_of_entryAt ((Disk.entryAt_eq_descend h _ _ _).trans rfl)
      ((Markup.readDocument_of_ofList rfl).trans (by decide +kernel))
  have hother : swallowing.readDescription ⟨"/other.xml"⟩ =
      .error (.foreignDocument ⟨"/other.xml"⟩ "settings") :=
    readDescription_of_foreign rfl hdocument (by decide)
  have hbuild : swallowing.readDescription ⟨"/proj/build.xml"⟩ =
      .ok (⟨"/proj/build.xml"⟩, .mk "buildcc" [] [] none) :=
    World.readDescription_of_entryAt rfl ((Disk.entryAt_eq_descend h _ _ _).trans rfl)
      ((Markup.readDocument_of_ofList rfl).trans (by decide +kernel)) rfl
  simp only [World.imports, World.isForeign, World.isBare, hconfig, hother, hbuild]
  decide

theorem configFiles_swallowing : swallowing.configFiles ⟨"/proj"⟩ = [⟨"/config.xml"⟩] := by
  have h : swallowing.disk.isLinkless = true := World.isLinkless_holding _ _
  have hisFile : swallowing.isFile = fun p => swallowing.isFile p := rfl
  rw [World.configFiles, hisFile]
  simp only [World.isFile, Disk.isFile, Disk.entryAt, Disk.locate_eq_descend h]
  rfl

theorem importFile_swallowing (depth : Nat) (l : Loading) :
    (runFrom l (importFile swallowing (depth + 2) ⟨"/config.xml"⟩)).1 =
      .error (.failed (.foreignDocument ⟨"/other.xml"⟩ "settings")) := by
  have hpath : (Path.directory ⟨"/config.xml"⟩).join ⟨"other.xml"⟩ = ⟨"/other.xml"⟩ := by rfl
  refine importFile_of_only_error reads_swallowing.1
    (Template.segments_of_not_mem (by decide)) (fun l' => ?_) l
  rw [hpath, runFrom_importFile, World.eq_foreign_of_isForeign reads_swallowing.2.1]

/-- A description without elements is read from everywhere. -/
theorem finish_eq_ok_of_isBare (h : w.isBare file = true) (depth : Nat) (l : Loading) :
    ∃ p, l.finish w (depth + 1) file = .ok p := by
  obtain ⟨full, root, hd, hchildren⟩ := World.exists_of_isBare h
  have hsections : runFrom (l.enter full)
      (importSections w (importFile w depth) root full.directory) = (.ok (), l.enter full) := by
    simp [importSections, Element.childrenNamed, hchildren]
  have hread : runFrom l (importFile w (depth + 1) file) =
      (.ok root, l.leave (l.enter full)) := by
    rw [runFrom_importFile, hd]
    simp only [hsections]
    rfl
  unfold Loading.finish importMain
  rw [runFrom_bind_of_ok hread]
  exact ⟨_, rfl⟩

/-- The import of the configuration file fails, and loading succeeds. -/
theorem swallowing_load :
    ⟨"/config.xml"⟩ ∈ swallowing.configFiles ⟨"/proj"⟩ ∧
      (∃ read, swallowing.readDescription ⟨"/config.xml"⟩ = .ok read) ∧
      (∀ depth l, (runFrom l (importFile swallowing (depth + 2) ⟨"/config.xml"⟩)).1 =
        .error (.failed (.foreignDocument ⟨"/other.xml"⟩ "settings"))) ∧
      ∀ depth, ∃ p, (load swallowing (depth + 2)
        (({ cwd := ⟨"/proj"⟩ } : Session).setDiscovers true) ⟨"build.xml"⟩).1 = .ok p := by
  obtain ⟨root, hd, -⟩ := World.exists_of_imports reads_swallowing.1
  refine ⟨by simp [configFiles_swallowing], ⟨_, hd⟩, importFile_swallowing, fun depth => ?_⟩
  have hfile : ({ cwd := ⟨"/proj"⟩ } : Session).resolve ⟨"build.xml"⟩ = ⟨"/proj/build.xml"⟩ := by
    rfl
  have hdirectory : (Path.mk "/proj/build.xml").parent?.getD ⟨"/proj"⟩ = ⟨"/proj"⟩ := by rfl
  have hload := load_setDiscovers swallowing (depth + 2) { cwd := ⟨"/proj"⟩ } ⟨"build.xml"⟩
  simp only [hfile, hdirectory, configFiles_swallowing] at hload
  rw [hload]
  generalize Loading.opening _ _ _ = found
  have hconfig : ∃ l, runFrom found (importConfig swallowing (depth + 2) ⟨"/config.xml"⟩) =
      (.ok (), l) := by
    rw [runFrom_importConfig]
    have himport := importFile_swallowing depth (found.announce ⟨"/config.xml"⟩)
    generalize runFrom _ (importFile swallowing (depth + 2) _) = outcome at himport ⊢
    obtain ⟨outcome, l⟩ := outcome
    obtain rfl : outcome = _ := himport
    exact ⟨_, rfl⟩
  obtain ⟨l, hl⟩ := hconfig
  rw [forM_cons, runFrom_bind_of_ok hl]
  exact finish_eq_ok_of_isBare reads_swallowing.2.2 (depth + 1) l

end DeclarativeBuild
