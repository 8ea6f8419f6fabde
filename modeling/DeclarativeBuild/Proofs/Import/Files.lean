import DeclarativeBuild.Proofs.Disk.Linkless
import DeclarativeBuild.Proofs.Markup.Trees
import DeclarativeBuild.Proofs.Properties.Growth

/-!
# Files that are imported

What importing a file comes to once its description has been read, what it leaves of the properties,
and why the depth that imports may have matters only where it is used up.
-/

namespace DeclarativeBuild

variable {α β : Type}

/-- A document is read from the characters of its text. -/
theorem Markup.readDocument_of_ofList {source : String} {cs : List Char}
    (h : String.ofList cs = source) :
    readDocument source = (do
      let cs := if cs.head? == some '\ufeff' then cs.drop 1 else cs
      let cs ← skipDeclaration cs >>= skipMisc
      let (root, rest) ← readRoot cs
      let rest ← skipMisc rest
      if rest.isEmpty then some root else none) := by
  subst h
  rw [readDocument, String.toList_ofList]

/-- The description in a file, with the path by which the file is known while it is read. -/
def World.readDescription (w : World) (path : Path) : Except Failure (Path × Element) :=
  match w.absolute path with
  | .error failure => .error failure
  | .ok full =>
    match w.readDocument full with
    | .error failure => .error failure
    | .ok root =>
      if root.tag = Project.rootTag then .ok (full, root)
      else .error (.foreignDocument full root.tag)

namespace World

theorem readDescription_eq_ok_iff {w : World} {path full : Path} {root : Element} :
    w.readDescription path = .ok (full, root) ↔
      w.absolute path = .ok full ∧ w.readDocument full = .ok root ∧ root.tag = Project.rootTag := by
  unfold readDescription
  cases w.absolute path with
  | error failure => simp
  | ok p =>
      constructor
      · intro h
        cases hd : w.readDocument p with
        | error failure => simp [hd] at h
        | ok found =>
            simp only [hd] at h
            split at h
            · next htag =>
              cases h
              exact ⟨rfl, hd, htag⟩
            · cases h
      · rintro ⟨hp, hd, htag⟩
        obtain rfl := Except.ok.inj hp
        simp [hd, htag]

theorem readDocument_of_entryAt {w : World} {path : Path} {source : String} {root : Element}
    {executable : Bool}
    (hentry : w.disk.entryAt true w.cwd path = .ok (.file source.toUTF8 executable))
    (hroot : Markup.readDocument source = some root) : w.readDocument path = .ok root := by
  simp only [readDocument, readText_of_entryAt hentry, Element.ofSource, hroot]

theorem readDescription_of_entryAt {w : World} {path full : Path} {source : String} {root : Element}
    {executable : Bool} (habsolute : w.absolute path = .ok full)
    (hentry : w.disk.entryAt true w.cwd full = .ok (.file source.toUTF8 executable))
    (hroot : Markup.readDocument source = some root) (htag : root.tag = Project.rootTag) :
    w.readDescription path = .ok (full, root) :=
  readDescription_eq_ok_iff.mpr ⟨habsolute, readDocument_of_entryAt hentry hroot, htag⟩

theorem exists_text_of_readDescription {w : World} {path full : Path} {root : Element}
    (h : w.readDescription path = .ok (full, root)) :
    w.absolute path = .ok full ∧ ∃ text, w.readText full = .ok text := by
  obtain ⟨habsolute, hdocument, -⟩ := readDescription_eq_ok_iff.mp h
  unfold readDocument at hdocument
  cases ht : w.readText full with
  | error cause => simp [ht] at hdocument
  | ok text => exact ⟨habsolute, text, rfl⟩

/-- Whether a file holds a description that is known by the path it is looked up by, with imports of
certain files. -/
def imports (w : World) (path : Path) (files : List String) : Bool :=
  match w.readDescription path with
  | .ok (full, root) =>
    full == path && (root.childrenNamed "import").map (·.attribute? "file") == files.map some
  | .error _ => false

/-- Whether a file holds another document than a description. -/
def isForeign (w : World) (path : Path) (tag : String) : Bool :=
  match w.readDescription path with
  | .ok _ => false
  | .error failure => failure == .foreignDocument path tag

theorem eq_foreign_of_isForeign {w : World} {path : Path} {tag : String}
    (h : w.isForeign path tag = true) :
    w.readDescription path = .error (.foreignDocument path tag) := by
  unfold isForeign at h
  split at h
  · cases h
  · next failure hd => rw [hd, eq_of_beq h]

/-- Whether a file holds a description without elements. -/
def isBare (w : World) (path : Path) : Bool :=
  match w.readDescription path with
  | .ok (_, root) => root.children.isEmpty
  | .error _ => false

theorem exists_of_isBare {w : World} {path : Path} (h : w.isBare path = true) :
    ∃ full root, w.readDescription path = .ok (full, root) ∧ root.children = [] := by
  unfold isBare at h
  split at h
  · next full root hd => exact ⟨full, root, hd, List.isEmpty_iff.mp h⟩
  · cases h

theorem exists_of_imports {w : World} {path : Path} {files : List String}
    (h : w.imports path files = true) :
    ∃ root, w.readDescription path = .ok (path, root) ∧
      (root.childrenNamed "import").map (·.attribute? "file") = files.map some := by
  unfold imports at h
  split at h
  · next full root hd =>
    obtain ⟨rfl, hfiles⟩ := by simpa using h
    exact ⟨root, hd, by simpa using hfiles⟩
  · cases h

end World

/-- The directory where the paths of a description start. -/
def Path.directory (full : Path) : Path :=
  full.parent?.getD ⟨""⟩

namespace Loading

/-- What is there before anything is declared. -/
def initial : Loading :=
  { project := {} }

/-- What is there when the sections of a file are about to be read. -/
def enter (l : Loading) (full : Path) : Loading where
  project := { l.project with props := l.project.props.setFile full full.directory }
  journal := l.journal ++ [⟨.debug, "importing `" ++ full.text ++ "`"⟩]

/-- What is there when a file that was taken up in `l` has been read to `inner`. -/
def leave (l inner : Loading) : Loading :=
  { inner with project :=
    { inner.project with props := l.project.props.restoreFile inner.project.props } }

end Loading

namespace Project

open Import

/-- A file that holds a description ends as its sections do. -/
theorem runFrom_importFile (w : World) (depth : Nat) (path : Path) (l : Loading) :
    runFrom l (importFile w (depth + 1) path) =
      match w.readDescription path with
      | .error failure => (.error (.failed failure), l)
      | .ok (full, root) =>
        let sections := runFrom (l.enter full)
          (importSections w (importFile w depth) root full.directory)
        (sections.1.map fun _ => root, l.leave sections.2) := by
  rw [importFile, World.readDescription]
  simp only [runFrom_bind]
  cases w.absolute path with
  | error failure => rfl
  | ok full =>
      simp only [runFrom_check_ok]
      cases w.readDocument full with
      | error failure => rfl
      | ok root =>
          simp only [runFrom_check_ok]
          by_cases hr : root.tag = rootTag
          · simp only [hr, bne_self_eq_false, Bool.false_eq_true, if_false, if_true, runFrom_bind,
              runFrom_note, runFrom_project, runFrom_update, runFrom_afterwards, runFrom_pure]
            generalize hsections : runFrom _ (importSections w _ root _) = sections
            obtain ⟨outcome, inner⟩ := sections
            have hinner : runFrom (l.enter full) (importSections w (importFile w depth) root
                full.directory) = (outcome, inner) := hsections
            rw [hinner]
            cases outcome <;> rfl
          · simp only [bne_iff_ne, ne_eq, hr, not_false_eq_true, if_true, if_false]
            rfl

/-- An import that succeeds has read a description and all its sections. -/
theorem importFile_eq_ok {w : World} {depth : Nat} {path : Path} {l : Loading} {found : Element}
    (h : (runFrom l (importFile w (depth + 1) path)).1 = .ok found) :
    ∃ full root inner, w.readDescription path = .ok (full, root) ∧
      runFrom (l.enter full) (importSections w (importFile w depth) root full.directory) =
        (.ok (), inner) := by
  rw [runFrom_importFile] at h
  cases hd : w.readDescription path with
  | error failure => simp [hd] at h
  | ok read =>
      obtain ⟨full, root⟩ := read
      simp only [hd] at h
      cases hs : runFrom (l.enter full)
          (importSections w (importFile w depth) root full.directory) with
      | mk outcome inner =>
          cases outcome with
          | error fault => simp [hs, Except.map] at h
          | ok _ => exact ⟨full, root, inner, rfl, hs⟩

/-- An import that runs out of depth does so in the sections of a description. -/
theorem importFile_eq_tooDeep {w : World} {depth : Nat} {path deep : Path} {l : Loading}
    (h : (runFrom l (importFile w (depth + 1) path)).1 = .error (.tooDeep deep)) :
    ∃ full root inner, w.readDescription path = .ok (full, root) ∧
      runFrom (l.enter full) (importSections w (importFile w depth) root full.directory) =
        (.error (.tooDeep deep), inner) := by
  rw [runFrom_importFile] at h
  cases hd : w.readDescription path with
  | error failure => simp [hd] at h
  | ok read =>
      obtain ⟨full, root⟩ := read
      simp only [hd] at h
      cases hs : runFrom (l.enter full)
          (importSections w (importFile w depth) root full.directory) with
      | mk outcome inner =>
          cases outcome with
          | error fault =>
              have hfault : fault = .tooDeep deep := by simpa [hs, Except.map] using h
              exact ⟨full, root, inner, rfl, hfault ▸ hs⟩
          | ok _ => simp [hs, Except.map] at h

/-- A relation between properties, as one between projects in the making. -/
def Keeps (R : Properties → Properties → Prop) (l l' : Loading) : Prop :=
  R l.project.props l'.project.props

section Keeping

variable {R : Properties → Properties → Prop}

instance [Std.Refl R] : Std.Refl (Keeps R) := ⟨fun _ => refl_of R _⟩

instance [IsTrans Properties R] : IsTrans Loading (Keeps R) := ⟨fun _ _ _ => trans_of R⟩

theorem ensures_check [Std.Refl R] (outcome : Except Failure α) :
    Ensures (Keeps R) (check outcome) := by
  intro l
  cases outcome <;> exact refl_of R _

theorem ensures_project [Std.Refl R] : Ensures (Keeps R) Import.project :=
  fun l => refl_of (Keeps R) l

theorem ensures_note [Std.Refl R] (level : LogLevel) (text : String) :
    Ensures (Keeps R) (note level text) :=
  fun _ => refl_of R _

theorem ensures_update {change : Project → Project} (h : ∀ p, R p.props (change p).props) :
    Ensures (Keeps R) (update change) :=
  fun l => h l.project

theorem ensures_followImport [Std.Refl R] [IsTrans Properties R] {importer : Path → Import Element}
    (h : ∀ path, Ensures (Keeps R) (importer path)) (directory : Path) (e : Element) :
    Ensures (Keeps R) (followImport importer directory e) := by
  unfold followImport
  refine .bind ensures_project fun p => .bind (ensures_check _) fun file => ?_
  exact (h _).bind fun _ => .pure _

end Keeping

theorem ensures_declareProperty (e : Element) :
    Ensures (Keeps Properties.KeptIn) (declareProperty e) := by
  intro l
  have h := Properties.ensures_declareElement "" e l.project.props
  unfold declareProperty
  simp only [runFrom_bind, runFrom_project]
  unfold runFrom at h
  generalize (ExceptT.run (Properties.declareElement "" e)).run l.project.props = found at h ⊢
  obtain ⟨outcome, props⟩ := found
  cases outcome <;> exact h

theorem ensures_declarePreset (directory : Path) (e : Element) :
    Ensures (Keeps Properties.KeptIn) (declarePreset directory e) := by
  unfold declarePreset
  refine .bind ensures_project fun p => .bind (ensures_check _) fun preset => ?_
  refine .bind (ensures_update fun p => refl_of Properties.KeptIn p.props) fun _ => ?_
  split
  · exact .bind (ensures_note _ _) fun _ => ensures_note _ _
  · exact .pure _

theorem ensures_declareFileset (directory : Path) (e : Element) :
    Ensures (Keeps Properties.KeptIn) (declareFileset directory e) := by
  unfold declareFileset
  refine .bind ensures_project fun p => .bind (ensures_check _) fun fileset => ?_
  exact ensures_update fun p => refl_of Properties.KeptIn p.props

theorem ensures_declareTarget (w : World) (directory : Path) (e : Element) :
    Ensures (Keeps Properties.KeptIn) (declareTarget w directory e) := by
  unfold declareTarget
  refine .bind ensures_project fun p => .bind (ensures_check _) fun target => ?_
  exact ensures_update fun p => refl_of Properties.KeptIn p.props

/-- The sections of a file only add properties, if what they import does. -/
theorem ensures_importSections (w : World) {importer : Path → Import Element}
    (h : ∀ path, Ensures (Keeps Properties.KeptIn) (importer path)) (root : Element)
    (directory : Path) :
    Ensures (Keeps Properties.KeptIn) (importSections w importer root directory) := by
  unfold importSections
  refine .bind (.forM (ensures_followImport h directory) _) fun _ => ?_
  refine .bind (.forM ensures_declareProperty _) fun _ => ?_
  refine .bind (.forM (ensures_declarePreset directory) _) fun _ => ?_
  exact .bind (.forM (ensures_declareFileset directory) _) fun _ =>
    .forM (ensures_declareTarget w directory) _

/-- However an import ends, what was declared stays, and the file properties are as before. -/
theorem ensures_importFile (w : World) (depth : Nat) (path : Path) :
    Ensures (Keeps Properties.Scoped) (importFile w depth path) := by
  induction depth generalizing path with
  | zero => exact .throw _
  | succ depth ih =>
      intro l
      rw [runFrom_importFile]
      cases w.readDescription path with
      | error failure => exact refl_of (Keeps Properties.Scoped) l
      | ok found =>
          obtain ⟨full, root⟩ := found
          -- An import inside of the file restores the file properties, so it changes none of them.
          have hinner : ∀ p, Ensures (Keeps Properties.KeptIn) (importFile w depth p) :=
            fun p => (ih p).mono fun _ _ h => h.keptIn
          have hsections := ensures_importSections w hinner root full.directory (l.enter full)
          exact Properties.scoped_restoreFile hsections

end Project
end DeclarativeBuild
