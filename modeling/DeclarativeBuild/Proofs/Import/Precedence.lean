import DeclarativeBuild.Proofs.Import.Discovery
import DeclarativeBuild.Proofs.Import.Sections

/-!
# Which value of a property counts

The first value of a property is the one that counts, over all files that are read into a project.
Only the properties that tell about files come and go, and each file finds its own.
-/

namespace DeclarativeBuild

open Import Project

/-- A moment at which the file properties tell the absolute path of the file that the templates
stand in, its directory and its name. -/
def Moment.TellsFile (w : World) (m : Moment) : Prop :=
  ∃ asked full, w.absolute asked = .ok full ∧ m.file? = some full ∧
    m.props.get? "_file.path" = some full.text ∧
    m.props.get? "_file.dir" = some full.directory.text ∧
    m.props.get? "_file.name" = some (full.fileName?.getD "")

namespace Project

/-- The templates of a section find what its file has found, or stand in a file inside of it. -/
theorem mem_sectionMoments {file? : Option Path} {inner : Path → Loading → List Moment}
    {directory : Path} {e : Element} {l : Loading} {m : Moment}
    (hm : m ∈ sectionMoments file? inner directory e l) :
    (m.file? = file? ∧ l.project.props.KeptIn m.props) ∨ ∃ path, m ∈ inner path l := by
  rw [sectionMoments] at hm
  rcases List.mem_cons.mp hm with rfl | hm
  · exact .inl ⟨rfl, refl_of Properties.KeptIn _⟩
  · split at hm
    · split at hm
      · exact .inr ⟨_, hm⟩
      · cases hm
    · obtain ⟨p, hp, rfl⟩ := List.mem_map.mp hm
      exact .inl ⟨rfl, (Properties.between_elementMoments "" e l.project.props).start p hp⟩
    · cases hm

theorem tellsFile_of_mem_fileMoments {w : World} {depth : Nat} {path : Path} {l : Loading}
    {m : Moment} (hm : m ∈ fileMoments w depth path l) : m.TellsFile w := by
  induction depth generalizing path l m with
  | zero => simp [fileMoments] at hm
  | succ depth ih =>
      rw [fileMoments] at hm
      cases hd : w.readDescription path with
      | error failure => simp [hd] at hm
      | ok found =>
          obtain ⟨full, root⟩ := found
          rw [hd] at hm
          have hkept := ensures_importFile_keptIn w depth
          -- Nothing that is declared in the file, and no file inside of it, changes what it found.
          have hown : ∀ m : Moment, m.file? = some full →
              (l.enter full).project.props.KeptIn m.props → m.TellsFile w := by
            intro m hfile hprops
            obtain ⟨hpath, hdirectory, hname⟩ :=
              l.project.props.get?_setFile full full.directory
            exact ⟨path, full, (World.readDescription_eq_ok_iff.mp hd).1, hfile, hprops _ _ hpath,
              hprops _ _ hdirectory, hprops _ _ hname⟩
          rcases List.mem_append.mp hm with hm | hm
          · refine forall_mem_passing
              (I := fun l' : Loading => (l.enter full).project.props.KeptIn l'.project.props)
              ?_ ?_ root.sections (refl_of Properties.KeptIn _) m hm
            · intro e l' hl
              exact trans_of Properties.KeptIn hl (ensures_readSection hkept _ e l')
            · intro e l' hl m hm
              rcases mem_sectionMoments hm with ⟨hfile, hprops⟩ | ⟨path, hm⟩
              · exact hown m hfile (trans_of Properties.KeptIn hl hprops)
              · exact ih hm
          · rw [List.mem_singleton.mp hm]
            exact hown _ rfl (ensures_importSections w hkept root full.directory (l.enter full))

/-- However importing a file ends, the file properties are afterwards as they were before, there or
not.  Each section of it, and of each file inside of it, is read at a moment of its own: all of its
templates are expanded with the properties of that moment.  At every moment they tell the path,
directory and name of the file that the templates stand in, whatever values they had. -/
theorem importFile_scopes_fileProperties (w : World) (depth : Nat) (path : Path) (l : Loading) :
    (∀ name ∈ filePropertyNames,
      (runFrom l (importFile w depth path)).2.project.props.get? name = l.project.props.get? name) ∧
    w.Imports depth path l (fileMoments w depth path l) (runFrom l (importFile w depth path)) ∧
    ∀ m ∈ fileMoments w depth path l, m.TellsFile w :=
  ⟨(ensures_importFile w depth path l).file, imports_importFile w depth path l,
    fun _ hm => tellsFile_of_mem_fileMoments hm⟩

/-- A file that another one, which cannot be read, is imported by, where the file properties are
declared before. -/
theorem importFile_scopes_fileProperties_swallowing :
    let l : Loading := { project := { props := ⟨[("_file.path", "mine")]⟩ } }
    let run := runFrom l (importFile swallowing 2 ⟨"/config.xml"⟩)
    run.1 = .error (.failed (.foreignDocument ⟨"/other.xml"⟩ "settings")) ∧
    run.2.project.props.get? "_file.path" = some "mine" ∧
    run.2.project.props.get? "_file.dir" = none ∧
    ∃ m ∈ fileMoments swallowing 2 ⟨"/config.xml"⟩ l,
      m.props.get? "_file.path" = some "/config.xml" := by
  intro l run
  obtain ⟨hscoped, -, hmoments⟩ :=
    importFile_scopes_fileProperties swallowing 2 ⟨"/config.xml"⟩ l
  refine ⟨importFile_swallowing 0 l, hscoped "_file.path" (by decide),
    hscoped "_file.dir" (by decide), ?_⟩
  obtain ⟨root, hd, -⟩ := World.exists_of_imports reads_swallowing.1
  have hlast : ∃ m ∈ fileMoments swallowing 2 ⟨"/config.xml"⟩ l,
      m.file? = some ⟨"/config.xml"⟩ := by
    rw [fileMoments, hd]
    exact ⟨_, List.mem_append_right _ (List.mem_singleton_self _), rfl⟩
  obtain ⟨m, hm, hfile⟩ := hlast
  obtain ⟨asked, full, -, hfull, hpath, -⟩ := hmoments m hm
  obtain rfl : full = ⟨"/config.xml"⟩ := Option.some.inj (hfull.symm.trans hfile)
  exact ⟨m, hm, hpath⟩

end Project

/-- A call that reads more into a project: a file, the main file, or a root that was read before. -/
inductive ImportCall where
  | file (w : World) (depth : Nat) (path : Path)
  | main (w : World) (depth : Nat) (path : Path)
  | node (w : World) (depth : Nat) (root : Element) (directory : Path)

namespace ImportCall

def steps : ImportCall → Import Unit
  | file w depth path => discard (importFile w depth path)
  | main w depth path => importMain w depth path
  | node w depth root directory => importSections w (importFile w depth) root directory

/-- What a call leaves, whether or not it succeeds. -/
def after (l : Loading) (c : ImportCall) : Loading :=
  (runFrom l c.steps).2

def moments : ImportCall → Loading → List Moment
  | file w depth path, l | main w depth path, l => fileMoments w depth path l
  | node w depth root directory, l =>
    sectionsMoments w (importFile w depth) (fileMoments w depth) none root directory l

/-- The properties over several calls: before, within and after each of them. -/
def history : List ImportCall → Loading → List Properties
  | [], l => [l.project.props]
  | c :: rest, l =>
    l.project.props :: ((c.moments l).map Moment.props ++ history rest (c.after l))

theorem keptIn_after (c : ImportCall) (l : Loading) :
    l.project.props.KeptIn (after l c).project.props := by
  suffices h : Ensures (Keeps Properties.KeptIn) c.steps from h l
  cases c with
  | file w depth path => exact .bind (ensures_importFile_keptIn w depth path) fun _ => .pure _
  | main w depth path =>
      refine .bind (ensures_importFile_keptIn w depth path) fun root => ensures_update fun p => ?_
      exact refl_of Properties.KeptIn p.props
  | node w depth root directory =>
      exact ensures_importSections w (ensures_importFile_keptIn w depth) root directory

theorem props_after_file (w : World) (depth : Nat) (path : Path) (l : Loading) :
    (after l (file w depth path)).project.props =
        (runFrom l (importFile w depth path)).2.project.props ∧
      (after l (main w depth path)).project.props =
        (runFrom l (importFile w depth path)).2.project.props := by
  constructor
  · change (runFrom l (importFile w depth path >>= fun _ => pure ())).2.project.props = _
    rw [runFrom_bind]
    obtain ⟨outcome, l'⟩ := runFrom l (importFile w depth path)
    cases outcome <;> rfl
  · change (runFrom l (importMain w depth path)).2.project.props = _
    rw [importMain, runFrom_bind]
    obtain ⟨outcome, l'⟩ := runFrom l (importFile w depth path)
    cases outcome <;> rfl

theorem between_moments (c : ImportCall) (l : Loading) :
    Between Properties.OthersKeptIn l.project.props ((c.moments l).map Moment.props)
      (after l c).project.props := by
  cases c with
  | file w depth path =>
      rw [(props_after_file w depth path l).1]
      exact between_fileMoments w depth path l
  | main w depth path =>
      rw [(props_after_file w depth path l).2]
      exact between_fileMoments w depth path l
  | node w depth root directory =>
      exact between_sectionsMoments (between_fileMoments w depth)
        (ensures_importFile_keptIn w depth) none root directory l

theorem between_history (calls : List ImportCall) (l : Loading) :
    Between Properties.OthersKeptIn l.project.props (history calls l)
      (calls.foldl after l).project.props := by
  induction calls generalizing l with
  | nil => exact .single (refl_of Properties.OthersKeptIn _)
  | cons c rest ih => exact .cons ((between_moments c l).append (ih (after l c)))

theorem keptIn_foldl_after (calls : List ImportCall) (l : Loading) :
    l.project.props.KeptIn (calls.foldl after l).project.props := by
  induction calls generalizing l with
  | nil => exact refl_of Properties.KeptIn _
  | cons c rest ih => exact trans_of Properties.KeptIn (keptIn_after c l) (ih (after l c))

end ImportCall

/-- Of several declarations of a name, the first counts. -/
theorem Properties.get?_foldl_declare (entries : List (String × String)) (p : Properties)
    (name : String) :
    (entries.foldl (fun (p : Properties) (n, v) => (p.declare n v).2) p).get? name =
      (p.get? name).or (entries.lookup name) := by
  induction entries generalizing p with
  | nil => simp
  | cons entry rest ih =>
      obtain ⟨n, v⟩ := entry
      rw [List.foldl_cons, ih, get?_declare, Option.or_assoc, lookup_cons]
      by_cases hname : name = n <;> simp [hname]

namespace Session

theorem lookup_addOverride (s : Session) (n v name : String) :
    (s.addOverride n v).overrides.lookup name =
      if name = n then some v else s.overrides.lookup name := by
  unfold addOverride
  split
  · next hany =>
    rw [Properties.lookup_map_replace]
    by_cases hname : name = n
    · obtain ⟨old, hold⟩ : ∃ old, s.overrides.lookup n = some old := by
        rw [← Option.ne_none_iff_exists', ne_eq, List.lookup_eq_none_iff]
        intro hnone
        obtain ⟨entry, hm, heq⟩ := List.any_eq_true.mp hany
        have hne := hnone entry hm
        simp [eq_of_beq heq] at hne
      rw [if_pos hname, if_pos hname, hname, hold, Option.map_some]
    · rw [if_neg hname, if_neg hname]
  · next hany =>
    rw [List.lookup_append, Properties.lookup_cons, List.lookup_nil]
    by_cases hname : name = n
    · have hnone : s.overrides.lookup n = none := by
        rw [List.lookup_eq_none_iff]
        intro entry hm
        have hne : entry.1 ≠ n := by
          intro heq
          exact hany (List.any_eq_true.mpr ⟨entry, hm, beq_iff_eq.mpr heq⟩)
        simpa using Ne.symm hne
      rw [if_pos hname, if_pos hname, hname, hnone, Option.none_or]
    · rw [if_neg hname, if_neg hname, Option.or_none]

/-- Of several overrides of a name, the last one counts. -/
theorem lookup_foldl_addOverride (given : List (String × String)) (s : Session) (name : String) :
    (given.foldl (fun s (n, v) => s.addOverride n v) s).overrides.lookup name =
      (given.reverse.lookup name).or (s.overrides.lookup name) := by
  induction given generalizing s with
  | nil => simp
  | cons entry rest ih =>
      obtain ⟨n, v⟩ := entry
      rw [List.foldl_cons, ih, lookup_addOverride, List.reverse_cons, List.lookup_append,
        Option.or_assoc, Properties.lookup_cons]
      by_cases hname : name = n <;> simp [hname]

end Session

/-- Whatever is read into a project, and however each call ends, a property that has a value keeps
it, those that tell about files apart.  So an override has its last value from the start on, against
the built-in properties and all that is declared in any file.  One of a property that tells about
files has it whenever no file is being read. -/
theorem first_value_lasts (w : World) (s : Session) (given : List (String × String)) (root : Path)
    (calls : List ImportCall) :
    let context := given.foldl (fun s (n, v) => s.addOverride n v) { s with overrides := [] }
    let opened : Loading := { project := Project.start w context root }
    (ImportCall.history calls opened).Pairwise Properties.OthersKeptIn ∧
    ∀ name value, given.reverse.lookup name = some value →
      (name ∉ filePropertyNames →
        ∀ p ∈ ImportCall.history calls opened, p.get? name = some value) ∧
      (calls.foldl ImportCall.after opened).project.props.get? name = some value := by
  intro context opened
  have hbetween := ImportCall.between_history calls opened
  refine ⟨hbetween.ordered, fun name value hgiven => ?_⟩
  have hoverride : context.overrides.lookup name = some value := by
    rw [Session.lookup_foldl_addOverride, hgiven, Option.some_or]
  have hopened : opened.project.props.get? name = some value := by
    simp only [opened, Project.start, Properties.get?_foldl_declare, hoverride]
    rfl
  refine ⟨fun hn p hp => ?_, ?_⟩
  · exact hbetween.start p hp name hn value hopened
  · exact ImportCall.keptIn_foldl_after calls opened name value hopened

/-- A file that cannot be imported, a main file, and a root that declares an overridden property. -/
def overriddenCalls : List ImportCall :=
  [.file swallowing 2 ⟨"/config.xml"⟩, .main swallowing 1 ⟨"/proj/build.xml"⟩,
    .node swallowing 0
      (.mk "buildcc" [] [.mk "property" [("name", "out"), ("value", "own")] [] none] none)
      ⟨"/proj"⟩]

theorem first_value_lasts_overriddenCalls :
    let given := [("out", "first"), ("_file.path", "mine"), ("user.name", "me"), ("out", "last")]
    let context := given.foldl (fun s (n, v) => s.addOverride n v)
      { ({ cwd := ⟨"/proj"⟩ } : Session) with overrides := [] }
    let opened : Loading := { project := Project.start swallowing context ⟨"/proj"⟩ }
    (∀ p ∈ ImportCall.history overriddenCalls opened,
      p.get? "out" = some "last" ∧ p.get? "user.name" = some "me") ∧
    (overriddenCalls.foldl ImportCall.after opened).project.props.get? "_file.path" =
      some "mine" := by
  intro given context opened
  obtain ⟨-, hlasts⟩ :=
    first_value_lasts swallowing { cwd := ⟨"/proj"⟩ } given ⟨"/proj"⟩ overriddenCalls
  have hout := (hlasts "out" "last" (by decide)).1 (by decide)
  have huser := (hlasts "user.name" "me" (by decide)).1 (by decide)
  exact ⟨fun p hp => ⟨hout p hp, huser p hp⟩, (hlasts "_file.path" "mine" (by decide)).2⟩

end DeclarativeBuild
