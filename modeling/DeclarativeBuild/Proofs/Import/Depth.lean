import DeclarativeBuild.Proofs.Import.Files

/-!
# The depth of imports

The depth that imports may have shows only where it is used up: an import that ends within some
depth ends alike within every larger one.  An import that uses up its depth has taken up as many
files inside of each other.
-/

namespace DeclarativeBuild

variable {α β ι : Type}

/-- Steps that end as others do, unless they run out of depth. -/
def Approximates (a b : Import α) : Prop :=
  ∀ l, (∃ path, (runFrom l a).1 = .error (.tooDeep path)) ∨ runFrom l b = runFrom l a

namespace Approximates

theorem rfl {a : Import α} : Approximates a a :=
  fun _ => .inr (Eq.refl _)

theorem bind {a b : Import α} {f g : α → Import β} (h : Approximates a b)
    (hfg : ∀ x, Approximates (f x) (g x)) : Approximates (a >>= f) (b >>= g) := by
  intro l
  rw [runFrom_bind, runFrom_bind]
  rcases h l with ⟨path, hdeep⟩ | heq
  · refine .inl ⟨path, ?_⟩
    generalize runFrom l a = found at hdeep ⊢
    obtain ⟨outcome, l'⟩ := found
    obtain rfl : outcome = .error (.tooDeep path) := hdeep
    exact Eq.refl _
  · rw [heq]
    obtain ⟨outcome, l'⟩ := runFrom l a
    cases outcome with
    | error fault => exact .inr (Eq.refl _)
    | ok x => exact hfg x l'

theorem forM {f g : ι → Import PUnit} (h : ∀ i, Approximates (f i) (g i)) (items : List ι) :
    Approximates (items.forM f) (items.forM g) := by
  induction items with
  | nil => exact .rfl
  | cons i rest ih =>
      rw [forM_cons, forM_cons]
      exact (h i).bind fun _ => ih

/-- Steps that end without running out of depth end alike. -/
theorem eq_of_ok {a b : Import α} (h : Approximates a b) {l l' : Loading} {x : α}
    (ha : runFrom l a = (.ok x, l')) : runFrom l b = (.ok x, l') := by
  rcases h l with ⟨path, hdeep⟩ | heq
  · rw [ha] at hdeep
    cases hdeep
  · exact heq.trans ha

end Approximates

namespace Project

open Import

theorem followImport_approximates {f g : Path → Import Element}
    (h : ∀ path, Approximates (f path) (g path)) (directory : Path) (e : Element) :
    Approximates (followImport f directory e) (followImport g directory e) := by
  unfold followImport
  refine .bind .rfl fun p => .bind .rfl fun file => ?_
  exact .bind (h _) fun _ => .rfl

theorem importSections_approximates (w : World) {f g : Path → Import Element}
    (h : ∀ path, Approximates (f path) (g path)) (root : Element) (directory : Path) :
    Approximates (importSections w f root directory) (importSections w g root directory) := by
  unfold importSections
  exact .bind (.forM (followImport_approximates h directory) _) fun _ => .rfl

/-- More depth makes no difference to an import that ends. -/
theorem importFile_approximates (w : World) {depth deeper : Nat} (h : depth ≤ deeper)
    (path : Path) : Approximates (importFile w depth path) (importFile w deeper path) := by
  induction depth generalizing deeper path with
  | zero => exact fun l => .inl ⟨path, rfl⟩
  | succ depth ih =>
      obtain ⟨deeper, rfl⟩ : ∃ n, deeper = n + 1 := ⟨deeper - 1, by omega⟩
      have hinner := fun p => ih (Nat.le_of_succ_le_succ h) p
      intro l
      rw [runFrom_importFile, runFrom_importFile]
      cases w.readDescription path with
      | error failure => exact .inr rfl
      | ok found =>
          obtain ⟨full, root⟩ := found
          rcases importSections_approximates w hinner root full.directory (l.enter full) with
            ⟨deep, hdeep⟩ | heq
          · exact .inl ⟨deep, congrArg (Except.map fun _ => root) hdeep⟩
          · refine .inr ?_
            simp only [heq]

/-- Steps that never run out of depth by themselves. -/
def Shallow (steps : Import α) : Prop :=
  ∀ l path, (runFrom l steps).1 ≠ .error (.tooDeep path)

namespace Shallow

theorem check (outcome : Except Failure α) : Shallow (check outcome) := by
  intro l path
  cases outcome <;> simp

theorem bind {steps : Import α} {next : α → Import β} (hs : Shallow steps)
    (hn : ∀ a, Shallow (next a)) : Shallow (steps >>= next) := by
  intro l path
  rw [runFrom_bind]
  have h := hs l path
  generalize runFrom l steps = found at h ⊢
  obtain ⟨outcome, l'⟩ := found
  cases outcome with
  | error fault =>
      intro hfault
      cases hfault
      exact h rfl
  | ok a => exact hn a l' path

theorem forM {act : ι → Import PUnit} (h : ∀ i, Shallow (act i)) (items : List ι) :
    Shallow (items.forM act) := by
  induction items with
  | nil => simp [Shallow]
  | cons i rest ih =>
      rw [forM_cons]
      exact (h i).bind fun _ => ih

end Shallow

theorem shallow_project : Shallow Import.project := by
  simp [Shallow]

theorem shallow_update (change : Project → Project) : Shallow (update change) := by
  simp [Shallow]

theorem shallow_note (level : LogLevel) (text : String) : Shallow (note level text) := by
  simp [Shallow]

theorem shallow_declareProperty (e : Element) : Shallow (declareProperty e) :=
  .bind shallow_project fun _ => .bind (shallow_update _) fun _ => .check _

theorem shallow_declarePreset (directory : Path) (e : Element) :
    Shallow (declarePreset directory e) := by
  unfold declarePreset
  refine .bind shallow_project fun p => .bind (.check _) fun preset => ?_
  refine .bind (shallow_update _) fun _ => ?_
  split
  · exact .bind (shallow_note _ _) fun _ => shallow_note _ _
  · simp [Shallow]

theorem shallow_declareFileset (directory : Path) (e : Element) :
    Shallow (declareFileset directory e) :=
  .bind shallow_project fun _ => .bind (.check _) fun _ => shallow_update _

theorem shallow_declareTarget (w : World) (directory : Path) (e : Element) :
    Shallow (declareTarget w directory e) :=
  .bind shallow_project fun _ => .bind (.check _) fun _ => shallow_update _

/-- An import element leads to a file, unless its path cannot be told. -/
theorem runFrom_followImport (importer : Path → Import Element) (directory : Path) (e : Element)
    (l : Loading) :
    runFrom l (followImport importer directory e) =
      match e.require "file" >>= l.project.props.expand with
      | .error failure => (.error (.failed failure), l)
      | .ok file =>
        let inner := runFrom l (importer (directory.join ⟨file⟩))
        (inner.1.map fun _ => (), inner.2) := by
  unfold followImport
  rw [runFrom_bind_of_ok (runFrom_project l), runFrom_bind]
  cases e.require "file" >>= l.project.props.expand with
  | error failure => rfl
  | ok file =>
      simp only [runFrom_check_ok]
      change runFrom l (importer (directory.join ⟨file⟩) >>= fun _ => pure ()) = _
      rw [runFrom_bind]
      obtain ⟨outcome, l'⟩ := runFrom l (importer (directory.join ⟨file⟩))
      cases outcome <;> rfl

/-- Sections run out of depth in one of the files that they import. -/
theorem importSections_tooDeep {w : World} {importer : Path → Import Element} {root : Element}
    {directory path : Path} {l l' : Loading}
    (h : runFrom l (importSections w importer root directory) = (.error (.tooDeep path), l')) :
    ∃ before e after inner file, root.childrenNamed "import" = before ++ e :: after ∧
      runFrom l (before.forM (followImport importer directory)) = (.ok (), inner) ∧
      (e.require "file" >>= inner.project.props.expand) = .ok file ∧
      (runFrom inner (importer (directory.join ⟨file⟩))).1 = .error (.tooDeep path) := by
  unfold importSections at h
  rcases runFrom_bind_eq_error h with himports | ⟨_, s, -, hrest⟩
  · obtain ⟨before, e, after, inner, hsplit, hbefore, he⟩ := runFrom_forM_eq_error himports
    rw [runFrom_followImport] at he
    cases hfile : e.require "file" >>= inner.project.props.expand with
    | error failure => simp [hfile] at he
    | ok file =>
        refine ⟨before, e, after, inner, file, hsplit, hbefore, hfile, ?_⟩
        rw [hfile] at he
        have hmap := congrArg Prod.fst he
        cases hinner : (runFrom inner (importer (directory.join ⟨file⟩))).1 with
        | error fault => simpa [hinner, Except.map] using hmap
        | ok root => simp [hinner, Except.map] at hmap
  · -- The other sections read no files.
    have hshallow : Shallow _ :=
      .bind (.forM shallow_declareProperty (root.childrenNamed "property")) fun _ =>
      .bind (.forM (shallow_declarePreset directory) (root.childrenNamed "preset")) fun _ =>
      .bind (.forM (shallow_declareFileset directory) (root.childrenNamed "fileset")) fun _ =>
        .forM (shallow_declareTarget w directory) (root.childrenNamed "target")
    exact absurd (congrArg Prod.fst hrest) (hshallow s path)

/-- Sections that succeed have read each file that they import. -/
theorem importSections_eq_ok {w : World} {importer : Path → Import Element} {root e : Element}
    {directory : Path} {l l' : Loading} {before after : List Element}
    (h : runFrom l (importSections w importer root directory) = (.ok (), l'))
    (himports : root.childrenNamed "import" = before ++ e :: after) :
    ∃ inner file found,
      runFrom l (before.forM (followImport importer directory)) = (.ok (), inner) ∧
      (e.require "file" >>= inner.project.props.expand) = .ok file ∧
      (runFrom inner (importer (directory.join ⟨file⟩))).1 = .ok found := by
  unfold importSections at h
  obtain ⟨_, s, hfollowed, -⟩ := runFrom_bind_eq_ok h
  rw [himports] at hfollowed
  obtain ⟨inner, hbefore, hrest⟩ := runFrom_forM_append_eq_ok hfollowed
  rw [forM_cons] at hrest
  obtain ⟨_, t, he, -⟩ := runFrom_bind_eq_ok hrest
  rw [runFrom_followImport] at he
  cases hfile : e.require "file" >>= inner.project.props.expand with
  | error failure => simp [hfile] at he
  | ok file =>
      rw [hfile] at he
      have hmap := congrArg Prod.fst he
      cases hinner : (runFrom inner (importer (directory.join ⟨file⟩))).1 with
      | error fault => simp [hinner, Except.map] at hmap
      | ok found => exact ⟨inner, file, found, hbefore, hfile, hinner⟩

/-- A file fails as one of those that it imports does, if it comes to that one. -/
theorem importFile_of_inner_error {w : World} {depth : Nat} {path full : Path} {root e : Element}
    {l inner : Loading} {before after : List Element} {fault : ImportFault} (file : String)
    (hd : w.readDescription path = .ok (full, root))
    (himports : root.childrenNamed "import" = before ++ e :: after)
    (hbefore : runFrom (l.enter full)
      (before.forM (followImport (importFile w depth) full.directory)) = (.ok (), inner))
    (hfile : (e.require "file" >>= inner.project.props.expand) = .ok file)
    (hinner : (runFrom inner (importFile w depth (full.directory.join ⟨file⟩))).1 = .error fault) :
    (runFrom l (importFile w (depth + 1) path)).1 = .error fault := by
  have he : runFrom inner (followImport (importFile w depth) full.directory e) =
      (.error fault, (runFrom inner (importFile w depth (full.directory.join ⟨file⟩))).2) := by
    rw [runFrom_followImport, hfile]
    simp only [hinner, Except.map]
  have hfollowed := runFrom_forM_of_error hbefore he after
  simp only [runFrom_importFile, hd]
  unfold importSections
  rw [himports, runFrom_bind_of_error hfollowed]
  rfl

/-- A file that only imports one fails as that one does, if it does so wherever it is taken up. -/
theorem importFile_of_only_error {w : World} {depth : Nat} {path : Path} {name : String}
    {fault : ImportFault} (himports : w.imports path [name] = true)
    (hplain : Template.segments name.toList = name.toList.map .char)
    (hinner : ∀ l, (runFrom l (importFile w depth (path.directory.join ⟨name⟩))).1 = .error fault)
    (l : Loading) : (runFrom l (importFile w (depth + 1) path)).1 = .error fault := by
  obtain ⟨root, hd, hfiles⟩ := World.exists_of_imports himports
  obtain ⟨e, helements, he⟩ := List.map_eq_singleton_iff.mp hfiles
  have honly : root.childrenNamed "import" = [] ++ e :: [] := helements
  refine importFile_of_inner_error name hd honly rfl ?_ (hinner _)
  rw [Element.require, he]
  exact Properties.expand_of_plain hplain _

/-- Imports that are followed to their end within two depths leave the same. -/
theorem forM_followImport_unique {w : World} {depth depth' : Nat} {directory : Path}
    {elements : List Element} {l l₁ l₂ : Loading}
    (h₁ : runFrom l (elements.forM (followImport (importFile w depth) directory)) = (.ok (), l₁))
    (h₂ : runFrom l (elements.forM (followImport (importFile w depth') directory)) = (.ok (), l₂)) :
    l₁ = l₂ := by
  -- Both agree with what the larger of the depths leaves.
  have hmax : ∀ {n : Nat}, n ≤ max depth depth' →
      Approximates (elements.forM (followImport (importFile w n) directory))
        (elements.forM (followImport (importFile w (max depth depth')) directory)) :=
    fun hn => .forM (followImport_approximates (importFile_approximates w hn) directory) elements
  have heq := ((hmax (Nat.le_max_left _ _)).eq_of_ok h₁).symm.trans
    ((hmax (Nat.le_max_right _ _)).eq_of_ok h₂)
  exact congrArg Prod.snd heq

end Project
end DeclarativeBuild
