import DeclarativeBuild.Proofs.Import.Depth

/-!
# Moments of an import

The properties that the templates of one element after the other are expanded with, in a file and in
the files that it imports, as far as an import comes.  From each moment to all later ones, no
property changes but those that tell about files.
-/

namespace DeclarativeBuild

/-- What comes between a start and an end, where whatever is earlier is related to what is later. -/
structure Between {α : Type} (R : α → α → Prop) (first : α) (passed : List α) (last : α) :
    Prop where
  ends : R first last
  start : ∀ a ∈ passed, R first a
  stop : ∀ a ∈ passed, R a last
  ordered : passed.Pairwise R

namespace Between

variable {α : Type} {R : α → α → Prop} {a b c : α} {xs ys : List α}

theorem nil (h : R a b) : Between R a [] b :=
  ⟨h, by simp, by simp, .nil⟩

theorem single [Std.Refl R] (h : R a b) : Between R a [a] b := by
  refine ⟨h, fun x hx => ?_, fun x hx => ?_, List.pairwise_singleton R a⟩
  · rw [List.mem_singleton.mp hx]
    exact refl_of R a
  · rwa [List.mem_singleton.mp hx]

theorem append [IsTrans α R] (hx : Between R a xs b) (hy : Between R b ys c) :
    Between R a (xs ++ ys) c := by
  refine ⟨trans_of R hx.ends hy.ends, fun x hm => ?_, fun x hm => ?_, ?_⟩
  · rcases List.mem_append.mp hm with hm | hm
    · exact hx.start x hm
    · exact trans_of R hx.ends (hy.start x hm)
  · rcases List.mem_append.mp hm with hm | hm
    · exact trans_of R (hx.stop x hm) hy.ends
    · exact hy.stop x hm
  · refine List.pairwise_append.mpr ⟨hx.ordered, hy.ordered, fun x hm y hm' => ?_⟩
    exact trans_of R (hx.stop x hm) (hy.start y hm')

theorem cons [Std.Refl R] [IsTrans α R] (h : Between R a xs b) : Between R a (a :: xs) b :=
  (single (refl_of R a)).append h

theorem mono {Q : α → α → Prop} (h : Between R a xs b) (hq : ∀ a b, R a b → Q a b) :
    Between Q a xs b :=
  ⟨hq _ _ h.ends, fun x hm => hq _ _ (h.start x hm), fun x hm => hq _ _ (h.stop x hm),
    h.ordered.imp (hq _ _)⟩

end Between

section Passing

variable {ε σ τ ι : Type} {act : ι → ExceptT ε (StateM σ) PUnit} {inner : ι → σ → List τ}

/-- What is passed where items are gone through, up to the first that fails. -/
def passing (act : ι → ExceptT ε (StateM σ) PUnit) (inner : ι → σ → List τ) : List ι → σ → List τ
  | [], _ => []
  | i :: rest, s =>
    inner i s ++
      match runFrom s (act i) with
      | (.ok _, s') => passing act inner rest s'
      | (.error _, _) => []

/-- What every item keeps is kept over all that is passed. -/
theorem between_passing {α : Type} {R : α → α → Prop} [Std.Refl R] [IsTrans α R] (view : σ → α)
    (look : τ → α)
    (h : ∀ i s, Between R (view s) ((inner i s).map look) (view (runFrom s (act i)).2))
    (items : List ι) (s : σ) :
    Between R (view s) ((passing act inner items s).map look)
      (view (runFrom s (items.forM act)).2) := by
  induction items generalizing s with
  | nil => exact .nil (refl_of R _)
  | cons i rest ih =>
      have hi := h i s
      rw [forM_cons, runFrom_bind, passing]
      cases hs : runFrom s (act i) with
      | mk outcome s' =>
          rw [hs] at hi
          cases outcome with
          | error e => simpa using hi
          | ok _ =>
              rw [List.map_append]
              exact hi.append (ih s')

theorem forall_mem_passing {I : σ → Prop} {P : τ → Prop}
    (hact : ∀ i s, I s → I (runFrom s (act i)).2) (hinner : ∀ i s, I s → ∀ m ∈ inner i s, P m)
    (items : List ι) {s : σ} (hs : I s) : ∀ m ∈ passing act inner items s, P m := by
  induction items generalizing s with
  | nil => simp [passing]
  | cons i rest ih =>
      intro m hm
      rw [passing] at hm
      rcases List.mem_append.mp hm with hm | hm
      · exact hinner i s hs m hm
      · have hnext := hact i s hs
        cases hrun : runFrom s (act i) with
        | mk outcome s' =>
            rw [hrun] at hm hnext
            cases outcome with
            | error e => simp at hm
            | ok _ => exact ih hnext m hm

end Passing

namespace Properties

/-- What an element does before those inside of it are come to.  It gives the beginning of their
names unless its condition fails. -/
def enterElement (outer : String) (e : Element) : Declaring (Option String) := do
  if ← (← get).holds e then
    let name := outer ++ (← e.require "name")
    declareOwn name e
    return some (name ++ ".")
  else return none

theorem declareElement_eq (outer tag : String) (attributes : List (String × String))
    (children : List Element) (text? : Option String) :
    declareElement outer (.mk tag attributes children text?) =
      enterElement outer (.mk tag attributes children text?) >>= fun
        | some inner => declareChildren inner children
        | none => pure () := by
  rw [declareElement, enterElement]
  simp only [bind_assoc]
  congr 1
  funext p
  congr 1
  funext holds
  cases holds <;> simp [bind_assoc]

theorem ensures_enterElement (outer : String) (e : Element) :
    Ensures KeptIn (enterElement outer e) := by
  unfold enterElement
  refine .bind .get fun p => .bind (.lift _) fun holds => ?_
  split
  · exact .bind (.lift _) fun name => .bind (ensures_declareOwn _ _) fun _ => .pure _
  · exact .pure _

mutual

/-- The properties when an element, or one inside of it, is come to. -/
def elementMoments (outer : String) : Element → Properties → List Properties
  | .mk tag attributes children text?, p =>
    p ::
      match runFrom p (enterElement outer (.mk tag attributes children text?)) with
      | (.ok (some inner), p') => childrenMoments inner children p'
      | (.ok none, _) | (.error _, _) => []

/-- The properties when each of several elements is come to, and after the last one. -/
def childrenMoments (outer : String) : List Element → Properties → List Properties
  | [], p => [p]
  | e :: rest, p =>
    if e.tag == "property" then
      elementMoments outer e p ++
        match runFrom p (declareElement outer e) with
        | (.ok _, p') => childrenMoments outer rest p'
        | (.error _, _) => []
    else childrenMoments outer rest p

end

mutual

theorem between_elementMoments (outer : String) : (e : Element) → (p : Properties) →
    Between KeptIn p (elementMoments outer e p) (runFrom p (declareElement outer e)).2
  | .mk tag attributes children text?, p => by
      have henter := ensures_enterElement outer (.mk tag attributes children text?) p
      rw [declareElement_eq, runFrom_bind, elementMoments]
      cases hs : runFrom p (enterElement outer (.mk tag attributes children text?)) with
      | mk outcome p' =>
          rw [hs] at henter
          rcases outcome with failure | _ | inner
          · exact .single henter
          · exact .single henter
          · exact (Between.single henter).append (between_childrenMoments inner children p')

theorem between_childrenMoments (outer : String) : (elements : List Element) → (p : Properties) →
    Between KeptIn p (childrenMoments outer elements p)
      (runFrom p (declareChildren outer elements)).2
  | [], p => by
      rw [childrenMoments, declareChildren]
      exact .single (refl_of KeptIn p)
  | e :: rest, p => by
      rw [childrenMoments, declareChildren]
      split
      · have he := between_elementMoments outer e p
        rw [runFrom_bind]
        cases hs : runFrom p (declareElement outer e) with
        | mk outcome p' =>
            rw [hs] at he
            cases outcome with
            | error failure => simpa using he
            | ok _ => exact he.append (between_childrenMoments outer rest p')
      · exact between_childrenMoments outer rest p

end

end Properties

/-- The properties that templates are expanded with at a moment, and the file that they stand in, if
it is known. -/
structure Moment where
  file? : Option Path
  props : Properties

/-- The elements of a root that are read, in the order in which they are. -/
def Element.sections (root : Element) : List Element :=
  ["import", "property", "preset", "fileset", "target"].flatMap root.childrenNamed

namespace Project

open Import

def readSection (w : World) (importer : Path → Import Element) (directory : Path) (e : Element) :
    Import Unit :=
  match e.tag with
  | "import" => followImport importer directory e
  | "property" => declareProperty e
  | "preset" => declarePreset directory e
  | "fileset" => declareFileset directory e
  | _ => declareTarget w directory e

theorem forM_childrenNamed {act act' : Element → Import Unit} {tag : String} (root : Element)
    (h : ∀ e : Element, e.tag = tag → act e = act' e) :
    (root.childrenNamed tag).forM act = (root.childrenNamed tag).forM act' := by
  have hall : ∀ e ∈ root.childrenNamed tag, act e = act' e :=
    fun e hm => h e (by simpa using (List.mem_filter.mp hm).2)
  generalize root.childrenNamed tag = items at hall ⊢
  induction items with
  | nil => rfl
  | cons e rest ih =>
      rw [forM_cons, forM_cons, hall e List.mem_cons_self,
        ih fun e hm => hall e (List.mem_cons_of_mem _ hm)]

theorem importSections_eq (w : World) (importer : Path → Import Element) (root : Element)
    (directory : Path) :
    importSections w importer root directory =
      root.sections.forM (readSection w importer directory) := by
  have himport : ∀ e : Element, e.tag = "import" →
      followImport importer directory e = readSection w importer directory e :=
    fun e he => by simp [readSection, he]
  have hproperty : ∀ e : Element, e.tag = "property" →
      declareProperty e = readSection w importer directory e :=
    fun e he => by simp [readSection, he]
  have hpreset : ∀ e : Element, e.tag = "preset" →
      declarePreset directory e = readSection w importer directory e :=
    fun e he => by simp [readSection, he]
  have hfileset : ∀ e : Element, e.tag = "fileset" →
      declareFileset directory e = readSection w importer directory e :=
    fun e he => by simp [readSection, he]
  have htarget : ∀ e : Element, e.tag = "target" →
      declareTarget w directory e = readSection w importer directory e :=
    fun e he => by simp [readSection, he]
  have hforM : ∀ xs ys : List Element, (xs ++ ys).forM (readSection w importer directory) =
      xs.forM (readSection w importer directory) >>= fun _ =>
        ys.forM (readSection w importer directory) := fun xs ys => List.forM_append
  rw [importSections, forM_childrenNamed root himport, forM_childrenNamed root hproperty,
    forM_childrenNamed root hpreset, forM_childrenNamed root hfileset,
    forM_childrenNamed root htarget, Element.sections]
  simp only [List.flatMap_cons, List.flatMap_nil, List.append_nil, hforM]

/-- The moments of reading a section, where `inner` tells those of a file that it imports. -/
def sectionMoments (file? : Option Path) (inner : Path → Loading → List Moment) (directory : Path)
    (e : Element) (l : Loading) : List Moment :=
  ⟨file?, l.project.props⟩ ::
    match e.tag with
    | "import" =>
      match e.require "file" >>= l.project.props.expand with
      | .ok file => inner (directory.join ⟨file⟩) l
      | .error _ => []
    | "property" => (Properties.elementMoments "" e l.project.props).map (⟨file?, ·⟩)
    | _ => []

/-- The moments of reading the sections of a root, and the one after them. -/
def sectionsMoments (w : World) (importer : Path → Import Element)
    (inner : Path → Loading → List Moment) (file? : Option Path) (root : Element)
    (directory : Path) (l : Loading) : List Moment :=
  passing (readSection w importer directory) (sectionMoments file? inner directory)
      root.sections l ++
    [⟨file?, (runFrom l (importSections w importer root directory)).2.project.props⟩]

/-- The moments of importing a file. -/
def fileMoments (w : World) : Nat → Path → Loading → List Moment
  | 0, _, _ => []
  | depth + 1, path, l =>
    match w.readDescription path with
    | .error _ => []
    | .ok (full, root) =>
      sectionsMoments w (importFile w depth) (fileMoments w depth) (some full) root full.directory
        (l.enter full)

section Sections

variable {w : World} {importer : Path → Import Element} {inner : Path → Loading → List Moment}

theorem ensures_readSection (h : ∀ path, Ensures (Keeps Properties.KeptIn) (importer path))
    (directory : Path) (e : Element) :
    Ensures (Keeps Properties.KeptIn) (readSection w importer directory e) := by
  unfold readSection
  split
  · exact ensures_followImport h directory e
  · exact ensures_declareProperty e
  · exact ensures_declarePreset directory e
  · exact ensures_declareFileset directory e
  · exact ensures_declareTarget w directory e

theorem runFrom_declareProperty (e : Element) (l : Loading) :
    runFrom l (declareProperty e) =
      ((runFrom l.project.props (Properties.declareElement "" e)).1.mapError .failed,
        { l with project := { l.project with
          props := (runFrom l.project.props (Properties.declareElement "" e)).2 } }) := by
  unfold declareProperty
  simp only [runFrom_bind, runFrom_project]
  change runFrom _ (check (runFrom l.project.props (Properties.declareElement "" e)).1) = _
  cases (runFrom l.project.props (Properties.declareElement "" e)).1 <;> rfl

theorem between_sectionMoments
    (hin : ∀ path l, Between Properties.OthersKeptIn l.project.props
      ((inner path l).map Moment.props) (runFrom l (importer path)).2.project.props)
    (hkept : ∀ path, Ensures (Keeps Properties.KeptIn) (importer path))
    (file? : Option Path) (directory : Path) (e : Element) (l : Loading) :
    Between Properties.OthersKeptIn l.project.props
      ((sectionMoments file? inner directory e l).map Moment.props)
      (runFrom l (readSection w importer directory e)).2.project.props := by
  have hkeeps := ensures_readSection (w := w) hkept directory e l
  rw [sectionMoments, List.map_cons]
  apply Between.cons
  split
  · next htag =>
    have hsection : readSection w importer directory e = followImport importer directory e := by
      simp [readSection, htag]
    rw [hsection] at hkeeps ⊢
    cases hfile : e.require "file" >>= l.project.props.expand with
    | error failure => exact .nil hkeeps.others
    | ok file =>
        rw [runFrom_followImport, hfile]
        exact hin _ l
  · next htag =>
    have hsection : readSection w importer directory e = declareProperty e := by
      simp [readSection, htag]
    have hlook : (Moment.props ∘ fun p => ⟨file?, p⟩) = (id : Properties → Properties) := rfl
    rw [hsection, runFrom_declareProperty, List.map_map, hlook, List.map_id]
    exact (Properties.between_elementMoments "" e l.project.props).mono fun _ _ h => h.others
  · exact .nil hkeeps.others

theorem between_sectionsMoments
    (hin : ∀ path l, Between Properties.OthersKeptIn l.project.props
      ((inner path l).map Moment.props) (runFrom l (importer path)).2.project.props)
    (hkept : ∀ path, Ensures (Keeps Properties.KeptIn) (importer path))
    (file? : Option Path) (root : Element) (directory : Path) (l : Loading) :
    Between Properties.OthersKeptIn l.project.props
      ((sectionsMoments w importer inner file? root directory l).map Moment.props)
      (runFrom l (importSections w importer root directory)).2.project.props := by
  rw [sectionsMoments, List.map_append, importSections_eq]
  have hpassed := between_passing (fun l : Loading => l.project.props) Moment.props
    (fun e l => between_sectionMoments (w := w) hin hkept file? directory e l) root.sections l
  exact hpassed.append (.single (refl_of Properties.OthersKeptIn _))

end Sections

theorem ensures_importFile_keptIn (w : World) (depth : Nat) (path : Path) :
    Ensures (Keeps Properties.KeptIn) (importFile w depth path) :=
  (ensures_importFile w depth path).mono fun _ _ h => h.keptIn

/-- From before a file is imported until it has been, no property changes but those that tell about
files. -/
theorem between_fileMoments (w : World) (depth : Nat) (path : Path) (l : Loading) :
    Between Properties.OthersKeptIn l.project.props
      ((fileMoments w depth path l).map Moment.props)
      (runFrom l (importFile w depth path)).2.project.props := by
  induction depth generalizing path l with
  | zero => exact .nil (refl_of Properties.OthersKeptIn _)
  | succ depth ih =>
      rw [runFrom_importFile, fileMoments]
      cases w.readDescription path with
      | error failure => exact .nil (refl_of Properties.OthersKeptIn _)
      | ok found =>
          obtain ⟨full, root⟩ := found
          -- The file properties are set before the sections are read and put back after them.
          have henter : l.project.props.OthersKeptIn (l.enter full).project.props := by
            intro name hn value hv
            exact (Properties.get?_setFile_of_notMem hn _ _ _).trans hv
          have hleave : ∀ inner : Loading,
              inner.project.props.OthersKeptIn (l.leave inner).project.props := by
            intro inner name hn value hv
            exact (Properties.get?_foldl_restore _ _ _ _).trans ((if_neg hn).trans hv)
          have hsections := between_sectionsMoments (w := w) ih (ensures_importFile_keptIn w depth)
            (some full) root full.directory (l.enter full)
          have hall := ((Between.nil henter).append hsections).append (.nil (hleave _))
          rwa [List.nil_append, List.append_nil] at hall

end Project
end DeclarativeBuild
