import DeclarativeBuild.Proofs.Disk.Linkless
import DeclarativeBuild.Proofs.Import.Depth
import DeclarativeBuild.Proofs.Task.Reading
import Mathlib.Data.FinEnum
import Mathlib.Data.List.Chain
import Mathlib.Data.Set.Card
import Mathlib.Data.Set.Finite.List
import Mathlib.Logic.Relation

/-!
# Files that come to import themselves

An import ends if no file is taken up again while it is read.  If one is, the import does not
succeed: properties never change, so the file goes the same way again, and all that can stop it is a
failure.
-/

namespace DeclarativeBuild

open Relation Import Project

/-- A file that is taken up, with what is there by then. -/
structure Visit where
  path : Path
  found : Loading

/-- While the file of one visit is read, that of the other is taken up next: the imports before it
have been read, and its path can be told. -/
inductive World.Opens (w : World) : Visit → Visit → Prop
  | intro {v : Visit} {full directory : Path} {root e : Element} {before after : List Element}
      {depth : Nat} {l : Loading} {file : String}
      (description : w.readDescription v.path = .ok (full, root))
      (directory_eq : directory = full.directory)
      (imports : root.childrenNamed "import" = before ++ e :: after)
      (done : runFrom (v.found.enter full)
        (before.forM (followImport (importFile w depth) directory)) = (.ok (), l))
      (named : (e.require "file" >>= l.project.props.expand) = .ok file) :
      World.Opens w v ⟨directory.join ⟨file⟩, l⟩

/-- Some file that is taken up, the first one or one inside of it, is taken up again while it is
read. -/
def World.Recurs (w : World) (v : Visit) : Prop :=
  ∃ u again, ReflTransGen w.Opens v u ∧ TransGen w.Opens u again ∧
    w.absolute again.path = w.absolute u.path

/-- An import ends in this way, given enough depth. -/
def World.Ends (w : World) (v : Visit) (outcome : Except Failure Element) : Prop :=
  ∃ depth, ∀ deeper, depth ≤ deeper →
    (runFrom v.found (importFile w deeper v.path)).1 = outcome.mapError .failed

variable {w : World} {u v : Visit}

namespace World

theorem readDescription_congr {p q : Path} (h : w.absolute p = w.absolute q) :
    w.readDescription p = w.readDescription q := by
  unfold readDescription
  rw [h]

/-- An import that uses up its depth has taken up as many files inside of each other. -/
theorem exists_chain_of_tooDeep {depth : Nat} {path : Path}
    (h : (runFrom v.found (importFile w depth v.path)).1 = .error (.tooDeep path)) :
    ∃ chain : List Visit, chain.length = depth ∧ (v :: chain).IsChain w.Opens := by
  induction depth generalizing v with
  | zero => exact ⟨[], rfl, .singleton v⟩
  | succ depth ih =>
      obtain ⟨full, root, l', hd, hs⟩ := importFile_eq_tooDeep h
      obtain ⟨before, e, after, inner, file, himports, hdone, hnamed, hdeep⟩ :=
        importSections_tooDeep hs
      have hopens : w.Opens v ⟨full.directory.join ⟨file⟩, inner⟩ :=
        .intro hd rfl himports hdone hnamed
      obtain ⟨chain, hlength, hchain⟩ := ih (v := ⟨full.directory.join ⟨file⟩, inner⟩) hdeep
      exact ⟨_ :: chain, by simp [hlength], .cons_cons hopens hchain⟩

/-- The paths that can be looked up at all are finitely many. -/
theorem finite_paths : {p : Path | p.text.utf8ByteSize ≤ Disk.pathLimit}.Finite := by
  have hlists := List.finite_length_le UInt8 Disk.pathLimit
  have hbytes : Set.InjOn (fun p : Path => p.text.toByteArray.data.toList)
      (Set.preimage (fun p : Path => p.text.toByteArray.data.toList)
        {l | l.length ≤ Disk.pathLimit}) := by
    rintro ⟨p⟩ - ⟨q⟩ - hpq
    have harray : p.toByteArray = q.toByteArray := ByteArray.ext (Array.toList_inj.mp hpq)
    exact congrArg Path.mk (String.toByteArray_inj.mp harray)
  refine (hlists.preimage hbytes).subset fun p hp => ?_
  exact hp

theorem utf8ByteSize_le_of_readText {full : Path} {text : String}
    (h : w.readText full = .ok text) : full.text.utf8ByteSize ≤ Disk.pathLimit := by
  by_contra hlong
  have hfault : ∃ cause, Disk.textFault? full = some cause := by
    unfold Disk.textFault?
    split
    · exact ⟨_, rfl⟩
    · split
      · exact ⟨_, rfl⟩
      · exact ⟨_, if_pos (Nat.lt_of_not_le hlong)⟩
  obtain ⟨cause, hcause⟩ := hfault
  simp [readText, Disk.readText, Disk.entryAt, Disk.locate, hcause] at h

theorem readDescription_eq_ok {path full : Path} {root : Element}
    (h : w.readDescription path = .ok (full, root)) :
    w.absolute path = .ok full ∧ full.text.utf8ByteSize ≤ Disk.pathLimit := by
  obtain ⟨habsolute, text, ht⟩ := exists_text_of_readDescription h
  exact ⟨habsolute, utf8ByteSize_le_of_readText ht⟩

theorem exists_opens_of_mem_dropLast {visits : List Visit} (h : visits.IsChain w.Opens) :
    ∀ x ∈ visits.dropLast, ∃ y, w.Opens x y := by
  induction h with
  | nil => simp
  | singleton v => simp
  | cons_cons hopens _ ih =>
      rename_i v u rest _
      intro x hx
      rcases List.mem_cons.mp hx with rfl | hx
      · exact ⟨u, hopens⟩
      · exact ih x hx

/-- Where no file is taken up again while it is read, the files that are read inside of each other
have paths of their own. -/
theorem pairwise_absolute_ne (h : ¬w.Recurs v) {chain : List Visit}
    (hc : (v :: chain).IsChain w.Opens) :
    (v :: chain).Pairwise fun a b => w.absolute a.path ≠ w.absolute b.path := by
  have htrans : (v :: chain).Pairwise (TransGen w.Opens) :=
    List.isChain_iff_pairwise.mp (hc.imp fun _ _ => .single)
  have hreach : ∀ x ∈ v :: chain, ReflTransGen w.Opens v x := by
    intro x hx
    rcases List.mem_cons.mp hx with rfl | hx
    · exact .refl
    · exact ((List.pairwise_cons.mp htrans).1 x hx).to_reflTransGen
  refine htrans.imp_of_mem fun {a b} ha _ hab heq => ?_
  exact h ⟨a, b, hreach a ha, hab, heq.symm⟩

theorem length_le_of_not_recurs (h : ¬w.Recurs v) {chain : List Visit}
    (hc : (v :: chain).IsChain w.Opens) : chain.length ≤ finite_paths.toFinset.card := by
  classical
  have hdistinct : ((v :: chain).dropLast.map fun x => w.absolute x.path).Nodup :=
    List.pairwise_map.mpr ((pairwise_absolute_ne h hc).sublist (List.dropLast_sublist _))
  have hpaths : ((v :: chain).dropLast.map fun x => w.absolute x.path).toFinset ⊆
      finite_paths.toFinset.image Except.ok := by
    intro p hp
    obtain ⟨x, hx, rfl⟩ := List.mem_map.mp (List.mem_toFinset.mp hp)
    obtain ⟨y, hopens⟩ := exists_opens_of_mem_dropLast hc x hx
    cases hopens with
    | intro description =>
        -- A file that was read has a path short enough to be looked up.
        obtain ⟨habsolute, hlength⟩ := readDescription_eq_ok description
        exact Finset.mem_image.mpr ⟨_, finite_paths.mem_toFinset.mpr hlength, habsolute.symm⟩
  have hcard := (Finset.card_le_card hpaths).trans Finset.card_image_le
  rw [List.toFinset_card_of_nodup hdistinct] at hcard
  simpa using hcard

theorem exists_ends_of_not_recurs (h : ¬w.Recurs v) : ∃ outcome, w.Ends v outcome := by
  have hfault : ∀ path, (runFrom v.found
      (importFile w (finite_paths.toFinset.card + 1) v.path)).1 ≠ .error (.tooDeep path) := by
    intro path hdeep
    obtain ⟨chain, hlength, hchain⟩ := exists_chain_of_tooDeep hdeep
    have := length_le_of_not_recurs h hchain
    omega
  have hdeeper : ∀ deeper, finite_paths.toFinset.card + 1 ≤ deeper →
      runFrom v.found (importFile w deeper v.path) =
        runFrom v.found (importFile w (finite_paths.toFinset.card + 1) v.path) := by
    intro deeper hle
    rcases importFile_approximates w hle v.path v.found with ⟨path, hdeep⟩ | heq
    · exact absurd hdeep (hfault path)
    · exact heq
  cases hend : (runFrom v.found (importFile w (finite_paths.toFinset.card + 1) v.path)).1 with
  | ok root =>
      exact ⟨.ok root, _, fun deeper hle => (congrArg Prod.fst (hdeeper deeper hle)).trans hend⟩
  | error fault =>
      cases fault with
      | tooDeep path => exact absurd hend (hfault path)
      | failed failure =>
          exact ⟨.error failure, _, fun deeper hle =>
            (congrArg Prod.fst (hdeeper deeper hle)).trans hend⟩

namespace Opens

/-- What is declared when a file is taken up is declared when another is taken up inside of it. -/
theorem othersKeptIn (h : w.Opens v u) :
    v.found.project.props.OthersKeptIn u.found.project.props := by
  cases h with
  | @intro full directory root e before after depth l file description directory_eq imports done =>
      have hfollowed := Ensures.forM
        (ensures_followImport (ensures_importFile w depth) directory) before (v.found.enter full)
      rw [done] at hfollowed
      intro name hn value hv
      refine hfollowed.others name hn value ?_
      exact (Properties.get?_setFile_of_notMem hn _ _ _).trans hv

theorem exists_ok (h : w.Opens v u) {depth : Nat} {found : Element}
    (hok : (runFrom v.found (importFile w (depth + 1) v.path)).1 = .ok found) :
    ∃ inner, (runFrom u.found (importFile w depth u.path)).1 = .ok inner := by
  obtain ⟨full, root, l', hd, hs⟩ := importFile_eq_ok hok
  cases h with
  | intro description directory_eq imports done named =>
      obtain ⟨rfl, rfl⟩ : full = _ ∧ root = _ := by simpa [description] using hd.symm
      obtain ⟨l, file, inner, hbefore, hfile, hinner⟩ := importSections_eq_ok hs imports
      subst directory_eq
      obtain rfl := forM_followImport_unique done hbefore
      obtain rfl : _ = file := Except.ok.inj (named.symm.trans hfile)
      exact ⟨inner, hinner⟩

/-- A file that opened another one opens it again wherever all is declared that was declared then,
if only its import succeeds. -/
theorem replay (h : w.Opens v u) {p : Path} (hp : w.readDescription p = w.readDescription v.path)
    {s : Loading} (hs : u.found.project.props.OthersKeptIn s.project.props) {depth : Nat}
    {found : Element} (hok : (runFrom s (importFile w (depth + 1) p)).1 = .ok found) :
    ∃ s' inner, s.project.props.OthersKeptIn s'.project.props ∧
      (runFrom s' (importFile w depth u.path)).1 = .ok inner := by
  obtain ⟨full, root, l', hd, hsections⟩ := importFile_eq_ok hok
  cases h with
  | @intro full' directory root' e before after depth' l file description directory_eq imports done
      named =>
      obtain ⟨rfl, rfl⟩ : full = full' ∧ root = root' := by
        simpa [hp, description] using hd.symm
      subst directory_eq
      obtain ⟨s', file', inner, hbefore, hfile, hinner⟩ := importSections_eq_ok hsections imports
      have hthen := Ensures.forM
        (ensures_followImport (ensures_importFile w depth') full.directory) before
        (v.found.enter full)
      have hnow := Ensures.forM
        (ensures_followImport (ensures_importFile w depth) full.directory) before (s.enter full)
      rw [done] at hthen
      rw [hbefore] at hnow
      have hentered : s.project.props.OthersKeptIn s'.project.props := by
        intro name hn value hv
        exact hnow.others name hn value ((Properties.get?_setFile_of_notMem hn _ _ _).trans hv)
      -- The file properties are those of the one file in both runs.
      have hkept : l.project.props.KeptIn s'.project.props := by
        intro name value hv
        by_cases hn : name ∈ filePropertyNames
        · rw [hnow.file name hn, ← hv, hthen.file name hn]
          exact Properties.get?_setFile_of_mem hn _ _ _ _
        · exact hentered name hn value (hs name hn value hv)
      have hsame : (e.require "file" >>= s'.project.props.expand) = .ok file := by
        obtain ⟨template, ht, he⟩ := bind_eq_ok_iff.mp named
        exact bind_eq_ok_iff.mpr ⟨template, ht, Properties.expand_of_keptIn hkept he⟩
      obtain rfl : file = file' := Except.ok.inj (hsame.symm.trans hfile)
      exact ⟨s', inner, hentered, hinner⟩

end Opens

theorem othersKeptIn_of_transGen (h : TransGen w.Opens v u) :
    v.found.project.props.OthersKeptIn u.found.project.props := by
  induction h with
  | single hopens => exact hopens.othersKeptIn
  | tail _ hopens ih => exact trans_of _ ih hopens.othersKeptIn

/-- Files that were opened inside of each other are opened so again wherever all is declared that
was declared then, if only the import of the outermost succeeds. -/
theorem replay_transGen (h : TransGen w.Opens v u) {p : Path}
    (hp : w.readDescription p = w.readDescription v.path) {s : Loading}
    (hs : u.found.project.props.OthersKeptIn s.project.props) {depth : Nat} {found : Element}
    (hok : (runFrom s (importFile w depth p)).1 = .ok found) :
    ∃ s' inner depth', depth' < depth ∧ s.project.props.OthersKeptIn s'.project.props ∧
      (runFrom s' (importFile w depth' u.path)).1 = .ok inner := by
  induction h using TransGen.head_induction_on generalizing p s depth found with
  | single hopens =>
      cases depth with
      | zero => cases hok
      | succ depth =>
          obtain ⟨s', inner, hkept, hinner⟩ := hopens.replay hp hs hok
          exact ⟨s', inner, depth, Nat.lt_succ_self depth, hkept, hinner⟩
  | @head v next hopens hrest ih =>
      cases depth with
      | zero => cases hok
      | succ depth =>
          have hnext := trans_of _ (othersKeptIn_of_transGen hrest) hs
          obtain ⟨s₁, first, hkept₁, hfirst⟩ := hopens.replay hp hnext hok
          obtain ⟨s', inner, depth', hlt, hkept, hinner⟩ :=
            ih rfl (trans_of _ hs hkept₁) hfirst
          exact ⟨s', inner, depth', hlt.trans (Nat.lt_succ_self depth), trans_of _ hkept₁ hkept,
            hinner⟩

/-- A file that was taken up again while it was read cannot be imported with success any more: it
would be taken up once more, with less depth each time. -/
theorem not_ok_of_again (h : TransGen w.Opens v u)
    (hu : w.readDescription u.path = w.readDescription v.path) {depth : Nat} {p : Path}
    (hp : w.readDescription p = w.readDescription v.path) {s : Loading}
    (hs : u.found.project.props.OthersKeptIn s.project.props) (found : Element) :
    (runFrom s (importFile w depth p)).1 ≠ .ok found := by
  -- One round leads to the same file within less depth, where more is declared.
  induction depth using Nat.strong_induction_on generalizing p s found with
  | _ depth ih =>
      intro hok
      obtain ⟨s', inner, depth', hlt, hkept, hinner⟩ := replay_transGen h hp hs hok
      exact ih depth' hlt hu (trans_of _ hs hkept) inner hinner

/-- Where an import succeeds, so do those of all files that are taken up inside of it. -/
theorem exists_ok_of_reflTransGen (h : ReflTransGen w.Opens v u) {depth : Nat} {found : Element}
    (hok : (runFrom v.found (importFile w depth v.path)).1 = .ok found) :
    ∃ depth' inner, (runFrom u.found (importFile w depth' u.path)).1 = .ok inner := by
  induction h using ReflTransGen.head_induction_on generalizing depth found with
  | refl => exact ⟨depth, found, hok⟩
  | head hopens _ ih =>
      cases depth with
      | zero => cases hok
      | succ depth =>
          obtain ⟨inner, hinner⟩ := hopens.exists_ok hok
          exact ih hinner

theorem not_ok_of_recurs (h : w.Recurs v) (depth : Nat) (found : Element) :
    (runFrom v.found (importFile w depth v.path)).1 ≠ .ok found := by
  intro hok
  obtain ⟨u, again, hreach, hagain, habsolute⟩ := h
  obtain ⟨depth', inner, hinner⟩ :=
    exists_ok_of_reflTransGen (hreach.trans hagain.to_reflTransGen) hok
  have hsame := readDescription_congr habsolute
  exact not_ok_of_again hagain hsame hsame (refl_of _ _) inner hinner

/-- An import ends, and with a failure if a file is taken up again while it is read. -/
structure EndsDuly (w : World) (v : Visit) : Prop where
  ends : ∃ outcome, w.Ends v outcome
  fails : w.Recurs v → ∃ failure, w.Ends v (.error failure)

/-- Imports in which no file is taken up again while it is read end, and those in which one is never
succeed.  So an import that ends at all ends duly. -/
theorem endsDuly_iff (w : World) (v : Visit) :
    (¬w.Recurs v → w.EndsDuly v) ∧ (w.EndsDuly v ↔ ∃ outcome, w.Ends v outcome) := by
  refine ⟨fun h => ⟨exists_ends_of_not_recurs h, fun hr => absurd hr h⟩, fun h => h.ends, ?_⟩
  rintro ⟨outcome, depth, hdepth⟩
  refine ⟨⟨outcome, depth, hdepth⟩, fun hr => ?_⟩
  cases outcome with
  | ok found => exact absurd (hdepth depth le_rfl) (not_ok_of_recurs hr depth found)
  | error failure => exact ⟨failure, depth, hdepth⟩

namespace Opens

/-- A visit is of a file that an import element of the description around it names. -/
theorem exists_element (h : w.Opens v u) :
    ∃ full root e file, w.readDescription v.path = .ok (full, root) ∧
      e ∈ root.childrenNamed "import" ∧
      (e.require "file" >>= u.found.project.props.expand) = .ok file ∧
      u.path = full.directory.join ⟨file⟩ := by
  cases h with
  | intro description directory_eq imports done named =>
      refine ⟨_, _, _, _, description, ?_, named, congrArg (Path.join · _) directory_eq⟩
      rw [imports]
      exact List.mem_append_right _ List.mem_cons_self

theorem path_of_imports (h : w.Opens v u) {name : String} (hi : w.imports v.path [name] = true)
    (hplain : Template.segments name.toList = name.toList.map .char) :
    u.path = v.path.directory.join ⟨name⟩ := by
  obtain ⟨full, root, e, file, hd, he, hfile, hpath⟩ := h.exists_element
  obtain ⟨root', hd', hfiles⟩ := exists_of_imports hi
  obtain ⟨rfl, rfl⟩ : full = _ ∧ root = root' := by simpa using hd.symm.trans hd'
  have hmem := List.mem_map_of_mem (f := (·.attribute? "file")) he
  rw [hfiles, List.map_singleton, List.mem_singleton] at hmem
  rw [Element.require, hmem] at hfile
  obtain rfl : file = name :=
    Except.ok.inj (hfile.symm.trans (Properties.expand_of_plain hplain _))
  exact hpath

theorem imports_ne_nil (h : w.Opens v u) : w.imports v.path [] ≠ true := by
  intro hi
  obtain ⟨full, root, e, file, hd, he, -, -⟩ := h.exists_element
  obtain ⟨root', hd', hfiles⟩ := exists_of_imports hi
  obtain ⟨-, rfl⟩ : _ = full ∧ root' = root := by simpa using hd'.symm.trans hd
  rw [List.map_eq_nil_iff.mp hfiles] at he
  cases he

end Opens

end World

/-- A world with a description that imports itself. -/
def selfImporting : World :=
  .holding [(["build.xml"], "<buildcc><import file=\"build.xml\"/></buildcc>")] []

theorem imports_selfImporting :
    selfImporting.imports ⟨"/build.xml"⟩ ["build.xml"] = true := by
  have h : selfImporting.disk.isLinkless = true := World.isLinkless_holding _ _
  have hd : selfImporting.readDescription ⟨"/build.xml"⟩ =
      .ok (⟨"/build.xml"⟩, .mk "buildcc" [] [.mk "import" [("file", "build.xml")] [] none] none) :=
    World.readDescription_of_entryAt rfl ((Disk.entryAt_eq_descend h _ _ _).trans rfl)
      ((Markup.readDocument_of_ofList rfl).trans (by decide +kernel)) rfl
  simp only [World.imports, hd]
  decide

theorem tooDeep_selfImporting (depth : Nat) (l : Loading) :
    (runFrom l (importFile selfImporting depth ⟨"/build.xml"⟩)).1 =
      .error (.tooDeep ⟨"/build.xml"⟩) := by
  have hpath : (Path.directory ⟨"/build.xml"⟩).join ⟨"build.xml"⟩ = ⟨"/build.xml"⟩ := by rfl
  induction depth generalizing l with
  | zero => rfl
  | succ depth ih =>
      refine importFile_of_only_error imports_selfImporting
        (Template.segments_of_not_mem (by decide)) (fun l' => ?_) l
      rw [hpath]
      exact ih l'

theorem selfImporting_not_endsDuly :
    ¬selfImporting.EndsDuly ⟨⟨"/build.xml"⟩, .initial⟩ := by
  rintro ⟨⟨outcome, depth, hdepth⟩, -⟩
  have hend := hdepth depth le_rfl
  rw [tooDeep_selfImporting] at hend
  cases outcome <;> cases hend

/-- A world with a description that imports another one. -/
def importingOnce : World :=
  .holding [(["build.xml"], "<buildcc><import file=\"common.xml\"/></buildcc>"),
    (["common.xml"], "<buildcc><property name=\"out\" value=\"build\"/></buildcc>")] []

theorem imports_importingOnce : importingOnce.imports ⟨"/build.xml"⟩ ["common.xml"] = true ∧
    importingOnce.imports ⟨"/common.xml"⟩ [] = true := by
  have h : importingOnce.disk.isLinkless = true := World.isLinkless_holding _ _
  have hbuild : importingOnce.readDescription ⟨"/build.xml"⟩ =
      .ok (⟨"/build.xml"⟩, .mk "buildcc" [] [.mk "import" [("file", "common.xml")] [] none] none) :=
    World.readDescription_of_entryAt rfl ((Disk.entryAt_eq_descend h _ _ _).trans rfl)
      ((Markup.readDocument_of_ofList rfl).trans (by decide +kernel)) rfl
  have hcommon : importingOnce.readDescription ⟨"/common.xml"⟩ =
      .ok (⟨"/common.xml"⟩, .mk "buildcc" []
        [.mk "property" [("name", "out"), ("value", "build")] [] none] none) :=
    World.readDescription_of_entryAt rfl ((Disk.entryAt_eq_descend h _ _ _).trans rfl)
      ((Markup.readDocument_of_ofList rfl).trans (by decide +kernel)) rfl
  simp only [World.imports, hbuild, hcommon]
  decide

theorem importingOnce_endsDuly :
    ¬importingOnce.Recurs ⟨⟨"/build.xml"⟩, .initial⟩ ∧
      importingOnce.EndsDuly ⟨⟨"/build.xml"⟩, .initial⟩ := by
  have hfirst : ∀ u, importingOnce.Opens ⟨⟨"/build.xml"⟩, .initial⟩ u →
      u.path = ⟨"/common.xml"⟩ := by
    intro u hu
    rw [hu.path_of_imports imports_importingOnce.1
      (Template.segments_of_not_mem (by decide))]
    rfl
  have hsecond : ∀ v u, v.path = ⟨"/common.xml"⟩ → ¬importingOnce.Opens v u :=
    fun v u hv hu => hu.imports_ne_nil (hv ▸ imports_importingOnce.2)
  have hrecurs : ¬importingOnce.Recurs ⟨⟨"/build.xml"⟩, .initial⟩ := by
    rintro ⟨u, again, hreach, hagain, habsolute⟩
    rcases ReflTransGen.cases_head hreach with rfl | ⟨x, hx, hxu⟩
    · obtain ⟨x, hx, hxagain⟩ := TransGen.head'_iff.mp hagain
      rcases ReflTransGen.cases_head hxagain with rfl | ⟨y, hy, -⟩
      · rw [hfirst x hx] at habsolute
        exact absurd (congrArg Except.toOption habsolute) (by decide)
      · exact hsecond x y (hfirst x hx) hy
    · rcases ReflTransGen.cases_head hxu with rfl | ⟨y, hy, -⟩
      · obtain ⟨y, hy, -⟩ := TransGen.head'_iff.mp hagain
        exact hsecond x y (hfirst x hx) hy
      · exact hsecond x y (hfirst x hx) hy
  exact ⟨hrecurs, (World.endsDuly_iff _ _).1 hrecurs⟩

end DeclarativeBuild
