import DeclarativeBuild.Proofs.Disk.Joining
import DeclarativeBuild.Proofs.Wildcard.Order

/-!
# What is seen from a directory

The matches that are found on a disk are those that a search finds on what is seen from a directory.
-/

namespace DeclarativeBuild

/-- The path that names lead to from a directory. -/
def Path.below (base : Path) (names : List String) : Path :=
  names.foldl (fun p name => p.join ⟨name⟩) base

theorem Path.below_append (base : Path) (names more : List String) :
    base.below (names ++ more) = (base.below names).below more :=
  List.foldl_append

theorem Path.below_concat (base : Path) (names : List String) (name : String) :
    base.below (names ++ [name]) = (base.below names).join ⟨name⟩ :=
  Path.below_append base names [name]

theorem Path.isAbsolute_below {base : Path} (h : base.isAbsolute = true) (names : List String) :
    (base.below names).isAbsolute = true := by
  induction names generalizing base with
  | nil => exact h
  | cons name names ih => exact ih (isAbsolute_join h ⟨name⟩)

namespace Wildcard
namespace Ground

/-- Whether an entry with a path is a directory or leads to one. -/
def opens (g : Ground) (path : Path) : Entry → Bool
  | .link _ => g.disk.isDirectory g.cwd path
  | entry => entry.isDirectory

/-- What is seen from the directory at `base`. -/
def view (g : Ground) (base : Path) : View where
  isDirectory names := g.disk.isDirectory g.cwd (base.below names)
  holds names := g.holds (base.below names)
  children names :=
    match g.disk.readDirectory g.cwd (base.below names) with
    | .error _ => []
    | .ok entries => entries.map fun (name, entry) =>
      (name, g.opens (base.below (names ++ [name])) entry)

variable {g : Ground} {base : Path} {here : List String} {depth : Nat} {p : Pattern}
variable {rest patterns : List Pattern} {place : Place}

theorem inside_of_isAbsolute {directory : Path} (h : directory.isAbsolute = true) (name : String) :
    inside directory name = directory.join ⟨name⟩ := by
  have hne : (directory.components == [.here]) = false := by
    rw [Path.components_eq_location h]
    rfl
  rw [inside, hne]
  rfl

/-- The place itself once the patterns are used up. -/
def onward (g : Ground) (depth : Nat) (patterns : List Pattern) (place : Place) : List Sighting :=
  if patterns.isEmpty then [.ok place] else g.explore depth patterns place

theorem explore_of_literal {name : List Char} (h : p.literal? = some name)
    (hbase : base.isAbsolute = true) (d : Bool) :
    g.explore depth (p :: rest) ⟨base.below here, d⟩ =
      if (g.view base).finds here d (String.ofList name) then
        g.onward Disk.pathLimit rest (g.place (base.below (here ++ [String.ofList name])))
      else [] := by
  rw [explore, h]
  simp only [inside_of_isAbsolute (Path.isAbsolute_below hbase here), ← Path.below_concat]
  change (if (!(g.view base).finds here d (String.ofList name)) = true then [] else _) = _
  cases (g.view base).finds here d (String.ofList name) <;> rfl

theorem explore_of_wild (h : p.literal? = none) (hplace : place.isDirectory = true)
    {children : List Place} (hchildren : g.children place.path = .ok children) :
    g.explore depth (p :: rest) place =
      ((dotNames p).flatMap fun name =>
        g.onward Disk.pathLimit rest (g.place (place.path.join ⟨name⟩))) ++
      children.flatMap fun child => g.visit depth p rest child := by
  rw [explore, h]
  simp only [hplace, hchildren, Bool.not_true, Bool.false_eq_true, if_false]
  rfl

theorem explore_of_unreadable (h : p.literal? = none) (hplace : place.isDirectory = true)
    {cause : SystemError} (hchildren : g.children place.path = .error cause) :
    g.explore depth (p :: rest) place = [.error ⟨place.path, cause⟩] := by
  rw [explore, h]
  simp [hplace, hchildren]

theorem explore_of_file (h : p.literal? = none) (hplace : place.isDirectory = false) :
    g.explore depth (p :: rest) place = [] := by
  rw [explore, h]
  simp only [hplace]
  rfl

theorem byName_eq {name : String} (h : place.path.fileName? = some name) :
    g.byName p rest place =
      if p.accepts name.toList then g.onward Disk.pathLimit rest place else [] := by
  rw [byName, h]
  simp only [onward]
  cases p.accepts name.toList <;> rfl

/-- The matches below a place that a `**` has reached. -/
def deeper (g : Ground) (depth : Nat) (patterns : List Pattern) (place : Place) :
    List Sighting :=
  match depth with
  | 0 => []
  | depth + 1 => if place.isDirectory then g.explore depth patterns place else []

theorem visit_of_recursive (h : p.isRecursive = true) :
    g.visit depth p rest place =
      match afterRecursive rest with
      | [] =>
        if place.isDirectory then .ok place :: g.deeper depth (p :: afterRecursive rest) place
        else []
      | q :: more => g.byName q more place ++ g.deeper depth (p :: afterRecursive rest) place := by
  unfold visit
  rw [if_pos h]
  simp only
  split <;>
    · next hafter =>
      simp only [hafter]
      cases depth <;> rfl

/-- What is sighted where names lead that a search has found. -/
def sightingOf (base : Path) (here : List String) (f : Found) : Sighting :=
  match f.2 with
  | some isDirectory => .ok ⟨base.below (here ++ f.1), isDirectory⟩
  | none => .error ⟨base.below (here ++ f.1), .nameTooLong⟩

theorem map_sightingOf_under (name : String) (found : List Found) :
    (found.map (Found.under name)).map (sightingOf base here) =
      found.map (sightingOf base (here ++ [name])) := by
  rw [List.map_map]
  refine List.map_congr_left fun f _ => ?_
  simp [sightingOf, Found.under]

theorem children_eq (hbase : base.isAbsolute = true)
    (hhere : g.disk.isDirectory g.cwd (base.below here) = true) :
    g.children (base.below here) = .ok
      (((g.view base).children here).map fun child =>
        ⟨base.below (here ++ [child.1]), child.2⟩) := by
  have habsolute := Path.isAbsolute_below hbase here
  obtain ⟨mid, hmid⟩ := (Disk.isDirectory_iff habsolute).mp hhere
  have hread : g.disk.readDirectory g.cwd (base.below here) = .ok (g.disk.listing mid) :=
    (Disk.readDirectory_eq_ok_iff_enters habsolute).mpr ⟨mid, hmid, rfl⟩
  unfold children view
  simp only [hread]
  rw [List.map_map, Except.ok.injEq]
  refine List.map_congr_left fun (name, entry) _ => ?_
  simp only [inside_of_isAbsolute habsolute, Function.comp_apply, Path.below_concat]
  cases entry <;> rfl

theorem mem_children_iff (hbase : base.isAbsolute = true) {name : String} {d : Bool} :
    (name, d) ∈ (g.view base).children here ↔
      ∃ mid e, g.disk.Enters (base.below here) mid ∧ g.disk.lookup (mid ++ [name]) = some e ∧
        d = g.opens (base.below (here ++ [name])) e := by
  have habsolute := Path.isAbsolute_below hbase here
  unfold view
  simp only
  cases hread : g.disk.readDirectory g.cwd (base.below here) with
  | error fault =>
      refine iff_of_false (by simp) ?_
      rintro ⟨mid, e, hmid, -⟩
      rw [(Disk.readDirectory_eq_ok_iff_enters habsolute).mpr ⟨mid, hmid, rfl⟩] at hread
      cases hread
  | ok entries =>
      simp only [List.mem_map, Prod.mk.injEq, Prod.exists]
      constructor
      · rintro ⟨other, e, hmem, rfl, rfl⟩
        obtain ⟨mid, hmid, rfl⟩ := (Disk.readDirectory_eq_ok_iff_enters habsolute).mp hread
        exact ⟨mid, e, hmid, Disk.mem_listing_iff.mp hmem, rfl⟩
      · rintro ⟨mid, e, hmid, hlookup, rfl⟩
        rw [(Disk.readDirectory_eq_ok_iff_enters habsolute).mpr ⟨mid, hmid, rfl⟩] at hread
        cases hread
        exact ⟨name, e, Disk.mem_listing_iff.mpr hlookup, rfl, rfl⟩

theorem isEntryName_of_children (hbase : base.isAbsolute = true) (hlawful : g.disk.Lawful)
    {name : String} {d : Bool} (h : (name, d) ∈ (g.view base).children here) :
    Disk.isEntryName name = true := by
  obtain ⟨mid, e, -, hlookup, -⟩ := (mem_children_iff hbase).mp h
  exact Disk.isEntryName_of_mem_names hlawful (Disk.mem_names_iff.mpr (by rw [hlookup]; rfl))

/-- The size of the path that names lead to from a directory. -/
def sizeBelow (base : Path) (names : List String) : Nat :=
  (base.below names).text.utf8ByteSize

theorem sizeBelow_concat (hbase : base.isAbsolute = true) {name : String}
    (hname : '/' ∉ name.toList) :
    sizeBelow base here + name.utf8ByteSize ≤ sizeBelow base (here ++ [name]) := by
  rw [sizeBelow, sizeBelow, Path.below_concat,
    Path.text_join (Path.isAbsolute_below hbase here) (Path.isAbsolute_of_notMem hname)]
  simp only [String.utf8ByteSize_append]
  omega

/-- What stands under a name in a directory is what its path leads to. -/
theorem opens_eq (hbase : base.isAbsolute = true) {name : String} {mid : Location} {e : Entry}
    (hmid : g.disk.Enters base mid) (hname : Path.isPlainName name = true)
    (hlimit : name.utf8ByteSize ≤ Disk.nameLimit)
    (hfault : Disk.textFault? (base.join ⟨name⟩) = none)
    (hlookup : g.disk.lookup (mid ++ [name]) = some e) :
    g.opens (base.join ⟨name⟩) e = g.disk.isDirectory g.cwd (base.join ⟨name⟩) := by
  have hentry : (∀ target, e ≠ .link target) →
      g.disk.isDirectory g.cwd (base.join ⟨name⟩) = e.isDirectory := by
    intro hlink
    have hloc : g.disk.locate true g.cwd (base.join ⟨name⟩) = .ok (mid ++ [name]) :=
      (Disk.locate_join_of_isPlainName hbase hmid hname hlimit hfault).2 fun target heq =>
        hlink target (Option.some.inj (hlookup.symm.trans heq))
    rw [Disk.isDirectory, Disk.entryAt_eq_ok_iff.mpr ⟨_, hloc, hlookup⟩]
  cases e with
  | link target => rfl
  | file content executable => exact (hentry (by simp)).symm
  | directory => exact (hentry (by simp)).symm

theorem child_iff (hbase : base.isAbsolute = true) (hlawful : g.disk.Lawful) {name : String}
    {d : Bool} (hname : Path.isPlainName name = true)
    (hshort : sizeBelow base (here ++ [name]) ≤ Disk.pathLimit) :
    (name, d) ∈ (g.view base).children here ↔
      (g.view base).holds (here ++ [name]) = true ∧
        d = (g.view base).isDirectory (here ++ [name]) := by
  have habsolute := Path.isAbsolute_below hbase here
  have hsep := (Path.isPlainName_iff.mp hname).1
  rw [sizeBelow, Path.below_concat] at hshort
  rw [mem_children_iff hbase]
  change _ ↔ g.holds (base.below (here ++ [name])) = true ∧
    d = g.disk.isDirectory g.cwd (base.below (here ++ [name]))
  rw [Path.below_concat, holds, Disk.isOk_entryAt_iff]
  have hlocate : ∀ {mid}, g.disk.Enters (base.below here) mid →
      name.utf8ByteSize ≤ Disk.nameLimit →
      Disk.textFault? ((base.below here).join ⟨name⟩) = none →
      g.disk.locate false g.cwd ((base.below here).join ⟨name⟩) = .ok (mid ++ [name]) :=
    fun hmid hlimit hfault =>
      (Disk.locate_join_of_isPlainName habsolute hmid hname hlimit hfault).1
  constructor
  · rintro ⟨mid, e, hmid, hlookup, rfl⟩
    obtain ⟨-, hnul, hlimit⟩ := Disk.isEntryName_iff.mp
      (Disk.isEntryName_of_mem_names hlawful (Disk.mem_names_iff.mpr (by rw [hlookup]; rfl)))
    have hfault := Path.textFault?_join_eq_none habsolute hsep hmid.1 hnul hshort
    exact ⟨⟨_, hlocate hmid hlimit hfault, by simp [hlookup]⟩,
      opens_eq habsolute hmid hname hlimit hfault hlookup⟩
  · rintro ⟨⟨loc, hloc, hlookup⟩, rfl⟩
    obtain ⟨hfault, mid, hmid⟩ := Disk.exists_enters_of_locate_join habsolute hsep hloc
    have hlimit := Disk.le_nameLimit_of_locate_join habsolute hmid hname hloc
    obtain rfl := Except.ok.inj (hloc.symm.trans (hlocate hmid hlimit hfault))
    obtain ⟨e, he⟩ := Option.ne_none_iff_exists'.mp hlookup
    exact ⟨mid, e, hmid, he, (opens_eq habsolute hmid hname hlimit hfault he).symm⟩

theorem map_fst_children (hbase : base.isAbsolute = true) :
    ((g.view base).children here).map Prod.fst = [] ∨
      ∃ mid, ((g.view base).children here).map Prod.fst = g.disk.names mid := by
  unfold view
  simp only
  cases hread : g.disk.readDirectory g.cwd (base.below here) with
  | error fault => exact .inl rfl
  | ok entries =>
      obtain ⟨mid, -, rfl⟩ :=
        (Disk.readDirectory_eq_ok_iff_enters (Path.isAbsolute_below hbase here)).mp hread
      refine .inr ⟨mid, ?_⟩
      rw [List.map_map, ← Disk.map_fst_listing]
      rfl

theorem sees_view (hbase : base.isAbsolute = true) (hlawful : g.disk.Lawful) :
    (g.view base).Sees (sizeBelow base) where
  holds_of_isDirectory := Disk.isOk_entryAt_of_isDirectory (Path.isAbsolute_below hbase _)
  isDirectory_of_holds := by
    intro here name hname hholds
    have hjoin : g.holds (base.below (here ++ [name])) = true := hholds
    rw [Path.below_concat] at hjoin
    exact Disk.isDirectory_of_isOk_entryAt_join (Path.isAbsolute_below hbase here) hname hjoin
  holds_dots := by
    intro here name hname hshort hdirectory
    rw [sizeBelow, Path.below_concat] at hshort
    have hjoin := Disk.isOk_entryAt_join_dots hlawful (Path.isAbsolute_below hbase here) hdirectory
      hname hshort
    rwa [← Path.below_concat] at hjoin
  isPlainName_of_child := fun h =>
    Disk.isPlainName_of_isEntryName (isEntryName_of_children hbase hlawful h)
  child_iff := child_iff hbase hlawful
  children_sorted := by
    intro here
    rcases map_fst_children (g := g) hbase with hnone | ⟨mid, hmid⟩
    · rw [hnone]
      exact .nil
    · rw [hmid]
      exact Disk.pairwise_names hlawful mid
  size_pos here := by
    rw [Nat.pos_iff_ne_zero, sizeBelow, ne_eq, String.utf8ByteSize_eq_zero_iff]
    exact Path.text_ne_empty (Path.isAbsolute_below hbase here)
  size_le_of_holds := by
    intro here hholds
    obtain ⟨loc, hloc, -⟩ := Disk.isOk_entryAt_iff.mp hholds
    exact (Disk.textFault?_eq_none_iff.mp (Disk.textFault?_eq_none_of_locate hloc)).2.2
  size_le := fun hname => Nat.le_trans (Nat.le_add_right _ _) (sizeBelow_concat hbase hname)
  size_lt := by
    intro here name hname
    obtain ⟨hsep, hidle, -⟩ := Path.isPlainName_iff.mp hname
    have hpos : 0 < name.utf8ByteSize := by
      rw [Nat.pos_iff_ne_zero, ne_eq, String.utf8ByteSize_eq_zero_iff]
      rintro rfl
      exact absurd hidle (by decide)
    have hlonger : sizeBelow base here + name.utf8ByteSize ≤ sizeBelow base (here ++ [name]) :=
      sizeBelow_concat hbase hsep
    omega

/-- Whether what is shown as a directory is one, or has too long a path to be read. -/
def Shows (g : Ground) (path : Path) (isDirectory : Bool) : Prop :=
  isDirectory = true → g.disk.isDirectory g.cwd path = true ∨
    g.disk.readDirectory g.cwd path = .error .nameTooLong

theorem shows_child (hbase : base.isAbsolute = true) (hlawful : g.disk.Lawful) {name : String}
    {d : Bool} (h : (name, d) ∈ (g.view base).children here) :
    g.Shows (base.below (here ++ [name])) d := by
  rintro rfl
  have hentry := isEntryName_of_children hbase hlawful h
  obtain ⟨hplain, hnul, -⟩ := Disk.isEntryName_iff.mp hentry
  by_cases hshort : sizeBelow base (here ++ [name]) ≤ Disk.pathLimit
  · exact .inl ((child_iff hbase hlawful hplain hshort).mp h).2.symm
  · obtain ⟨mid, -, hmid, -⟩ := (mem_children_iff hbase).mp h
    rw [Nat.not_le, sizeBelow, Path.below_concat] at hshort
    have hfault := Path.textFault?_join_of_lt (Path.isAbsolute_below hbase here)
      (Path.isPlainName_iff.mp hplain).1 hmid.1 hnul hshort
    refine .inr ?_
    rw [Path.below_concat, Disk.readDirectory, Disk.locate, hfault]

theorem byName_child {child : String × Bool} (hplain : Path.isPlainName child.1 = true) :
    g.byName p rest ⟨base.below (here ++ [child.1]), child.2⟩ =
      if p.accepts child.1.toList then
        g.onward Disk.pathLimit rest ⟨base.below (here ++ [child.1]), child.2⟩
      else [] := by
  refine byName_eq ?_
  rw [Path.below_concat]
  exact Path.fileName?_join _ hplain

theorem visit_child {child : String × Bool} (hplain : Path.isPlainName child.1 = true)
    (hrest : g.onward Disk.pathLimit rest ⟨base.below (here ++ [child.1]), child.2⟩ =
      ((g.view base).search Disk.pathLimit rest (here ++ [child.1]) child.2).map
        (sightingOf base (here ++ [child.1])))
    (hmore : ∀ q more, afterRecursive rest = q :: more →
      g.onward Disk.pathLimit more ⟨base.below (here ++ [child.1]), child.2⟩ =
        ((g.view base).search Disk.pathLimit more (here ++ [child.1]) child.2).map
          (sightingOf base (here ++ [child.1])))
    (hbelow : ∀ less, depth = less + 1 →
      g.explore less (p :: afterRecursive rest) ⟨base.below (here ++ [child.1]), child.2⟩ =
        ((g.view base).search less (p :: afterRecursive rest) (here ++ [child.1]) child.2).map
          (sightingOf base (here ++ [child.1]))) :
    g.visit depth p rest ⟨base.below (here ++ [child.1]), child.2⟩ =
      ((g.view base).atChild depth p rest here child).map (sightingOf base here) := by
  cases hrecursive : p.isRecursive with
  | false =>
      unfold visit View.atChild
      rw [hrecursive, if_neg Bool.false_ne_true, if_neg Bool.false_ne_true, byName_child hplain]
      split
      · rw [map_sightingOf_under, hrest]
      · rfl
  | true =>
      have hdeeper : g.deeper depth (p :: afterRecursive rest)
            ⟨base.below (here ++ [child.1]), child.2⟩ =
          (((g.view base).deeper depth (p :: afterRecursive rest) (here ++ [child.1])
            child.2).map (Found.under child.1)).map (sightingOf base here) := by
        rw [map_sightingOf_under]
        unfold deeper View.deeper
        cases depth with
        | zero => rfl
        | succ less =>
            simp only
            split
            · next hdirectory =>
              have hless := hbelow less rfl
              rwa [hdirectory] at hless ⊢
            · rfl
      rw [visit_of_recursive hrecursive, View.atChild, if_pos hrecursive, List.map_append, ← hdeeper]
      cases hafter : afterRecursive rest with
      | nil =>
          simp only
          split
          · next hdirectory => simp [sightingOf, hdirectory]
          · next hdirectory =>
            cases depth <;> simp [deeper, hdirectory]
      | cons q more =>
          simp only
          rw [byName_child hplain]
          congr 1
          split
          · rw [map_sightingOf_under, hmore q more hafter]
          · rfl

theorem shows_place (g : Ground) (path : Path) : g.Shows path (g.disk.isDirectory g.cwd path) :=
  .inl

theorem children_eq_error {path : Path} {cause : SystemError}
    (h : g.disk.readDirectory g.cwd path = .error cause) : g.children path = .error cause := by
  rw [children, h]

/-- What is sighted on the disk is what is found on what is seen from a directory. -/
theorem onward_eq (hbase : base.isAbsolute = true) (hlawful : g.disk.Lawful) (depth : Nat)
    (patterns : List Pattern) (here : List String) (d : Bool) (hd : g.Shows (base.below here) d) :
    g.onward depth patterns ⟨base.below here, d⟩ =
      ((g.view base).search depth patterns here d).map (sightingOf base here) := by
  induction depth, patterns using View.search_induction generalizing here d with
  | nil depth => simp [onward, View.search_nil, sightingOf]
  | cons depth p rest hrest hmore hbelow =>
      change g.explore depth (p :: rest) _ = _
      cases htext : p.literal? with
      | some name =>
          rw [explore_of_literal htext hbase, View.search_of_literal htext]
          split
          · rw [map_sightingOf_under]
            exact hrest _ _ _ (shows_place g _)
          · rfl
      | none =>
          cases d with
          | false => rw [explore_of_file htext rfl, View.search_of_file htext]; rfl
          | true =>
              cases hentered : g.disk.isDirectory g.cwd (base.below here) with
              | false =>
                  have hlong := (hd rfl).resolve_left (by simp [hentered])
                  have hends : g.explore depth (p :: rest) ⟨base.below here, true⟩ = _ :=
                    explore_of_unreadable htext rfl (children_eq_error hlong)
                  rw [hends, View.search_of_barred htext hentered]
                  simp [sightingOf]
              | true =>
                  have hgoes : g.explore depth (p :: rest) ⟨base.below here, true⟩ = _ :=
                    explore_of_wild htext rfl (children_eq hbase hentered)
                  rw [hgoes, View.search_of_wild htext hentered, List.map_append, List.map_flatMap,
                    List.flatMap_map, List.map_flatMap]
                  congr 1
                  · refine View.flatMap_congr fun name _ => ?_
                    rw [map_sightingOf_under, ← Path.below_concat]
                    exact hrest _ _ _ (shows_place g _)
                  · refine View.flatMap_congr fun child hchild => ?_
                    have hentry := isEntryName_of_children hbase hlawful hchild
                    have hshows := shows_child hbase hlawful hchild
                    refine visit_child (Disk.isPlainName_of_isEntryName hentry)
                      (hrest _ _ _ hshows) (fun q more hafter => hmore _ q more hafter _ _ hshows)
                      fun less hless => ?_
                    have hdeeper := hbelow less hless (here ++ [child.1]) child.2 hshows
                    simpa [onward] using hdeeper

end Ground
end Wildcard
end DeclarativeBuild
