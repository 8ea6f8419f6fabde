import DeclarativeBuild.Proofs.Disk.Linkless
import DeclarativeBuild.Proofs.Disk.Moving
import DeclarativeBuild.Proofs.Disk.Parents

/-!
# Where a path leads without links

A path leads where its names and its steps upward lead one after the other, through directories that
are all there.  The directories above its end are those that it goes through and does not leave
again.
-/

namespace DeclarativeBuild

namespace Disk

/-- Where one more step leads, if no entry is a link. -/
def step (here : Location) (name : String) : Location :=
  if name = ".." then here.dropLast else here ++ [name]

/-- Where steps lead from the root, if no entry is a link. -/
def arrival (names : List String) : Location :=
  names.foldl step []

/-- Steps that lead from directory to directory. -/
def Walkable (d : Disk) : Location → List String → Prop
  | here, [] => d.lookup here = some .directory
  | here, name :: rest =>
    d.lookup here = some .directory ∧ (name = ".." ∨ name.utf8ByteSize ≤ nameLimit) ∧
      Walkable d (step here name) rest

section Walking

variable {d : Disk} {here loc : Location} {names more pieces : List String} {piece name : String}

theorem Walkable.lookup_here (h : d.Walkable here names) : d.lookup here = some .directory := by
  cases names with
  | nil => exact h
  | cons name rest => exact h.1

theorem Walkable.of_append (h : d.Walkable here (names ++ more)) : d.Walkable here names := by
  induction names generalizing here with
  | nil => exact h.lookup_here
  | cons name rest ih => exact ⟨h.1, h.2.1, ih h.2.2⟩

theorem lookup_of_descend_cons (h : d.descend here (piece :: pieces) = .ok loc) :
    d.lookup here = some .directory := by
  rw [descend] at h
  split at h
  · cases h
  · assumption
  · cases h

theorem descend_cons (hd : d.lookup here = some .directory) (piece : String)
    (pieces : List String) :
    d.descend here (piece :: pieces) =
      if Path.isIdle piece then d.descend here pieces
      else if piece = ".." ∨ piece.utf8ByteSize ≤ nameLimit then
        d.descend (step here piece) pieces
      else .error .nameTooLong := by
  rw [descend, hd, step]
  by_cases hup : piece = ".."
  · simp [hup]
  · by_cases hlong : nameLimit < piece.utf8ByteSize
    · simp [hup, hlong, Nat.not_le.mpr hlong]
    · simp [hup, hlong, Nat.not_lt.mp hlong]

/-- What is looked up at the end of a path is looked up where its other steps lead. -/
theorem descend_append_singleton_iff (hn : IsStep name) :
    d.descend here (pieces ++ [name]) = .ok loc ↔
      d.Walkable here (pieces.filter (!Path.isIdle ·)) ∧
        loc = (pieces.filter (!Path.isIdle ·)).foldl step here ++ [name] := by
  induction pieces generalizing here with
  | nil =>
      by_cases hd : d.lookup here = some .directory
      · rw [List.nil_append, descend_cons hd]
        simp [hn.1, hn.2.1, hn.2.2, descend, Walkable, hd, step, eq_comm]
      · exact iff_of_false (fun h => hd (lookup_of_descend_cons h)) fun h => hd h.1
  | cons piece rest ih =>
      by_cases hd : d.lookup here = some .directory
      · rw [List.cons_append, descend_cons hd]
        by_cases hidle : Path.isIdle piece = true
        · rw [if_pos hidle, ih, List.filter_cons_of_neg (by simp [hidle])]
        · rw [if_neg hidle, List.filter_cons_of_pos (by simp [hidle]), List.foldl_cons, Walkable]
          by_cases hstep : piece = ".." ∨ piece.utf8ByteSize ≤ nameLimit
          · rw [if_pos hstep, ih]
            simp [hd, hstep]
          · rw [if_neg hstep]
            simp [hstep]
      · exact iff_of_false (fun h => hd (lookup_of_descend_cons h)) fun h => hd h.1.lookup_here

theorem walkable_of_descend (h : d.descend here pieces = .ok loc)
    (hl : d.lookup loc = some .directory) :
    d.Walkable here (pieces.filter (!Path.isIdle ·)) ∧
      loc = (pieces.filter (!Path.isIdle ·)).foldl step here := by
  induction pieces generalizing here with
  | nil =>
      obtain rfl : here = loc := Except.ok.inj h
      exact ⟨hl, rfl⟩
  | cons piece rest ih =>
      have hd := lookup_of_descend_cons h
      rw [descend_cons hd] at h
      by_cases hidle : Path.isIdle piece = true
      · rw [if_pos hidle] at h
        rw [List.filter_cons_of_neg (by simp [hidle])]
        exact ih h
      · rw [if_neg hidle] at h
        rw [List.filter_cons_of_pos (by simp [hidle]), List.foldl_cons]
        split at h
        · next hstep =>
          obtain ⟨hwalk, hloc⟩ := ih h
          exact ⟨⟨hd, hstep, hwalk⟩, hloc⟩
        · cases h

end Walking

/-- A disk as there can be: whatever stands somewhere stands in a directory, nothing is a link, and
no name is too long to be looked up. -/
structure IsPlain (d : Disk) : Prop where
  tree : d.IsTree
  linkless : d.isLinkless = true
  short : ∀ loc e, d.lookup loc = some e → ∀ name ∈ loc, name.utf8ByteSize ≤ nameLimit

def looksPlain (d : Disk) : Bool :=
  d.isLinkless && d.entries.all fun (loc, _) =>
    (d.lookup loc.dropLast).any Entry.isDirectory && loc.all (·.utf8ByteSize ≤ nameLimit)

theorem isPlain_of_looksPlain {d : Disk} (h : d.looksPlain = true) : d.IsPlain := by
  obtain ⟨hlinkless, hentries⟩ := Bool.and_eq_true_iff.mp h
  have hentry : ∀ loc e, loc ≠ [] → d.lookup loc = some e →
      (d.lookup loc.dropLast).any Entry.isDirectory = true ∧
        loc.all (·.utf8ByteSize ≤ nameLimit) = true := by
    intro loc e hne hl
    rw [lookup_of_ne_nil hne] at hl
    exact Bool.and_eq_true_iff.mp (List.all_eq_true.mp hentries _ (mem_of_lookup hl))
  refine ⟨fun loc e hl => ?_, hlinkless, fun loc e hl name hm => ?_⟩
  · by_cases hne : loc = []
    · rw [hne]
      rfl
    · have hdir := (hentry loc e hne hl).1
      cases hparent : d.lookup loc.dropLast with
      | none => simp [hparent] at hdir
      | some parent => cases parent <;> simp_all [Entry.isDirectory]
  · have hall := (hentry loc e (List.ne_nil_of_mem hm) hl).2
    simpa using List.all_eq_true.mp hall name hm

/-- The directories that a path goes through before it comes to its own, one for each step. -/
def passed (names : List String) : List Location :=
  (above names).map arrival

theorem foldl_step_eq_append {names : List String} (h : ".." ∉ names) (here : Location) :
    names.foldl step here = here ++ names := by
  induction names generalizing here with
  | nil => simp
  | cons name rest ih =>
      obtain ⟨hname, hrest⟩ : ".." ≠ name ∧ ".." ∉ rest := by simpa using h
      rw [List.foldl_cons, ih hrest, step, if_neg (Ne.symm hname), List.append_assoc,
        List.singleton_append]

theorem arrival_eq {names : List String} (h : ".." ∉ names) : arrival names = names :=
  (foldl_step_eq_append h []).trans (List.nil_append names)

theorem passed_eq_above {names : List String} (h : ".." ∉ names) : passed names = above names := by
  have hall : ∀ before ∈ above names, arrival before = before := by
    intro before hm
    obtain ⟨n, -, rfl⟩ := List.mem_map.mp hm
    exact arrival_eq fun hup => h (List.mem_of_mem_take hup)
  rw [passed, List.map_congr_left hall, List.map_id']

/-- Where something stands below them, names can be walked. -/
theorem IsPlain.walkable {d : Disk} (hd : d.IsPlain) (here : Location) {names more : List String}
    {e : Entry} (hup : ".." ∉ names) (hmore : more ≠ [])
    (hl : d.lookup (here ++ names ++ more) = some e) : d.Walkable here names := by
  have hhere : d.lookup here = some .directory := by
    rw [List.append_assoc] at hl
    exact hd.tree.lookup_of_append (List.append_ne_nil_of_right_ne_nil names hmore) hl
  induction names generalizing here with
  | nil => exact hhere
  | cons name rest ih =>
      obtain ⟨hname, hrest⟩ : ".." ≠ name ∧ ".." ∉ rest := by simpa using hup
      have hstep : step here name = here ++ [name] := if_neg (Ne.symm hname)
      have hl' : d.lookup (here ++ [name] ++ rest ++ more) = some e := by
        simpa [List.append_assoc] using hl
      refine ⟨hhere, .inr (hd.short _ _ hl name (by simp)), ?_⟩
      rw [hstep]
      apply ih (here ++ [name]) hrest hl'
      rw [List.append_assoc] at hl'
      exact hd.tree.lookup_of_append (List.append_ne_nil_of_right_ne_nil rest hmore) hl'

section Lasting

variable {d : Disk} {loc : Location} {names : List String} {name : String} {n : Nat}

theorem arrival_append_singleton (names : List String) (name : String) :
    arrival (names ++ [name]) = step (arrival names) name :=
  List.foldl_append

theorem length_lt_of_mem_above {before : Location} (h : before ∈ above loc) :
    before.length < loc.length := by
  obtain ⟨n, hn, rfl⟩ := List.mem_map.mp h
  rw [List.length_take]
  exact Nat.lt_of_le_of_lt (Nat.min_le_left n _) (List.mem_range.mp hn)

/-- Whether all further steps of a path stay below where its first `n` lead. -/
def Lasts (names : List String) (n : Nat) : Prop :=
  ∀ m ≤ names.length, n < m → (arrival (names.take n)).length < (arrival (names.take m)).length

instance : DecidablePred (Lasts names) := fun n =>
  inferInstanceAs (Decidable (∀ m ≤ names.length, n < m →
    (arrival (names.take n)).length < (arrival (names.take m)).length))

theorem lasts_append_singleton_iff (hn : n ≤ names.length) :
    Lasts (names ++ [name]) n ↔
      Lasts names n ∧ (arrival (names.take n)).length < (step (arrival names) name).length := by
  have htake : ∀ m ≤ names.length, (names ++ [name]).take m = names.take m :=
    fun m hm => List.take_append_of_le_length hm
  have hall : (names ++ [name]).take (names.length + 1) = names ++ [name] :=
    List.take_of_length_le (by simp)
  unfold Lasts
  rw [htake n hn, List.length_append, List.length_singleton]
  constructor
  · intro h
    refine ⟨fun m hm hnm => ?_, ?_⟩
    · rw [← htake m hm]
      exact h m (Nat.le_succ_of_le hm) hnm
    · rw [← arrival_append_singleton, ← hall]
      exact h _ (Nat.le_refl _) (Nat.lt_succ_of_le hn)
  · rintro ⟨hbefore, hlast⟩ m hm hnm
    rcases Nat.le_succ_iff.mp hm with hm | rfl
    · rw [htake m hm]
      exact hbefore m hm hnm
    · rwa [hall, arrival_append_singleton]

/-- A step leaves or keeps what is above, and one downward adds where it starts. -/
theorem above_step (loc : Location) (name : String) :
    above (step loc name) =
      (above loc ++ [loc]).filter fun before => before.length < (step loc name).length := by
  unfold step
  split
  · induction loc using List.reverseRecOn with
    | nil => rfl
    | append_singleton loc last _ =>
        have hkept : (above loc).filter (fun before => before.length < loc.length) = above loc :=
          List.filter_eq_self.mpr fun before hm => by simpa using length_lt_of_mem_above hm
        rw [List.dropLast_concat, above_append_singleton, List.filter_append, List.filter_append,
          hkept]
        simp
  · rw [above_append_singleton]
    symm
    rw [List.filter_eq_self]
    intro before hm
    rcases List.mem_append.mp hm with hm | hm
    · have hlt := length_lt_of_mem_above hm
      simp only [List.length_append, List.length_singleton, decide_eq_true_eq]
      omega
    · simp [List.mem_singleton.mp hm]

/-- The directories above the one that a path leads to are those below which it stays once it has
come to them. -/
theorem above_arrival (names : List String) :
    above (arrival names) =
      ((List.range names.length).filter (Lasts names)).map fun n => arrival (names.take n) := by
  induction names using List.reverseRecOn with
  | nil => rfl
  | append_singleton names name ih =>
      -- Which of the earlier directories are still above is up to the last step alone.
      have htake : ∀ n ∈ List.range names.length, (names ++ [name]).take n = names.take n :=
        fun n hn => List.take_append_of_le_length (Nat.le_of_lt (List.mem_range.mp hn))
      have hlasts : ∀ n ≤ names.length, decide (Lasts (names ++ [name]) n) =
          (decide ((arrival (names.take n)).length < (step (arrival names) name).length) &&
            decide (Lasts names n)) := by
        intro n hn
        rw [Bool.and_comm, ← Bool.decide_and]
        exact decide_eq_decide.mpr (lasts_append_singleton_iff hn)
      rw [arrival_append_singleton, above_step, ih, List.length_append, List.length_singleton,
        List.range_succ, List.filter_append, List.filter_append, List.map_append]
      congr 1
      · have hfilter : (List.range names.length).filter (Lasts (names ++ [name])) =
            (List.range names.length).filter fun n =>
              decide ((arrival (names.take n)).length < (step (arrival names) name).length) &&
                decide (Lasts names n) :=
          List.filter_congr fun n hn => hlasts n (Nat.le_of_lt (List.mem_range.mp hn))
        rw [List.filter_map, List.filter_filter, hfilter]
        apply List.map_congr_left
        intro n hn
        rw [htake n (List.mem_filter.mp hn).1]
      · have hself : Lasts names names.length := fun m hm hlt => absurd hm (Nat.not_le.mpr hlt)
        have hlast := hlasts names.length (Nat.le_refl _)
        rw [decide_eq_true hself, Bool.and_true, List.take_length] at hlast
        have hall : (names ++ [name]).take names.length = names := List.take_left' rfl
        by_cases hlt : (arrival names).length < (step (arrival names) name).length
        · simp [hlast, hlt, hall]
        · simp [hlast, hlt]

end Lasting

end Disk

end DeclarativeBuild
