import DeclarativeBuild.Proofs.Compiler.DrivePaths
import DeclarativeBuild.Proofs.Disk.Joining

/-!
# Ways of writing a place

A path that is made absolute keeps the names it was written with, a directory has those of what is
in it without the last one, and a relative path adds its own to those of the directory it is joined
to.  So ways of telling a directory agree on the steps to it, however a path is written.
-/

namespace DeclarativeBuild

namespace Path

@[simp] theorem stepText_component (piece : String) : stepText (component piece) = piece := by
  unfold component
  split
  · next h => exact (eq_of_beq h).symm
  · split
    · next h => exact (eq_of_beq h).symm
    · rfl

theorem component_ne_root (piece : String) : component piece ≠ .root := by
  unfold component
  split
  · simp
  · split <;> simp

theorem component_eq_here_iff {piece : String} : component piece = .here ↔ piece = "." := by
  constructor
  · intro h
    rw [← stepText_component piece, h]
    rfl
  · rintro rfl
    rfl

theorem component_ne_here {piece : String} (h : isIdle piece = false) :
    component piece ≠ .here := by
  rw [ne_eq, component_eq_here_iff]
  rintro rfl
  exact absurd h (by decide)

theorem eq_of_map_component {pieces names : List String}
    (h : pieces.map component = names.map .name) : pieces = names := by
  have htexts := congrArg (List.map stepText) h
  have hpieces : stepText ∘ component = id := funext stepText_component
  have hnames : stepText ∘ Component.name = id := rfl
  rwa [List.map_map, List.map_map, hpieces, hnames, List.map_id, List.map_id] at htexts

end Path

namespace Disk

variable {base p q : Path}

theorem isIdle_of_mem_location {piece : String} (h : piece ∈ location p) :
    '/' ∉ piece.toList ∧ Path.isIdle piece = false := by
  obtain ⟨hpiece, hidle⟩ := List.mem_filter.mp h
  exact ⟨Path.notMem_of_mem_pieces hpiece, by simpa using hidle⟩

theorem location_join_of_relative (hb : base.isAbsolute = true)
    (hrel : p.isAbsolute = false) : location (base.join p) = location base ++ location p := by
  obtain ⟨before, hjoin, hbase⟩ := Path.exists_pieces_join_of_relative hb hrel
  have hbefore : before.filter (!Path.isIdle ·) = location base := by
    rcases hbase with ⟨hbase, -⟩ | hbase
    · rw [location, hbase]
    · have hlast : [""].filter (!Path.isIdle ·) = [] := by decide
      rw [location, hbase, List.filter_append, hlast, List.append_nil]
  rw [location, hjoin, List.filter_append, hbefore]
  rfl

theorem location_foldl_join (hb : base.isAbsolute = true) {names : List String}
    (h : ∀ name ∈ names, '/' ∉ name.toList ∧ Path.isIdle name = false) :
    (names.foldl (fun q name => q.join ⟨name⟩) base).isAbsolute = true ∧
      location (names.foldl (fun q name => q.join ⟨name⟩) base) = location base ++ names := by
  induction names generalizing base with
  | nil => exact ⟨hb, (List.append_nil _).symm⟩
  | cons name rest ih =>
      obtain ⟨hsep, hidle⟩ := h name List.mem_cons_self
      have hrest := ih (Path.isAbsolute_join hb ⟨name⟩) fun n hn => h n (List.mem_cons_of_mem _ hn)
      rw [location_join base hsep, List.filter_cons_of_pos (by simp [hidle]), List.filter_nil,
        List.append_assoc, List.singleton_append] at hrest
      exact hrest

/-- Making a path from the root absolute only takes out what leads nowhere. -/
theorem exists_absolute? (hp : p.isAbsolute = true) (cwd : Path) :
    ∃ full, p.absolute? cwd = some full ∧ full.isAbsolute = true ∧ location full = location p := by
  have hsteps : p.components.filter (fun c => c != .here && c != .root) =
      (location p).map Path.component := by
    rw [Path.components_eq_location hp, List.filter_cons_of_neg (by decide), List.filter_eq_self]
    intro c hc
    obtain ⟨piece, hpiece, rfl⟩ := List.mem_map.mp hc
    simp [Path.component_ne_here (isIdle_of_mem_location hpiece).2, Path.component_ne_root]
  have hstart : ∀ twoSlashes : Bool,
      Path.isAbsolute (if twoSlashes then ⟨"//"⟩ else ⟨"/"⟩) = true ∧
        location (if twoSlashes then ⟨"//"⟩ else ⟨"/"⟩) = [] := by
    decide +kernel
  have hempty : (p.text == "") = false := beq_eq_false_iff_ne.mpr (Path.text_ne_empty hp)
  have hfull := fun twoSlashes : Bool =>
    location_foldl_join (hstart twoSlashes).1 (fun _ => isIdle_of_mem_location (p := p))
  simp only [(hstart _).2, List.nil_append] at hfull
  simp only [Path.absolute?, hempty, hp, hsteps, List.foldl_map, Path.stepText_component,
    Bool.false_eq_true, if_false, if_true]
  split
  · refine ⟨_, rfl, Path.isAbsolute_join (hfull _).1 _, ?_⟩
    have hlast : [""].filter (!Path.isIdle ·) = [] := by decide
    rw [location_join _ (by decide), hlast, List.append_nil, (hfull _).2]
  · exact ⟨_, rfl, hfull _⟩

theorem parent?_eq_none_iff (hp : p.isAbsolute = true) : p.parent? = none ↔ location p = [] := by
  have hparents := congrArg List.length (map_location_parents hp)
  rw [List.length_map, List.length_reverse, above, List.length_map, List.length_range] at hparents
  rw [Path.parent?, List.head?_eq_none_iff, ← List.length_eq_zero_iff, hparents,
    List.length_eq_zero_iff]

theorem location_parent? (hp : p.isAbsolute = true) (hq : p.parent? = some q) :
    location q = (location p).dropLast := by
  have hhead := congrArg List.head? (map_location_parents hp)
  rw [List.head?_map, ← Path.parent?, hq, Option.map_some] at hhead
  have hne : location p ≠ [] := fun hnil => by
    rw [(parent?_eq_none_iff hp).mpr hnil] at hq
    cases hq
  obtain ⟨before, last, hloc⟩ := List.eq_nil_or_concat' (location p) |>.resolve_left hne
  rw [hloc, above_append_singleton, List.reverse_append, List.reverse_singleton,
    List.singleton_append, List.head?_cons] at hhead
  rw [hloc, List.dropLast_concat]
  exact Option.some.inj hhead

/-- What leads nowhere leads to the root, which is a directory. -/
theorem readText_ne_ok_of_location_eq_nil {d : Disk} {cwd : Path} (hp : p.isAbsolute = true)
    (h : location p = []) (text : String) : d.readText cwd p ≠ .ok text := by
  have hidle : ∀ piece ∈ p.pieces, Path.isIdle piece = true := by
    simpa [location, List.filter_eq_nil_iff] using h
  have hwalk : ∀ pieces : List String, (∀ piece ∈ pieces, Path.isIdle piece = true) →
      d.walk true linkLimit [] pieces = .ok [] := by
    intro pieces hpieces
    induction pieces with
    | nil => rw [walk]
    | cons piece rest ih =>
        have hroot : d.lookup [] = some .directory := rfl
        rw [walk, hroot]
        simp only [hpieces piece List.mem_cons_self, if_true]
        exact ih fun q hq => hpieces q (List.mem_cons_of_mem _ hq)
  have hlocate : ∀ loc, d.locate true cwd p = .ok loc → loc = [] := by
    intro loc hloc
    unfold locate at hloc
    split at hloc
    · cases hloc
    · rw [startOf, if_pos hp, hwalk _ hidle] at hloc
      exact (Except.ok.inj hloc).symm
  intro hread
  unfold readText at hread
  cases hentry : d.entryAt true cwd p with
  | error fault => simp [hentry] at hread
  | ok e =>
      obtain ⟨loc, hloc, hlookup⟩ := entryAt_eq_ok_iff.mp hentry
      rw [hlocate loc hloc] at hlookup
      obtain rfl : Entry.directory = e := Option.some.inj hlookup
      simp [hentry] at hread

end Disk

namespace Path

variable {base rel : Path}

/-- A relative path that leads down by names.  Dots for a directory itself may stand between
them. -/
def GoesDown (rel : Path) (names : List String) : Prop :=
  rel.isAbsolute = false ∧ rel.components.filter (· != .here) = names.map .name

instance (rel : Path) (names : List String) : Decidable (rel.GoesDown names) :=
  inferInstanceAs (Decidable (_ ∧ _))

theorem filter_components_of_relative (h : rel.isAbsolute = false) :
    rel.components.filter (· != .here) = (Disk.location rel).map component := by
  have hrest : ∀ pieces : List String, ((pieces.filter (!isIdle ·)).map component).filter
      (· != .here) = (pieces.filter (!isIdle ·)).map component := by
    intro pieces
    rw [List.filter_eq_self]
    intro c hc
    obtain ⟨piece, hpiece, rfl⟩ := List.mem_map.mp hc
    have hidle := (List.mem_filter.mp hpiece).2
    simp [component_ne_here (by simpa using hidle)]
  unfold components
  rw [Disk.location]
  cases rel.pieces with
  | nil => rfl
  | cons first rest =>
      simp only [h, Bool.false_eq_true, if_false, List.filter_append, hrest]
      rw [List.filter_cons (x := first)]
      by_cases hempty : first = ""
      · subst hempty
        simp [isIdle]
      · by_cases hdot : first = "."
        · subst hdot
          simp [isIdle, component]
        · have hidle : isIdle first = false := by simp [isIdle, hempty, hdot]
          simp [hempty, hidle, component_ne_here hidle]

theorem GoesDown.location_eq {names : List String} (h : rel.GoesDown names) :
    Disk.location rel = names := by
  have hnames := h.2
  rw [filter_components_of_relative h.1] at hnames
  exact eq_of_map_component hnames

/-- A path that goes down from a directory has the directory's steps before its names. -/
theorem GoesDown.components_join {names : List String} (h : rel.GoesDown names)
    (hb : base.isAbsolute = true) :
    (base.join rel).components = base.components ++ names.map .name := by
  have hnames := h.2
  rw [filter_components_of_relative h.1] at hnames
  rw [components_eq_location (isAbsolute_join hb rel), components_eq_location hb,
    Disk.location_join_of_relative hb h.1, List.map_append, hnames, List.cons_append]

end Path
end DeclarativeBuild
