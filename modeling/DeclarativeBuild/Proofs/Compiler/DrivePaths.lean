import DeclarativeBuild.Compiler.Watcom
import DeclarativeBuild.Proofs.Compiler.ShortNames
import DeclarativeBuild.Proofs.Disk.Parents
import Mathlib.Data.List.Forall2

/-!
# Paths on the drive

The drive shows what lies below the mounted directory and nothing else.  A path has a name on it
exactly if names lead down to it, each with one dot at most, and its name is made of their short
names.  How a path is written says where it lies; no step upward is undone.
-/

namespace DeclarativeBuild

namespace Path

variable {p : Path}

/-- Steps that are names are pieces of the path, and lead somewhere. -/
theorem of_name_mem_components {name : String} (h : .name name ∈ p.components) :
    '/' ∉ name.toList ∧ isIdle name = false ∧ name ≠ ".." := by
  have hpiece : ∀ piece : String, component piece = .name name → piece = name ∧
      piece ≠ ".." ∧ piece ≠ "." := by
    intro piece hc
    unfold component at hc
    split at hc
    · cases hc
    · next hup =>
      split at hc
      · cases hc
      · next hhere =>
        exact ⟨Component.name.inj hc, by simpa using hup, by simpa using hhere⟩
  unfold components at h
  split at h
  · simp at h
  · next first rest hpieces =>
    have hmem : ∀ piece ∈ first :: rest, '/' ∉ piece.toList :=
      fun piece hm => notMem_of_mem_pieces (hpieces ▸ hm)
    rcases List.mem_append.mp h with hstart | hrest
    · split at hstart
      · simp at hstart
      · split at hstart
        · simp at hstart
        · next hne =>
          obtain ⟨rfl, hup, hhere⟩ := hpiece first (List.mem_singleton.mp hstart).symm
          exact ⟨hmem _ List.mem_cons_self, by simp [isIdle, hhere]; simpa using hne, hup⟩
    · obtain ⟨piece, hin, hc⟩ := List.mem_map.mp hrest
      obtain ⟨hin, hidle⟩ := List.mem_filter.mp hin
      obtain ⟨rfl, hup, -⟩ := hpiece piece hc
      exact ⟨hmem _ (List.mem_cons_of_mem _ hin), by simpa using hidle, hup⟩

theorem components_of_isAbsolute (h : p.isAbsolute = true) :
    ∃ steps, p.components = .root :: steps ∧ .here ∉ steps := by
  obtain ⟨rest, hpieces⟩ := pieces_of_isAbsolute h
  refine ⟨(rest.filter (!isIdle ·)).map component, ?_, ?_⟩
  · rw [components, hpieces]
    simp [h]
  · rintro hmem
    obtain ⟨piece, hin, hc⟩ := List.mem_map.mp hmem
    have hidle := (List.mem_filter.mp hin).2
    unfold component at hc
    split at hc
    · cases hc
    · split at hc
      · next hdot => simp [isIdle, eq_of_beq hdot] at hidle
      · cases hc

theorem root_notMem_components (h : p.isAbsolute = false) : .root ∉ p.components := by
  have hpiece : ∀ piece : String, component piece ≠ .root := by
    intro piece
    unfold component
    split
    · simp
    · split <;> simp
  unfold components
  split
  · simp
  · simp only [h, Bool.false_eq_true, if_false, List.mem_append, List.mem_map, not_or,
      not_exists, not_and]
    refine ⟨?_, fun piece _ => hpiece piece⟩
    split
    · simp
    · simpa using (hpiece _).symm

end Path

namespace WatcomDriver

open ShortName Text

/-- The names that lead down to a path: to an absolute one from the mounted directory, whose steps
stand before them, and to a relative one as it is written. -/
def LeadsTo (d : WatcomDriver) (p : Path) (names : List String) : Prop :=
  if p.isAbsolute then p.components = d.mount.components ++ names.map .name
  else p.components.filter (· != .here) = names.map .name

theorem namesOf?_eq_some_iff {steps : List Component} {names : List String} :
    namesOf? steps = some names ↔ steps.filter (· != .here) = names.map .name := by
  induction steps generalizing names with
  | nil => cases names <;> simp [namesOf?]
  | cons step rest ih =>
      cases step with
      | root => cases names <;> simp [namesOf?]
      | up => cases names <;> simp [namesOf?]
      | here => simpa [namesOf?] using ih
      | name n =>
          cases names with
          | nil => simp [namesOf?]
          | cons first more =>
              have hcons : namesOf? (.name n :: rest) = some (first :: more) ↔
                  n = first ∧ namesOf? rest = some more := by
                simp [namesOf?, and_comm]
              rw [hcons, ih]
              simp

/-- Only below its base does a path have steps that are all names. -/
theorem namesOf?_stepsBetween {base target : List Component} {names : List String}
    (h : .here ∉ target) :
    (Path.stepsBetween base target).bind namesOf? = some names ↔
      target = base ++ names.map .name := by
  induction base generalizing target with
  | nil =>
      have hfilter : target.filter (· != .here) = target :=
        List.filter_eq_self.mpr fun step hs => bne_iff_ne.mpr fun heq => h (heq ▸ hs)
      simp only [Path.stepsBetween, Option.bind_some, List.nil_append]
      rw [namesOf?_eq_some_iff, hfilter]
  | cons b base ih =>
      cases target with
      | nil => simp [Path.stepsBetween, namesOf?]
      | cons t target =>
          rw [Path.stepsBetween]
          by_cases hbt : b = t
          · rw [if_pos hbt, ih fun hmem => h (List.mem_cons_of_mem t hmem), hbt]
            simp
          · rw [if_neg hbt]
            split
            · simp [Ne.symm hbt]
            · simp [namesOf?, Ne.symm hbt]

theorem namesOf?_stepsToward (d : WatcomDriver) (p : Path) (names : List String) :
    namesOf? (d.stepsToward p) = some names ↔ d.LeadsTo p names := by
  unfold stepsToward LeadsTo
  cases hp : p.isAbsolute with
  | false => simpa using namesOf?_eq_some_iff
  | true =>
      obtain ⟨steps, hsteps, hhere⟩ := Path.components_of_isAbsolute hp
      have hroot : namesOf? p.components = none := by simp [hsteps, namesOf?]
      have hnowhere : .here ∉ p.components := by simp [hsteps, hhere]
      cases hm : d.mount.isAbsolute with
      | true =>
          rw [if_pos rfl, ← namesOf?_stepsBetween hnowhere]
          cases hb : Path.stepsBetween d.mount.components p.components with
          | none => simp [hroot]
          | some found => simp
      | false =>
          -- A relative directory has no root among its steps, so that nothing absolute is below it.
          have hout : p.components ≠ d.mount.components ++ names.map .name := by
            intro heq
            have hmem : .root ∈ d.mount.components ++ names.map .name := by
              rw [← heq, hsteps]
              exact List.mem_cons_self
            simp [Path.root_notMem_components hm] at hmem
          simp [hroot, hout]

theorem LeadsTo.unique {d : WatcomDriver} {p : Path} {names others : List String}
    (h : d.LeadsTo p names) (hothers : d.LeadsTo p others) : others = names := by
  rw [← namesOf?_stepsToward] at h hothers
  exact Option.some.inj (hothers.symm.trans h)

theorem LeadsTo.of_mem {d : WatcomDriver} {p : Path} {names : List String} (h : d.LeadsTo p names)
    {name : String} (hname : name ∈ names) :
    '/' ∉ name.toList ∧ Path.isIdle name = false ∧ name ≠ ".." := by
  apply Path.of_name_mem_components (p := p)
  have hmem : Component.name name ∈ names.map .name := List.mem_map_of_mem hname
  unfold LeadsTo at h
  split at h
  · rw [h]
    exact List.mem_append_right _ hmem
  · rw [← h] at hmem
    exact (List.mem_filter.mp hmem).1

theorem splitString_joined_names {names : List String} (hne : names ≠ [])
    (h : ∀ name ∈ names, '/' ∉ name.toList) :
    splitString '/' ("/".intercalate names) = names :=
  splitString_joined_of_notMem hne h

theorem ofPath_joined_iff {names : List String} (h : ∀ name ∈ names, '/' ∉ name.toList)
    {short : String} :
    ofPath ("/".intercalate names) = .ok short ↔
      (∀ name ∈ names, name.toList.count '.' ≤ 1) ∧ short = "\\".intercalate (names.map ofName) := by
  rw [ofPath_eq_ok_iff]
  by_cases hne : names = []
  · subst hne
    have hempty : splitString '/' "" = [""] := rfl
    have hname : ofName "" = "" := by decide +kernel
    simp [hempty, hname]
  · rw [splitString_joined_names hne h]

theorem ofPath_joined_of_exists {names : List String} (h : ∀ name ∈ names, '/' ∉ name.toList)
    (hdots : ∃ name ∈ names, 1 < name.toList.count '.') :
    ∃ segment, ofPath ("/".intercalate names) =
      .error (.incompatiblePath ("/".intercalate names) (.twoDots segment)) := by
  obtain ⟨name, hname, -⟩ := id hdots
  refine ofPath_of_exists ?_
  rwa [splitString_joined_names (List.ne_nil_of_mem hname) h]

theorem forall₂_abbreviates_iff {names shorts : List String} :
    List.Forall₂ Abbreviates names shorts ↔ shorts = names.map ofName := by
  have hname : Abbreviates = fun name short => ofName name = short := by
    funext name short
    exact propext (abbreviates_iff.trans eq_comm)
  rw [hname, ← List.forall₂_map_left_iff, List.forall₂_eq_eq_eq, eq_comm]

theorem drivePath_of_leadsTo {d : WatcomDriver} {p : Path} {names : List String}
    (h : d.LeadsTo p names) : d.drivePath p = ofPath ("/".intercalate names) := by
  rw [drivePath, (d.namesOf?_stepsToward p names).mpr h]

theorem drivePath_of_forall_not_leadsTo {d : WatcomDriver} {p : Path}
    (h : ∀ names, ¬d.LeadsTo p names) :
    d.drivePath p = .error (.incompatiblePath p.text (.outsideMount d.mount)) := by
  have hnone : namesOf? (d.stepsToward p) = none := by
    rw [Option.eq_none_iff_forall_ne_some]
    exact fun names hnames => h names ((d.namesOf?_stepsToward p names).mp hnames)
  rw [drivePath, hnone]

theorem drivePath_eq_ok_iff {d : WatcomDriver} {p : Path} {short : String} :
    d.drivePath p = .ok short ↔
      ∃ names, d.LeadsTo p names ∧ (∀ name ∈ names, name.toList.count '.' ≤ 1) ∧
        short = "\\".intercalate (names.map ofName) := by
  by_cases hleads : ∃ names, d.LeadsTo p names
  · obtain ⟨names, hnames⟩ := hleads
    have hunique : ∀ others, d.LeadsTo p others ↔ others = names :=
      fun others => ⟨hnames.unique, fun heq => heq ▸ hnames⟩
    rw [drivePath_of_leadsTo hnames, ofPath_joined_iff fun name hm => (hnames.of_mem hm).1]
    simp [hunique]
  · have hnone := not_exists.mp hleads
    rw [drivePath_of_forall_not_leadsTo hnone]
    simp [hnone]

/-- Paths are refused as incompatible, and for no other reason. -/
theorem exists_of_drivePath_eq_error {d : WatcomDriver} {p : Path} {failure : Failure}
    (h : d.drivePath p = .error failure) : ∃ text fault, failure = .incompatiblePath text fault := by
  by_cases hleads : ∃ names, d.LeadsTo p names
  · obtain ⟨names, hnames⟩ := hleads
    have hslash : ∀ name ∈ names, '/' ∉ name.toList := fun name hm => (hnames.of_mem hm).1
    rw [drivePath_of_leadsTo hnames] at h
    have hdots : ∃ name ∈ names, 1 < name.toList.count '.' := by
      by_contra hnone
      have hok := (ofPath_joined_iff hslash).mpr ⟨by simpa using hnone, rfl⟩
      rw [hok] at h
      cases h
    obtain ⟨segment, heq⟩ := ofPath_joined_of_exists hslash hdots
    exact ⟨_, _, Except.error.inj (h.symm.trans heq)⟩
  · rw [drivePath_of_forall_not_leadsTo (not_exists.mp hleads)] at h
    exact ⟨_, _, (Except.error.inj h).symm⟩

/-- A path has a name on the drive exactly if names with one dot at most lead down to it.  Every
other path is refused as incompatible. -/
theorem drivePath_below_mount (d : WatcomDriver) (p : Path) :
    (∀ short, d.drivePath p = .ok short ↔
      ∃ names shorts, d.LeadsTo p names ∧ (∀ name ∈ names, name.toList.count '.' ≤ 1) ∧
        List.Forall₂ Abbreviates names shorts ∧ short = "\\".intercalate shorts) ∧
    ((¬∃ names, d.LeadsTo p names ∧ ∀ name ∈ names, name.toList.count '.' ≤ 1) →
      ∃ text fault, d.drivePath p = .error (.incompatiblePath text fault)) := by
  refine ⟨fun short => ?_, fun hnone => ?_⟩
  · simp only [drivePath_eq_ok_iff, forall₂_abbreviates_iff]
    exact exists_congr fun names => by simp
  cases h : d.drivePath p with
  | ok short =>
      obtain ⟨names, hleads, hdots, -⟩ := drivePath_eq_ok_iff.mp h
      exact absurd ⟨names, hleads, hdots⟩ hnone
  | error failure =>
      obtain ⟨text, fault, rfl⟩ := exists_of_drivePath_eq_error h
      exact ⟨text, fault, rfl⟩

end WatcomDriver
end DeclarativeBuild
