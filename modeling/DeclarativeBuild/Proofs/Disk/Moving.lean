import DeclarativeBuild.Proofs.Disk.Following
import Mathlib.Data.List.Induction

/-!
# Moving files

What a disk looks like after one of its files was moved: the file stands at its new place, nothing
stands at the old one, and all else is as it was.
-/

namespace DeclarativeBuild

namespace Disk

variable {d d' : Disk} {loc source target : Location} {e moved : Entry}

theorem lookup_of_ne_nil (h : loc ≠ []) : d.lookup loc = d.entries.lookup loc := by
  simp [lookup, h]

theorem lookup_cons_of_ne {l : Location} (h : loc ≠ l) (x : Entry)
    (entries : List (Location × Entry)) : ((l, x) :: entries).lookup loc = entries.lookup loc := by
  rw [List.lookup_cons, beq_false_of_ne h]

/-- Whether whatever stands on a disk stands in a directory. -/
def IsTree (d : Disk) : Prop :=
  ∀ loc e, d.lookup loc = some e → d.lookup loc.dropLast = some .directory

theorem IsTree.lookup_of_append (h : d.IsTree) {rest : Location} (hne : rest ≠ [])
    (hl : d.lookup (loc ++ rest) = some e) : d.lookup loc = some .directory := by
  induction rest using List.reverseRecOn generalizing e with
  | nil => exact absurd rfl hne
  | append_singleton rest name ih =>
      have hparent := h _ _ hl
      rw [← List.append_assoc, List.dropLast_concat] at hparent
      by_cases hr : rest = []
      · rwa [hr, List.append_nil] at hparent
      · exact ih hr hparent

/-- Where something stood that stands at `loc` after a relocation: below the source if it stands
below the target, or at `loc`. -/
def StoodAt (entries : List (Location × Entry)) (source target loc : Location) (e : Entry) : Prop :=
  (∃ rest, loc = target ++ rest ∧ entries.lookup (source ++ rest) = some e) ∨
    (loc ≠ target ∧ ¬source <+: loc ∧ entries.lookup loc = some e)

theorem StoodAt.cons {entries : List (Location × Entry)} (h : StoodAt entries source target loc e)
    {l : Location} (x : Entry) (hbelow : ∀ rest, loc = target ++ rest → source ++ rest ≠ l)
    (hother : loc ≠ target → ¬source <+: loc → loc ≠ l) :
    StoodAt ((l, x) :: entries) source target loc e := by
  obtain ⟨rest, hloc, hfound⟩ | ⟨hne, hprefix, hfound⟩ := h
  · exact .inl ⟨rest, hloc, (lookup_cons_of_ne (hbelow rest hloc) _ _).trans hfound⟩
  · exact .inr ⟨hne, hprefix, (lookup_cons_of_ne (hother hne hprefix) _ _).trans hfound⟩

theorem stoodAt_of_lookup_relocate
    (h : (d.relocate source target).entries.lookup loc = some e) :
    StoodAt d.entries source target loc e := by
  unfold relocate at h
  revert h
  induction d.entries with
  | nil => simp
  | cons entry entries ih =>
      intro h
      obtain ⟨l, x⟩ := entry
      rw [List.filterMap_cons] at h
      by_cases hp : source <+: l
      · obtain ⟨rest, rfl⟩ := hp
        simp only [List.isPrefixOf_iff_prefix.mpr (List.prefix_append source rest), if_true,
          List.drop_left] at h
        by_cases hrest : loc = target ++ rest
        · subst hrest
          rw [List.lookup_cons_self] at h
          exact .inl ⟨rest, rfl, List.lookup_cons_self.trans h⟩
        · rw [lookup_cons_of_ne hrest] at h
          refine (ih h).cons x (fun rest' hloc heq => ?_) fun _ hprefix heq => ?_
          · exact hrest (List.append_cancel_left heq ▸ hloc)
          · exact hprefix (heq ▸ List.prefix_append source rest)
      · have hbelow : ∀ rest, loc = target ++ rest → source ++ rest ≠ l :=
          fun rest _ heq => hp (heq ▸ List.prefix_append source rest)
        simp only [mt List.isPrefixOf_iff_prefix.mp hp, Bool.false_eq_true, if_false] at h
        by_cases htarget : l = target
        · rw [if_pos htarget] at h
          exact (ih h).cons x hbelow fun hne _ => htarget ▸ hne
        · rw [if_neg htarget] at h
          by_cases hl : loc = l
          · subst hl
            simp only [List.lookup_cons_self] at h
            exact .inr ⟨htarget, hp, List.lookup_cons_self.trans h⟩
          · have hrest := (lookup_cons_of_ne hl _ _).symm.trans h
            exact (ih hrest).cons x hbelow fun _ _ => hl

/-- Once a file of a tree is relocated, it stands at the target and all else stands where it
stood. -/
theorem lookup_relocate_eq_some (hd : d.IsTree) (hs : source ≠ []) (ht : target ≠ [])
    (hm : d.lookup source = some moved) (hf : moved.isFile = true)
    (h : (d.relocate source target).lookup loc = some e) :
    loc = target ∧ e = moved ∨ loc ≠ target ∧ loc ≠ source ∧ d.lookup loc = some e := by
  by_cases hloc : loc = []
  · subst hloc
    exact .inr ⟨ht.symm, hs.symm, h⟩
  rw [lookup_of_ne_nil hloc] at h
  obtain ⟨rest, rfl, hfound⟩ | ⟨hne, hprefix, hfound⟩ := stoodAt_of_lookup_relocate h
  · rw [← lookup_of_ne_nil (List.append_ne_nil_of_left_ne_nil hs rest)] at hfound
    by_cases hrest : rest = []
    · subst hrest
      rw [List.append_nil, hm] at hfound
      exact .inl ⟨List.append_nil target, (Option.some.inj hfound).symm⟩
    · -- Nothing stands below a file.
      rw [hd.lookup_of_append hrest hfound] at hm
      cases hm
      cases hf
  · rw [← lookup_of_ne_nil hloc] at hfound
    exact .inr ⟨hne, fun heq => hprefix (heq ▸ List.prefix_rfl), hfound⟩

/-- What stood at the source stands at the target. -/
theorem lookup_relocate_target (hs : source ≠ []) (ht : target ≠ []) :
    (d.relocate source target).lookup target = d.lookup source := by
  rw [lookup_of_ne_nil hs, lookup_of_ne_nil ht, relocate]
  induction d.entries with
  | nil => rfl
  | cons entry entries ih =>
      obtain ⟨l, x⟩ := entry
      rw [List.filterMap_cons]
      by_cases hp : source <+: l
      · obtain ⟨rest, rfl⟩ := hp
        simp only [List.isPrefixOf_iff_prefix.mpr (List.prefix_append source rest), if_true,
          List.drop_left]
        by_cases hrest : rest = []
        · subst hrest
          simp
        · have htarget : target ≠ target ++ rest := by simpa using hrest
          have hsource : source ≠ source ++ rest := by simpa using hrest
          rw [lookup_cons_of_ne htarget, lookup_cons_of_ne hsource, ih]
      · have hsource : source ≠ l := fun heq => hp (heq ▸ List.prefix_rfl)
        simp only [mt List.isPrefixOf_iff_prefix.mp hp, Bool.false_eq_true, if_false]
        rw [lookup_cons_of_ne hsource]
        by_cases htarget : l = target
        · rw [if_pos htarget]
          exact ih
        · rw [if_neg htarget]
          exact (lookup_cons_of_ne (Ne.symm htarget) _ _).trans ih

theorem Slot.location_ne_nil (s : Slot) : s.location ≠ [] := by
  simp [Slot.location]

theorem Slot.getLast?_location (s : Slot) : s.location.getLast? = some s.name := by
  simp [Slot.location]

theorem Slot.name_eq {s t : Slot} (h : s.location = t.location) : s.name = t.name := by
  have hlast := s.getLast?_location
  rw [h, t.getLast?_location] at hlast
  exact (Option.some.inj hlast).symm

theorem eq_ok_of_ite {c : Prop} [Decidable c] {fault : SystemError}
    {outcome : Except SystemError Disk} (h : (if c then .error fault else outcome) = .ok d') :
    outcome = .ok d' := by
  split at h
  · cases h
  · exact h

theorem renameSlot_eq_ok {s t : Slot} (h : d.renameSlot s t = .ok d') :
    ∃ e, d.lookup s.location = some e ∧
      (s.location = t.location ∧ d' = d ∨
        s.location ≠ t.location ∧ d' = d.relocate s.location t.location) := by
  replace h := eq_ok_of_ite h
  split at h
  · cases h
  · next e he =>
    refine ⟨e, he, ?_⟩
    -- None of the four guards before the comparison of the two places has stopped it.
    replace h := eq_ok_of_ite (eq_ok_of_ite (eq_ok_of_ite (eq_ok_of_ite h)))
    by_cases heq : s.location = t.location
    · rw [if_pos heq] at h
      exact .inl ⟨heq, (Except.ok.inj h).symm⟩
    · rw [if_neg heq] at h
      refine .inr ⟨heq, ?_⟩
      split at h
      · exact (Except.ok.inj h).symm
      · replace h := eq_ok_of_ite h
        split at h
        · exact (Except.ok.inj h).symm
        · cases h
      · exact (Except.ok.inj (eq_ok_of_ite h)).symm

/-- An entry is moved from one slot to another, or stays if they are the same. -/
theorem rename_eq_ok {cwd p q : Path} (h : d.rename cwd p q = .ok d') :
    ∃ s t e, d.slot cwd p = .ok (some s) ∧ d.slot cwd q = .ok (some t) ∧
      d.lookup s.location = some e ∧
      (s.location = t.location ∧ d' = d ∨
        s.location ≠ t.location ∧ d' = d.relocate s.location t.location) := by
  unfold rename at h
  split at h
  · cases h
  · cases h
  · next s t hs ht =>
    obtain ⟨e, he, hmoved⟩ := renameSlot_eq_ok h
    exact ⟨s, t, e, hs, ht, he, hmoved⟩
  · cases h

/-- What stood at one path before stands at another one now. -/
def Moved (d d' : Disk) (cwd p q : Path) : Prop :=
  ∃ s t e, d.slot cwd p = .ok (some s) ∧ d.slot cwd q = .ok (some t) ∧
    d.lookup s.location = some e ∧ d'.lookup t.location = some e

theorem moved_of_rename {cwd p q : Path} (h : d.rename cwd p q = .ok d') : d.Moved d' cwd p q := by
  obtain ⟨s, t, e, hs, ht, he, ⟨heq, rfl⟩ | ⟨-, rfl⟩⟩ := rename_eq_ok h
  · exact ⟨s, t, e, hs, ht, he, heq ▸ he⟩
  · refine ⟨s, t, e, hs, ht, he, ?_⟩
    rw [lookup_relocate_target s.location_ne_nil t.location_ne_nil, he]

/-- Where nothing stands, nothing stands after a file was moved to a place of another name; nor does
anything stand where it was. -/
theorem vacant_of_rename (hd : d.IsTree) {cwd p q r : Path} (h : d.rename cwd p q = .ok d')
    (hfile : ∀ s e, d.slot cwd p = .ok (some s) → d.lookup s.location = some e → e.isFile = true)
    (hp : lastName? q ≠ lastName? p) (hr : lastName? q ≠ lastName? r)
    (hv : r = p ∨ d.Vacant cwd r) : d'.Vacant cwd r := by
  obtain ⟨s, t, e, hs, ht, he, ⟨heq, -⟩ | ⟨-, rfl⟩⟩ := rename_eq_ok h
  · rw [lastName?_of_slot hs, lastName?_of_slot ht, Slot.name_eq heq] at hp
    exact absurd rfl hp
  · have hfound : ∀ loc x, (d.relocate s.location t.location).lookup loc = some x →
        loc = t.location ∧ x = e ∨ loc ≠ t.location ∧ loc ≠ s.location ∧ d.lookup loc = some x :=
      fun loc x =>
        lookup_relocate_eq_some hd s.location_ne_nil t.location_ne_nil he (hfile s e hs he)
    have hkeeps : d.OnlyGainsFiles (d.relocate s.location t.location) := by
      intro loc x hx hloc
      rcases hfound loc x hloc with ⟨-, rfl⟩ | ⟨-, -, hold⟩
      · rw [hfile s x hs he] at hx
        cases hx
      · exact hold
    intro u hu
    have hslot := slot_of_onlyGainsFiles hkeeps hu
    cases hx : (d.relocate s.location t.location).lookup u.location with
    | none => rfl
    | some x =>
        rcases hfound _ x hx with ⟨hloc, -⟩ | ⟨-, hne, hold⟩
        · rw [lastName?_of_slot hslot, lastName?_of_slot ht, Slot.name_eq hloc] at hr
          exact absurd rfl hr
        · rcases hv with rfl | hv
          · obtain rfl : u = s := by simpa [hs] using hslot.symm
            exact absurd rfl hne
          · rw [hv u hslot] at hold
            cases hold

end Disk

end DeclarativeBuild
