import Mathlib.Data.List.Forall2

/-!
# Results of several steps

Steps that may fail are taken one after the other, and the first failure is what comes of them.
-/

namespace DeclarativeBuild

variable {ε α β : Type}

theorem bind_eq_ok_iff {x : Except ε α} {f : α → Except ε β} {b : β} :
    x >>= f = .ok b ↔ ∃ a, x = .ok a ∧ f a = .ok b := by
  cases x with
  | error failure => simp [bind, Except.bind]
  | ok a => simp [bind, Except.bind]

theorem bind_eq_error_iff {x : Except ε α} {f : α → Except ε β} {failure : ε} :
    x >>= f = .error failure ↔ x = .error failure ∨ ∃ a, x = .ok a ∧ f a = .error failure := by
  cases x with
  | error failure => simp [bind, Except.bind]
  | ok a => simp [bind, Except.bind]

/-- Several items are read one by one. -/
theorem mapM_eq_ok_iff {f : α → Except ε β} {items : List α} {found : List β} :
    items.mapM f = .ok found ↔ List.Forall₂ (fun a b => f a = .ok b) items found := by
  induction items generalizing found with
  | nil =>
      rw [List.mapM_nil, List.forall₂_nil_left_iff]
      exact ⟨fun h => (Except.ok.inj h).symm, fun h => h ▸ rfl⟩
  | cons a rest ih =>
      simp only [List.mapM_cons, bind_eq_ok_iff, ih, List.forall₂_cons_left_iff]
      constructor
      · rintro ⟨first, hfirst, more, hmore, h⟩
        exact ⟨first, more, hfirst, hmore, (Except.ok.inj h).symm⟩
      · rintro ⟨first, more, hfirst, hmore, rfl⟩
        exact ⟨first, hfirst, more, hmore, rfl⟩

theorem exists_of_mapM_eq_ok {f : α → Except ε β} {items : List α} {found : List β}
    (h : items.mapM f = .ok found) {item : α} (hm : item ∈ items) : ∃ b, f item = .ok b := by
  have hall := mapM_eq_ok_iff.mp h
  clear h
  induction hall with
  | nil => cases hm
  | cons hfirst _ ih =>
      rcases List.mem_cons.mp hm with rfl | hm
      · exact ⟨_, hfirst⟩
      · exact ih hm

theorem exists_of_mapM_eq_error {f : α → Except ε β} {items : List α} {failure : ε}
    (h : items.mapM f = .error failure) : ∃ item ∈ items, f item = .error failure := by
  induction items with
  | nil => simp [pure, Except.pure] at h
  | cons a rest ih =>
      rw [List.mapM_cons, bind_eq_error_iff] at h
      obtain hfirst | ⟨_, -, h⟩ := h
      · exact ⟨a, List.mem_cons_self, hfirst⟩
      · obtain hrest | ⟨_, -, h⟩ := bind_eq_error_iff.mp h
        · obtain ⟨item, hitem, heq⟩ := ih hrest
          exact ⟨item, List.mem_cons_of_mem a hitem, heq⟩
        · simp [pure, Except.pure] at h

end DeclarativeBuild
