import DeclarativeBuild.Project.Basic
import Mathlib.Data.List.Induction

/-!
# Tables

Items that are kept by a key.  A key has the place where it was first put in, and the item that was
last put in with it.
-/

namespace DeclarativeBuild

variable {α : Type} {key : α → String}

theorem any_key_iff (name : String) (items : List α) :
    items.any (key · == name) = true ↔ name ∈ items.map key := by
  simp only [List.any_eq_true, beq_iff_eq, List.mem_map]

theorem map_putBy (item : α) (items : List α) :
    (putBy key item items).map key =
      if key item ∈ items.map key then items.map key else items.map key ++ [key item] := by
  unfold putBy
  by_cases h : key item ∈ items.map key
  · rw [if_pos ((any_key_iff _ _).mpr h), if_pos h, List.map_map]
    apply List.map_congr_left
    intro old _
    by_cases hold : key old = key item <;> simp [hold]
  · rw [if_neg (mt (any_key_iff _ _).mp h), if_neg h, List.map_append, List.map_singleton]

/-- Nothing but the new item has its key afterwards. -/
theorem mem_putBy {item old : α} {items : List α} (h : old ∈ putBy key item items) :
    old = item ∨ old ∈ items ∧ key old ≠ key item := by
  unfold putBy at h
  split at h
  · obtain ⟨found, hfound, rfl⟩ := List.mem_map.mp h
    by_cases hkey : key found = key item
    · exact .inl (if_pos hkey)
    · rw [if_neg hkey]
      exact .inr ⟨hfound, hkey⟩
  · next hnone =>
    rcases List.mem_append.mp h with hold | hold
    · have hne : key old ≠ key item := fun hkey =>
        hnone ((any_key_iff _ _).mpr (hkey ▸ List.mem_map_of_mem hold))
      exact .inr ⟨hold, hne⟩
    · exact .inl (List.mem_singleton.mp hold)

theorem getElem?_putBy {item old : α} {items : List α} {i : Nat} (hi : items[i]? = some old)
    (hne : key old ≠ key item) : (putBy key item items)[i]? = some old := by
  unfold putBy
  split
  · rw [List.getElem?_map, hi, Option.map_some, if_neg hne]
  · have hlt : i < items.length := (List.getElem?_eq_some_iff.mp hi).1
    rw [List.getElem?_append_left hlt, hi]

/-- A table once more items have been put into it. -/
def putAll (key : α → String) (items table : List α) : List α :=
  items.foldl (fun table item => putBy key item table) table

theorem putAll_concat (items : List α) (item : α) (table : List α) :
    putAll key (items ++ [item]) table = putBy key item (putAll key items table) :=
  List.foldl_append

theorem map_key_putAll (items : List α) :
    (putAll key items []).map key = (items.map key).eraseDups := by
  -- From the end: the last item is put into the table of those before it.
  induction items using List.reverseRecOn with
  | nil => rfl
  | append_singleton items item ih =>
      have hmem : key item ∈ (items.map key).eraseDups ↔ key item ∈ items.map key :=
        List.mem_eraseDups
      rw [putAll_concat, map_putBy, ih, List.map_append, List.eraseDups_append, List.map_singleton,
        List.removeAll]
      by_cases h : key item ∈ items.map key
      · rw [if_pos (hmem.mpr h), List.filter_cons_of_neg (by simpa using h)]
        simp
      · rw [if_neg (mt hmem.mp h), List.filter_cons_of_pos (by simpa using h)]
        simp [List.eraseDups_cons]

theorem nodup_key_putAll (items : List α) : ((putAll key items []).map key).Nodup := by
  induction items using List.reverseRecOn with
  | nil => exact List.nodup_nil
  | append_singleton items item ih =>
      rw [putAll_concat, map_putBy]
      split
      · exact ih
      · next h =>
        refine List.nodup_append.mpr ⟨ih, by simp, fun name hname name' hname' => ?_⟩
        rw [List.mem_singleton.mp hname']
        exact fun heq => h (heq ▸ hname)

/-- An item in the table is the last one with its key. -/
theorem last_of_mem_putAll {items : List α} {item : α} (h : item ∈ putAll key items []) :
    items.reverse.find? (key · == key item) = some item := by
  induction items using List.reverseRecOn with
  | nil => cases h
  | append_singleton items last ih =>
      rw [putAll_concat] at h
      rw [List.reverse_append, List.reverse_singleton, List.singleton_append]
      rcases mem_putBy h with rfl | ⟨hmem, hne⟩
      · exact List.find?_cons_of_pos (beq_self_eq_true _)
      · rw [List.find?_cons_of_neg (by simpa using Ne.symm hne)]
        exact ih hmem

theorem getElem?_putAll {items table : List α} {i : Nat} {old : α} (hi : table[i]? = some old)
    (hne : ∀ item ∈ items, key item ≠ key old) : (putAll key items table)[i]? = some old := by
  induction items generalizing table with
  | nil => exact hi
  | cons item rest ih =>
      have hother : key old ≠ key item := Ne.symm (hne item List.mem_cons_self)
      exact ih (getElem?_putBy hi hother) fun later hl => hne later (List.mem_cons_of_mem _ hl)

end DeclarativeBuild
