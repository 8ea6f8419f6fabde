import DeclarativeBuild.Text.Pieces

/-!
# Joined texts taken apart

What comes of a joined text when it is taken apart at the separator.  The texts that were joined come
back exactly if none of them has the separator in it; otherwise there are more.
-/

namespace DeclarativeBuild
namespace Text

variable {sep : Char} {cs : List Char}

theorem length_pieces (sep : Char) (cs : List Char) : (pieces sep cs).length = cs.count sep + 1 := by
  induction cs with
  | nil => rfl
  | cons c rest ih =>
      rw [pieces]
      split
      · next hc => rw [List.length_cons, ih, hc, List.count_cons_self]
      · next hc =>
        rw [List.count_cons_of_ne hc]
        cases hp : pieces sep rest with
        | nil => exact absurd hp (pieces_ne_nil sep rest)
        | cons p ps => rw [← ih, hp]; rfl

theorem notMem_of_mem_pieces {piece : List Char} (h : piece ∈ pieces sep cs) :
    sep ∉ piece := by
  induction cs generalizing piece with
  | nil =>
      obtain rfl : piece = [] := by simpa [pieces] using h
      simp
  | cons c rest ih =>
      rw [pieces] at h
      split at h
      · rcases List.mem_cons.mp h with rfl | h
        · simp
        · exact ih h
      · next hc =>
        cases hp : pieces sep rest with
        | nil => exact absurd hp (pieces_ne_nil sep rest)
        | cons p ps =>
            rw [hp] at h
            rcases List.mem_cons.mp h with rfl | h
            · have hfirst : sep ∉ p := ih (hp ▸ List.mem_cons_self)
              simp [Ne.symm hc, hfirst]
            · exact ih (hp ▸ List.mem_cons_of_mem p h)

theorem mem_join {glue piece : List Char} {texts : List (List Char)} (h : piece ∈ texts) {c : Char}
    (hc : c ∈ piece) : c ∈ join glue texts := by
  induction texts with
  | nil => simp at h
  | cons t rest ih =>
      cases rest with
      | nil =>
          obtain rfl := List.mem_singleton.mp h
          exact hc
      | cons u more =>
          rw [join, List.mem_append]
          rcases List.mem_cons.mp h with rfl | h
          · exact .inl (List.mem_append_left _ hc)
          · exact .inr (ih h)

theorem mem_of_mem_pieces {piece : List Char} (h : piece ∈ pieces sep cs) {c : Char}
    (hc : c ∈ piece) : c ∈ cs := by
  rw [← join_pieces sep cs]
  exact mem_join h hc

theorem splitString_of_notMem {s : String} (h : sep ∉ s.toList) :
    splitString sep s = [s] := by
  rw [splitString, pieces_eq_singleton h, List.map_singleton, String.ofList_toList]

theorem splitString_append (sep : Char) (s t : String) :
    splitString sep (s ++ String.singleton sep ++ t) = splitString sep s ++ splitString sep t := by
  simp [splitString, pieces_append_sep]

theorem splitString_ne_nil (sep : Char) (s : String) : splitString sep s ≠ [] :=
  mt List.map_eq_nil_iff.mp (pieces_ne_nil sep s.toList)

/-- The last piece is empty only after a separator. -/
theorem getLast?_splitString_eq_empty_iff {s : String} :
    (splitString sep s).getLast? = some "" ↔ s = "" ∨ s.toList.getLast? = some sep := by
  by_cases hsep : sep ∈ s.toList
  · obtain ⟨after, before, hreverse, hafter⟩ :=
      List.eq_append_cons_of_mem (List.mem_reverse.mpr hsep)
    have hchars : s.toList = before.reverse ++ sep :: after.reverse := by
      rw [← List.reverse_reverse s.toList, hreverse]
      simp
    have htext : s = String.ofList before.reverse ++ String.singleton sep ++
        String.ofList after.reverse := by
      apply String.toList_inj.mp
      simpa using hchars
    have hempty : s ≠ "" := by
      rintro rfl
      simp at hsep
    have hlast : sep ∉ (String.ofList after.reverse).toList := by simpa using hafter
    rw [or_iff_right hempty, hchars, htext, splitString_append, splitString_of_notMem hlast]
    cases after with
    | nil => simp
    | cons c after =>
        have hne : c ≠ sep := fun heq => hafter (heq ▸ List.mem_cons_self)
        simp [hne, List.getLast?_cons]
  · have hlast : s.toList.getLast? ≠ some sep := fun h => hsep (List.mem_of_getLast? h)
    rw [splitString_of_notMem hsep, or_iff_left hlast]
    simp

theorem length_splitString (sep : Char) (s : String) :
    (splitString sep s).length = s.toList.count sep + 1 := by
  rw [splitString, List.length_map, length_pieces]

/-- Joining texts, told for characters and for strings. -/
theorem ofList_join (sep : Char) (texts : List String) :
    String.ofList (join [sep] (texts.map String.toList)) =
      (String.singleton sep).intercalate texts := by
  induction texts with
  | nil => rfl
  | cons t rest ih =>
      cases rest with
      | nil => simp [join]
      | cons u more =>
          rw [String.intercalate_cons_cons, ← ih, ← String.toList_inj]
          simp [join]

theorem splitString_joined {texts : List String} (hne : texts ≠ []) :
    splitString sep ((String.singleton sep).intercalate texts) =
      texts.flatMap (splitString sep) := by
  induction texts with
  | nil => exact absurd rfl hne
  | cons t rest ih =>
      by_cases hrest : rest = []
      · rw [hrest, String.intercalate_singleton, List.flatMap_singleton]
      · rw [String.intercalate_cons_of_ne_nil hrest, splitString_append, ih hrest,
          List.flatMap_cons]

theorem splitString_joined_of_notMem {texts : List String} (hne : texts ≠ [])
    (h : ∀ t ∈ texts, sep ∉ t.toList) :
    splitString sep ((String.singleton sep).intercalate texts) = texts := by
  rw [splitString_joined hne]
  clear hne
  induction texts with
  | nil => rfl
  | cons t rest ih =>
      rw [List.flatMap_cons, splitString_of_notMem (h t List.mem_cons_self),
        ih fun u hu => h u (List.mem_cons_of_mem t hu), List.singleton_append]

theorem length_le_splitString_joined (sep : Char) (texts : List String) :
    texts.length ≤ (texts.flatMap (splitString sep)).length := by
  induction texts with
  | nil => simp
  | cons t rest ih =>
      rw [List.flatMap_cons, List.length_append, length_splitString, List.length_cons]
      omega

/-- There are as many pieces as texts only if no text has the separator in it. -/
theorem length_splitString_joined_iff {texts : List String} (hne : texts ≠ []) :
    (splitString sep ((String.singleton sep).intercalate texts)).length = texts.length ↔
      ∀ t ∈ texts, sep ∉ t.toList := by
  refine ⟨fun h => ?_, fun h => by rw [splitString_joined_of_notMem hne h]⟩
  rw [splitString_joined hne] at h
  clear hne
  induction texts with
  | nil => simp
  | cons t rest ih =>
      have hrest := length_le_splitString_joined sep rest
      rw [List.flatMap_cons, List.length_append, length_splitString, List.length_cons] at h
      have hcount : t.toList.count sep = 0 := by omega
      refine List.forall_mem_cons.mpr ⟨List.count_eq_zero.mp hcount, ih (by omega)⟩

theorem mem_joined_iff (sep : Char) {c : Char} (hc : c ≠ sep) {texts : List String} :
    c ∈ ((String.singleton sep).intercalate texts).toList ↔ ∃ t ∈ texts, c ∈ t.toList := by
  induction texts with
  | nil => simp
  | cons t rest ih =>
      by_cases hrest : rest = []
      · simp [hrest]
      · rw [String.intercalate_cons_of_ne_nil hrest, String.toList_append, String.toList_append,
          List.mem_append, List.mem_append, ih]
        simp [hc]

/-- A text cut at its first separator. -/
theorem eq_of_cutFirst_eq_some {before after : List Char}
    (h : cutFirst sep cs = some (before, after)) : sep ∉ before ∧ cs = before ++ sep :: after := by
  induction cs generalizing before with
  | nil => simp [cutFirst] at h
  | cons c rest ih =>
      rw [cutFirst] at h
      split at h
      · next hc =>
        obtain ⟨rfl, rfl⟩ := Prod.mk.inj (Option.some.inj h)
        simp [hc]
      · next hc =>
        obtain ⟨⟨before', after'⟩, hrest, heq⟩ := Option.map_eq_some_iff.mp h
        obtain ⟨rfl, rfl⟩ := Prod.mk.inj heq
        obtain ⟨hsep, hcs⟩ := ih hrest
        exact ⟨by simp [Ne.symm hc, hsep], by rw [hcs, List.cons_append]⟩

theorem cutFirst_append {before : List Char} (h : sep ∉ before) (after : List Char) :
    cutFirst sep (before ++ sep :: after) = some (before, after) := by
  induction before with
  | nil => simp [cutFirst]
  | cons c rest ih =>
      obtain ⟨hc, hrest⟩ : sep ≠ c ∧ sep ∉ rest := by simpa using h
      rw [List.cons_append, cutFirst, if_neg (Ne.symm hc), ih hrest]
      rfl

theorem cutFirst_eq_none_iff : cutFirst sep cs = none ↔ sep ∉ cs := by
  constructor
  · intro h hmem
    obtain ⟨before, after, rfl, hbefore⟩ := List.eq_append_cons_of_mem hmem
    rw [cutFirst_append hbefore] at h
    cases h
  · intro h
    rw [Option.eq_none_iff_forall_ne_some]
    rintro ⟨before, after⟩ hsome
    obtain ⟨-, rfl⟩ := eq_of_cutFirst_eq_some hsome
    simp at h

end Text
end DeclarativeBuild
