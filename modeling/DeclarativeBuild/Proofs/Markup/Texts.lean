import DeclarativeBuild.Markup.Literal
import Mathlib.Data.List.DropRight

/-!
# Texts in two pieces

What a text stands for when it is read in two pieces.  Line ends may come out otherwise where the
pieces meet, but nothing else does: without the blanks at its end the first piece begins the whole
text, and the characters that are no blanks are those of the two pieces.
-/

namespace DeclarativeBuild
namespace Text

/-- The characters of a text that are no blanks. -/
def nonblank (cs : List Char) : List Char :=
  cs.filter fun c => !isBlank c

@[simp] theorem nonblank_append (cs ds : List Char) :
    nonblank (cs ++ ds) = nonblank cs ++ nonblank ds :=
  List.filter_append cs ds

@[simp] theorem nonblank_reverse (cs : List Char) :
    nonblank cs.reverse = (nonblank cs).reverse :=
  List.filter_reverse

theorem nonblank_eq_nil_iff {cs : List Char} : nonblank cs = [] ↔ ∀ c ∈ cs, isBlank c = true := by
  simp [nonblank]

theorem rdropWhile_append (cs ds : List Char) :
    (cs ++ ds).rdropWhile isBlank =
      if ds.rdropWhile isBlank = [] then cs.rdropWhile isBlank else cs ++ ds.rdropWhile isBlank := by
  simp only [List.rdropWhile, List.reverse_append, List.dropWhile_append, List.reverse_eq_nil_iff,
    List.isEmpty_iff]
  split <;> simp

/-- It does not matter which end is freed of blanks first. -/
theorem rdropWhile_dropWhile (cs : List Char) :
    (cs.dropWhile isBlank).rdropWhile isBlank = (cs.rdropWhile isBlank).dropWhile isBlank := by
  induction cs with
  | nil => rfl
  | cons c cs ih =>
      have hcons := rdropWhile_append [c] cs
      rw [List.singleton_append, List.rdropWhile_singleton] at hcons
      by_cases hc : isBlank c = true
      · rw [List.dropWhile_cons_of_pos hc, ih, hcons]
        split
        · next hnil => rw [hnil]
        · exact (List.dropWhile_cons_of_pos hc).symm
      · rw [List.dropWhile_cons_of_neg hc, hcons]
        split
        · exact (List.dropWhile_cons_of_neg hc).symm
        · exact (List.dropWhile_cons_of_neg hc).symm

theorem trim_eq (cs : List Char) : trim cs = (cs.rdropWhile isBlank).dropWhile isBlank :=
  rdropWhile_dropWhile cs

theorem rdropWhile_trim (cs : List Char) : (trim cs).rdropWhile isBlank = trim cs :=
  List.rdropWhile_idempotent isBlank (cs.dropWhile isBlank)

@[simp] theorem nonblank_dropWhile (cs : List Char) :
    nonblank (cs.dropWhile isBlank) = nonblank cs := by
  induction cs with
  | nil => rfl
  | cons c cs ih =>
      by_cases hc : isBlank c = true
      · rw [List.dropWhile_cons_of_pos hc, ih]
        simp [nonblank, hc]
      · rw [List.dropWhile_cons_of_neg hc]

@[simp] theorem nonblank_rdropWhile (cs : List Char) :
    nonblank (cs.rdropWhile isBlank) = nonblank cs := by
  rw [List.rdropWhile, nonblank_reverse, nonblank_dropWhile, nonblank_reverse, List.reverse_reverse]

theorem trim_eq_nil_iff {cs : List Char} : trim cs = [] ↔ nonblank cs = [] := by
  rw [nonblank_eq_nil_iff, trim_eq, List.dropWhile_eq_nil_iff]
  refine ⟨fun h => ?_, fun h c hc => h c ((List.rdropWhile_prefix _ cs).subset hc)⟩
  have hnil := List.rdropWhile_eq_nil_iff.mpr h
  rw [List.rdropWhile_idempotent] at hnil
  exact List.rdropWhile_eq_nil_iff.mp hnil

/-- What follows a text that is not blank is kept up to its last character that is no blank. -/
theorem trim_rdropWhile_append {cs : List Char} (hcs : trim cs ≠ []) (more : List Char) :
    trim (cs.rdropWhile isBlank ++ more) = trim cs ++ more.rdropWhile isBlank := by
  have hdrop : (cs.rdropWhile isBlank).dropWhile isBlank ≠ [] := by
    rwa [← trim_eq]
  calc trim (cs.rdropWhile isBlank ++ more)
      = ((cs.rdropWhile isBlank).dropWhile isBlank ++ more).rdropWhile isBlank := by
        change ((cs.rdropWhile isBlank ++ more).dropWhile isBlank).rdropWhile isBlank = _
        rw [List.dropWhile_append, if_neg (by rwa [List.isEmpty_iff])]
    _ = (trim cs ++ more).rdropWhile isBlank := by rw [← trim_eq]
    _ = trim cs ++ more.rdropWhile isBlank := by
        rw [rdropWhile_append]
        split
        · next hnil => rw [rdropWhile_trim, hnil, List.append_nil]
        · rfl

/-- A text that is cut short loses nothing but blanks if what is lost is blank. -/
theorem trim_shortened {short full lost : List Char} (hstart : short.rdropWhile isBlank <+: full)
    (hlost : nonblank full = nonblank short ++ nonblank lost) :
    trim short <+: trim full ∧ (trim short = trim full ↔ ∀ c ∈ lost, isBlank c = true) := by
  obtain ⟨more, rfl⟩ := hstart
  rw [← nonblank_eq_nil_iff]
  by_cases hshort : trim short = []
  · refine ⟨hshort ▸ List.nil_prefix, ?_⟩
    rw [hshort, eq_comm, trim_eq_nil_iff, hlost, trim_eq_nil_iff.mp hshort, List.nil_append]
  · have hmore : nonblank more = nonblank lost := by
      rw [nonblank_append, nonblank_rdropWhile] at hlost
      exact List.append_cancel_left hlost
    rw [trim_rdropWhile_append hshort, ← hmore, nonblank_eq_nil_iff, List.self_eq_append_right]
    exact ⟨List.prefix_append _ _, List.rdropWhile_eq_nil_iff⟩

theorem rdropWhile_append_begins {short full : List Char}
    (hstart : short.rdropWhile isBlank <+: full) (before : List Char) :
    (before ++ short).rdropWhile isBlank <+: before ++ full := by
  rw [rdropWhile_append]
  split
  · exact (List.rdropWhile_prefix _ before).trans (List.prefix_append before full)
  · exact (List.prefix_append_right_inj before).mpr hstart

end Text

namespace Markup

open Text

theorem written_nil : written [] = some [] := by
  rw [written]

/-- Where the first piece can be read by itself, every reference stands whole in one of the two. -/
theorem written_append {cs : List Char} {ws : List Written} (h : written cs = some ws)
    (ds : List Char) : written (cs ++ ds) = (written ds).map (ws ++ ·) := by
  fun_induction written cs generalizing ws with
  | case1 =>
      cases h
      simp
  | case2 rest body hshorter c hc =>
      rename_i ih
      obtain ⟨ws', hws', rfl⟩ := Option.map_eq_some_iff.mp h
      have hbody : (rest ++ ds).takeWhile (· != ';') = body := by
        rw [List.takeWhile_append, if_neg (Nat.ne_of_lt hshorter)]
      have hdrop : (rest ++ ds).drop (body.length + 1) = rest.drop (body.length + 1) ++ ds :=
        List.drop_append_of_le_length (by omega)
      have hlonger : body.length < (rest ++ ds).length := by
        simp
        omega
      rw [List.cons_append, written, hbody, if_pos hlonger, hc, hdrop]
      simp only [ih hws']
      cases written ds <;> rfl
  | case3 => cases h
  | case4 => cases h
  | case5 c rest hamp ih =>
      obtain ⟨ws', hws', rfl⟩ := Option.map_eq_some_iff.mp h
      rw [List.cons_append, written, ih hws']
      · cases written ds <;> rfl
      · exact hamp

section Values

variable {c : Char} (text : List Char)

/-- A blank that is added changes nothing but blanks. -/
theorem pushWritten_of_blank (last : Bool) (hc : isBlank c = true) :
    (pushWritten last text c).dropWhile isBlank = text.dropWhile isBlank := by
  have hreturn : isBlank '\r' = true := by decide
  have hfeed : isBlank '\n' = true := by decide
  unfold pushWritten
  split <;> repeat' split
  all_goals simp [hc, hreturn, hfeed]

/-- Any other character that is added changes at most a line end right before it. -/
theorem pushWritten_of_not_blank (hc : isBlank c = false) :
    ∃ text', (∀ last, pushWritten last text c = c :: text') ∧
      text'.dropWhile isBlank = text.dropWhile isBlank := by
  have hreturn : isBlank '\r' = true := by decide
  have hfeed : isBlank '\n' = true := by decide
  have hne : ∀ d, isBlank d = true → (c == d) = false := by
    intro d hd
    rw [beq_eq_false_iff_ne]
    rintro rfl
    rw [hc] at hd
    cases hd
  unfold pushWritten
  split
  · next before =>
    refine ⟨'\n' :: before, fun last => ?_, by simp [hreturn, hfeed]⟩
    simp [hne _ hreturn, hne _ hfeed]
  · refine ⟨text, fun last => ?_, rfl⟩
    simp [hne _ hreturn]

theorem nonblank_pushWritten (last : Bool) (c : Char) :
    nonblank (pushWritten last text c) = nonblank (c :: text) := by
  cases hc : isBlank c with
  | true =>
      rw [← nonblank_dropWhile, pushWritten_of_blank text last hc, nonblank_dropWhile]
      simp [nonblank, hc]
  | false =>
      obtain ⟨text', hpush, htext⟩ := pushWritten_of_not_blank text hc
      have hsame : nonblank text' = nonblank text := by
        rw [← nonblank_dropWhile, htext, nonblank_dropWhile]
      simp only [nonblank] at hsame ⊢
      simp [hpush, hc, hsame]

theorem dropWhile_pushWritten_last (last last' : Bool) (c : Char) :
    (pushWritten last text c).dropWhile isBlank = (pushWritten last' text c).dropWhile isBlank := by
  cases hc : isBlank c with
  | true => rw [pushWritten_of_blank text last hc, pushWritten_of_blank text last' hc]
  | false =>
      obtain ⟨text', hpush, -⟩ := pushWritten_of_not_blank text hc
      rw [hpush, hpush]

theorem dropWhile_suffix_cons (c : Char) :
    text.dropWhile isBlank <:+ (c :: text).dropWhile isBlank := by
  by_cases hc : isBlank c = true
  · exact (List.dropWhile_cons_of_pos hc).symm ▸ List.suffix_rfl
  · rw [List.dropWhile_cons_of_neg hc]
    exact (List.dropWhile_suffix _).trans (List.suffix_cons c text)

theorem dropWhile_suffix_pushWritten (last : Bool) (c : Char) :
    text.dropWhile isBlank <:+ (pushWritten last text c).dropWhile isBlank := by
  cases hc : isBlank c with
  | true => exact (pushWritten_of_blank text last hc).symm ▸ List.suffix_rfl
  | false =>
      obtain ⟨text', hpush, htext⟩ := pushWritten_of_not_blank text hc
      rw [hpush, ← htext]
      exact dropWhile_suffix_cons text' c

theorem dropWhile_suffix_textValueFrom (after : Bool) (ws : List Written) :
    text.dropWhile isBlank <:+ (textValueFrom after text ws).dropWhile isBlank := by
  induction ws generalizing after text with
  | nil => exact List.suffix_rfl
  | cons w ws ih =>
      obtain ⟨c, byReference⟩ := w
      rw [textValueFrom]
      split
      · exact (dropWhile_suffix_cons text c).trans (ih _ _)
      · exact (dropWhile_suffix_pushWritten text _ c).trans (ih _ _)

theorem nonblank_textValueFrom (after : Bool) (ws : List Written) :
    nonblank (textValueFrom after text ws) =
      (nonblank (ws.map (·.char))).reverse ++ nonblank text := by
  induction ws generalizing after text with
  | nil => rfl
  | cons w ws ih =>
      obtain ⟨c, byReference⟩ := w
      have hadd : (nonblank (ws.map (·.char))).reverse ++ nonblank (c :: text) =
          (nonblank (c :: ws.map (·.char))).reverse ++ nonblank text := by
        simp only [nonblank, List.filter_cons]
        split <;> simp
      -- Line ends are made one, but they are blank before and after.
      rw [textValueFrom]
      split
      · rw [ih, hadd]
        rfl
      · rw [ih, nonblank_pushWritten, hadd]
        rfl

theorem nonblank_textValue (ws : List Written) :
    nonblank (textValue ws) = nonblank (ws.map (·.char)) := by
  rw [textValue, nonblank_reverse, nonblank_textValueFrom, List.reverse_append,
    List.reverse_reverse]
  rfl

theorem nonblank_textValue_append (ws ws' : List Written) :
    nonblank (textValue (ws ++ ws')) = nonblank (textValue ws) ++ nonblank (textValue ws') := by
  rw [nonblank_textValue, nonblank_textValue, nonblank_textValue, List.map_append, nonblank_append]

/-- What is read of the first piece alone is, up to blanks, at the start of what both are read as. -/
theorem dropWhile_textValueFrom_suffix (after : Bool) (ws ws' : List Written) :
    (textValueFrom after text ws).dropWhile isBlank <:+
      textValueFrom after text (ws ++ ws') := by
  induction ws generalizing after text with
  | nil =>
      rw [List.nil_append]
      exact (dropWhile_suffix_textValueFrom text after ws').trans (List.dropWhile_suffix _)
  | cons w ws ih =>
      obtain ⟨c, byReference⟩ := w
      rw [List.cons_append, textValueFrom, textValueFrom]
      split
      · exact ih _ _
      · rcases ws with _ | ⟨w, ws⟩
        · -- Only here is a carriage return treated otherwise: the text ends with it in one case.
          rw [List.nil_append, textValueFrom, dropWhile_pushWritten_last text _ ws'.isEmpty]
          exact (dropWhile_suffix_textValueFrom _ false ws').trans (List.dropWhile_suffix _)
        · exact ih _ _

end Values

theorem rdropWhile_textValue_begins (ws ws' : List Written) :
    (textValue ws).rdropWhile isBlank <+: textValue (ws ++ ws') := by
  rw [textValue, List.rdropWhile_reverse, textValue, List.reverse_prefix]
  exact dropWhile_textValueFrom_suffix [] false ws ws'

end Markup
end DeclarativeBuild
