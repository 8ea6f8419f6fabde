import DeclarativeBuild.Invocation

/-!
# Displayed command lines

Quotes inside a quoted word get a backslash, but backslashes do not, so a backslash before a quote
may belong to the word or to the quote.  A line still has one reading: two readings that part at
such a quote are never both between words or both inside one again, and a line ends between words.
-/

namespace DeclarativeBuild
namespace Invocation

/-- The characters of a word between its quotes. -/
def escaped (cs : List Char) : List Char :=
  cs.flatMap fun c => if c = '"' then ['\\', '"'] else [c]

@[simp] theorem escaped_nil : escaped [] = [] := rfl

theorem escaped_cons_of_ne {c : Char} (h : c ≠ '"') (cs : List Char) :
    escaped (c :: cs) = c :: escaped cs := by
  simp [escaped, h]

/-- What stands on a line after one of its words. -/
def wordsAfter (words : List String) : List Char :=
  words.flatMap fun word => ' ' :: (quoteWord word).toList

@[simp] theorem wordsAfter_nil : wordsAfter [] = [] := rfl

theorem wordsAfter_cons (word : String) (words : List String) :
    wordsAfter (word :: words) = ' ' :: ((quoteWord word).toList ++ wordsAfter words) := rfl

/-- What stands on a line inside a quoted word that goes on with `cs`. -/
def insideWord (cs : List Char) (words : List String) : List Char :=
  escaped cs ++ '"' :: wordsAfter words

theorem insideWord_cons_quote (cs : List Char) (words : List String) :
    insideWord ('"' :: cs) words = '\\' :: '"' :: insideWord cs words := rfl

theorem insideWord_cons_of_ne {c : Char} (h : c ≠ '"') (cs : List Char) (words : List String) :
    insideWord (c :: cs) words = c :: insideWord cs words := by
  rw [insideWord, escaped_cons_of_ne h]
  rfl

theorem display_eq (i : Invocation) :
    ' ' :: i.display.toList = wordsAfter (i.program.text :: i.args) := by
  rw [display]
  generalize i.args = args
  generalize i.program.text = word
  induction args generalizing word with
  | nil => simp [wordsAfter]
  | cons next rest ih =>
      rw [wordsAfter_cons, ← ih next, List.map_cons, List.map_cons, String.intercalate_cons_cons]
      simp

/-- A word is shown as it is if it has neither blanks nor quotes, and between quotes otherwise. -/
theorem quoteWord_cases (word : String) :
    (quoteWord word = word ∧ word.toList ≠ [] ∧ ' ' ∉ word.toList ∧ '"' ∉ word.toList) ∨
      (quoteWord word).toList = '"' :: (escaped word.toList ++ ['"']) := by
  unfold quoteWord
  simp only
  split
  · exact .inr String.toList_ofList
  · next h =>
    simp only [Bool.or_eq_true, not_or, Bool.not_eq_true, List.isEmpty_eq_false_iff,
      List.any_eq_false, List.contains_eq_mem, decide_eq_false_iff_not] at h
    obtain ⟨⟨hne, hblank⟩, hquote⟩ := h
    refine .inl ⟨rfl, hne, fun hm => ?_, hquote⟩
    exact absurd (show Text.isBlank ' ' = true by decide) (by simpa using hblank _ hm)

theorem wordsAfter_cons_cases (word : String) (words : List String) :
    (word.toList ≠ [] ∧ ' ' ∉ word.toList ∧ '"' ∉ word.toList ∧
      wordsAfter (word :: words) = ' ' :: (word.toList ++ wordsAfter words)) ∨
    wordsAfter (word :: words) = ' ' :: '"' :: insideWord word.toList words := by
  rw [wordsAfter_cons]
  rcases quoteWord_cases word with ⟨hword, hne, hblank, hquote⟩ | hword
  · exact .inl ⟨hne, hblank, hquote, by rw [hword]⟩
  · exact .inr (by rw [hword, insideWord]; simp)

theorem head?_wordsAfter (words : List String) :
    (wordsAfter words).head? = none ∨ (wordsAfter words).head? = some ' ' := by
  cases words with
  | nil => exact .inl rfl
  | cons word words => exact .inr rfl

/-- Characters that are no quotes stand for themselves inside a word, unless the last of them is the
backslash of a quote that follows. -/
theorem insideWord_eq_append {plain rest cs : List Char} {words : List String}
    (hplain : '"' ∉ plain) (hrest : plain.getLast? = some '\\' → rest.head? ≠ some '"')
    (h : plain ++ rest = insideWord cs words) :
    ∃ more, cs = plain ++ more ∧ rest = insideWord more words := by
  induction plain generalizing cs with
  | nil => exact ⟨cs, rfl, h⟩
  | cons c plain ih =>
      rw [List.mem_cons, not_or] at hplain
      obtain ⟨hc, hplain⟩ := hplain
      cases cs with
      | nil => exact absurd (List.cons_eq_cons.mp h).1 (Ne.symm hc)
      | cons d cs =>
          by_cases hd : d = '"'
          · rw [hd, insideWord_cons_quote] at h
            obtain ⟨rfl, htail⟩ := List.cons_eq_cons.mp h
            cases plain with
            | nil => exact absurd (congrArg List.head? htail) (hrest rfl)
            | cons e plain =>
                exact absurd ((List.cons_eq_cons.mp htail).1 ▸ List.mem_cons_self) hplain
          · rw [insideWord_cons_of_ne hd] at h
            obtain ⟨rfl, htail⟩ := List.cons_eq_cons.mp h
            have hlast : plain.getLast? = some '\\' → rest.head? ≠ some '"' := by
              intro hlast
              exact hrest (by simp [List.getLast?_cons, hlast])
            obtain ⟨more, rfl, hmore⟩ := ih hplain hlast htail
            exact ⟨more, rfl, hmore⟩

/-- A quote without a backslash closes the word that it stands in. -/
theorem insideWord_eq_cons_quote {rest cs : List Char} {words : List String}
    (h : insideWord cs words = '"' :: rest) : cs = [] ∧ rest = wordsAfter words := by
  cases cs with
  | nil => exact ⟨rfl, (List.cons_eq_cons.mp h).2.symm⟩
  | cons c cs =>
      by_cases hc : c = '"'
      · rw [hc, insideWord_cons_quote] at h
        exact absurd (List.cons_eq_cons.mp h).1 (by decide)
      · rw [insideWord_cons_of_ne hc] at h
        exact absurd (List.cons_eq_cons.mp h).1 hc

/-- No line goes on alike after a word and inside one. -/
theorem wordsAfter_ne_insideWord (words words' : List String) (cs : List Char) :
    wordsAfter words ≠ insideWord cs words' := by
  -- A word without quotes is passed by both readings.  A quote after a blank opens a word for one
  -- of them and closes the word for the other, so they change places.
  induction hn : words.length + words'.length using Nat.strongRecOn generalizing words words' cs with
  | ind n ih =>
      intro h
      cases words with
      | nil => cases cs <;> simp [insideWord] at h
      | cons word words =>
          rw [List.length_cons] at hn
          rcases wordsAfter_cons_cases word words with ⟨-, -, hquote, hword⟩ | hword
          · rw [hword, ← List.cons_append] at h
            have hrest : (wordsAfter words).head? ≠ some '"' := by
              rcases head?_wordsAfter words with hhead | hhead <;> simp [hhead]
            have hplain : '"' ∉ ' ' :: word.toList := by simpa using hquote
            obtain ⟨more, -, hmore⟩ := insideWord_eq_append hplain (fun _ => hrest) h
            exact ih _ (by omega) words words' more rfl hmore
          · rw [hword] at h
            have hopened : [' '] ++ '"' :: insideWord word.toList words = insideWord cs words' := h
            have hlast : [' '].getLast? ≠ some '\\' := by decide
            obtain ⟨more, -, hmore⟩ := insideWord_eq_append (by decide)
              (fun heq => absurd heq hlast) hopened
            obtain ⟨-, hwords⟩ := insideWord_eq_cons_quote hmore.symm
            exact ih _ (by omega) words' words word.toList rfl hwords.symm

/-- What stands on a line inside a word tells how the word goes on and what comes after it. -/
theorem insideWord_injective {cs ds : List Char} {words words' : List String}
    (h : insideWord cs words = insideWord ds words') :
    cs = ds ∧ wordsAfter words = wordsAfter words' := by
  induction cs generalizing ds with
  | nil =>
      obtain ⟨rfl, hwords⟩ := insideWord_eq_cons_quote h.symm
      exact ⟨rfl, hwords⟩
  | cons c cs ih =>
      by_cases hc : c = '"'
      · subst hc
        rw [insideWord_cons_quote] at h
        cases ds with
        | nil => exact absurd (List.cons_eq_cons.mp h).1 (by decide)
        | cons d ds =>
            by_cases hd : d = '"'
            · subst hd
              rw [insideWord_cons_quote] at h
              obtain ⟨rfl, hwords⟩ := ih (List.cons_eq_cons.mp (List.cons_eq_cons.mp h).2).2
              exact ⟨rfl, hwords⟩
            · rw [insideWord_cons_of_ne hd] at h
              obtain ⟨-, hwords⟩ := insideWord_eq_cons_quote (List.cons_eq_cons.mp h).2.symm
              exact absurd hwords.symm (wordsAfter_ne_insideWord words' words cs)
      · rw [insideWord_cons_of_ne hc] at h
        cases ds with
        | nil => exact absurd (List.cons_eq_cons.mp h).1 hc
        | cons d ds =>
            by_cases hd : d = '"'
            · subst hd
              rw [insideWord_cons_quote] at h
              obtain ⟨-, hwords⟩ := insideWord_eq_cons_quote (List.cons_eq_cons.mp h).2
              exact absurd hwords.symm (wordsAfter_ne_insideWord words words' ds)
            · rw [insideWord_cons_of_ne hd] at h
              obtain ⟨rfl, htail⟩ := List.cons_eq_cons.mp h
              obtain ⟨rfl, hwords⟩ := ih htail
              exact ⟨rfl, hwords⟩

/-- A word without blanks ends where the next blank stands. -/
theorem append_wordsAfter_injective {cs ds : List Char} {words words' : List String}
    (hcs : ' ' ∉ cs) (hds : ' ' ∉ ds) (h : cs ++ wordsAfter words = ds ++ wordsAfter words') :
    cs = ds ∧ wordsAfter words = wordsAfter words' := by
  have hrun : ∀ {run : List Char} (words : List String), ' ' ∉ run →
      (run ++ wordsAfter words).takeWhile (· != ' ') = run := by
    intro run words hrun
    have hall : ∀ c ∈ run, (c != ' ') = true := by
      intro c hc
      exact bne_iff_ne.mpr fun heq => hrun (heq ▸ hc)
    rw [List.takeWhile_append_of_pos hall]
    rcases words with _ | ⟨word, words⟩ <;> simp [wordsAfter]
  have hsame : cs = ds := by rw [← hrun words hcs, h, hrun words' hds]
  exact ⟨hsame, List.append_cancel_left (hsame ▸ h)⟩

theorem wordsAfter_injective : Function.Injective wordsAfter := by
  intro words words' h
  induction words generalizing words' with
  | nil =>
      cases words' with
      | nil => rfl
      | cons word words => cases h
  | cons word words ih =>
      cases words' with
      | nil => cases h
      | cons word' words' =>
          have hboth : word.toList = word'.toList ∧ wordsAfter words = wordsAfter words' := by
            rcases wordsAfter_cons_cases word words with ⟨hne, hblank, hquote, hw⟩ | hw <;>
              rcases wordsAfter_cons_cases word' words' with ⟨hne', hblank', hquote', hw'⟩ | hw' <;>
              rw [hw, hw'] at h
            · exact append_wordsAfter_injective hblank hblank' (List.cons_eq_cons.mp h).2
            · obtain ⟨c, cs, hcs⟩ := List.exists_cons_of_ne_nil hne
              rw [hcs] at h hquote
              have hc := (List.cons_eq_cons.mp (List.cons_eq_cons.mp h).2).1
              exact absurd (hc ▸ List.mem_cons_self) hquote
            · obtain ⟨c, cs, hcs⟩ := List.exists_cons_of_ne_nil hne'
              rw [hcs] at h hquote'
              have hc := (List.cons_eq_cons.mp (List.cons_eq_cons.mp h).2).1
              exact absurd (hc ▸ List.mem_cons_self) hquote'
            · exact insideWord_injective (List.cons_eq_cons.mp (List.cons_eq_cons.mp h).2).2
          rw [String.toList_inj.mp hboth.1, ih hboth.2]

/-- Two invocations are shown alike exactly if they run the same program with the same arguments. -/
theorem display_eq_iff (i j : Invocation) :
    i.display = j.display ↔ i.program = j.program ∧ i.args = j.args := by
  constructor
  · intro h
    have hwords : wordsAfter (i.program.text :: i.args) = wordsAfter (j.program.text :: j.args) := by
      rw [← display_eq, ← display_eq, h]
    obtain ⟨htext, hargs⟩ := List.cons_eq_cons.mp (wordsAfter_injective hwords)
    exact ⟨congrArg Path.mk htext, hargs⟩
  · rintro ⟨hprogram, hargs⟩
    rw [display, display, hprogram, hargs]

end Invocation
end DeclarativeBuild
