import DeclarativeBuild.Proofs.Markup.Items
import DeclarativeBuild.Proofs.Markup.Texts

/-!
# What the values of attributes are read as

The value of an attribute is no longer than the text between its quotes.  So a text that was put
between quotes as it is reads back only where nothing in it ends the value, refers to a character or
stands for another one.
-/

namespace DeclarativeBuild
namespace Markup

/-- Whether a character stands for itself between double quotes. -/
def isVerbatim (c : Char) : Bool :=
  isDocumentChar c && c != '"' && c != '&' && c != '<' && (!isSpace c || c == ' ')

theorem isVerbatim_iff {c : Char} : isVerbatim c = true ↔
    isDocumentChar c = true ∧ c ≠ '"' ∧ c ≠ '&' ∧ c ≠ '<' ∧ (isSpace c = true → c = ' ') := by
  simp [isVerbatim, and_assoc, imp_iff_not_or]

section Values

variable {cs : List Char} {ws : List Written}

/-- A reference is longer than the character it stands for. -/
theorem length_written (h : written cs = some ws) :
    ws.length ≤ cs.length ∧ ('&' ∈ cs → ws.length < cs.length) := by
  fun_induction written cs generalizing ws with
  | case1 =>
      cases h
      simp
  | case2 rest body hshorter c hc =>
      rename_i ih
      obtain ⟨ws', hws', rfl⟩ := Option.map_eq_some_iff.mp h
      have hle := (ih hws').1
      simp only [List.length_drop, List.length_cons] at hle ⊢
      omega
  | case3 => cases h
  | case4 => cases h
  | case5 c rest hamp ih =>
      obtain ⟨ws', hws', rfl⟩ := Option.map_eq_some_iff.mp h
      obtain ⟨hle, hlt⟩ := ih hws'
      refine ⟨Nat.succ_le_succ hle, fun hmem => Nat.succ_lt_succ (hlt ?_)⟩
      rcases List.mem_cons.mp hmem with rfl | hmem
      · exact absurd rfl hamp
      · exact hmem

theorem written_of_notMem (h : '&' ∉ cs) : written cs = some (cs.map (⟨·, false⟩)) := by
  induction cs with
  | nil => exact written_nil
  | cons c rest ih =>
      rw [written, ih fun hmem => h (List.mem_cons_of_mem c hmem)]
      · rfl
      · rintro rfl
        exact h List.mem_cons_self

theorem length_attributeValue (ws : List Written) : (attributeValue ws).length ≤ ws.length := by
  fun_induction attributeValue ws with
  | case1 => simp
  | case2 rest ih => simpa using Nat.le_succ_of_le ih
  | case3 c byReference rest hreturn ih => simpa using ih

/-- A text without references is its own value if all spaces in it are plain ones. -/
theorem attributeValue_map_eq_iff :
    attributeValue (cs.map (⟨·, false⟩)) = cs ↔ ∀ c ∈ cs, isSpace c = true → c = ' ' := by
  induction cs with
  | nil => simp [attributeValue]
  | cons c rest ih =>
      have hspace : isSpace '\r' = true := by decide
      by_cases hends : c = '\r'
      · subst hends
        refine ⟨fun h => ?_, fun h => absurd (h _ List.mem_cons_self hspace) (by decide)⟩
        rcases rest with _ | ⟨d, rest⟩
        · simp [attributeValue, hspace] at h
        · by_cases hd : d = '\n' <;> simp [attributeValue, hspace, hd] at h
      · have hcons : attributeValue ((c :: rest).map (⟨·, false⟩)) =
            (if isSpace c then ' ' else c) :: attributeValue (rest.map (⟨·, false⟩)) := by
          rw [List.map_cons, attributeValue]
          · rfl
          · exact fun _ _ hc _ => hends hc
        rw [hcons, List.cons_eq_cons, ih, List.forall_mem_cons]
        refine and_congr_left' ?_
        split
        · next hc => simp [hc, eq_comm]
        · next hc => simp [hc]

end Values

section Quoted

variable {cs rest raw after : List Char}

/-- What is read up to a closing sign holds no such sign and nothing that no document may hold. -/
theorem mem_of_scanUntil {stop : Char} (h : scanUntil [stop] cs = some (raw, after)) :
    ∀ c ∈ raw, c ≠ stop ∧ isDocumentChar c = true := by
  induction cs generalizing raw with
  | nil => cases h
  | cons c tail ih =>
      rw [scanUntil] at h
      split at h
      · cases h
        simp
      · next hstop =>
        split at h
        · next hc =>
          obtain ⟨⟨raw', after'⟩, hscan, heq⟩ := Option.map_eq_some_iff.mp h
          cases heq
          have hne : c ≠ stop := by
            rintro rfl
            exact hstop (List.isPrefixOf_iff_prefix.mpr ⟨tail, rfl⟩)
          exact List.forall_mem_cons.mpr ⟨⟨hne, hc⟩, ih hscan⟩
        · cases h

theorem scanUntil_append {stop : Char} (h : ∀ c ∈ raw, c ≠ stop ∧ isDocumentChar c = true)
    (after : List Char) : scanUntil [stop] (raw ++ stop :: after) = some (raw, after) := by
  induction raw with
  | nil => simp [scanUntil]
  | cons c raw ih =>
      obtain ⟨⟨hne, hc⟩, hraw⟩ := List.forall_mem_cons.mp h
      have hstop : [stop].isPrefixOf (c :: (raw ++ stop :: after)) = false := by
        simpa [List.isPrefixOf] using hne.symm
      rw [List.cons_append, scanUntil, hstop, if_neg Bool.false_ne_true, if_pos hc, ih hraw]
      rfl

/-- Reads a value up to the double quote that ends it. -/
def readValue (cs : List Char) : Option (List Char × List Char) :=
  scanUntil ['"'] cs >>= fun (raw, rest) =>
    if raw.contains '<' then none else (written raw).map fun ws => (attributeValue ws, rest)

theorem readValue_of_verbatim {value : List Char} (h : ∀ c ∈ value, isVerbatim c = true)
    (rest : List Char) : readValue (value ++ '"' :: rest) = some (value, rest) := by
  have hscan : scanUntil ['"'] (value ++ '"' :: rest) = some (value, rest) := by
    refine scanUntil_append (fun c hc => ?_) rest
    obtain ⟨hdocument, hquote, -⟩ := isVerbatim_iff.mp (h c hc)
    exact ⟨hquote, hdocument⟩
  have hopens : '<' ∉ value := fun hmem => absurd (h _ hmem) (by decide)
  have hreference : '&' ∉ value := fun hmem => absurd (h _ hmem) (by decide)
  have hvalue : attributeValue (value.map (⟨·, false⟩)) = value :=
    attributeValue_map_eq_iff.mpr fun c hc => (isVerbatim_iff.mp (h c hc)).2.2.2.2
  rw [readValue, hscan, Option.bind_eq_bind, Option.bind_some]
  simp [hopens, written_of_notMem hreference, hvalue]

/-- Only a plain text is read as itself. -/
theorem isVerbatim_of_readValue {value : List Char}
    (h : readValue (value ++ '"' :: rest) = some (value, after)) :
    ∀ c ∈ value, isVerbatim c = true := by
  obtain ⟨⟨raw, after'⟩, hscan, h⟩ := Option.bind_eq_some_iff.mp h
  simp only at h
  split at h
  · cases h
  next hopens =>
  obtain ⟨ws, hws, heq⟩ := Option.map_eq_some_iff.mp h
  cases heq
  obtain ⟨hlength, hamp⟩ := length_written hws
  have hshorter := length_attributeValue ws
  have hin := mem_of_scanUntil hscan
  have hall := (scanUntil_eq_some (List.cons_ne_nil _ _) hscan).1
  -- The value ends at the first quote, and it would be too short if that quote stood inside it.
  obtain ⟨heq, hlengths⟩ : attributeValue ws = raw ∧ raw.length ≤ ws.length := by
    rcases List.append_eq_append_iff.mp hall with ⟨more, hraw, hrest⟩ | ⟨more, hvalue, -⟩
    · cases more with
      | nil =>
          rw [List.append_nil] at hraw
          exact ⟨hraw.symm, hraw ▸ hshorter⟩
      | cons c more =>
          obtain ⟨rfl, -⟩ := List.cons_eq_cons.mp hrest
          exact absurd rfl (hin '"' (by simp [hraw])).1
    · have hlen := congrArg List.length hvalue
      rw [List.length_append] at hlen
      obtain rfl := List.eq_nil_of_length_eq_zero (show more.length = 0 by omega)
      rw [List.append_nil] at hvalue
      exact ⟨hvalue, hvalue ▸ hshorter⟩
  have hreference : '&' ∉ raw := fun hmem => Nat.not_le_of_lt (hamp hmem) hlengths
  rw [written_of_notMem hreference] at hws
  cases hws
  rw [heq]
  have hspaces := attributeValue_map_eq_iff.mp heq
  intro c hc
  obtain ⟨hquote, hdocument⟩ := hin c hc
  have hne : ∀ d, d ∉ raw → c ≠ d := by
    rintro d hd rfl
    exact hd hc
  exact isVerbatim_iff.mpr
    ⟨hdocument, hquote, hne '&' hreference, hne '<' (by simpa using hopens), hspaces c hc⟩

end Quoted

section Attributes

variable {cs : List Char}

theorem isSpace_eq_false {c : Char} (h : isNameChar c = true) : isSpace c = false := by
  rw [Bool.eq_false_iff]
  intro hspace
  simp only [isSpace, Bool.or_eq_true, beq_iff_eq] at hspace
  obtain ((rfl | rfl) | rfl) | rfl := hspace <;> exact absurd h (by decide)

/-- An attribute in double quotes right after its name, with a space before it. -/
theorem scanAttributes_quoted {name : List Char} {q : QualifiedName}
    (hname : ∀ s, scanQualifiedName (name ++ '=' :: s) = some (q, '=' :: s)) (cs : List Char) :
    scanAttributes (' ' :: (name ++ '=' :: '"' :: cs)) =
      readValue cs >>= fun (value, rest) =>
        (scanAttributes rest).map fun ((attributes, tagEnd), rest) =>
          ((⟨q, String.ofList value⟩ :: attributes, tagEnd), rest) := by
  have hattribute : scanAttribute (name ++ '=' :: '"' :: cs) =
      scanUntil ['"'] cs >>= fun (raw, rest) =>
        if raw.contains '<' then none else some ((q, raw), rest) := by
    have hsign : ∀ s, skipSpaces ('=' :: s) = '=' :: s := fun s => rfl
    have hquote : ∀ s, skipSpaces ('"' :: s) = '"' :: s := fun s => rfl
    rw [scanAttribute, hname]
    simp only [Option.bind_eq_bind, Option.bind_some, hsign, hquote]
    rfl
  obtain ⟨c, tail, hstart, hc⟩ := head_of_scanQualifiedName (hname ('"' :: cs))
  have hskip : skipSpaces (' ' :: (name ++ '=' :: '"' :: cs)) = name ++ '=' :: '"' :: cs := by
    have hspace : isSpace ' ' = true := by decide
    rw [hstart, skipSpaces, List.dropWhile_cons_of_pos hspace]
    exact List.dropWhile_cons_of_neg (by simp [isSpace_eq_false hc])
  rw [scanAttributes, hskip]
  split
  · next heq =>
    obtain rfl : c = '/' := (List.cons.inj (hstart.symm.trans heq)).1
    exact absurd hc (by decide)
  · next heq =>
    obtain rfl : c = '>' := (List.cons.inj (hstart.symm.trans heq)).1
    exact absurd hc (by decide)
  · rw [if_pos (by simp), hattribute, readValue]
    cases hscan : scanUntil ['"'] cs with
    | none => rfl
    | some found =>
        obtain ⟨raw, rest⟩ := found
        have hshorter : rest.length < (' ' :: (name ++ '=' :: '"' :: cs)).length := by
          rw [(scanUntil_eq_some (List.cons_ne_nil _ _) hscan).1]
          simp
          omega
        simp only [Option.bind_eq_bind, Option.bind_some]
        by_cases hopens : raw.contains '<' = true
        · simp only [hopens, if_true, Option.bind_none]
        · simp only [hopens, Bool.false_eq_true, if_false, hshorter, if_true]
          cases written raw with
          | none => rfl
          | some ws =>
              simp only [Option.map_some, Option.bind_some]
              cases scanAttributes rest <;> rfl

end Attributes

end Markup
end DeclarativeBuild
