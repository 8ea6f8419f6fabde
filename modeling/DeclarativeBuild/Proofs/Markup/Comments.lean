import DeclarativeBuild.Proofs.Markup.Content
import DeclarativeBuild.Proofs.Markup.Prolog
import DeclarativeBuild.Proofs.Markup.Texts
import DeclarativeBuild.Proofs.Properties.Growth
import DeclarativeBuild.Task.Reader

/-!
# Comments inside elements

A comment ends the leading text of the element it stands in, so what comes after it is lost.  All
the rest of the document is read as without the comment.
-/

namespace DeclarativeBuild
namespace Markup

open Text

theorem occursIn_iff {part cs : List Char} : occursIn part cs = true ↔ part <:+: cs := by
  induction cs with
  | nil => simp [occursIn]
  | cons c cs ih =>
      rw [occursIn, Bool.or_eq_true, ih, List.isPrefixOf_iff_prefix, List.infix_cons_iff]

/-- Characters that may stand between tags, references not looked at. -/
def IsPlain (raw : List Char) : Prop :=
  (∀ c ∈ raw, isDocumentChar c = true) ∧ ¬ "]]>".toList <:+: raw

theorem isPlain_iff {raw : List Char} :
    (raw.all isDocumentChar && !occursIn "]]>".toList raw) = true ↔ IsPlain raw := by
  rw [Bool.and_eq_true, List.all_eq_true, Bool.not_eq_true', ← Bool.not_eq_true, occursIn_iff,
    IsPlain]

theorem IsPlain.of_infix {raw piece : List Char} (h : IsPlain raw) (hpiece : piece <:+: raw) :
    IsPlain piece :=
  ⟨fun c hc => h.1 c (hpiece.subset hc), fun hin => h.2 (hin.trans hpiece)⟩

section Texts

variable {raw s : List Char} {ws : List Written}

theorem scanItem_of_plain (hne : raw ≠ []) (hraw : '<' ∉ raw) (hs : AtTag s) (hplain : IsPlain raw)
    (hws : written raw = some ws) : scanItem (raw ++ s) = some (.text (textValue ws), s) := by
  rw [scanItem_append_of_text hne hraw, scanText_append hraw hs, if_pos (isPlain_iff.mpr hplain),
    hws]
  rfl

theorem plain_of_scanItem (hne : raw ≠ []) (hraw : '<' ∉ raw) (hs : AtTag s)
    (h : (scanItem (raw ++ s)).isSome = true) :
    IsPlain raw ∧ ∃ ws, written raw = some ws := by
  rw [scanItem_append_of_text hne hraw, scanText_append hraw hs, Option.isSome_map] at h
  split at h
  · next hplain =>
    rw [Option.isSome_map] at h
    exact ⟨isPlain_iff.mp hplain, Option.isSome_iff_exists.mp h⟩
  · cases h

/-- A text whose end is read by itself stands for the same but for blanks where it is cut. -/
theorem leadingTexts_append {text after : List Char} (htext : '<' ∉ text)
    (hws : written text = some ws) (hscan : (scanItem (text ++ after)).isSome = true) :
    IsPlain text ∧ (leadingTexts (text ++ after)).2 = (leadingTexts after).2 ∧
      (textValue ws).rdropWhile isBlank <+: (leadingTexts (text ++ after)).1 ∧
      nonblank (leadingTexts (text ++ after)).1 =
        nonblank (textValue ws) ++ nonblank (leadingTexts after).1 := by
  by_cases hnil : text = []
  · subst hnil
    obtain rfl : ws = [] := Option.some.inj (hws.symm.trans written_nil)
    refine ⟨⟨fun c hc => absurd hc List.not_mem_nil, by decide⟩, rfl, ?_, ?_⟩
    · exact List.nil_prefix
    · exact (List.nil_append _).symm
  -- The whole text goes on to the next tag, by `more` after the piece.
  have hmore := notMem_takeWhile after
  have hrest := atTag_dropWhile after
  have hafter := List.takeWhile_append_dropWhile (p := (· != '<')) (l := after)
  generalize after.takeWhile (· != '<') = more at hmore hafter
  generalize after.dropWhile (· != '<') = rest at hrest hafter
  subst hafter
  have hwhole : '<' ∉ text ++ more := by
    rw [List.mem_append, not_or]
    exact ⟨htext, hmore⟩
  have hne : text ++ more ≠ [] := fun h => hnil (List.append_eq_nil_iff.mp h).1
  rw [← List.append_assoc] at hscan ⊢
  obtain ⟨hplain, ws₂, hws₂⟩ := plain_of_scanItem hne hwhole hrest hscan
  rw [leadingTexts_of_text (scanItem_of_plain hne hwhole hrest hplain hws₂)]
  rw [written_append hws] at hws₂
  obtain ⟨ws', hws', rfl⟩ := Option.map_eq_some_iff.mp hws₂
  refine ⟨hplain.of_infix (List.prefix_append text more).isInfix, ?_⟩
  have hstart : (textValue ws).rdropWhile isBlank <+:
      textValue (ws ++ ws') ++ (leadingTexts rest).1 :=
    (rdropWhile_textValue_begins ws ws').trans (List.prefix_append _ _)
  by_cases hend : more = []
  · subst hend
    obtain rfl : ws' = [] := Option.some.inj (hws'.symm.trans written_nil)
    refine ⟨rfl, hstart, ?_⟩
    rw [nonblank_append, List.append_nil]
    rfl
  · have hscan' := scanItem_of_plain hend hmore hrest
      (hplain.of_infix (List.suffix_append text more).isInfix) hws'
    rw [leadingTexts_of_text hscan']
    refine ⟨rfl, hstart, ?_⟩
    rw [nonblank_append, nonblank_textValue_append, nonblank_append, List.append_assoc]

end Texts

/-- What may stand between the signs of a comment. -/
structure IsCommentBody (body : List Char) : Prop where
  isDocumentChar : body.all isDocumentChar = true
  no_hyphens : ¬ ['-', '-'] <:+: body
  last : body.getLast? ≠ some '-'

def comment (body : List Char) : List Char :=
  "<!--".toList ++ (body ++ "-->".toList)

theorem scanUntil_of_body {body : List Char} (h : IsCommentBody body) (rest : List Char) :
    scanUntil ['-', '-', '>'] (body ++ ('-' :: '-' :: '>' :: rest)) = some (body, rest) := by
  induction body with
  | nil => rfl
  | cons c body ih =>
      obtain ⟨hc, hchars⟩ := (Bool.and_eq_true _ _).mp h.isDocumentChar
      have htail : IsCommentBody body := by
        refine ⟨hchars, ?_, ?_⟩
        · exact fun hin => h.no_hyphens (hin.trans (List.suffix_cons c body).isInfix)
        · rcases body with _ | ⟨d, body⟩
          · simp
          · exact h.last
      -- Two hyphens at the front stand in the body or begin with its last character.
      have hnot : ¬ ['-', '-', '>'] <+: c :: (body ++ ('-' :: '-' :: '>' :: rest)) := by
        intro hfront
        obtain ⟨rfl, hnext⟩ := List.cons_prefix_cons.mp hfront
        rcases body with _ | ⟨d, body⟩
        · exact h.last rfl
        · rw [List.cons_append] at hnext
          obtain ⟨rfl, -⟩ := List.cons_prefix_cons.mp hnext
          exact h.no_hyphens (List.prefix_append ['-', '-'] body).isInfix
      rw [List.cons_append, scanUntil, if_neg (by rwa [List.isPrefixOf_iff_prefix]),
        if_pos hc, ih htail]
      rfl

theorem scanItem_comment {body : List Char} (h : IsCommentBody body) (rest : List Char) :
    scanItem (comment body ++ rest) = some (.remark, rest) := by
  have hscan : scanComment (body ++ ('-' :: '-' :: '>' :: rest)) = some ((), rest) := by
    have hno : occursIn ['-', '-'] body = false := by
      rw [← Bool.not_eq_true, occursIn_iff]
      exact h.no_hyphens
    rw [scanComment, scanUntil_of_body h]
    simp [hno, h.last]
  have heq : comment body ++ rest =
      '<' :: '!' :: '-' :: '-' :: (body ++ ('-' :: '-' :: '>' :: rest)) := by
    simp [comment]
  rw [heq, scanItem, hscan]
  rfl

/-- What is open before the content that is left of a document, if that starts between pieces of
content. -/
def At (source : List Char) (o : Opened) (rest : List Char) : Prop :=
  ∃ root content, openRoot source = some (root, content) ∧ Reaches ⟨root, []⟩ content o rest

namespace At

variable {o : Opened} {rest : List Char}

theorem replace {source : List Char} (h : At source o rest) :
    ∃ p, source = p ++ rest ∧
      ∀ s, s.head? = rest.head? ∨ s.head? = some '<' → At (p ++ s) o s := by
  obtain ⟨root, content, hopen, hreach⟩ := h
  obtain ⟨p, -, rfl, hall⟩ := closed_openRoot _ _ _ hopen
  obtain ⟨p', rfl, hall'⟩ := hreach.replace
  refine ⟨p ++ p', (List.append_assoc _ _ _).symm, fun s hs => ?_⟩
  exact ⟨root, p' ++ s, by rw [List.append_assoc]; exact hall _, hall' s hs⟩

theorem readDocument_eq {source : String} (h : At source.toList o rest) :
    readDocument source = (o.read rest).bind fun (e, rest) =>
      (skipMisc rest).bind fun rest => if rest.isEmpty then some e else none := by
  obtain ⟨root, content, hopen, hreach⟩ := h
  rw [readDocument_of_openRoot hopen, ← hreach.read_eq]
  rfl

end At

/-- What an element whose leading text is stopped loses of the texts that come next. -/
def LeadingText.lost (texts : List Char) : LeadingText → List Char
  | .ended _ => []
  | _ => texts

namespace LeadingText

theorem chars_text?_gathered (text : List Char) : chars (gathered text).text? = trim text := by
  simp only [chars, text?]
  split
  · next h => simpa using h.symm
  · simp

theorem text?_gathered_eq {text text' : List Char} (h : trim text = trim text') :
    (gathered text).text? = (gathered text').text? := by
  simp only [text?, h]

/-- Of a text that is stopped within its last piece a part at the front is kept. -/
theorem text?_stopped {short full rest : List Char} (lead : LeadingText)
    (hstart : short.rdropWhile isBlank <+: full)
    (hfull : nonblank full = nonblank short ++ nonblank rest) :
    (∀ c ∈ lead.lost rest, isBlank c = true) ∧ (lead.add short).text? = (lead.add full).text? ∨
      (¬ ∀ c ∈ lead.lost rest, isBlank c = true) ∧
        chars (lead.add short).text? <+: chars (lead.add full).text? ∧
        chars (lead.add short).text? ≠ chars (lead.add full).text? := by
  have hgathered : ∀ before : List Char,
      (∀ c ∈ rest, isBlank c = true) ∧
          (gathered (before ++ short)).text? = (gathered (before ++ full)).text? ∨
        (¬ ∀ c ∈ rest, isBlank c = true) ∧
          chars (gathered (before ++ short)).text? <+: chars (gathered (before ++ full)).text? ∧
          chars (gathered (before ++ short)).text? ≠ chars (gathered (before ++ full)).text? := by
    intro before
    have hnonblank : nonblank (before ++ full) = nonblank (before ++ short) ++ nonblank rest := by
      rw [nonblank_append, nonblank_append, hfull, List.append_assoc]
    obtain ⟨hbegins, hsame⟩ :=
      trim_shortened (rdropWhile_append_begins hstart before) hnonblank
    simp only [chars_text?_gathered]
    by_cases hblank : ∀ c ∈ rest, isBlank c = true
    · exact .inl ⟨hblank, text?_gathered_eq (hsame.mpr hblank)⟩
    · exact .inr ⟨hblank, hbegins, fun h => hblank (hsame.mp h)⟩
  cases lead with
  | awaited => exact hgathered []
  | gathered before => exact hgathered before
  | ended before => exact .inl ⟨fun c hc => absurd hc List.not_mem_nil, rfl⟩

end LeadingText

/-- A comment inside the root element of a document.  It may stand between pieces of content or
break a text after some whole characters and references. -/
structure Insertion where
  place : Opened
  before : List Char
  text : List Char
  body : List Char
  after : List Char
  reached : At (before ++ (text ++ after)) place (text ++ after)
  no_tag : '<' ∉ text
  whole : (written text).isSome = true
  isComment : IsCommentBody body

namespace Insertion

variable (i : Insertion)

def source : String :=
  String.ofList (i.before ++ (i.text ++ i.after))

def commented : String :=
  String.ofList (i.before ++ (i.text ++ (comment i.body ++ i.after)))

/-- The text after the comment that still belonged to the leading text before it. -/
def lost : List Char :=
  i.place.top.lead.lost (leadingTexts i.after).1

variable {i}

/-- After the comment the element in which it stands takes no more text. -/
theorem read_commented (hplain : IsPlain i.text) {ws : List Written}
    (hws : written i.text = some ws) :
    ∃ lead : LeadingText, (∀ text, lead.add text = lead) ∧
      lead.text? = (i.place.top.lead.add (textValue ws)).text? ∧
      i.place.read (i.text ++ (comment i.body ++ i.after)) =
        Opened.read ⟨{ i.place.top with lead := lead }, i.place.below⟩ i.after := by
  have hstop : ∀ lead : LeadingText, ∀ text, lead.stop.add text = lead.stop := by
    intro lead text
    cases lead <;> rfl
  have hremark := scanItem_comment i.isComment i.after
  by_cases hnil : i.text = []
  · rw [hnil] at hws
    obtain rfl : ws = [] := Option.some.inj (hws.symm.trans written_nil)
    refine ⟨i.place.top.lead.stop, hstop _, ?_, ?_⟩
    · exact (LeadingText.text?_stop _).trans (LeadingText.text?_add_nil _).symm
    · rw [hnil, List.nil_append, Opened.read_of_take hremark rfl]
      rfl
  · have hat : AtTag (comment i.body ++ i.after) := by
      rintro c ⟨⟩
      rfl
    have htext := scanItem_of_plain hnil i.no_tag hat hplain hws
    refine ⟨(i.place.top.lead.add (textValue ws)).stop, hstop _, LeadingText.text?_stop _, ?_⟩
    rw [Opened.read_of_take htext rfl, Opened.read_of_take hremark rfl]
    rfl

/-- A comment cuts off the rest of the leading text it stands in or before.  The tree stays the same
if this rest is blank; if not, one text of the tree has lost its end. -/
theorem readDocument_commented {root : Element} (hread : readDocument i.source = some root) :
    ∃ root', readDocument i.commented = some root' ∧
      ((∀ c ∈ i.lost, isBlank c = true) ∧ root' = root ∨
        (¬ ∀ c ∈ i.lost, isBlank c = true) ∧ Shortened root root') := by
  have hat : At i.source.toList i.place (i.text ++ i.after) :=
    (String.toList_ofList : i.source.toList = _) ▸ i.reached
  have hat' : At i.commented.toList i.place (i.text ++ (comment i.body ++ i.after)) := by
    obtain ⟨p, hp, hall⟩ := i.reached.replace
    obtain rfl := List.append_cancel_right hp
    rw [commented, String.toList_ofList]
    refine hall _ ?_
    cases i.text with
    | nil => exact .inr rfl
    | cons c text => exact .inl rfl
  rw [hat.readDocument_eq] at hread
  obtain ⟨⟨e, rest⟩, he, hfinish⟩ := Option.bind_eq_some_iff.mp hread
  obtain ⟨beyond, hbeyond, hroot⟩ := Option.bind_eq_some_iff.mp hfinish
  -- Nothing is read where the content cannot go on, so the text before the comment is well formed.
  have hscan : (scanItem (i.text ++ i.after)).isSome = true := by
    obtain ⟨item, rest, hscan, -⟩ := Opened.read_cases he
    rw [hscan]
    rfl
  obtain ⟨ws, hws⟩ := Option.isSome_iff_exists.mp i.whole
  obtain ⟨hplain, hafter, hstart, hvalue⟩ := leadingTexts_append i.no_tag hws hscan
  obtain ⟨lead, hsettled, hlead, hcommented⟩ := read_commented hplain hws
  obtain ⟨root', hroot', hretold⟩ := Opened.read_retold lead hafter he
  rw [hsettled, hlead] at hretold
  split at hroot
  · next hempty =>
    cases hroot
    refine ⟨root', ?_, ?_⟩
    · rw [hat'.readDocument_eq, hcommented, hroot', Option.bind_some]
      simp only [hbeyond, Option.bind_some, hempty, if_true]
    · rcases i.place.top.lead.text?_stopped hstart hvalue with ⟨hblank, hsame⟩ | ⟨hblank, hcut⟩
      · rw [hsame] at hretold
        exact .inl ⟨hblank, hretold.eq⟩
      · exact .inr ⟨hblank, _, _, hretold, hcut⟩
  · cases hroot

end Insertion

/-- Comments put into a document one after the other, each with the text that is lost to it. -/
inductive Commented : String → String → List (List Char) → Prop
  | none (source : String) : Commented source source []
  | insert (i : Insertion) {commented : String} {lost : List (List Char)}
      (h : Commented i.commented commented lost) : Commented i.source commented (i.lost :: lost)

/-- Comments inside the root element change nothing but texts, of which they only cut off ends, and
they change nothing at all exactly if everything they cut off is blank. -/
theorem readDocument_eq_iff_lost_blank {source commented : String} {lost : List (List Char)}
    {root : Element} (h : Commented source commented lost)
    (hread : readDocument source = some root) :
    ∃ root', readDocument commented = some root' ∧
      Relation.ReflTransGen Shortened root root' ∧
      (root' = root ↔ ∀ text ∈ lost, ∀ c ∈ text, isBlank c = true) := by
  induction h generalizing root with
  | none source => exact ⟨root, hread, .refl, by simp⟩
  | insert i h ih =>
      obtain ⟨middle, hmiddle, hcut⟩ := i.readDocument_commented hread
      obtain ⟨root', hroot', hchain, hsame⟩ := ih hmiddle
      refine ⟨root', hroot', ?_⟩
      rw [List.forall_mem_cons]
      rcases hcut with ⟨hblank, rfl⟩ | ⟨hblank, hcut⟩
      · exact ⟨hchain, hsame.trans ⟨fun h => ⟨hblank, h⟩, fun h => h.2⟩⟩
      · refine ⟨.head hcut hchain, fun heq => ?_, fun h => absurd h.1 hblank⟩
        -- What was cut off is not put back by later comments.
        have hless := hcut.textLength_lt
        have hle := textLength_le_of_shortened hchain
        rw [heq] at hle
        omega

theorem openRoot_of_bare {source content : List Char} (tag : List Char) {name : QualifiedName}
    {scope : Namespaces} {plain : List (String × String)}
    (hprolog : skipProlog source = some ('<' :: tag))
    (hname : scanQualifiedName tag = some (name, '>' :: content))
    (henter : enter? Namespaces.initial name [] = some (scope, plain)) :
    openRoot source = some (.start name scope plain, content) := by
  have hattributes : scanAttributes ('>' :: content) = some (([], .opening), content) :=
    scanAttributes_of_opening rfl
  have htag : stripPrefix? ['<'] ('<' :: tag) = some tag := stripPrefix?_append ['<'] tag
  simp only [openRoot, scanStartTag, opened?, hprolog, htag, hname, hattributes, henter,
    Option.bind_eq_bind, Option.bind_some, Option.map_some]

/-- A comment between the start tag of a target and its first task. -/
def beforeTask : Insertion where
  place := ⟨.start ⟨"", "target"⟩ Namespaces.initial [], []⟩
  before := "<target>".toList
  text := []
  body := " greets ".toList
  after := "<echo>hi</echo></target>".toList
  reached := ⟨_, _, openRoot_of_bare "target><echo>hi</echo></target>".toList (by decide +kernel)
    (by decide +kernel) rfl, .here _ _⟩
  no_tag := by decide
  whole := by decide +kernel
  isComment := ⟨by decide +kernel, by decide +kernel, by decide +kernel⟩

theorem readDocument_eq_iff_lost_blank_beforeTask :
    let root := Element.mk "target" [] [.mk "echo" [] [] (some "hi")] none
    Commented beforeTask.source beforeTask.commented [[]] ∧
      readDocument beforeTask.source = some root ∧
      readDocument beforeTask.commented = some root := by
  intro root
  have hlost : beforeTask.lost = [] := by decide +kernel
  have hcommented : Commented beforeTask.source beforeTask.commented [[]] :=
    hlost ▸ .insert beforeTask (.none _)
  have hread : readDocument beforeTask.source = some root := by decide +kernel
  obtain ⟨root', hroot', -, hsame⟩ := readDocument_eq_iff_lost_blank hcommented hread
  obtain rfl := hsame.mpr (by simp)
  exact ⟨hcommented, hread, hroot'⟩

/-- A comment between two words of a command. -/
def withinCommand : Insertion where
  place := ⟨.start ⟨"", "exec"⟩ Namespaces.initial [], []⟩
  before := "<exec>".toList
  text := "make ".toList
  body := " all ".toList
  after := " install</exec>".toList
  reached := ⟨_, _, openRoot_of_bare "exec>make  install</exec>".toList (by decide +kernel)
    (by decide +kernel) rfl, .here _ _⟩
  no_tag := by decide
  whole := by decide +kernel
  isComment := ⟨by decide +kernel, by decide +kernel, by decide +kernel⟩

theorem comment_shortens_command :
    Commented "<exec>make  install</exec>" "<exec>make <!-- all --> install</exec>"
        [" install".toList] ∧
      readDocument "<exec>make  install</exec>" =
        some (.mk "exec" [] [] (some "make  install")) ∧
      readDocument "<exec>make <!-- all --> install</exec>" =
        some (.mk "exec" [] [] (some "make")) ∧
      ∀ s : Scope, Task.ofElement s (.mk "exec" [] [] (some "make")) = .ok (.exec "make" s.base) := by
  have hlost : withinCommand.lost = " install".toList := by decide +kernel
  refine ⟨hlost ▸ .insert withinCommand (.none _), by decide +kernel, by decide +kernel, fun s => ?_⟩
  have hmake : s.props.expand "make" = .ok "make" := Properties.expand_of_plain (by decide +kernel) _
  simp only [Task.ofElement, Element.tag, Element.text?, Option.getD_some, hmake]
  rfl

end Markup
end DeclarativeBuild
