import DeclarativeBuild.Proofs.Markup.Items
import DeclarativeBuild.Proofs.Markup.Trees

/-!
# Reading from a place in the content

At any place in the content some elements are open, and each piece of content makes of them what is
open after it.  Two runs that differ in the leading text of one open element go on in step, and in
the end their trees differ in that text alone.
-/

namespace DeclarativeBuild
namespace Markup

theorem length_of_scanItem {cs rest : List Char} {item : Item}
    (h : scanItem cs = some (item, rest)) : rest.length < cs.length := by
  obtain ⟨p, hne, rfl, -⟩ := scanItem_eq_some h
  have := List.length_pos_iff.mpr hne
  simp
  omega

/-- The elements that are open at a place in the content, the innermost by itself. -/
structure Opened where
  top : OpenElement
  below : List OpenElement

namespace Opened

/-- What is open after a piece of content; nothing if the piece does not belong there or ends the
outermost element. -/
def take (o : Opened) : Item → Option Opened
  | .text text => some ⟨o.top.addText text, o.below⟩
  | .remark => some ⟨o.top.stopText, o.below⟩
  | .startTag name attributes tagEnd =>
    (enter? o.top.scope name attributes).map fun (scope, plain) =>
      match tagEnd with
      | .closed => ⟨o.top.addChild (OpenElement.start name scope plain).close, o.below⟩
      | .opening => ⟨.start name scope plain, o.top :: o.below⟩
  | .endTag name =>
    if name = o.top.name then
      match o.below with
      | [] => none
      | parent :: below => some ⟨parent.addChild o.top.close, below⟩
    else none

/-- The outermost element, if the piece ends it. -/
def finish? (o : Opened) : Item → Option Element
  | .endTag name => if name = o.top.name ∧ o.below = [] then some o.top.close else none
  | _ => none

def read (o : Opened) (cs : List Char) : Option (Element × List Char) :=
  readContent o.top o.below cs

variable {o o' : Opened} {cs rest : List Char} {item : Item}

theorem read_eq (hscan : scanItem cs = some (item, rest)) :
    o.read cs =
      match o.take item with
      | some o' => o'.read rest
      | none => (o.finish? item).map fun e => (e, rest) := by
  obtain ⟨top, below⟩ := o
  rw [read, readContent, hscan]
  simp only [length_of_scanItem hscan, if_true]
  cases item with
  | text text => rfl
  | remark => rfl
  | startTag name attributes tagEnd =>
      simp only [take]
      cases enter? top.scope name attributes with
      | none => rfl
      | some entered => cases tagEnd <;> rfl
  | endTag name =>
      by_cases hname : name = top.name
      · subst hname
        cases below <;> simp [take, finish?, read]
      · simp [take, finish?, hname]

theorem read_of_take (hscan : scanItem cs = some (item, rest)) (htake : o.take item = some o') :
    o.read cs = o'.read rest := by
  rw [read_eq hscan, htake]

theorem read_of_end (hscan : scanItem cs = some (.endTag o.top.name, rest)) (hbelow : o.below = []) :
    o.read cs = some (o.top.close, rest) := by
  rw [read_eq hscan]
  simp [take, finish?, hbelow]

theorem read_cases {result : Element × List Char} (h : o.read cs = some result) :
    ∃ item rest, scanItem cs = some (item, rest) ∧
      ((∃ o', o.take item = some o' ∧ o'.read rest = some result) ∨
        item = .endTag o.top.name ∧ o.below = [] ∧ result = (o.top.close, rest)) := by
  cases hscan : scanItem cs with
  | none =>
      rw [read, readContent, hscan] at h
      cases h
  | some found =>
      obtain ⟨item, rest⟩ := found
      refine ⟨item, rest, rfl, ?_⟩
      rw [read_eq hscan] at h
      cases htake : o.take item with
      | some o' =>
          rw [htake] at h
          exact .inl ⟨o', rfl, h⟩
      | none =>
          rw [htake] at h
          obtain ⟨e, he, rfl⟩ := Option.map_eq_some_iff.mp h
          cases item with
          | endTag name =>
              rw [finish?] at he
              split at he
              · next hend =>
                cases he
                exact .inr ⟨congrArg Item.endTag hend.1, hend.2, rfl⟩
              · cases he
          | text | remark | startTag => cases he

end Opened

/-- Going on from one place in the content to a later one, piece by piece. -/
inductive Reaches : Opened → List Char → Opened → List Char → Prop
  | here (o : Opened) (cs : List Char) : Reaches o cs o cs
  | step {o o' o'' : Opened} {cs middle rest : List Char} {item : Item}
      (hscan : scanItem cs = some (item, middle)) (htake : o.take item = some o')
      (hmore : Reaches o' middle o'' rest) : Reaches o cs o'' rest

theorem Reaches.read_eq {o o' : Opened} {cs rest : List Char} (h : Reaches o cs o' rest) :
    o.read cs = o'.read rest := by
  induction h with
  | here => rfl
  | step hscan htake _ ih => rw [Opened.read_of_take hscan htake, ih]

/-- A place is reached alike when what comes from there on starts alike or with a tag or comment. -/
theorem Reaches.replace {o o' : Opened} {cs rest : List Char} (h : Reaches o cs o' rest) :
    ∃ p, cs = p ++ rest ∧
      ∀ s, s.head? = rest.head? ∨ s.head? = some '<' → Reaches o (p ++ s) o' s := by
  induction h with
  | here o cs => exact ⟨[], rfl, fun s _ => .here o s⟩
  | step hscan htake _ ih =>
      obtain ⟨p, -, rfl, hall⟩ := scanItem_eq_some hscan
      obtain ⟨p', rfl, hall'⟩ := ih
      refine ⟨p ++ p', (List.append_assoc _ _ _).symm, fun s hs => ?_⟩
      rw [List.append_assoc]
      refine .step (hall (p' ++ s) ?_) htake (hall' s hs)
      cases p' with
      | nil => exact hs
      | cons c p' => exact .inl rfl

/-- Two open elements that are the same but for one text inside them, which may be their own. -/
inductive Apart (t t' : Option String) : OpenElement → OpenElement → Prop
  | lead (name : QualifiedName) (attributes : List (String × String)) (scope : Namespaces)
      (children : List Element) {lead lead' : LeadingText} (h : lead.text? = t)
      (h' : lead'.text? = t') :
      Apart t t' ⟨name, attributes, scope, children, lead⟩ ⟨name, attributes, scope, children, lead'⟩
  | child (name : QualifiedName) (attributes : List (String × String)) (scope : Namespaces)
      (before after : List Element) (lead : LeadingText) {e e' : Element} (h : Retold t t' e e') :
      Apart t t' ⟨name, attributes, scope, before ++ e :: after, lead⟩
        ⟨name, attributes, scope, before ++ e' :: after, lead⟩

theorem LeadingText.text?_stop (lead : LeadingText) : lead.stop.text? = lead.text? := by
  cases lead <;> rfl

/-- Whether text that follows is no longer part of the leading text. -/
def OpenElement.IsSettled (e : OpenElement) : Prop :=
  ∀ text, e.addText text = e

theorem OpenElement.isSettled_stopText (e : OpenElement) : e.stopText.IsSettled := by
  intro text
  obtain ⟨name, attributes, scope, children, lead⟩ := e
  cases lead <;> rfl

theorem OpenElement.isSettled_addChild (e : OpenElement) (child : Element) :
    (e.addChild child).IsSettled := by
  intro text
  obtain ⟨name, attributes, scope, children, lead⟩ := e
  cases lead <;> rfl

namespace Apart

variable {t t' : Option String} {e e' : OpenElement}

theorem name_eq (h : Apart t t' e e') : e'.name = e.name := by
  cases h <;> rfl

theorem scope_eq (h : Apart t t' e e') : e'.scope = e.scope := by
  cases h <;> rfl

theorem close (h : Apart t t' e e') : Retold t t' e.close e'.close := by
  cases h with
  | lead name attributes scope children h h' =>
      simp only [OpenElement.close, h, h']
      exact .here _ _ _
  | child name attributes scope before after lead h =>
      simp only [OpenElement.close, List.reverse_append, List.reverse_cons, List.append_assoc,
        List.singleton_append]
      exact .inside _ _ _ _ _ h

theorem stopText (h : Apart t t' e e') : Apart t t' e.stopText e'.stopText := by
  cases h with
  | lead name attributes scope children h h' =>
      exact .lead _ _ _ _ ((LeadingText.text?_stop _).trans h) ((LeadingText.text?_stop _).trans h')
  | child name attributes scope before after lead h => exact .child _ _ _ _ _ _ h

theorem addChild (h : Apart t t' e e') (child : Element) :
    Apart t t' (e.addChild child) (e'.addChild child) := by
  cases h with
  | lead name attributes scope children h h' =>
      exact .lead _ _ _ _ ((LeadingText.text?_stop _).trans h) ((LeadingText.text?_stop _).trans h')
  | child name attributes scope before after lead h =>
      exact .child _ _ _ (child :: before) _ _ h

theorem of_child (e : OpenElement) {child child' : Element} (h : Retold t t' child child') :
    Apart t t' (e.addChild child) (e.addChild child') :=
  .child _ _ _ [] _ _ h

end Apart

/-- The same elements are open in two runs but for one text.  The one that holds it takes no more of
it in either run. -/
inductive Twins (t t' : Option String) (cs : List Char) : Opened → Opened → Prop
  | top (below : List OpenElement) {e e' : OpenElement} (h : Apart t t' e e')
      (hnext : (∀ text rest, scanItem cs ≠ some (.text text, rest)) ∨ e.IsSettled ∧ e'.IsSettled) :
      Twins t t' cs ⟨e, below⟩ ⟨e', below⟩
  | below (top : OpenElement) (above below : List OpenElement) {e e' : OpenElement}
      (h : Apart t t' e e') :
      Twins t t' cs ⟨top, above ++ e :: below⟩ ⟨top, above ++ e' :: below⟩

namespace Twins

variable {t t' : Option String} {cs rest : List Char} {item : Item} {o o' p : Opened}

theorem take_top {e e' : OpenElement} {below : List OpenElement} (h : Apart t t' e e')
    (hnext : (∀ text rest, scanItem cs ≠ some (.text text, rest)) ∨ e.IsSettled ∧ e'.IsSettled)
    (hscan : scanItem cs = some (item, rest)) (htake : (⟨e, below⟩ : Opened).take item = some p) :
    ∃ p', (⟨e', below⟩ : Opened).take item = some p' ∧ Twins t t' rest p p' := by
  cases item with
  | text text =>
      cases htake
      rcases hnext with hnone | ⟨hsettled, hsettled'⟩
      · exact absurd hscan (hnone text rest)
      · refine ⟨_, rfl, ?_⟩
        simp only [hsettled text, hsettled' text]
        exact .top below h (.inr ⟨hsettled, hsettled'⟩)
  | remark =>
      cases htake
      exact ⟨_, rfl, .top below h.stopText (.inr ⟨e.isSettled_stopText, e'.isSettled_stopText⟩)⟩
  | startTag name attributes tagEnd =>
      obtain ⟨⟨scope, plain⟩, henter, rfl⟩ := Option.map_eq_some_iff.mp htake
      refine ⟨_, by rw [Opened.take, h.scope_eq, henter]; rfl, ?_⟩
      cases tagEnd with
      | closed =>
          exact .top below (h.addChild _) (.inr ⟨e.isSettled_addChild _, e'.isSettled_addChild _⟩)
      | opening => exact .below _ [] below h
  | endTag name =>
      rw [Opened.take] at htake ⊢
      rw [h.name_eq]
      split at htake
      · next hname =>
        rw [if_pos hname]
        cases below with
        | nil => cases htake
        | cons parent below =>
            cases htake
            exact ⟨_, rfl, .top below (.of_child parent h.close)
              (.inr ⟨parent.isSettled_addChild _, parent.isSettled_addChild _⟩)⟩
      · cases htake

theorem take_below {top e e' : OpenElement} {above below : List OpenElement} (h : Apart t t' e e')
    (htake : (⟨top, above ++ e :: below⟩ : Opened).take item = some p) :
    ∃ p', (⟨top, above ++ e' :: below⟩ : Opened).take item = some p' ∧ Twins t t' rest p p' := by
  cases item with
  | text text =>
      cases htake
      exact ⟨_, rfl, .below _ above below h⟩
  | remark =>
      cases htake
      exact ⟨_, rfl, .below _ above below h⟩
  | startTag name attributes tagEnd =>
      obtain ⟨⟨scope, plain⟩, henter, rfl⟩ := Option.map_eq_some_iff.mp htake
      refine ⟨_, by rw [Opened.take, henter]; rfl, ?_⟩
      cases tagEnd with
      | closed => exact .below _ above below h
      | opening => exact .below _ (top :: above) below h
  | endTag name =>
      rw [Opened.take] at htake ⊢
      split at htake
      · next hname =>
        rw [if_pos hname]
        cases above with
        | nil =>
            cases htake
            exact ⟨_, rfl, .top below (h.addChild _)
              (.inr ⟨e.isSettled_addChild _, e'.isSettled_addChild _⟩)⟩
        | cons parent above =>
            cases htake
            exact ⟨_, rfl, .below _ above below h⟩
      · cases htake

/-- Every piece of content makes twins of twins. -/
theorem take (h : Twins t t' cs o o') (hscan : scanItem cs = some (item, rest))
    (htake : o.take item = some p) : ∃ p', o'.take item = some p' ∧ Twins t t' rest p p' := by
  cases h with
  | top below h hnext => exact take_top h hnext hscan htake
  | below top above below h => exact take_below h htake

/-- Twins read trees that are the same but for the one text. -/
theorem read {root : Element} (h : Twins t t' cs o o') (hread : o.read cs = some (root, rest)) :
    ∃ root', o'.read cs = some (root', rest) ∧ Retold t t' root root' := by
  -- Every piece shortens the input and keeps the runs twins, until the outermost element ends.
  induction hn : cs.length using Nat.strong_induction_on generalizing cs o o' with
  | _ n ih =>
    subst hn
    obtain ⟨item, after, hscan, ⟨p, htake, hmore⟩ | ⟨rfl, hbelow, hend⟩⟩ := Opened.read_cases hread
    · obtain ⟨p', htake', h'⟩ := h.take hscan htake
      rw [Opened.read_of_take hscan htake']
      exact ih after.length (length_of_scanItem hscan) h' hmore rfl
    · cases hend
      cases h with
      | top below h hnext =>
          refine ⟨_, Opened.read_of_end ?_ hbelow, h.close⟩
          rw [h.name_eq]
          exact hscan
      | below top above below h =>
          exact absurd hbelow (List.append_ne_nil_of_right_ne_nil _ (List.cons_ne_nil _ _))

end Twins

/-- What the texts at the start of the input stand for, and the input after them. -/
def leadingTexts (cs : List Char) : List Char × List Char :=
  match h : scanItem cs with
  | some (.text text, rest) =>
    have := length_of_scanItem h
    (text ++ (leadingTexts rest).1, (leadingTexts rest).2)
  | _ => ([], cs)
termination_by cs.length

section Leading

variable {cs rest : List Char}

theorem leadingTexts_of_text {text : List Char} (h : scanItem cs = some (.text text, rest)) :
    leadingTexts cs = (text ++ (leadingTexts rest).1, (leadingTexts rest).2) := by
  rw [leadingTexts]
  split
  · next text' rest' h' =>
    rw [h] at h'
    cases h'
    rfl
  · next hnone => exact absurd h (hnone text rest)

theorem leadingTexts_of_none (h : ∀ text rest, scanItem cs ≠ some (.text text, rest)) :
    leadingTexts cs = ([], cs) := by
  rw [leadingTexts]
  split
  · next text rest h' => exact absurd h' (h text rest)
  · rfl

theorem scanItem_leadingTexts (cs text rest : List Char) :
    scanItem (leadingTexts cs).2 ≠ some (.text text, rest) := by
  induction hn : cs.length using Nat.strong_induction_on generalizing cs with
  | _ n ih =>
    subst hn
    by_cases h : ∃ text rest, scanItem cs = some (.text text, rest)
    · obtain ⟨text', rest', h⟩ := h
      rw [leadingTexts_of_text h]
      exact ih rest'.length (length_of_scanItem h) rest' rfl
    · have hnone : ∀ text rest, scanItem cs ≠ some (.text text, rest) :=
        fun text rest hscan => h ⟨text, rest, hscan⟩
      rw [leadingTexts_of_none hnone]
      exact hnone text rest

namespace LeadingText

theorem add_add (lead : LeadingText) (text more : List Char) :
    (lead.add text).add more = lead.add (text ++ more) := by
  cases lead with
  | awaited => rfl
  | gathered before => simp [add]
  | ended before => rfl

theorem text?_add_nil (lead : LeadingText) : (lead.add []).text? = lead.text? := by
  cases lead with
  | awaited => rfl
  | gathered before => simp [add]
  | ended before => rfl

end LeadingText

/-- The texts at the start of the input go to the element that is read. -/
theorem Opened.exists_read_eq (e : OpenElement) (below : List OpenElement) (cs : List Char) :
    ∃ lead : LeadingText, lead.text? = (e.lead.add (leadingTexts cs).1).text? ∧
      Opened.read ⟨e, below⟩ cs =
        Opened.read ⟨{ e with lead := lead }, below⟩ (leadingTexts cs).2 := by
  -- Texts add up in the leading text, one after the other, until something else is read.
  induction hn : cs.length using Nat.strong_induction_on generalizing cs e with
  | _ n ih =>
    subst hn
    by_cases h : ∃ text rest, scanItem cs = some (.text text, rest)
    · obtain ⟨text, rest, h⟩ := h
      obtain ⟨lead, hlead, hread⟩ :=
        ih rest.length (length_of_scanItem h) (e.addText text) rest rfl
      refine ⟨lead, ?_, ?_⟩
      · rw [hlead, leadingTexts_of_text h, OpenElement.addText, LeadingText.add_add]
      · rw [leadingTexts_of_text h, Opened.read_of_take h rfl, hread]
        rfl
    · rw [leadingTexts_of_none fun text rest hscan => h ⟨text, rest, hscan⟩]
      exact ⟨e.lead, (LeadingText.text?_add_nil e.lead).symm, rfl⟩

/-- Runs that start with different leading texts, each with texts of its own before the same input,
read trees that are the same but for this text. -/
theorem Opened.read_retold {e : OpenElement} {below : List OpenElement} {cs cs' : List Char}
    (lead' : LeadingText) (hafter : (leadingTexts cs).2 = (leadingTexts cs').2) {root : Element}
    (hread : Opened.read ⟨e, below⟩ cs = some (root, rest)) :
    ∃ root', Opened.read ⟨{ e with lead := lead' }, below⟩ cs' = some (root', rest) ∧
      Retold (e.lead.add (leadingTexts cs).1).text? (lead'.add (leadingTexts cs').1).text?
        root root' := by
  obtain ⟨lead, hlead, heq⟩ := Opened.exists_read_eq e below cs
  obtain ⟨lead₂, hlead₂, heq₂⟩ := Opened.exists_read_eq { e with lead := lead' } below cs'
  rw [heq] at hread
  rw [heq₂, ← hafter]
  refine Twins.read (.top below ?_ (.inl (scanItem_leadingTexts cs))) hread
  exact .lead _ _ _ _ hlead hlead₂

end Leading

end Markup
end DeclarativeBuild
