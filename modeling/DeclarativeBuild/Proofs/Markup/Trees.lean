import DeclarativeBuild.Markup.Element
import Mathlib.Logic.Relation

/-!
# Comparing trees

Whether two trees are the same can be decided by going through both of them.  Two trees may also be
the same but for one text, of which the second may have no more than a part at the front.
-/

namespace DeclarativeBuild
namespace Element

mutual

def same : Element → Element → Bool
  | .mk tag attributes children text?, .mk tag' attributes' children' text?' =>
    tag == tag' && attributes == attributes' && text? == text?' && sameAll children children'

def sameAll : List Element → List Element → Bool
  | [], [] => true
  | e :: rest, e' :: rest' => same e e' && sameAll rest rest'
  | _, _ => false

end

mutual

theorem same_iff : (e e' : Element) → (same e e' = true ↔ e = e')
  | .mk tag attributes children text?, .mk tag' attributes' children' text?' => by
      simp only [same, Bool.and_eq_true, beq_iff_eq, sameAll_iff children children',
        Element.mk.injEq, and_assoc]
      rw [and_comm (b := children = children')]

theorem sameAll_iff : (es es' : List Element) → (sameAll es es' = true ↔ es = es')
  | [], [] => by simp [sameAll]
  | [], _ :: _ => by simp [sameAll]
  | _ :: _, [] => by simp [sameAll]
  | e :: rest, e' :: rest' => by
      simp only [sameAll, Bool.and_eq_true, same_iff e e', sameAll_iff rest rest', List.cons.injEq]

end

instance : DecidableEq Element := fun e e' => decidable_of_iff _ (same_iff e e')

end Element

namespace Markup

/-- Two trees that are the same but for one text, which is `t` in the first and `t'` in the other. -/
inductive Retold (t t' : Option String) : Element → Element → Prop
  | here (tag : String) (attributes : List (String × String)) (children : List Element) :
      Retold t t' (.mk tag attributes children t) (.mk tag attributes children t')
  | inside (tag : String) (attributes : List (String × String)) (before after : List Element)
      (text? : Option String) {e e' : Element} (h : Retold t t' e e') :
      Retold t t' (.mk tag attributes (before ++ e :: after) text?)
        (.mk tag attributes (before ++ e' :: after) text?)

/-- The characters of a text; a missing text has none. -/
def chars (text? : Option String) : List Char :=
  (text?.getD "").toList

/-- One text of a tree has lost its end. -/
def Shortened (e e' : Element) : Prop :=
  ∃ t t', Retold t t' e e' ∧ chars t' <+: chars t ∧ chars t' ≠ chars t

theorem Retold.eq {t : Option String} {e e' : Element} (h : Retold t t e e') : e' = e := by
  induction h with
  | here => rfl
  | inside tag attributes before after text? h ih => rw [ih]

mutual

/-- How much text a tree holds. -/
def textLength : Element → Nat
  | .mk _ _ children text? => (chars text?).length + textLengthAll children

def textLengthAll : List Element → Nat
  | [] => 0
  | e :: rest => textLength e + textLengthAll rest

end

theorem textLengthAll_append (es es' : List Element) :
    textLengthAll (es ++ es') = textLengthAll es + textLengthAll es' := by
  induction es with
  | nil => simp [textLengthAll]
  | cons e es ih => rw [List.cons_append, textLengthAll, textLengthAll, ih, Nat.add_assoc]

theorem Retold.textLength_add {t t' : Option String} {e e' : Element} (h : Retold t t' e e') :
    textLength e' + (chars t).length = textLength e + (chars t').length := by
  induction h with
  | here =>
      simp only [textLength]
      omega
  | inside tag attributes before after text? h ih =>
      simp only [textLength, textLengthAll_append, textLengthAll]
      omega

theorem Shortened.textLength_lt {e e' : Element} (h : Shortened e e') :
    textLength e' < textLength e := by
  obtain ⟨t, t', hretold, hstart, hne⟩ := h
  have hlength := hretold.textLength_add
  have hshorter : (chars t').length < (chars t).length :=
    Nat.lt_of_le_of_ne hstart.length_le fun heq => hne (hstart.eq_of_length heq)
  omega

theorem textLength_le_of_shortened {e e' : Element}
    (h : Relation.ReflTransGen Shortened e e') : textLength e' ≤ textLength e := by
  induction h with
  | refl => exact Nat.le_refl _
  | tail _ hstep ih => exact Nat.le_trans (Nat.le_of_lt hstep.textLength_lt) ih

end Markup
end DeclarativeBuild
