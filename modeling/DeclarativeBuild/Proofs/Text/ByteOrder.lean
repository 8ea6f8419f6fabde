import Mathlib.Data.List.Lex
import Mathlib.Data.String.Basic

/-!
# Order of texts by their bytes

Texts are compared character by character, which is the order of their bytes: of two characters the
lesser one has the lesser bytes, and no character's bytes begin with those of another.
-/

namespace DeclarativeBuild
namespace Text

/-- The bytes that a text is stored as. -/
def bytes (s : String) : List UInt8 :=
  s.toList.flatMap String.utf8EncodeChar

theorem bytes_eq (s : String) : bytes s = s.toUTF8.data.toList := by
  rw [String.toUTF8_eq_toByteArray, ← String.ofList_toList (s := s), String.toByteArray_ofList,
    List.utf8Encode, List.data_toByteArray, bytes, String.toList_ofList]

theorem cons_lt_cons_of_lt {a b : Nat} (hb : b < 256) (h : a < b) (s t : List UInt8) :
    UInt8.ofNat a :: s < UInt8.ofNat b :: t := by
  refine List.cons_lt_cons_iff.mpr (.inl ?_)
  rw [UInt8.lt_iff_toNat_lt, UInt8.toNat_ofNat', UInt8.toNat_ofNat', Nat.mod_eq_of_lt hb,
    Nat.mod_eq_of_lt (Nat.lt_trans h hb)]
  exact h

/-- Bytes are compared at the first two that differ. -/
theorem cons_lt_cons_of_le {a b : Nat} (hb : b < 256) (h : a ≤ b) {s t : List UInt8}
    (hrest : a = b → s < t) : UInt8.ofNat a :: s < UInt8.ofNat b :: t := by
  rcases Nat.lt_or_eq_of_le h with h | h
  · exact cons_lt_cons_of_lt hb h s t
  · rw [h]
    exact List.cons_lt_cons_iff.mpr (.inr ⟨rfl, hrest h⟩)

theorem utf8EncodeChar_append_lt {c d : Char} (h : c < d) (s t : List UInt8) :
    String.utf8EncodeChar c ++ s < String.utf8EncodeChar d ++ t := by
  have hlt : c.val.toNat < d.val.toNat := UInt32.lt_iff_toNat_lt.mp h
  have hd : d.val.toNat < 0x110000 := by
    have hvalid := d.valid
    simp only [UInt32.isValidChar, Nat.isValidChar] at hvalid
    omega
  unfold String.utf8EncodeChar
  simp only
  generalize c.val.toNat = v at *
  generalize d.val.toNat = w at *
  -- Bytes of different numbers differ in the first one; otherwise digits to the base 64 are compared.
  split_ifs
  · exact cons_lt_cons_of_lt (by omega) hlt _ _
  · exact cons_lt_cons_of_lt (by omega) (by omega) _ _
  · exact cons_lt_cons_of_lt (by omega) (by omega) _ _
  · exact cons_lt_cons_of_lt (by omega) (by omega) _ _
  · omega
  · refine cons_lt_cons_of_le (by omega) (by omega) fun _ => ?_
    exact cons_lt_cons_of_lt (by omega) (by omega) _ _
  · exact cons_lt_cons_of_lt (by omega) (by omega) _ _
  · exact cons_lt_cons_of_lt (by omega) (by omega) _ _
  · omega
  · omega
  · refine cons_lt_cons_of_le (by omega) (by omega) fun _ => ?_
    refine cons_lt_cons_of_le (by omega) (by omega) fun _ => ?_
    exact cons_lt_cons_of_lt (by omega) (by omega) _ _
  · exact cons_lt_cons_of_lt (by omega) (by omega) _ _
  · omega
  · omega
  · omega
  · refine cons_lt_cons_of_le (by omega) (by omega) fun _ => ?_
    refine cons_lt_cons_of_le (by omega) (by omega) fun _ => ?_
    refine cons_lt_cons_of_le (by omega) (by omega) fun _ => ?_
    exact cons_lt_cons_of_lt (by omega) (by omega) _ _

theorem utf8EncodeChar_ne_nil (c : Char) : String.utf8EncodeChar c ≠ [] := by
  unfold String.utf8EncodeChar
  simp only
  split_ifs <;> exact List.cons_ne_nil _ _

theorem flatMap_utf8EncodeChar_lt {cs ds : List Char} (h : cs < ds) :
    cs.flatMap String.utf8EncodeChar < ds.flatMap String.utf8EncodeChar := by
  induction cs generalizing ds with
  | nil =>
      cases ds with
      | nil => exact absurd h (List.lt_irrefl [])
      | cons d ds =>
          obtain ⟨b, bs, hb⟩ := List.exists_cons_of_ne_nil (utf8EncodeChar_ne_nil d)
          rw [List.flatMap_cons, hb]
          exact List.nil_lt_cons b _
  | cons c cs ih =>
      cases ds with
      | nil => exact absurd h (List.not_lt_nil _)
      | cons d ds =>
          rw [List.flatMap_cons, List.flatMap_cons]
          rcases List.cons_lt_cons_iff.mp h with hc | ⟨rfl, hrest⟩
          · exact utf8EncodeChar_append_lt hc _ _
          · exact List.append_left_lt (ih hrest)

/-- The order of texts is the order of their bytes. -/
theorem bytes_lt_bytes_iff {s t : String} : bytes s < bytes t ↔ s < t := by
  have hmono : ∀ {s t : String}, s < t → bytes s < bytes t :=
    fun h => flatMap_utf8EncodeChar_lt (String.lt_iff_toList_lt.mp h)
  refine ⟨fun h => ?_, hmono⟩
  rcases lt_trichotomy s t with hst | rfl | hts
  · exact hst
  · exact absurd h (List.lt_irrefl _)
  · exact absurd h (List.lt_asymm (hmono hts))

end Text
end DeclarativeBuild
