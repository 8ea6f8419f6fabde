import DeclarativeBuild.Text.Uppercase
import Mathlib.Data.Nat.Bitwise

/-!
# The upper case mapping

What upper case leaves alone.  No upper case character is mapped any further, so that a text in upper
case stays as it is.  Characters that are in no row of the table neither go nor come.
-/

namespace DeclarativeBuild
namespace Text

/-- The numbers of a run, `stride` apart, from `start` on. -/
def CaseRun.stepsFrom (run : CaseRun) (start : Nat) : List Nat :=
  (List.range ((run.last - run.first) / run.stride + 1)).map (start + run.stride * ·)

/-- The characters that have an upper case of their own. -/
def lowerCodes : List Nat :=
  caseExpansions.map Prod.fst ++ caseRuns.flatMap fun run => run.stepsFrom run.first

/-- The characters that are the upper case of others, or a part of it. -/
def upperCodes : List Nat :=
  caseExpansions.flatMap Prod.snd ++ caseRuns.flatMap fun run => run.stepsFrom run.image

/-- The number with the bits `codes`. -/
def bitsOf (codes : List Nat) : Nat :=
  codes.foldr (fun code bits => 1 <<< code ||| bits) 0

theorem testBit_bitsOf {codes : List Nat} {code : Nat} (h : code ∈ codes) :
    (bitsOf codes).testBit code = true := by
  induction codes with
  | nil => simp at h
  | cons first rest ih =>
      have hbits : bitsOf (first :: rest) = 1 <<< first ||| bitsOf rest := rfl
      rw [hbits, Nat.testBit_or, Bool.or_eq_true]
      rcases List.mem_cons.mp h with rfl | h
      · exact .inl (by simp)
      · exact .inr (ih h)

theorem notMem_of_and_bitsOf {codes others : List Nat} (h : bitsOf codes &&& bitsOf others = 0)
    {code : Nat} (hcode : code ∈ codes) : code ∉ others := by
  intro hother
  have hboth : (bitsOf codes &&& bitsOf others).testBit code = true := by
    rw [Nat.testBit_and, testBit_bitsOf hcode, testBit_bitsOf hother, Bool.and_self]
  simp [h] at hboth

-- The table is too long to be gone through pair by pair; as numbers, its two sides are told apart
-- at once.
theorem notMem_lowerCodes {code : Nat} (h : code ∈ upperCodes) : code ∉ lowerCodes :=
  notMem_of_and_bitsOf (by decide +kernel) h

theorem isValidChar_of_mem_upperCodes : ∀ code ∈ upperCodes, code.isValidChar := by
  decide +kernel

theorem toNat_ofNat_of_mem_upperCodes {code : Nat} (h : code ∈ upperCodes) :
    (Char.ofNat code).toNat = code := by
  rw [Char.ofNat, dif_pos (isValidChar_of_mem_upperCodes code h)]
  rfl

/-- Characters and their images are as many steps from the two starts of a run. -/
theorem CaseRun.mem_of_image? {run : CaseRun} {n code : Nat} (h : run.image? n = some code) :
    n ∈ run.stepsFrom run.first ∧ code ∈ run.stepsFrom run.image := by
  unfold CaseRun.image? at h
  split at h
  · next hin =>
    simp only [Bool.and_eq_true, decide_eq_true_eq, beq_iff_eq] at hin
    obtain ⟨⟨hfirst, hlast⟩, hstride⟩ := hin
    have hsteps : run.stride * ((n - run.first) / run.stride) = n - run.first :=
      Nat.mul_div_cancel' (Nat.dvd_of_mod_eq_zero hstride)
    have hcount : (n - run.first) / run.stride < (run.last - run.first) / run.stride + 1 :=
      Nat.lt_succ_of_le (Nat.div_le_div_right (Nat.sub_le_sub_right hlast _))
    have hcode : run.image + (n - run.first) = code := Option.some.inj h
    refine ⟨List.mem_map.mpr ⟨_, List.mem_range.mpr hcount, ?_⟩,
      List.mem_map.mpr ⟨_, List.mem_range.mpr hcount, ?_⟩⟩
    · rw [hsteps]
      omega
    · rw [hsteps, hcode]
  · simp at h

theorem upperChar_of_notMem {c : Char} (h : c.toNat ∉ lowerCodes) : upperChar c = [c] := by
  obtain ⟨hkeys, hruns⟩ := not_or.mp (mt List.mem_append.mpr h)
  have hlookup : caseExpansions.lookup c.toNat = none := by
    refine List.lookup_eq_none_iff.mpr fun row hrow => bne_iff_ne.mpr ?_
    rintro heq
    exact hkeys (heq ▸ List.mem_map_of_mem hrow)
  have hfind : caseRuns.findSome? (·.image? c.toNat) = none := by
    refine List.findSome?_eq_none_iff.mpr fun run hrun => ?_
    rw [Option.eq_none_iff_forall_ne_some]
    intro code himage
    exact hruns (List.mem_flatMap.mpr ⟨run, hrun, (CaseRun.mem_of_image? himage).1⟩)
  rw [upperChar, hlookup]
  simp only [hfind]

theorem mem_upperChar {c d : Char} (h : d ∈ upperChar c) :
    d.toNat ∈ upperCodes ∨ upperChar c = [c] := by
  unfold upperChar at h ⊢
  split at h
  · next codes hlookup =>
    obtain ⟨code, hcode, rfl⟩ := List.mem_map.mp h
    obtain ⟨before, after, htable, -⟩ := List.lookup_eq_some_iff.mp hlookup
    have hrow : (c.toNat, codes) ∈ caseExpansions := by simp [htable]
    have hmem : code ∈ upperCodes :=
      List.mem_append_left _ (List.mem_flatMap.mpr ⟨_, hrow, hcode⟩)
    exact .inl ((toNat_ofNat_of_mem_upperCodes hmem).symm ▸ hmem)
  · split at h
    · next code hfind =>
      obtain rfl := List.mem_singleton.mp h
      obtain ⟨run, hrun, himage⟩ := List.exists_of_findSome?_eq_some hfind
      have hmem : code ∈ upperCodes :=
        List.mem_append_right _
          (List.mem_flatMap.mpr ⟨run, hrun, (CaseRun.mem_of_image? himage).2⟩)
      exact .inl ((toNat_ofNat_of_mem_upperCodes hmem).symm ▸ hmem)
    · exact .inr rfl

theorem upperChar_of_mem {c d : Char} (h : d ∈ upperChar c) : upperChar d = [d] := by
  rcases mem_upperChar h with hcode | hc
  · exact upperChar_of_notMem (notMem_lowerCodes hcode)
  · rw [hc, List.mem_singleton] at h
    rw [h, hc]

theorem upperChar_ne_nil (c : Char) : upperChar c ≠ [] := by
  unfold upperChar
  split
  · next codes hlookup =>
    obtain ⟨before, after, htable, -⟩ := List.lookup_eq_some_iff.mp hlookup
    have hrows : ∀ row ∈ caseExpansions, row.2 ≠ [] := by decide
    have hcodes : codes ≠ [] := hrows (c.toNat, codes) (by simp [htable])
    simpa using hcodes
  · split <;> simp

theorem uppercase_of_forall {cs : List Char} (h : ∀ c ∈ cs, upperChar c = [c]) :
    uppercase cs = cs := by
  induction cs with
  | nil => rfl
  | cons c cs ih =>
      have hcs := ih fun d hd => h d (List.mem_cons_of_mem c hd)
      rw [uppercase, List.flatMap_cons, h c List.mem_cons_self, ← uppercase, hcs,
        List.singleton_append]

theorem upperChar_of_mem_uppercase {cs : List Char} {d : Char} (h : d ∈ uppercase cs) :
    upperChar d = [d] := by
  obtain ⟨c, -, hdc⟩ := List.mem_flatMap.mp h
  exact upperChar_of_mem hdc

theorem uppercase_eq_nil_iff {cs : List Char} : uppercase cs = [] ↔ cs = [] := by
  cases cs with
  | nil => simp [uppercase]
  | cons c cs => simp [uppercase, upperChar_ne_nil]

/-- Signs that separate texts. -/
def separators : List Char := [' ', '.', '/', '\\']

theorem notMem_codes_of_mem_separators {x : Char} (hx : x ∈ separators) :
    x.toNat ∉ lowerCodes ++ upperCodes :=
  notMem_of_and_bitsOf (by decide +kernel) (List.mem_map_of_mem hx)

/-- Separators neither go nor come. -/
theorem mem_uppercase_iff {x : Char} (hx : x ∈ separators) {cs : List Char} :
    x ∈ uppercase cs ↔ x ∈ cs := by
  have hcodes := notMem_codes_of_mem_separators hx
  simp only [List.mem_append, not_or] at hcodes
  constructor
  · intro h
    obtain ⟨c, hc, hxc⟩ := List.mem_flatMap.mp h
    rcases mem_upperChar hxc with hcode | hself
    · exact absurd hcode hcodes.2
    · rw [hself, List.mem_singleton] at hxc
      exact hxc ▸ hc
  · intro h
    refine List.mem_flatMap.mpr ⟨x, h, ?_⟩
    rw [upperChar_of_notMem hcodes.1]
    exact List.mem_singleton_self x

end Text
end DeclarativeBuild
