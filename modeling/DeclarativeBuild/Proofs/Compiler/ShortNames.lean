import DeclarativeBuild.Compiler.ShortName
import DeclarativeBuild.Proofs.Text.CaseMapping
import DeclarativeBuild.Proofs.Text.Splitting

/-!
# The form of short names

Names are cut to eight characters and extensions to three, and only then put into upper case, where
they may grow beyond that.  A backslash in a name stays in it, and cannot be told from those between
the names.  Apart from these two, every path becomes a path of as many short names, and a short name
is its own.
-/

namespace DeclarativeBuild
namespace ShortName

open Text

/-- A base name, with an extension after a dot unless it is empty. -/
def dotted (base extension : List Char) : List Char :=
  base ++ if extension.isEmpty then [] else '.' :: extension

/-- At most eight characters, or at most eight with up to three more after a dot. -/
def IsShort (name : String) : Prop :=
  ∃ base extension, name.toList = dotted base extension ∧ '.' ∉ base ∧ '.' ∉ extension ∧
    base.length ≤ 8 ∧ extension.length ≤ 3

/-- What stands before the first dot of a segment, and what after it. -/
def halves (segment : List Char) : List Char × List Char :=
  (cutFirst '.' segment).getD (segment, [])

/-- What is kept of the base name of a segment. -/
def base (segment : List Char) : List Char :=
  shortenBase (halves segment).1

/-- What is kept of the extension of a segment. -/
def extension (segment : List Char) : List Char :=
  (halves segment).2.take maxExtension

/-- The short name of a text without separators. -/
def ofName (name : String) : String :=
  String.ofList (ofSegment name.toList)

/-- What is kept of a segment has no backslash, and is short enough in upper case. -/
def StaysShort (segment : String) : Prop :=
  '\\' ∉ dotted (base segment.toList) (extension segment.toList) ∧
    (uppercase (base segment.toList)).length ≤ 8 ∧
    (uppercase (extension segment.toList)).length ≤ 3

theorem ofSegment_eq (segment : List Char) :
    ofSegment segment = uppercase (dotted (base segment) (extension segment)) := rfl

/-- A short name of a name: in upper case, what stands before the first dot or, if that is longer than
eight characters, six of them and `~1`; and if something stands after the dot, up to three characters
of it after a dot. -/
def Abbreviates (name short : String) : Prop :=
  ∃ before after kept extension : List Char, '.' ∉ before ∧
    (name.toList = before ∧ after = [] ∨ name.toList = before ++ '.' :: after) ∧
    (before.length ≤ 8 ∧ kept = before ∨ 8 < before.length ∧ kept = before.take 6 ++ ['~', '1']) ∧
    (after = [] ∧ extension = [] ∨ after ≠ [] ∧ extension = '.' :: after.take 3) ∧
    short.toList = uppercase (kept ++ extension)

theorem uppercase_dotted (base extension : List Char) :
    uppercase (dotted base extension) = dotted (uppercase base) (uppercase extension) := by
  have hdot : uppercase ['.'] = ['.'] := by
    rw [uppercase, List.flatMap_singleton, upperChar_of_notMem]
    exact fun h => notMem_codes_of_mem_separators (x := '.') (by decide) (List.mem_append_left _ h)
  unfold dotted
  by_cases h : extension = []
  · simp [h, uppercase]
  · have hup : uppercase extension ≠ [] := mt uppercase_eq_nil_iff.mp h
    have hcons : uppercase ('.' :: extension) = '.' :: uppercase extension := by
      rw [← List.singleton_append, uppercase_append, hdot, List.singleton_append]
    simp [h, hup, uppercase_append, hcons]

theorem halves_dotted {base : List Char} (h : '.' ∉ base) (extension : List Char) :
    halves (dotted base extension) = (base, extension) := by
  unfold halves dotted
  by_cases he : extension = []
  · simp [he, cutFirst_eq_none_iff.mpr h]
  · simp [he, cutFirst_append h]

theorem notMem_halves_fst (segment : List Char) : '.' ∉ (halves segment).1 := by
  unfold halves
  cases h : cutFirst '.' segment with
  | none => exact cutFirst_eq_none_iff.mp h
  | some found => exact (eq_of_cutFirst_eq_some h).1

theorem notMem_halves_snd {segment : List Char} (h : segment.count '.' ≤ 1) :
    '.' ∉ (halves segment).2 := by
  unfold halves
  cases hc : cutFirst '.' segment with
  | none => simp
  | some found =>
      obtain ⟨before, after⟩ := found
      obtain ⟨-, rfl⟩ := eq_of_cutFirst_eq_some hc
      rw [List.count_append, List.count_cons_self] at h
      exact List.count_eq_zero.mp (show after.count '.' = 0 by omega)

theorem notMem_base (segment : List Char) : '.' ∉ base segment := by
  have hfirst := notMem_halves_fst segment
  unfold base shortenBase
  split
  · intro h
    rcases List.mem_append.mp h with h | h
    · exact hfirst (List.mem_of_mem_take h)
    · revert h
      decide
  · exact hfirst

theorem notMem_extension {segment : List Char} (h : segment.count '.' ≤ 1) :
    '.' ∉ extension segment :=
  fun hmem => notMem_halves_snd h (List.mem_of_mem_take hmem)

theorem eq_or_of_halves (segment : List Char) :
    segment = (halves segment).1 ∧ (halves segment).2 = [] ∨
      segment = (halves segment).1 ++ '.' :: (halves segment).2 := by
  unfold halves
  cases h : cutFirst '.' segment with
  | none => exact .inl ⟨rfl, rfl⟩
  | some found => exact .inr (eq_of_cutFirst_eq_some h).2

theorem halves_eq {segment before after : List Char} (hdot : '.' ∉ before)
    (h : segment = before ∧ after = [] ∨ segment = before ++ '.' :: after) :
    halves segment = (before, after) := by
  unfold halves
  rcases h with ⟨rfl, rfl⟩ | rfl
  · rw [cutFirst_eq_none_iff.mpr hdot, Option.getD_none]
  · rw [cutFirst_append hdot, Option.getD_some]

theorem eq_shortenBase_iff {before kept : List Char} :
    kept = shortenBase before ↔
      before.length ≤ 8 ∧ kept = before ∨
        8 < before.length ∧ kept = before.take 6 ++ ['~', '1'] := by
  by_cases h : 8 < before.length
  · simp [shortenBase, maxBase, h]
  · simp [shortenBase, maxBase, h, Nat.le_of_not_lt h]

/-- A name has one short name, which is the one that is computed. -/
theorem abbreviates_iff {name short : String} : Abbreviates name short ↔ short = ofName name := by
  have htext : short = ofName name ↔ short.toList =
      uppercase (dotted (base name.toList) (extension name.toList)) := by
    rw [ofName, ← ofSegment_eq, ← String.toList_inj, String.toList_ofList]
  rw [htext]
  constructor
  · rintro ⟨before, after, kept, extension, hdot, hname, hkept, hextension, hshort⟩
    have hhalves := halves_eq hdot hname
    rw [hshort, base, ShortName.extension, hhalves, ← eq_shortenBase_iff.mpr hkept, dotted]
    rcases hextension with ⟨rfl, rfl⟩ | ⟨hne, rfl⟩
    · simp
    · simp [maxExtension, hne]
  · intro hshort
    refine ⟨_, _, _, _, notMem_halves_fst name.toList, eq_or_of_halves name.toList,
      eq_shortenBase_iff.mp rfl, ?_, hshort⟩
    by_cases hafter : (halves name.toList).2 = []
    · exact .inl ⟨hafter, by simp [extension, hafter]⟩
    · exact .inr ⟨hafter, by simp [extension, maxExtension, hafter]⟩

example : ofName "mainprogram.cppx" = "MAINPR~1.CPP" := by decide +kernel

/-- The cuts come before the upper case, so it is there that a name may get too long. -/
theorem isShort_ofName_iff {name : String} (h : name.toList.count '.' ≤ 1) :
    IsShort (ofName name) ↔ (uppercase (base name.toList)).length ≤ 8 ∧
      (uppercase (extension name.toList)).length ≤ 3 := by
  have hdot {cs : List Char} : '.' ∉ uppercase cs ↔ '.' ∉ cs :=
    not_congr (mem_uppercase_iff (by decide))
  have hbase := hdot.mpr (notMem_base name.toList)
  have htext : (ofName name).toList =
      dotted (uppercase (base name.toList)) (uppercase (extension name.toList)) := by
    rw [ofName, String.toList_ofList, ofSegment_eq, uppercase_dotted]
  constructor
  · rintro ⟨b, e, heq, hb, -, hlength⟩
    have hhalves := halves_dotted hb e
    rw [← heq, htext, halves_dotted hbase] at hhalves
    obtain ⟨rfl, rfl⟩ := Prod.mk.inj hhalves
    exact hlength
  · rintro ⟨hb, he⟩
    exact ⟨_, _, htext, hbase, hdot.mpr (notMem_extension h), hb, he⟩

theorem shortenBase_of_length_le {base : List Char} (h : base.length ≤ 8) :
    shortenBase base = base :=
  if_neg (Nat.not_lt.mpr h)

/-- A short name in upper case is its own short name. -/
theorem ofSegment_of_isShort {name : String} (h : IsShort name)
    (hupper : uppercase name.toList = name.toList) : ofSegment name.toList = name.toList := by
  obtain ⟨b, e, heq, hb, -, hblength, helength⟩ := h
  have hhalves : halves name.toList = (b, e) := heq ▸ halves_dotted hb e
  have hbase : base name.toList = b := by
    rw [base, hhalves, shortenBase_of_length_le hblength]
  have hextension : extension name.toList = e := by
    rw [extension, hhalves]
    exact List.take_of_length_le helength
  rw [ofSegment_eq, hbase, hextension, ← heq, hupper]

theorem ofSegments_of_forall {path : String} {segments : List (List Char)}
    (h : ∀ segment ∈ segments, segment.count '.' ≤ 1) :
    ofSegments path segments = .ok (segments.map ofSegment) := by
  induction segments with
  | nil => rfl
  | cons segment rest ih =>
      obtain ⟨hsegment, hrest⟩ := List.forall_mem_cons.mp h
      rw [ofSegments, if_neg (Nat.not_lt.mpr hsegment), ih hrest]
      rfl

/-- A path is refused for the first segment with more than one dot. -/
theorem ofSegments_of_exists (path : String) {segments : List (List Char)}
    (h : ∃ segment ∈ segments, 1 < segment.count '.') :
    ∃ segment, ofSegments path segments = .error (.incompatiblePath path (.twoDots segment)) := by
  induction segments with
  | nil => simp at h
  | cons segment rest ih =>
      rw [ofSegments]
      by_cases hsegment : 1 < segment.count '.'
      · exact ⟨_, if_pos hsegment⟩
      · have hrest : ∃ segment ∈ rest, 1 < segment.count '.' := by simpa [hsegment] using h
        obtain ⟨found, heq⟩ := ih hrest
        exact ⟨found, by rw [if_neg hsegment, heq]; rfl⟩

theorem ofPath_of_forall {path : String}
    (h : ∀ segment ∈ splitString '/' path, segment.toList.count '.' ≤ 1) :
    ofPath path = .ok ("\\".intercalate ((splitString '/' path).map ofName)) := by
  have hpieces : ∀ piece ∈ pieces '/' path.toList, piece.count '.' ≤ 1 := by
    intro piece hp
    simpa using h (String.ofList piece) (List.mem_map_of_mem hp)
  have hjoin := ofList_join '\\' ((splitString '/' path).map ofName)
  have hnames : ((splitString '/' path).map ofName).map String.toList =
      (pieces '/' path.toList).map ofSegment := by
    simp [splitString, ofName, Function.comp_def]
  rw [ofPath, ofSegments_of_forall hpieces, ← hnames]
  exact congrArg Except.ok hjoin

theorem ofPath_of_exists {path : String}
    (h : ∃ segment ∈ splitString '/' path, 1 < segment.toList.count '.') :
    ∃ segment, ofPath path = .error (.incompatiblePath path (.twoDots segment)) := by
  have hpieces : ∃ piece ∈ pieces '/' path.toList, 1 < piece.count '.' := by
    simpa [splitString] using h
  obtain ⟨segment, heq⟩ := ofSegments_of_exists path hpieces
  exact ⟨segment, by rw [ofPath, heq]; rfl⟩

theorem ofPath_eq_ok_iff {path short : String} :
    ofPath path = .ok short ↔
      (∀ segment ∈ splitString '/' path, segment.toList.count '.' ≤ 1) ∧
        short = "\\".intercalate ((splitString '/' path).map ofName) := by
  by_cases h : ∀ segment ∈ splitString '/' path, segment.toList.count '.' ≤ 1
  · rw [ofPath_of_forall h]
    exact ⟨fun heq => ⟨h, (Except.ok.inj heq).symm⟩, fun heq => congrArg Except.ok heq.2.symm⟩
  · have hdots : ∃ segment ∈ splitString '/' path, 1 < segment.toList.count '.' := by simpa using h
    obtain ⟨segment, heq⟩ := ofPath_of_exists hdots
    simp [heq, h]

theorem mem_of_mem_kept {segment : List Char} {c : Char}
    (h : c ∈ dotted (base segment) (extension segment)) : c ∈ segment ∨ c ∈ ['~', '1', '.'] := by
  have hhalves : (∀ d ∈ (halves segment).1, d ∈ segment) ∧ ∀ d ∈ (halves segment).2, d ∈ segment := by
    unfold halves
    cases hc : cutFirst '.' segment with
    | none => simp
    | some found =>
        obtain ⟨before, after⟩ := found
        obtain ⟨-, rfl⟩ := eq_of_cutFirst_eq_some hc
        constructor <;> intro d hd <;> simp at hd ⊢ <;> simp [hd]
  rcases List.mem_append.mp h with hbase | hextension
  · unfold base shortenBase at hbase
    split at hbase
    · rcases List.mem_append.mp hbase with htake | htail
      · exact .inl (hhalves.1 c (List.mem_of_mem_take htake))
      · refine .inr ?_
        simp only [List.mem_cons] at htail ⊢
        tauto
    · exact .inl (hhalves.1 c hbase)
  · split at hextension
    · simp at hextension
    · rcases List.mem_cons.mp hextension with rfl | htake
      · exact .inr (by simp)
      · exact .inl (hhalves.2 c (List.mem_of_mem_take htake))

theorem mem_ofName_iff {x : Char} (hx : x ∈ separators) {name : String} :
    x ∈ (ofName name).toList ↔ x ∈ dotted (base name.toList) (extension name.toList) := by
  rw [ofName, String.toList_ofList, ofSegment_eq, mem_uppercase_iff hx]

theorem slash_notMem_ofName {name : String} (h : '/' ∉ name.toList) :
    '/' ∉ (ofName name).toList := by
  rw [mem_ofName_iff (by decide)]
  intro hkept
  rcases mem_of_mem_kept hkept with hmem | hmem
  · exact h hmem
  · revert hmem
    decide

/-- The short names that a path is made of. -/
def namesOf (path : String) : List String :=
  (splitString '/' path).map ofName

theorem namesOf_ne_nil (path : String) : namesOf path ≠ [] :=
  mt List.map_eq_nil_iff.mp (splitString_ne_nil '/' path)

theorem eq_joined_of_ofPath {path short : String} (h : ofPath path = .ok short) :
    short = (String.singleton '\\').intercalate (namesOf path) :=
  (ofPath_eq_ok_iff.mp h).2

/-- All that comes of a path is in upper case and without slashes. -/
theorem uppercase_of_mem_splitString {path short : String} (h : ofPath path = .ok short)
    {name : String} (hname : name ∈ splitString '\\' short) :
    uppercase name.toList = name.toList ∧ '/' ∉ name.toList := by
  rw [eq_joined_of_ofPath h, splitString_joined (namesOf_ne_nil path)] at hname
  obtain ⟨_, hmem, hname⟩ := List.mem_flatMap.mp hname
  obtain ⟨segment, hsegment, rfl⟩ := List.mem_map.mp hmem
  obtain ⟨piece, hpiece, rfl⟩ := List.mem_map.mp hname
  obtain ⟨cs, hcs, rfl⟩ := List.mem_map.mp hsegment
  have hslash : '/' ∉ (ofName (String.ofList cs)).toList :=
    slash_notMem_ofName (by rw [String.toList_ofList]; exact notMem_of_mem_pieces hcs)
  have hupper : ∀ c ∈ (ofName (String.ofList cs)).toList, upperChar c = [c] := by
    intro c hc
    rw [ofName, String.toList_ofList, ofSegment_eq] at hc
    exact upperChar_of_mem_uppercase hc
  rw [String.toList_ofList]
  exact ⟨uppercase_of_forall fun c hc => hupper c (mem_of_mem_pieces hpiece hc),
    fun hmem => hslash (mem_of_mem_pieces hpiece hmem)⟩

theorem ofPath_of_isShort {name : String} (h : IsShort name)
    (hupper : uppercase name.toList = name.toList) (hslash : '/' ∉ name.toList) :
    ofPath name = .ok name := by
  have hdots : name.toList.count '.' ≤ 1 := by
    obtain ⟨b, e, heq, hb, he, -⟩ := h
    rw [heq, dotted]
    split <;> simp [List.count_eq_zero.mpr hb, List.count_eq_zero.mpr he]
  rw [ofPath_eq_ok_iff, splitString_of_notMem hslash, List.map_singleton,
    String.intercalate_singleton, ofName, ofSegment_of_isShort h hupper, String.ofList_toList]
  exact ⟨by simpa using hdots, rfl⟩

/-- Without backslashes in them, the short names of a path can be told apart again. -/
theorem length_splitString_ofPath_iff {path short : String} (h : ofPath path = .ok short) :
    (splitString '\\' short).length = (splitString '/' path).length ↔
      ∀ name ∈ namesOf path, '\\' ∉ name.toList := by
  rw [eq_joined_of_ofPath h, ← length_splitString_joined_iff (namesOf_ne_nil path), namesOf,
    List.length_map]

theorem splitString_ofPath_of_plain {path short : String} (h : ofPath path = .ok short)
    (hplain : ∀ name ∈ namesOf path, '\\' ∉ name.toList) :
    splitString '\\' short = namesOf path := by
  rw [eq_joined_of_ofPath h, splitString_joined_of_notMem (namesOf_ne_nil path) hplain]

/-- A path becomes a path of as many short names exactly if what is kept of each of its segments has
no backslash and is short enough in upper case.  A short name that comes of a path is its own. -/
theorem isShort_of_ofPath_iff {path short : String} (h : ofPath path = .ok short) :
    ((splitString '\\' short).length = (splitString '/' path).length ∧
        (∀ name ∈ splitString '\\' short, IsShort name) ↔
      ∀ segment ∈ splitString '/' path, StaysShort segment) ∧
    ∀ name ∈ splitString '\\' short, IsShort name → ofPath name = .ok name := by
  have hdots := (ofPath_eq_ok_iff.mp h).1
  refine ⟨⟨?_, ?_⟩, ?_⟩
  · rintro ⟨hlength, hall⟩ segment hsegment
    have hplain := (length_splitString_ofPath_iff h).mp hlength
    rw [splitString_ofPath_of_plain h hplain] at hall
    have hmem : ofName segment ∈ namesOf path := List.mem_map_of_mem hsegment
    refine ⟨?_, (isShort_ofName_iff (hdots segment hsegment)).mp (hall _ hmem)⟩
    rw [← mem_ofName_iff (by decide)]
    exact hplain _ hmem
  · intro hstays
    have hplain : ∀ name ∈ namesOf path, '\\' ∉ name.toList := by
      intro name hname
      obtain ⟨segment, hsegment, rfl⟩ := List.mem_map.mp hname
      rw [mem_ofName_iff (by decide)]
      exact (hstays segment hsegment).1
    refine ⟨(length_splitString_ofPath_iff h).mpr hplain, ?_⟩
    rw [splitString_ofPath_of_plain h hplain]
    intro name hname
    obtain ⟨segment, hsegment, rfl⟩ := List.mem_map.mp hname
    exact (isShort_ofName_iff (hdots segment hsegment)).mpr (hstays segment hsegment).2
  · intro name hname hshort
    obtain ⟨hupper, hslash⟩ := uppercase_of_mem_splitString h hname
    exact ofPath_of_isShort hshort hupper hslash

theorem isShort_of_ofPath_iff_longName :
    ofPath "/a/VeryLongName123.extra" = .ok "\\A\\VERYLO~1.EXT" ∧
      (∀ name ∈ ["", "A", "VERYLO~1.EXT"], IsShort name) ∧
      ofPath "VERYLO~1.EXT" = .ok "VERYLO~1.EXT" := by
  have h : ofPath "/a/VeryLongName123.extra" = .ok "\\A\\VERYLO~1.EXT" := by rfl
  have hsplit : splitString '\\' "\\A\\VERYLO~1.EXT" = ["", "A", "VERYLO~1.EXT"] := by
    decide +kernel
  have hstays : ∀ segment ∈ splitString '/' "/a/VeryLongName123.extra", StaysShort segment := by
    unfold StaysShort
    decide +kernel
  obtain ⟨hiff, hself⟩ := isShort_of_ofPath_iff h
  rw [hsplit] at hiff hself
  have hall := (hiff.mpr hstays).2
  exact ⟨h, hall, hself _ (by simp) (hall _ (by simp))⟩

/-- Eight letters that double in upper case, and a name with a backslash in it. -/
theorem ofPath_not_isShort :
    ofPath "ßßßßßßßß" = .ok "SSSSSSSSSSSSSSSS" ∧ ¬IsShort "SSSSSSSSSSSSSSSS" ∧
      ofPath "SSSSSSSSSSSSSSSS" = .ok "SSSSSS~1" ∧
      ofPath "a\\b" = .ok "A\\B" ∧
      (splitString '\\' "A\\B").length ≠ (splitString '/' "a\\b").length := by
  refine ⟨rfl, ?_, rfl, rfl, by decide +kernel⟩
  have hname : ofName "ßßßßßßßß" = "SSSSSSSSSSSSSSSS" := by rfl
  rw [← hname, isShort_ofName_iff (by decide +kernel)]
  decide +kernel

end ShortName
end DeclarativeBuild
