import DeclarativeBuild.Proofs.Steps

/-!
# Growth of properties

Declarations add properties and change none.  While a file is read, the properties that tell about
it have its values; afterwards they are as they were before.
-/

namespace DeclarativeBuild
namespace Properties

variable {p q : Properties} {name other value : String}

theorem lookup_cons (n v : String) (rest : List (String × String)) (name : String) :
    ((n, v) :: rest).lookup name = if name = n then some v else rest.lookup name := by
  by_cases h : name = n
  · simp [h]
  · have hb : (name == n) = false := beq_eq_false_iff_ne.mpr h
    simp [List.lookup_cons, hb, h]

theorem get?_append (p : Properties) (entries : List (String × String)) (name : String) :
    (⟨p.entries ++ entries⟩ : Properties).get? name = (p.get? name).or (entries.lookup name) :=
  List.lookup_append

/-- A declaration counts where there was none before. -/
theorem get?_declare (p : Properties) (n v name : String) :
    (p.declare n v).2.get? name = (p.get? name).or (if name = n then some v else none) := by
  unfold declare
  split
  · next hn =>
    obtain ⟨value, hvalue⟩ := Option.isSome_iff_exists.mp hn
    by_cases hname : name = n
    · rw [hname, hvalue, Option.some_or]
    · rw [if_neg hname, Option.or_none]
  · rw [get?_append, lookup_cons, List.lookup_nil]

/-- Replacing the value of one name in a list of entries. -/
theorem lookup_map_replace (entries : List (String × String)) (name other value : String) :
    (entries.map fun (n, v) => if n = name then (n, value) else (n, v)).lookup other =
      if other = name then (entries.lookup other).map fun _ => value
      else entries.lookup other := by
  induction entries with
  | nil => simp
  | cons entry rest ih =>
      obtain ⟨n, v⟩ := entry
      by_cases hn : n = name
      · subst hn
        by_cases ho : other = n <;> simp_all [lookup_cons]
      · have hn' : ¬name = n := Ne.symm hn
        by_cases ho : other = n <;> simp_all [lookup_cons]

theorem get?_set_self (p : Properties) (name value : String) :
    (p.set name value).get? name = some value := by
  unfold set
  split
  · next h =>
    obtain ⟨old, hold⟩ := Option.isSome_iff_exists.mp h
    have hold : p.entries.lookup name = some old := hold
    simp only [get?, lookup_map_replace, if_pos, hold, Option.map_some]
  · next h =>
    have hnone : p.get? name = none := by simpa [contains] using h
    rw [get?_append, hnone, lookup_cons, if_pos rfl, Option.none_or]

theorem get?_set_of_ne (h : other ≠ name) (p : Properties) (value : String) :
    (p.set name value).get? other = p.get? other := by
  unfold set
  split
  · simp only [get?, lookup_map_replace, if_neg h]
  · rw [get?_append, lookup_cons, if_neg h, List.lookup_nil, Option.or_none]

theorem get?_remove_self (p : Properties) (name : String) : (p.remove name).get? name = none := by
  unfold remove get?
  induction p.entries with
  | nil => rfl
  | cons entry rest ih =>
      obtain ⟨n, v⟩ := entry
      by_cases hn : n = name
      · simpa [hn] using ih
      · simpa [hn, lookup_cons, Ne.symm hn] using ih

theorem get?_remove_of_ne (h : other ≠ name) (p : Properties) :
    (p.remove name).get? other = p.get? other := by
  unfold remove get?
  induction p.entries with
  | nil => rfl
  | cons entry rest ih =>
      obtain ⟨n, v⟩ := entry
      by_cases hn : n = name
      · subst hn
        simpa [lookup_cons, h] using ih
      · by_cases ho : other = n <;> simp_all [lookup_cons]

theorem get?_restore_self (p : Properties) (name : String) (state : Option String) :
    (p.restore name state).get? name = state := by
  cases state with
  | none => exact get?_remove_self p name
  | some value => exact get?_set_self p name value

theorem get?_restore_of_ne (h : other ≠ name) (p : Properties) (state : Option String) :
    (p.restore name state).get? other = p.get? other := by
  cases state with
  | none => exact get?_remove_of_ne h p
  | some value => exact get?_set_of_ne h p value

/-- Every property of `p` has the same value in `q`. -/
def KeptIn (p q : Properties) : Prop :=
  ∀ name value, p.get? name = some value → q.get? name = some value

instance : Std.Refl KeptIn := ⟨fun _ _ _ h => h⟩

instance : IsTrans Properties KeptIn := ⟨fun _ _ _ hpq hqr _ _ h => hqr _ _ (hpq _ _ h)⟩

/-- Every property of `p` has the same value in `q`, those that tell about the file being read
apart. -/
def OthersKeptIn (p q : Properties) : Prop :=
  ∀ name ∉ filePropertyNames, ∀ value, p.get? name = some value → q.get? name = some value

instance : Std.Refl OthersKeptIn := ⟨fun _ _ _ _ h => h⟩

instance : IsTrans Properties OthersKeptIn :=
  ⟨fun _ _ _ hpq hqr name hn value hv => hqr name hn value (hpq name hn value hv)⟩

theorem KeptIn.others (h : p.KeptIn q) : p.OthersKeptIn q :=
  fun name _ value hv => h name value hv

/-- The properties that tell about the file being read are as they were, and all others have the
values that they had. -/
structure Scoped (p q : Properties) : Prop where
  file : ∀ name ∈ filePropertyNames, q.get? name = p.get? name
  others : p.OthersKeptIn q

instance : Std.Refl Scoped := ⟨fun p => ⟨fun _ _ => rfl, refl_of OthersKeptIn p⟩⟩

instance : IsTrans Properties Scoped where
  trans _ _ _ hpq hqr := by
    refine ⟨fun name hn => ?_, trans_of OthersKeptIn hpq.others hqr.others⟩
    exact (hqr.file name hn).trans (hpq.file name hn)

theorem Scoped.keptIn (h : p.Scoped q) : p.KeptIn q := by
  intro name value hv
  by_cases hn : name ∈ filePropertyNames
  · exact (h.file name hn).trans hv
  · exact h.others name hn value hv

theorem get?_setFile (p : Properties) (full directory : Path) :
    (p.setFile full directory).get? "_file.path" = some full.text ∧
      (p.setFile full directory).get? "_file.dir" = some directory.text ∧
      (p.setFile full directory).get? "_file.name" = some (full.fileName?.getD "") := by
  unfold setFile
  refine ⟨?_, ?_, get?_set_self _ _ _⟩
  · rw [get?_set_of_ne (by decide), get?_set_of_ne (by decide), get?_set_self]
  · rw [get?_set_of_ne (by decide), get?_set_self]

/-- What the file properties are while a file is read does not depend on what they were. -/
theorem get?_setFile_of_mem (hn : name ∈ filePropertyNames) (p q : Properties)
    (full directory : Path) :
    (p.setFile full directory).get? name = (q.setFile full directory).get? name := by
  obtain ⟨hpath, hdirectory, hname⟩ := p.get?_setFile full directory
  obtain ⟨hpath', hdirectory', hname'⟩ := q.get?_setFile full directory
  simp only [filePropertyNames, List.mem_cons, List.not_mem_nil, or_false] at hn
  rcases hn with rfl | rfl | rfl
  · rw [hpath, hpath']
  · rw [hdirectory, hdirectory']
  · rw [hname, hname']

theorem get?_setFile_of_notMem (hn : name ∉ filePropertyNames) (p : Properties)
    (full directory : Path) : (p.setFile full directory).get? name = p.get? name := by
  simp only [filePropertyNames, List.mem_cons, List.not_mem_nil, or_false, not_or] at hn
  unfold setFile
  rw [get?_set_of_ne hn.2.2, get?_set_of_ne hn.2.1, get?_set_of_ne hn.1]

theorem get?_foldl_restore (old p : Properties) (names : List String) (name : String) :
    (names.foldl (fun p n => p.restore n (old.get? n)) p).get? name =
      if name ∈ names then old.get? name else p.get? name := by
  induction names generalizing p with
  | nil => simp
  | cons first rest ih =>
      rw [List.foldl_cons, ih]
      by_cases hr : name ∈ rest
      · simp [hr]
      · by_cases hf : name = first
        · subst hf
          simp [hr, get?_restore_self]
        · simp [hr, hf, get?_restore_of_ne hf]

/-- A file that only adds properties leaves those that are there, once the file properties have
their former state again. -/
theorem scoped_restoreFile {full directory : Path} (h : (p.setFile full directory).KeptIn q) :
    p.Scoped (p.restoreFile q) := by
  refine ⟨fun name hn => ?_, fun name hn value hv => ?_⟩
  · exact (get?_foldl_restore p q _ name).trans (if_pos hn)
  · rw [restoreFile, get?_foldl_restore, if_neg hn]
    exact h name value ((get?_setFile_of_notMem hn p full directory).trans hv)

theorem keptIn_declare (p : Properties) (name value : String) :
    p.KeptIn (p.declare name value).2 :=
  fun other _ h => by rw [get?_declare, h, Option.some_or]

end Properties

/-- A template that can be expanded is expanded alike where more is declared. -/
theorem Template.fill_of_imp {value? value?' : String → Option String}
    (h : ∀ name value, value? name = some value → value?' name = some value)
    {segments : List Template.Segment} {cs : List Char}
    (hf : Template.fill value? segments = .ok cs) : Template.fill value?' segments = .ok cs := by
  induction segments generalizing cs with
  | nil => exact hf
  | cons segment rest ih =>
      cases segment with
      | char c =>
          simp only [Template.fill] at hf ⊢
          cases hr : Template.fill value? rest with
          | error failure => simp [hr, Except.map] at hf
          | ok more => rw [ih hr]; rwa [hr] at hf
      | reference name =>
          simp only [Template.fill] at hf ⊢
          cases hv : value? (String.ofList name) with
          | none => simp [hv] at hf
          | some value =>
              rw [hv] at hf
              rw [h _ _ hv]
              cases hr : Template.fill value? rest with
              | error failure => simp [hr, Except.map] at hf
              | ok more => rw [ih hr]; rwa [hr] at hf

/-- Characters that refer to nothing stand for themselves. -/
theorem Template.fill_map_char (value? : String → Option String) (cs : List Char) :
    Template.fill value? (cs.map .char) = .ok cs := by
  induction cs with
  | nil => rfl
  | cons c rest ih => simp only [List.map_cons, Template.fill, ih, Except.map]

/-- Characters without a dollar sign refer to nothing. -/
theorem Template.segments_of_not_mem {cs : List Char} (h : '$' ∉ cs) :
    Template.segments cs = cs.map .char := by
  induction cs with
  | nil => rw [segments]; rfl
  | cons c rest ih =>
      obtain ⟨hc, hrest⟩ := not_or.mp (mt List.mem_cons.mpr h)
      rw [segments.eq_def]
      split
      · next hnil => cases hnil
      · next hcons => exact absurd (List.cons.inj hcons).1.symm hc
      · next hcons =>
        obtain ⟨rfl, rfl⟩ := List.cons.inj hcons
        rw [ih hrest, List.map_cons]

namespace Properties

variable {p q : Properties}

theorem expand_of_plain {text : String}
    (h : Template.segments text.toList = text.toList.map .char) (p : Properties) :
    p.expand text = .ok text := by
  rw [expand, Template.expand, h, Template.fill_map_char]
  exact congrArg Except.ok String.ofList_toList

theorem expand_of_keptIn (h : p.KeptIn q) {text expanded : String}
    (he : p.expand text = .ok expanded) : q.expand text = .ok expanded := by
  unfold expand Template.expand at he ⊢
  cases hf : Template.fill p.get? (Template.segments text.toList) with
  | error failure => simp [hf, Except.map] at he
  | ok cs => rw [Template.fill_of_imp h hf]; rwa [hf] at he

theorem ensures_declareOwn (name : String) (e : Element) :
    Ensures KeptIn (declareOwn name e) := by
  unfold declareOwn
  cases e.attribute? "value" with
  | none => exact .pure _
  | some template =>
      refine .bind .get fun p => ?_
      split
      · exact .pure _
      · refine .bind .get fun q => .bind (.lift _) fun value => ?_
        exact .modify fun p => keptIn_declare p name value

mutual

/-- Declaring an element's properties keeps all that are there. -/
theorem ensures_declareElement (outer : String) : (e : Element) →
    Ensures KeptIn (declareElement outer e)
  | .mk tag attributes children text? => by
      unfold declareElement
      refine .bind .get fun p => .bind (.lift _) fun holds => ?_
      split
      · refine .bind (.lift _) fun name => .bind (ensures_declareOwn _ _) fun _ => ?_
        exact ensures_declareChildren _ children
      · exact .pure _

theorem ensures_declareChildren (outer : String) : (elements : List Element) →
    Ensures KeptIn (declareChildren outer elements)
  | [] => .pure _
  | e :: rest => by
      unfold declareChildren
      split
      · exact .bind (ensures_declareElement outer e) fun _ => ensures_declareChildren outer rest
      · exact ensures_declareChildren outer rest

end

end Properties
end DeclarativeBuild
