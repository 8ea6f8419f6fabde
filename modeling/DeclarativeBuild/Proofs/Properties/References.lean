import DeclarativeBuild.Proofs.Properties.Growth
import Mathlib.Data.List.TakeWhile

/-!
# References in a text

A text is cut at its references in exactly one way, and expanding it puts a value in the place of each
of them.  Nothing else of the text is touched, and what is put in is not looked at again.
-/

namespace DeclarativeBuild
namespace Template

/-- The names that can be referred to. -/
def IsName (name : List Char) : Prop :=
  name ≠ [] ∧ ∀ c ∈ name, isNameChar c = true

instance (name : List Char) : Decidable (IsName name) :=
  inferInstanceAs (Decidable (_ ∧ _))

/-- A name as it is referred to. -/
def reference (name : List Char) : List Char :=
  '$' :: '\x7b' :: (name ++ ['\x7d'])

def HoldsReference (cs : List Char) : Prop :=
  ∃ name, IsName name ∧ reference name <:+: cs

/-- A text cut at references: what stands before the first, and each name with what follows it. -/
structure Cutting where
  opening : List Char
  parts : List (List Char × List Char)
deriving DecidableEq

namespace Cutting

def text (d : Cutting) : List Char :=
  d.opening ++ d.parts.flatMap fun (name, literal) => reference name ++ literal

def literals (d : Cutting) : List (List Char) :=
  d.opening :: d.parts.map Prod.snd

def names (d : Cutting) : List String :=
  d.parts.map fun (name, _) => String.ofList name

/-- The text with values in the place of the references. -/
def weave (d : Cutting) (values : List String) : List Char :=
  d.opening ++ (d.parts.zip values).flatMap fun ((_, literal), value) => value.toList ++ literal

/-- The text is cut at names that can be referred to, and no reference is left in between. -/
structure Cuts (d : Cutting) (cs : List Char) : Prop where
  text_eq : d.text = cs
  isName : ∀ part ∈ d.parts, IsName part.1
  plain : ∀ literal ∈ d.literals, ¬HoldsReference literal

def segments (d : Cutting) : List Segment :=
  d.opening.map .char ++
    d.parts.flatMap fun (name, literal) => .reference name :: literal.map .char

def ofSegments : List Segment → Cutting
  | [] => ⟨[], []⟩
  | .char c :: rest => ⟨c :: (ofSegments rest).opening, (ofSegments rest).parts⟩
  | .reference name :: rest =>
    ⟨[], (name, (ofSegments rest).opening) :: (ofSegments rest).parts⟩

theorem ofSegments_map_char (cs : List Char) (rest : List Segment) :
    ofSegments (cs.map .char ++ rest) =
      ⟨cs ++ (ofSegments rest).opening, (ofSegments rest).parts⟩ := by
  induction cs with
  | nil => rfl
  | cons c cs ih => simp [ofSegments, ih]

theorem ofSegments_segments (d : Cutting) : ofSegments d.segments = d := by
  obtain ⟨opening, parts⟩ := d
  induction parts generalizing opening with
  | nil => simpa [segments, ofSegments] using ofSegments_map_char opening []
  | cons part parts ih =>
      obtain ⟨name, literal⟩ := part
      have hrest := ih literal
      simp only [segments] at hrest
      simp [segments, ofSegments_map_char, ofSegments, hrest]

end Cutting

theorem isNameChar_ne {c : Char} (h : isNameChar c = true) :
    c ≠ '$' ∧ c ≠ '\x7b' ∧ c ≠ '\x7d' := by
  refine ⟨?_, ?_, ?_⟩ <;>
    · rintro rfl
      revert h
      decide

theorem scanName_append {name : List Char} (hn : IsName name) (rest : List Char) :
    scanName (name ++ '\x7d' :: rest) = some (name, rest) := by
  have htake : (name ++ '\x7d' :: rest).takeWhile isNameChar = name := by
    rw [List.takeWhile_append_of_pos hn.2]
    simp [show isNameChar '\x7d' = false by decide]
  simp [scanName, htake, hn.1]

theorem eq_append_of_scanName {cs name rest : List Char} (h : scanName cs = some (name, rest)) :
    IsName name ∧ cs = name ++ '\x7d' :: rest := by
  have hsplit : cs.takeWhile isNameChar ++ cs.drop (cs.takeWhile isNameChar).length = cs :=
    List.prefix_iff_eq_append.mp (List.takeWhile_prefix isNameChar)
  simp only [scanName] at h
  split at h
  · simp at h
  · next hne =>
    split at h
    · next hdrop =>
      obtain ⟨rfl, rfl⟩ : cs.takeWhile isNameChar = name ∧ _ = rest := by simpa using h
      refine ⟨⟨by simpa using hne, fun c hc => List.mem_takeWhile_imp hc⟩, ?_⟩
      exact hsplit.symm.trans (congrArg _ hdrop)
    · simp at h

@[simp] theorem segments_nil : segments [] = [] := by
  rw [segments]

theorem segments_reference {name : List Char} (hn : IsName name) (rest : List Char) :
    segments (reference name ++ rest) = .reference name :: segments rest := by
  have hscan := scanName_append hn rest
  have happend : reference name ++ rest = '$' :: '\x7b' :: (name ++ '\x7d' :: rest) := by
    simp [reference]
  rw [happend, segments]
  split
  · next found rest' hfound =>
    obtain ⟨rfl, rfl⟩ : name = found ∧ rest = rest' := by simpa [hscan] using hfound
    rfl
  · next hnone => simp [hscan] at hnone

theorem segments_char {c : Char} {rest : List Char}
    (h : ∀ more, c :: rest = '$' :: '\x7b' :: more → scanName more = none) :
    segments (c :: rest) = .char c :: segments rest := by
  rw [segments.eq_def]
  split
  · simp at *
  · next more heq =>
    obtain ⟨rfl, rfl⟩ := List.cons.inj heq
    split
    · next found rest' hfound => simp [h more rfl] at hfound
    · rfl
  · next heq =>
    obtain ⟨rfl, rfl⟩ := List.cons.inj heq
    rfl

theorem prefix_of_prefix_append {start cs rest : List Char} (h : start <+: cs ++ rest)
    (hs : '$' ∉ start) (hrest : rest = [] ∨ ∃ more, rest = '$' :: more) : start <+: cs := by
  rcases List.prefix_or_prefix_of_prefix h (List.prefix_append cs rest) with hcs | ⟨beyond, rfl⟩
  · exact hcs
  · have hbeyond : beyond <+: rest := (List.prefix_append_right_inj cs).mp h
    rcases hrest with rfl | ⟨more, rfl⟩
    · simp [List.prefix_nil.mp hbeyond]
    · rcases List.prefix_cons_iff.mp hbeyond with rfl | ⟨tail, rfl, -⟩
      · simp
      · simp at hs

/-- Where what follows starts with a reference or is nothing, no name reaches beyond a text without
references. -/
theorem segments_append_of_plain {cs : List Char} (hcs : ¬HoldsReference cs) {rest : List Char}
    (hrest : rest = [] ∨ ∃ more, rest = '$' :: more) :
    segments (cs ++ rest) = cs.map .char ++ segments rest := by
  induction cs with
  | nil => rfl
  | cons c cs ih =>
      have htail : ¬HoldsReference cs := by
        rintro ⟨name, hn, hin⟩
        exact hcs ⟨name, hn, hin.trans (List.suffix_cons c cs).isInfix⟩
      rw [List.cons_append, segments_char, ih htail, List.map_cons, List.cons_append]
      intro more heq
      rw [Option.eq_none_iff_forall_ne_some]
      rintro ⟨name, after⟩ hscan
      obtain ⟨hn, rfl⟩ := eq_append_of_scanName hscan
      obtain ⟨rfl, htext⟩ := List.cons.inj heq
      -- The name and its braces hold no dollar sign, so they end within the text.
      have hprefix : '\x7b' :: (name ++ ['\x7d']) <+: cs := by
        refine prefix_of_prefix_append ⟨after, ?_⟩ ?_ hrest
        · simp [htext]
        · have hname : '$' ∉ name := fun hmem => (isNameChar_ne (hn.2 _ hmem)).1 rfl
          simp [hname]
      exact hcs ⟨name, hn, ((List.prefix_cons_inj '$').mpr hprefix).isInfix⟩

namespace Cutting

theorem segments_text {opening : List Char} {parts : List (List Char × List Char)}
    (hnames : ∀ part ∈ parts, IsName part.1)
    (hplain : ∀ literal ∈ (⟨opening, parts⟩ : Cutting).literals, ¬HoldsReference literal) :
    Template.segments (⟨opening, parts⟩ : Cutting).text =
      (⟨opening, parts⟩ : Cutting).segments := by
  induction parts generalizing opening with
  | nil =>
      have hopening := segments_append_of_plain (hplain opening (by simp [literals])) (.inl rfl)
      simpa [text, segments] using hopening
  | cons part parts ih =>
      obtain ⟨name, literal⟩ := part
      have hrest : Template.segments (⟨literal, parts⟩ : Cutting).text =
          (⟨literal, parts⟩ : Cutting).segments :=
        ih (fun part hm => hnames part (List.mem_cons_of_mem _ hm))
          (fun l hm => hplain l (List.mem_cons_of_mem _ hm))
      -- The opening is plain and a reference follows, so the two are read one after the other.
      have hopening := @segments_append_of_plain opening (hplain opening (by simp [literals]))
        (reference name ++ (⟨literal, parts⟩ : Cutting).text) (.inr ⟨_, rfl⟩)
      rw [segments_reference (hnames (name, literal) List.mem_cons_self), hrest] at hopening
      simpa [text, segments] using hopening

theorem Cuts.segments_eq {d : Cutting} {cs : List Char} (h : d.Cuts cs) :
    Template.segments cs = d.segments := by
  rw [← h.text_eq]
  exact segments_text h.isName h.plain

theorem Cuts.unique {d d' : Cutting} {cs : List Char} (h : d.Cuts cs) (h' : d'.Cuts cs) :
    d = d' := by
  rw [← ofSegments_segments d, ← ofSegments_segments d', ← h.segments_eq, ← h'.segments_eq]

@[simp] theorem text_mk_cons (c : Char) (d : Cutting) :
    (⟨c :: d.opening, d.parts⟩ : Cutting).text = c :: d.text := rfl

@[simp] theorem text_mk_reference (name : List Char) (d : Cutting) :
    (⟨[], (name, d.opening) :: d.parts⟩ : Cutting).text = reference name ++ d.text := by
  simp [text]

theorem Cuts.cons {d : Cutting} {c : Char} {cs : List Char} (h : d.Cuts cs)
    (hc : ∀ more, c :: cs = '$' :: '\x7b' :: more → scanName more = none) :
    (⟨c :: d.opening, d.parts⟩ : Cutting).Cuts (c :: cs) where
  text_eq := by rw [text_mk_cons, h.text_eq]
  isName := h.isName
  plain := by
    intro literal hm
    rcases List.mem_cons.mp hm with rfl | hm
    · rintro ⟨name, hn, hin⟩
      rcases List.infix_cons_iff.mp hin with hstart | hin
      · have hcs : reference name <+: c :: cs := by
          rw [← h.text_eq, ← text_mk_cons]
          exact hstart.trans (List.prefix_append _ _)
        obtain ⟨rest, hrest⟩ := hcs
        have hnone := hc (name ++ '\x7d' :: rest) (by simp [← hrest, reference])
        simp [scanName_append hn] at hnone
      · exact h.plain d.opening List.mem_cons_self ⟨name, hn, hin⟩
    · exact h.plain literal (List.mem_cons_of_mem _ hm)

theorem Cuts.reference {d : Cutting} {name cs : List Char} (h : d.Cuts cs) (hn : IsName name) :
    (⟨[], (name, d.opening) :: d.parts⟩ : Cutting).Cuts (Template.reference name ++ cs) where
  text_eq := by rw [text_mk_reference, h.text_eq]
  isName := by
    intro part hm
    rcases List.mem_cons.mp hm with rfl | hm
    · exact hn
    · exact h.isName part hm
  plain := by
    intro literal hm
    rcases List.mem_cons.mp hm with rfl | hm
    · rintro ⟨other, -, hin⟩
      simp [Template.reference] at hin
    · exact h.plain literal hm

/-- Reading a text from left to right finds all its references. -/
theorem cuts_ofSegments (cs : List Char) : (ofSegments (Template.segments cs)).Cuts cs := by
  fun_induction Template.segments cs with
  | case1 =>
      refine ⟨rfl, by simp [ofSegments], ?_⟩
      simp [ofSegments, literals, HoldsReference, Template.reference]
  | case2 more name rest hscan ih =>
      obtain ⟨hn, rfl⟩ := eq_append_of_scanName hscan
      have hcuts := ih.reference hn
      simpa [ofSegments, Template.reference] using hcuts
  | case3 more hscan ih =>
      refine ih.cons fun more' heq => ?_
      obtain rfl : more = more' := by simpa using heq
      exact hscan
  | case4 c rest hne ih =>
      exact ih.cons fun more heq => absurd heq (by simpa using hne more)

theorem cuts_iff_segments_eq {d : Cutting} {cs : List Char} :
    d.Cuts cs ↔ Template.segments cs = d.segments := by
  constructor
  · exact Cuts.segments_eq
  · intro h
    have hcuts := cuts_ofSegments cs
    rwa [h, ofSegments_segments] at hcuts

instance (d : Cutting) (cs : List Char) : Decidable (d.Cuts cs) :=
  decidable_of_iff _ cuts_iff_segments_eq.symm

variable {value? : String → Option String}

theorem fill_map_char_append (cs : List Char) (rest : List Segment) :
    fill value? (cs.map .char ++ rest) = (fill value? rest).map (cs ++ ·) := by
  induction cs with
  | nil => cases h : fill value? rest <;> simp [h, Except.map]
  | cons c cs ih =>
      rw [List.map_cons, List.cons_append, fill, ih]
      cases fill value? rest <;> rfl

theorem fill_segments_of_values {d : Cutting} {values : List String}
    (h : d.names.map value? = values.map some) :
    fill value? d.segments = .ok (d.weave values) := by
  obtain ⟨opening, parts⟩ := d
  induction parts generalizing opening values with
  | nil => simp [segments, weave, fill_map_char]
  | cons part parts ih =>
      obtain ⟨name, literal⟩ := part
      cases values with
      | nil => simp [names] at h
      | cons value values =>
          obtain ⟨hvalue, hrest⟩ : value? (String.ofList name) = some value ∧
              (⟨literal, parts⟩ : Cutting).names.map value? = values.map some := by
            simpa [names] using h
          have hfill := ih literal hrest
          simp only [segments, weave] at hfill
          simp [segments, weave, fill_map_char_append, fill, hvalue, hfill, Except.map]

theorem fill_segments_of_missing {d : Cutting} {before after : List String} {name : String}
    (hnames : d.names = before ++ name :: after) (hbefore : ∀ n ∈ before, (value? n).isSome = true)
    (hname : value? name = none) : fill value? d.segments = .error (.undefinedProperty name) := by
  obtain ⟨opening, parts⟩ := d
  induction parts generalizing opening before with
  | nil => simp [names] at hnames
  | cons part parts ih =>
      obtain ⟨first, literal⟩ := part
      cases before with
      | nil =>
          obtain ⟨rfl, -⟩ : String.ofList first = name ∧ _ := by simpa [names] using hnames
          simp [segments, fill_map_char_append, fill, hname, Except.map]
      | cons n before =>
          obtain ⟨rfl, hrest⟩ : String.ofList first = n ∧
              (⟨literal, parts⟩ : Cutting).names = before ++ name :: after := by
            simpa [names] using hnames
          obtain ⟨value, hvalue⟩ := Option.isSome_iff_exists.mp (hbefore _ List.mem_cons_self)
          have hfill := ih (fun n hm => hbefore n (List.mem_cons_of_mem _ hm)) literal hrest
          simp only [segments] at hfill
          simp [segments, fill_map_char_append, fill, hvalue, hfill, Except.map]

end Cutting

end Template

/-- Every text can be cut at its references in one way.  If all of them have values, expanding it puts
each value in the place of its reference; if not, the first one without is reported. -/
theorem Properties.expand_replaces_references (p : Properties) (text : String) :
    (∃! d : Template.Cutting, d.Cuts text.toList) ∧
    ∀ d : Template.Cutting, d.Cuts text.toList →
      (∀ values, d.names.map p.get? = values.map some →
        p.expand text = .ok (String.ofList (d.weave values))) ∧
      ∀ before name after, d.names = before ++ name :: after →
        (∀ n ∈ before, p.contains n = true) → p.contains name = false →
        p.expand text = .error (.undefinedProperty name) := by
  refine ⟨⟨_, Template.Cutting.cuts_ofSegments _, ?_⟩, fun d hd => ⟨?_, ?_⟩⟩
  · intro d hd
    exact hd.unique (Template.Cutting.cuts_ofSegments _)
  · intro values hvalues
    rw [expand, Template.expand, hd.segments_eq, Template.Cutting.fill_segments_of_values hvalues]
    rfl
  · intro before name after hnames hbefore hname
    have hnone : p.get? name = none := by simpa [contains] using hname
    rw [expand, Template.expand, hd.segments_eq,
      Template.Cutting.fill_segments_of_missing hnames hbefore hnone]
    rfl

/-- References beside dollar signs and braces of other kinds, to a value that looks like a reference
and to one that may be missing. -/
theorem Properties.expand_replaces_references_nested :
    let text := "$$\x7ba\x7d$\x7ba$\x7bb\x7d\x7d$\x7b"
    let p : Properties := ⟨[("a", "$\x7bb\x7d"), ("b", "x")]⟩
    let d : Template.Cutting := ⟨['$'], [(['a'], ['$', '\x7b', 'a']), (['b'], ['\x7d', '$', '\x7b'])]⟩
    d.Cuts text.toList ∧ p.expand text = .ok "$$\x7bb\x7d$\x7bax\x7d$\x7b" ∧
      (p.remove "b").expand text = .error (.undefinedProperty "b") := by
  intro text p d
  have hd : d.Cuts text.toList := by decide +kernel
  refine ⟨hd, ?_, ?_⟩
  · exact ((p.expand_replaces_references text).2 d hd).1 ["$\x7bb\x7d", "x"] (by decide)
  · exact (((p.remove "b").expand_replaces_references text).2 d hd).2 ["a"] "b" [] (by decide)
      (by decide) (by decide)

end DeclarativeBuild
