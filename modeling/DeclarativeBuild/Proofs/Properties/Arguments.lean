import DeclarativeBuild.Proofs.Import.Precedence
import DeclarativeBuild.Proofs.Properties.References
import DeclarativeBuild.Proofs.Text.Splitting

/-!
# Properties given as arguments

An argument is read if and only if some text can refer to its name.  What it says after its first
equals sign then takes the place of that name in every text, as it is.
-/

namespace DeclarativeBuild
namespace Template

/-- A name that a text refers to. -/
def Referable (name : List Char) : Prop :=
  ∃ cs, .reference name ∈ segments cs

theorem Cutting.isName_of_mem_segments {d : Cutting} {cs name : List Char} (h : d.Cuts cs)
    (hm : .reference name ∈ d.segments) : IsName name := by
  rw [segments, List.mem_append] at hm
  rcases hm with hm | hm
  · simp at hm
  · obtain ⟨⟨other, literal⟩, hpart, hm⟩ := List.mem_flatMap.mp hm
    rcases List.mem_cons.mp hm with heq | hm
    · obtain rfl := Segment.reference.inj heq
      exact h.isName _ hpart
    · simp at hm

theorem referable_iff {name : List Char} : Referable name ↔ IsName name := by
  constructor
  · rintro ⟨cs, hm⟩
    have hcuts := Cutting.cuts_ofSegments cs
    rw [hcuts.segments_eq] at hm
    exact Cutting.isName_of_mem_segments hcuts hm
  · intro hn
    refine ⟨reference name ++ [], ?_⟩
    rw [segments_reference hn]
    exact List.mem_cons_self

/-- A text without dollar signs and braces. -/
def IsPlain (cs : List Char) : Prop :=
  ∀ c ∈ cs, c ≠ '$' ∧ c ≠ '\x7b' ∧ c ≠ '\x7d'

instance (cs : List Char) : Decidable (IsPlain cs) :=
  List.decidableBAll (fun c => c ≠ '$' ∧ c ≠ '\x7b' ∧ c ≠ '\x7d') cs

theorem IsPlain.not_holdsReference {cs : List Char} (h : IsPlain cs) : ¬HoldsReference cs := by
  rintro ⟨name, -, hin⟩
  exact (h '$' (hin.subset List.mem_cons_self)).1 rfl

/-- One reference between plain texts. -/
theorem Cutting.cuts_between {opening name literal : List Char} (hopening : IsPlain opening)
    (hn : IsName name) (hliteral : IsPlain literal) :
    (⟨opening, [(name, literal)]⟩ : Cutting).Cuts (opening ++ (reference name ++ literal)) where
  text_eq := by simp [text]
  isName := by simpa using hn
  plain := by
    intro cs hm
    simp only [literals, List.map_cons, List.map_nil, List.mem_cons, List.not_mem_nil,
      or_false] at hm
    rcases hm with rfl | rfl
    · exact hopening.not_holdsReference
    · exact hliteral.not_holdsReference

end Template

/-- The value takes the place of the reference, whatever it looks like. -/
theorem Properties.expand_between {p : Properties} {name value opening literal : String}
    (hv : p.get? name = some value) (hn : Template.IsName name.toList)
    (hopening : Template.IsPlain opening.toList) (hliteral : Template.IsPlain literal.toList) :
    p.expand (opening ++ "$\x7b" ++ name ++ "\x7d" ++ literal) =
      .ok (opening ++ value ++ literal) := by
  let d : Template.Cutting := ⟨opening.toList, [(name.toList, literal.toList)]⟩
  have hcuts : d.Cuts (opening ++ "$\x7b" ++ name ++ "\x7d" ++ literal).toList := by
    have htext : (opening ++ "$\x7b" ++ name ++ "\x7d" ++ literal).toList =
        opening.toList ++ (Template.reference name.toList ++ literal.toList) := by
      simp [Template.reference]
    rw [htext]
    exact Template.Cutting.cuts_between hopening hn hliteral
  have hvalues : d.names.map p.get? = [value].map some := by simp [d, Template.Cutting.names, hv]
  have hweave : String.ofList (d.weave [value]) = opening ++ value ++ literal := by
    simp [d, Template.Cutting.weave, String.ofList_append, String.append_assoc]
  rw [expand, Template.expand, hcuts.segments_eq, Template.Cutting.fill_segments_of_values hvalues,
    Except.map, hweave]

/-- What stands before the first equals sign of an argument, or all of it. -/
def argumentName (arg : String) : String :=
  String.ofList (arg.toList.takeWhile (· ≠ '='))

/-- What stands after the first equals sign of an argument, or nothing. -/
def argumentValue (arg : String) : String :=
  String.ofList ((arg.toList.dropWhile (· ≠ '=')).drop 1)

theorem Text.cutFirst_getD (sep : Char) (cs : List Char) :
    (cutFirst sep cs).getD (cs, []) =
      (cs.takeWhile (· ≠ sep), (cs.dropWhile (· ≠ sep)).drop 1) := by
  cases hc : cutFirst sep cs with
  | none =>
      have hne : ∀ c ∈ cs, decide (c ≠ sep) = true := by
        intro c hm
        rw [decide_eq_true_iff]
        rintro rfl
        exact cutFirst_eq_none_iff.mp hc hm
      rw [List.takeWhile_eq_self_iff.mpr hne, List.dropWhile_eq_nil_iff.mpr hne]
      rfl
  | some found =>
      obtain ⟨before, after⟩ := found
      obtain ⟨hsep, rfl⟩ := eq_of_cutFirst_eq_some hc
      have hne : ∀ c ∈ before, decide (c ≠ sep) = true := by
        intro c hm
        rw [decide_eq_true_iff]
        rintro rfl
        exact hsep hm
      rw [List.takeWhile_append_of_pos hne, List.dropWhile_append_of_pos hne]
      simp

/-- An argument is read if its name is one that can be referred to, and only then. -/
theorem readPropertyArgument_eq_ok_iff {arg : String} {found : String × String} :
    readPropertyArgument arg = .ok found ↔
      Template.IsName (argumentName arg).toList ∧
        found = (argumentName arg, argumentValue arg) := by
  have hcut := Text.cutFirst_getD '=' arg.toList
  unfold readPropertyArgument
  rw [hcut]
  simp only [argumentName, argumentValue, String.toList_ofList]
  generalize arg.toList.takeWhile (· ≠ '=') = name
  have hname : (name.isEmpty || !name.all Template.isNameChar) = false ↔ Template.IsName name := by
    simp [Template.IsName]
  cases hbad : name.isEmpty || !name.all Template.isNameChar with
  | true =>
      have hn : ¬Template.IsName name := fun hn => by simp [hname.mpr hn] at hbad
      simp [hn]
  | false => simp [hname.mp hbad, eq_comm]

section Arguments

variable {s : Session} {args : List String} {given : List (String × String)}

theorem given_eq_map (h : args.map readPropertyArgument = given.map .ok) :
    given = args.map fun arg => (argumentName arg, argumentValue arg) := by
  induction args generalizing given with
  | nil => simpa using h
  | cons arg rest ih =>
      cases given with
      | nil => simp at h
      | cons found more =>
          obtain ⟨hfound, hmore⟩ := List.cons.inj h
          rw [(readPropertyArgument_eq_ok_iff.mp hfound).2, ih hmore, List.map_cons]

theorem lookup_map_argumentName_eq_none {name : String}
    (h : ∀ arg ∈ args, argumentName arg ≠ name) :
    (args.map fun arg => (argumentName arg, argumentValue arg)).lookup name = none := by
  rw [List.lookup_eq_none_iff]
  intro entry hm
  obtain ⟨arg, harg, rfl⟩ := List.mem_map.mp hm
  simpa using Ne.symm (h arg harg)

/-- Of several arguments of a name, the last one counts. -/
theorem Session.lookup_overrides_of_last {before after : List String} {arg : String}
    (hgiven : (before ++ arg :: after).map readPropertyArgument = given.map .ok)
    (hlast : ∀ later ∈ after, argumentName later ≠ argumentName arg) :
    (given.foldl (fun s (n, v) => s.addOverride n v) s).overrides.lookup (argumentName arg) =
      some (argumentValue arg) := by
  have hlater : ∀ later ∈ after.reverse, argumentName later ≠ argumentName arg :=
    fun later hm => hlast later (List.mem_reverse.mp hm)
  rw [lookup_foldl_addOverride, given_eq_map hgiven, ← List.map_reverse]
  rw [List.reverse_append, List.reverse_cons, List.map_append, List.map_append,
    List.lookup_append, List.lookup_append, lookup_map_argumentName_eq_none hlater]
  simp

end Arguments

/-- A project starts out with the overrides of its session. -/
theorem Project.get?_start {s : Session} {name value : String}
    (h : s.overrides.lookup name = some value) (w : World) (root : Path) :
    (Project.start w s root).props.get? name = some value := by
  simp only [start, Properties.get?_foldl_declare, h]
  rfl

/-- Arguments can be read if and only if templates can refer to their names.  The last one of a name
then has its value put in the place of the name, as it is, in every text that is expanded in the
project from its start on, unless it is a property that tells about files. -/
theorem references_find_arguments (w : World) (s : Session) (root : Path)
    (calls : List ImportCall) :
    (∀ arg found, readPropertyArgument arg = .ok found ↔
      Template.Referable (argumentName arg).toList ∧
        found = (argumentName arg, argumentValue arg)) ∧
    ∀ {before after : List String} {arg : String} {given : List (String × String)},
      (before ++ arg :: after).map readPropertyArgument = given.map .ok →
      (∀ later ∈ after, argumentName later ≠ argumentName arg) →
      argumentName arg ∉ filePropertyNames →
      let context := given.foldl (fun s (n, v) => s.addOverride n v) s
      let opened : Loading := { project := Project.start w context root }
      ∀ p ∈ ImportCall.history calls opened, ∀ opening literal : String,
        Template.IsPlain opening.toList → Template.IsPlain literal.toList →
        p.expand (opening ++ "$\x7b" ++ argumentName arg ++ "\x7d" ++ literal) =
          .ok (opening ++ argumentValue arg ++ literal) := by
  refine ⟨fun arg found => ?_, ?_⟩
  · rw [Template.referable_iff]
    exact readPropertyArgument_eq_ok_iff
  · intro before after arg given hgiven hlast hfile context opened p hp opening literal hopening
      hliteral
    have hread : ∃ found, readPropertyArgument arg = .ok found := by
      have hm : readPropertyArgument arg ∈ given.map .ok :=
        hgiven ▸ List.mem_map_of_mem (List.mem_append_right before List.mem_cons_self)
      obtain ⟨found, -, heq⟩ := List.mem_map.mp hm
      exact ⟨found, heq.symm⟩
    obtain ⟨found, hfound⟩ := hread
    have hopened : opened.project.props.get? (argumentName arg) = some (argumentValue arg) :=
      Project.get?_start (Session.lookup_overrides_of_last hgiven hlast) w root
    have hvalue : p.get? (argumentName arg) = some (argumentValue arg) :=
      (ImportCall.between_history calls opened).start p hp _ hfile _ hopened
    exact Properties.expand_between hvalue (readPropertyArgument_eq_ok_iff.mp hfound).1 hopening
      hliteral

/-- A value with an equals sign and a reference, one that is replaced, and a built-in property. -/
theorem references_find_arguments_overridden :
    let given := [("out", "a=$\x7bb\x7d"), ("x", ""), ("user.home", "$\x7bx\x7d="), ("out", "\x7d")]
    let context := given.foldl (fun s (n, v) => s.addOverride n v) ({ cwd := ⟨"/proj"⟩ } : Session)
    let opened : Loading := { project := Project.start swallowing context ⟨"/proj"⟩ }
    (∀ found, readPropertyArgument "a b=c" ≠ .ok found) ∧
    ["out=a=$\x7bb\x7d", "x", "user.home=$\x7bx\x7d=", "out=\x7d"].map readPropertyArgument =
      given.map .ok ∧
    ∀ p ∈ ImportCall.history overriddenCalls opened,
      p.expand "<$\x7buser.home\x7d>" = .ok "<$\x7bx\x7d=>" ∧
        p.expand "$\x7bout\x7d" = .ok "\x7d" := by
  intro given context opened
  obtain ⟨hread, hfind⟩ := references_find_arguments swallowing { cwd := ⟨"/proj"⟩ } ⟨"/proj"⟩
    overriddenCalls
  have hgiven : ["out=a=$\x7bb\x7d", "x", "user.home=$\x7bx\x7d=", "out=\x7d"].map
      readPropertyArgument = given.map .ok := rfl
  refine ⟨fun found h => ?_, hgiven, fun p hp => ⟨?_, ?_⟩⟩
  · have hname := Template.referable_iff.mp ((hread "a b=c" found).mp h).1
    exact absurd (hname.2 ' ' (by decide +kernel)) (by decide)
  · exact @hfind ["out=a=$\x7bb\x7d", "x"] ["out=\x7d"] "user.home=$\x7bx\x7d=" given hgiven
      (by decide +kernel) (by decide +kernel) p hp "<" ">" (by decide) (by decide)
  · exact @hfind ["out=a=$\x7bb\x7d", "x", "user.home=$\x7bx\x7d="] [] "out=\x7d" given hgiven
      (by simp) (by decide +kernel) p hp "" "" (by decide) (by decide)

end DeclarativeBuild
