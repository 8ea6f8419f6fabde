import DeclarativeBuild.Markup.Reader
import Mathlib.Data.List.TakeWhile

/-!
# How far scanners look

A piece of markup ends with a sign that no scanner looks beyond, so it is read alike whatever comes
after it.  What does not end with a sign of its own is read alike as long as the input goes on alike
up to the next such sign.
-/

namespace DeclarativeBuild
namespace Markup

/-- Two inputs are alike up to the next sign that ends a tag, which both of them have. -/
def Alike (cs ds : List Char) : Prop :=
  ∃ p r s, '>' ∈ p ∧ cs = p ++ r ∧ ds = p ++ s

namespace Alike

variable {cs ds : List Char}

theorem of_mem {p : List Char} (hp : '>' ∈ p) (r s : List Char) : Alike (p ++ r) (p ++ s) :=
  ⟨p, r, s, hp, rfl, rfl⟩

theorem append (h : Alike cs ds) (before : List Char) : Alike (before ++ cs) (before ++ ds) := by
  obtain ⟨p, r, s, hp, rfl, rfl⟩ := h
  rw [← List.append_assoc, ← List.append_assoc]
  exact of_mem (List.mem_append_right before hp) r s

theorem exists_head (h : Alike cs ds) : ∃ c cs' ds', cs = c :: cs' ∧ ds = c :: ds' := by
  obtain ⟨p, r, s, hp, rfl, rfl⟩ := h
  cases p with
  | nil => cases hp
  | cons c p => exact ⟨c, p ++ r, p ++ s, rfl, rfl⟩

/-- A text with the sign at most at its end begins both inputs or none of them. -/
theorem prefix_iff (h : Alike cs ds) {pattern : List Char} (hp : '>' ∉ pattern.dropLast) :
    pattern <+: cs ↔ pattern <+: ds := by
  obtain ⟨p, r, s, hmem, rfl, rfl⟩ := h
  -- The sign stands in `p`, so the pattern ends within `p`.
  have hwithin : ∀ r, pattern <+: p ++ r ↔ pattern <+: p := by
    intro r
    refine ⟨fun h => ?_, fun h => h.trans (List.prefix_append p r)⟩
    rcases List.prefix_or_prefix_of_prefix h (List.prefix_append p r) with h | ⟨more, rfl⟩
    · exact h
    · rcases List.eq_nil_or_concat more with rfl | ⟨before, c, rfl⟩
      · exact (List.append_nil p).symm ▸ List.prefix_rfl
      · rw [List.concat_eq_append, ← List.append_assoc, List.dropLast_concat] at hp
        exact absurd (List.mem_append_left before hmem) hp
  rw [hwithin, hwithin]

theorem isPrefixOf_eq (h : Alike cs ds) {pattern : List Char} (hp : '>' ∉ pattern.dropLast) :
    pattern.isPrefixOf cs = pattern.isPrefixOf ds := by
  rw [Bool.eq_iff_iff, List.isPrefixOf_iff_prefix, List.isPrefixOf_iff_prefix, h.prefix_iff hp]

end Alike

section Runs

variable {q : Char → Bool}

/-- A run of characters ends where another one stands or the input ends. -/
theorem takeWhile_of_stop {p s : List Char} (hp : ∀ c ∈ p, q c = true)
    (hs : ∀ c, s.head? = some c → q c = false) :
    (p ++ s).takeWhile q = p ∧ (p ++ s).dropWhile q = s := by
  rw [List.takeWhile_append_of_pos hp, List.dropWhile_append_of_pos hp]
  cases s with
  | nil => simp
  | cons c rest => simp [hs c rfl]

theorem head?_dropWhile {cs : List Char} {c : Char} (h : (cs.dropWhile q).head? = some c) :
    q c = false := by
  have hnot := List.head?_dropWhile_not q cs
  rw [h] at hnot
  simpa using hnot

theorem drop_length_takeWhile (cs : List Char) :
    cs.drop (cs.takeWhile q).length = cs.dropWhile q := by
  induction cs with
  | nil => rfl
  | cons c rest ih =>
      by_cases hc : q c = true
      · rw [List.takeWhile_cons_of_pos hc, List.dropWhile_cons_of_pos hc]
        exact ih
      · rw [List.takeWhile_cons_of_neg hc, List.dropWhile_cons_of_neg hc]
        rfl

/-- A run is taken off alike as long as the same character follows. -/
theorem takeWhile_of_alike {cs s : List Char} (h : Alike (cs.dropWhile q) s) :
    (cs.takeWhile q ++ s).takeWhile q = cs.takeWhile q ∧
      (cs.takeWhile q ++ s).dropWhile q = s := by
  refine takeWhile_of_stop (fun c hc => List.mem_takeWhile_imp hc) fun c hc => ?_
  obtain ⟨d, cs', ds', hcs, rfl⟩ := h.exists_head
  obtain rfl : d = c := Option.some.inj hc
  exact head?_dropWhile (by rw [hcs]; rfl)

end Runs

/-- What a scanner takes off is read alike before whatever goes on alike. -/
def Local {α : Type} (f : List Char → Option (α × List Char)) : Prop :=
  ∀ cs x rest, f cs = some (x, rest) →
    ∃ p, cs = p ++ rest ∧ ∀ s, Alike rest s → f (p ++ s) = some (x, s)

/-- What a scanner takes off ends with a sign and is read alike before everything. -/
def Closed {α : Type} (f : List Char → Option (α × List Char)) : Prop :=
  ∀ cs x rest, f cs = some (x, rest) →
    ∃ p, '>' ∈ p ∧ cs = p ++ rest ∧ ∀ s, f (p ++ s) = some (x, s)

section Combined

variable {α β : Type} {f : List Char → Option (α × List Char)}
variable {g : α → List Char → Option (β × List Char)}

theorem Local.bind (hf : Local f) (hg : ∀ x, Local (g x)) :
    Local fun cs => f cs >>= fun (x, rest) => g x rest := by
  intro cs y rest h
  obtain ⟨⟨x, middle⟩, hx, hy⟩ := Option.bind_eq_some_iff.mp h
  obtain ⟨p, rfl, hp⟩ := hf cs x middle hx
  obtain ⟨p', rfl, hp'⟩ := hg x middle y rest hy
  refine ⟨p ++ p', (List.append_assoc _ _ _).symm, fun s hs => ?_⟩
  simp only [List.append_assoc, hp (p' ++ s) (hs.append p'), Option.bind_eq_bind, Option.bind_some]
  exact hp' s hs

theorem Local.bind_closed (hf : Local f) (hg : ∀ x, Closed (g x)) :
    Closed fun cs => f cs >>= fun (x, rest) => g x rest := by
  intro cs y rest h
  obtain ⟨⟨x, middle⟩, hx, hy⟩ := Option.bind_eq_some_iff.mp h
  obtain ⟨p, rfl, hp⟩ := hf cs x middle hx
  obtain ⟨p', hsign, rfl, hp'⟩ := hg x middle y rest hy
  refine ⟨p ++ p', List.mem_append_right p hsign, (List.append_assoc _ _ _).symm, fun s => ?_⟩
  simp only [List.append_assoc, hp (p' ++ s) (.of_mem hsign _ _), Option.bind_eq_bind,
    Option.bind_some]
  exact hp' s

theorem Local.map (hf : Local f) (h : α → β) :
    Local fun cs => (f cs).map fun (x, rest) => (h x, rest) := by
  intro cs y rest hy
  obtain ⟨⟨x, after⟩, hx, heq⟩ := Option.map_eq_some_iff.mp hy
  cases heq
  obtain ⟨p, hcs, hp⟩ := hf cs x rest hx
  refine ⟨p, hcs, fun s hs => ?_⟩
  simp only [hp s hs, Option.map_some]

/-- Nothing more is read where it is decided what a piece stands for. -/
theorem Closed.filterMap (hf : Closed f) (h : α → Option β) :
    Closed fun cs => f cs >>= fun (x, rest) => (h x).map fun y => (y, rest) := by
  intro cs y rest hy
  obtain ⟨⟨x, after⟩, hx, hmap⟩ := Option.bind_eq_some_iff.mp hy
  obtain ⟨z, hz, heq⟩ := Option.map_eq_some_iff.mp hmap
  cases heq
  obtain ⟨p, hsign, hcs, hp⟩ := hf cs x rest hx
  refine ⟨p, hsign, hcs, fun s => ?_⟩
  simp only [hp s, Option.bind_eq_bind, Option.bind_some, hz, Option.map_some]

theorem Closed.map (hf : Closed f) (h : α → β) :
    Closed fun cs => (f cs).map fun (x, rest) => (h x, rest) := by
  have heq : (fun cs => (f cs).map fun (x, rest) => (h x, rest)) =
      fun cs => f cs >>= fun (x, rest) => (some (h x)).map fun y => (y, rest) := by
    funext cs
    cases f cs <;> rfl
  rw [heq]
  exact hf.filterMap fun x => some (h x)

theorem Closed.local (hf : Closed f) : Local f := by
  intro cs x rest h
  obtain ⟨p, -, hcs, hp⟩ := hf cs x rest h
  exact ⟨p, hcs, fun s _ => hp s⟩

end Combined

/-- A scanner that makes something of a run of characters. -/
theorem local_run {α : Type} (q : Char → Bool) (f : List Char → Option α) :
    Local fun cs => (f (cs.takeWhile q)).map fun x => (x, cs.dropWhile q) := by
  intro cs x rest h
  obtain ⟨y, hy, heq⟩ := Option.map_eq_some_iff.mp h
  cases heq
  refine ⟨cs.takeWhile q, (List.takeWhile_append_dropWhile).symm, fun s hs => ?_⟩
  obtain ⟨htake, hdrop⟩ := takeWhile_of_alike hs
  simp only [htake, hdrop, hy, Option.map_some]

def scanSpaces (cs : List Char) : Option (Unit × List Char) :=
  some ((), skipSpaces cs)

theorem local_scanSpaces : Local scanSpaces :=
  local_run isSpace fun _ => some ()

def scanSign (sign : Char) : List Char → Option (Unit × List Char)
  | c :: rest => if c = sign then some ((), rest) else none
  | [] => none

theorem scanSign_eq_some {sign : Char} {cs rest : List Char} {x : Unit}
    (h : scanSign sign cs = some (x, rest)) : cs = sign :: rest := by
  unfold scanSign at h
  split at h
  · split at h
    · next hc =>
      cases h
      rw [hc]
    · cases h
  · cases h

theorem scanSign_cons (sign : Char) (rest : List Char) :
    scanSign sign (sign :: rest) = some ((), rest) :=
  if_pos rfl

theorem local_scanSign (sign : Char) : Local (scanSign sign) := by
  intro cs x rest h
  obtain rfl := scanSign_eq_some h
  exact ⟨[sign], rfl, fun s _ => scanSign_cons sign s⟩

theorem closed_scanSign : Closed (scanSign '>') := by
  intro cs x rest h
  obtain rfl := scanSign_eq_some h
  exact ⟨['>'], List.mem_singleton_self _, rfl, scanSign_cons '>'⟩

def name? : List Char → Option String
  | c :: rest => if isNameStart c then some (String.ofList (c :: rest)) else none
  | [] => none

theorem scanName_eq (cs : List Char) :
    scanName cs = (name? (cs.takeWhile isNameChar)).map fun x => (x, cs.dropWhile isNameChar) := by
  rw [scanName, drop_length_takeWhile]
  cases cs.takeWhile isNameChar with
  | nil => rfl
  | cons c rest => by_cases hc : isNameStart c = true <;> simp [name?, hc]

theorem local_scanName : Local scanName := by
  rw [funext scanName_eq]
  exact local_run isNameChar name?

def qualifiedName? (name : List Char) : Option QualifiedName :=
  match Text.cutFirst ':' name with
  | none => if startsName name then some ⟨"", String.ofList name⟩ else none
  | some (qualifier, localName) =>
    if localName.contains ':' || !startsName localName then none
    else if !qualifier.isEmpty && !startsName qualifier then none
    else some ⟨String.ofList qualifier, String.ofList localName⟩

theorem scanQualifiedName_eq (cs : List Char) :
    scanQualifiedName cs =
      (qualifiedName? (cs.takeWhile isNameChar)).map fun x => (x, cs.dropWhile isNameChar) := by
  simp only [scanQualifiedName, qualifiedName?, drop_length_takeWhile]
  cases Text.cutFirst ':' (cs.takeWhile isNameChar) with
  | none => by_cases h : startsName (cs.takeWhile isNameChar) = true <;> simp [h]
  | some parts =>
      obtain ⟨qualifier, localName⟩ := parts
      by_cases hl : (localName.contains ':' || !startsName localName) = true
      · simp only [hl, if_true, Option.map_none]
      · by_cases hq : (!qualifier.isEmpty && !startsName qualifier) = true
        · simp only [hl, hq, if_true, Option.map_none, Bool.false_eq_true, if_false]
        · simp only [hl, hq, Option.map_some, Bool.false_eq_true, if_false]

theorem local_scanQualifiedName : Local scanQualifiedName := by
  rw [funext scanQualifiedName_eq]
  exact local_run isNameChar qualifiedName?

/-- A name begins with one of its characters. -/
theorem head_of_scanQualifiedName {cs rest : List Char} {name : QualifiedName}
    (h : scanQualifiedName cs = some (name, rest)) :
    ∃ c tail, cs = c :: tail ∧ isNameChar c = true := by
  rw [scanQualifiedName_eq] at h
  have hne : cs.takeWhile isNameChar ≠ [] := by
    intro hnil
    have hnone : qualifiedName? [] = none := by decide
    rw [hnil, hnone] at h
    cases h
  cases cs with
  | nil => exact absurd rfl hne
  | cons c tail =>
      refine ⟨c, tail, rfl, ?_⟩
      by_contra hc
      exact hne (List.takeWhile_cons_of_neg hc)

/-- What is read up to a stop is read alike whatever comes after the stop. -/
theorem scanUntil_eq_some {stop cs text rest : List Char} (hne : stop ≠ [])
    (h : scanUntil stop cs = some (text, rest)) :
    cs = text ++ (stop ++ rest) ∧ ∀ s, scanUntil stop (text ++ (stop ++ s)) = some (text, s) := by
  induction cs generalizing text with
  | nil => cases h
  | cons c tail ih =>
      rw [scanUntil] at h
      split at h
      · next hstop =>
        obtain ⟨after, hafter⟩ := List.isPrefixOf_iff_prefix.mp hstop
        have hdrop : (c :: tail).drop stop.length = after := by rw [← hafter, List.drop_left]
        rw [hdrop] at h
        cases h
        refine ⟨hafter.symm, fun s => ?_⟩
        cases stop with
        | nil => exact absurd rfl hne
        | cons d stop =>
            have hprefix : (d :: stop).isPrefixOf (d :: (stop ++ s)) = true :=
              List.isPrefixOf_iff_prefix.mpr (List.prefix_append (d :: stop) s)
            rw [List.nil_append, List.cons_append, scanUntil, if_pos hprefix]
            exact congrArg (fun after => some (([] : List Char), after)) List.drop_left
      · next hstop =>
        split at h
        · next hc =>
          obtain ⟨⟨text', after⟩, hscan, heq⟩ := Option.map_eq_some_iff.mp h
          cases heq
          obtain ⟨rfl, hall⟩ := ih hscan
          refine ⟨rfl, fun s => ?_⟩
          -- The stop is shorter than what is read, so it stands at the front of both or of none.
          have hfront : ∀ r, stop <+: c :: (text' ++ (stop ++ r)) ↔
              stop <+: c :: (text' ++ stop) := by
            intro r
            have hshorter : c :: (text' ++ stop) <+: c :: (text' ++ (stop ++ r)) := by
              rw [← List.append_assoc]
              exact List.prefix_append (c :: (text' ++ stop)) r
            refine ⟨fun h => ?_, fun h => h.trans hshorter⟩
            refine List.prefix_of_prefix_length_le h hshorter ?_
            simp
            omega
          have hnot : stop.isPrefixOf (c :: (text' ++ (stop ++ s))) = false := by
            rw [Bool.eq_false_iff, ne_eq, List.isPrefixOf_iff_prefix, hfront, ← hfront rest,
              ← List.isPrefixOf_iff_prefix]
            exact hstop
          rw [List.cons_append, scanUntil, if_neg (by simp [hnot]), if_pos hc, hall s]
          rfl
        · cases h

theorem closed_scanUntil {stop : List Char} (hsign : '>' ∈ stop) : Closed (scanUntil stop) := by
  intro cs text rest h
  have hne : stop ≠ [] := List.ne_nil_of_mem hsign
  obtain ⟨rfl, hall⟩ := scanUntil_eq_some hne h
  refine ⟨text ++ stop, List.mem_append_right text hsign, (List.append_assoc _ _ _).symm, ?_⟩
  intro s
  rw [List.append_assoc]
  exact hall s

theorem closed_scanComment : Closed scanComment := by
  intro cs x rest h
  obtain ⟨⟨text, after⟩, hscan, hx⟩ := Option.bind_eq_some_iff.mp h
  obtain ⟨p, hsign, hcs, hall⟩ := closed_scanUntil (by decide) cs text after hscan
  simp only at hx
  split at hx
  · cases hx
  · next hok =>
    cases hx
    refine ⟨p, hsign, hcs, fun s => ?_⟩
    rw [scanComment, hall s]
    exact if_neg hok

/-- What an instruction is once it is known not to be a declaration. -/
def scanTarget (cs : List Char) : Option (Unit × List Char) :=
  scanName cs >>= fun (_, cs) => scanSpaces cs >>= fun (_, cs) =>
    (scanUntil ['?', '>'] cs).map fun (_, rest) => ((), rest)

theorem closed_scanTarget : Closed scanTarget :=
  local_scanName.bind_closed fun _ => local_scanSpaces.bind_closed fun _ =>
    (closed_scanUntil (by decide)).map fun _ => ()

theorem scanInstruction_eq (cs : List Char) :
    scanInstruction cs = if "xml ".toList.isPrefixOf cs then none else scanTarget cs := by
  rw [scanInstruction]
  split
  · rfl
  · simp only [scanTarget, scanSpaces, Option.bind_eq_bind, Option.bind_some, Option.map_eq_bind]
    rfl

theorem closed_scanInstruction : Closed scanInstruction := by
  intro cs x rest h
  rw [scanInstruction_eq] at h
  split at h
  · cases h
  · next hxml =>
    obtain ⟨p, hsign, rfl, hall⟩ := closed_scanTarget cs x rest h
    have hsame : ∀ s, "xml ".toList.isPrefixOf (p ++ rest) = "xml ".toList.isPrefixOf (p ++ s) :=
      fun s => (Alike.of_mem hsign rest s).isPrefixOf_eq (by decide)
    refine ⟨p, hsign, rfl, fun s => ?_⟩
    rw [scanInstruction_eq, ← hsame, if_neg hxml]
    exact hall s

/-- A quoted text without the sign that opens a tag. -/
def scanQuoted : List Char → Option (List Char × List Char)
  | quote :: rest =>
    if quote != '"' && quote != '\'' then none
    else scanUntil [quote] rest >>= fun (value, rest) =>
      if value.contains '<' then none else some (value, rest)
  | [] => none

theorem local_scanQuoted : Local scanQuoted := by
  intro cs x rest h
  cases cs with
  | nil => cases h
  | cons quote tail =>
      rw [scanQuoted] at h
      split at h
      · cases h
      · next hquote =>
        obtain ⟨⟨value, after⟩, hscan, hx⟩ := Option.bind_eq_some_iff.mp h
        obtain ⟨rfl, hall⟩ := scanUntil_eq_some (List.cons_ne_nil quote []) hscan
        simp only at hx
        split at hx
        · cases hx
        · next hvalue =>
          cases hx
          refine ⟨quote :: (x ++ [quote]), by simp, fun s _ => ?_⟩
          have hs := hall s
          rw [List.cons_append, List.append_assoc, scanQuoted, if_neg hquote, hs]
          exact if_neg hvalue

theorem scanAttribute_eq (cs : List Char) :
    scanAttribute cs = scanQualifiedName cs >>= fun (name, cs) => scanSpaces cs >>= fun (_, cs) =>
      scanSign '=' cs >>= fun (_, cs) => scanSpaces cs >>= fun (_, cs) =>
        (scanQuoted cs).map fun (value, cs) => ((name, value), cs) := by
  rw [scanAttribute]
  cases scanQualifiedName cs with
  | none => rfl
  | some found =>
      obtain ⟨name, rest⟩ := found
      simp only [Option.bind_eq_bind, Option.bind_some, scanSpaces]
      rcases skipSpaces rest with _ | ⟨c, after⟩
      · rfl
      · by_cases hc : c = '='
        · subst hc
          simp only [scanSign, if_true, Option.bind_some]
          rcases skipSpaces after with _ | ⟨quote, text⟩
          · rfl
          · simp only [scanQuoted]
            split
            · rfl
            · cases scanUntil [quote] text with
              | none => rfl
              | some read =>
                  obtain ⟨value, after⟩ := read
                  by_cases hvalue : value.contains '<' = true
                  · simp only [hvalue, if_true, Option.bind_eq_bind, Option.bind_some,
                      Option.map_none]
                  · simp only [hvalue, Bool.false_eq_true, if_false, Option.bind_eq_bind,
                      Option.bind_some, Option.map_some]
        · simp [scanSign, hc]

theorem local_scanAttribute : Local scanAttribute := by
  rw [funext scanAttribute_eq]
  exact local_scanQualifiedName.bind fun name => local_scanSpaces.bind fun _ =>
    (local_scanSign '=').bind fun _ => local_scanSpaces.bind fun _ =>
      local_scanQuoted.map fun value => (name, value)

theorem scanEndTag_eq (cs : List Char) :
    scanEndTag cs = scanQualifiedName cs >>= fun (name, cs) => scanSpaces cs >>= fun (_, cs) =>
      (scanSign '>' cs).map fun (_, cs) => (name, cs) := by
  rw [scanEndTag]
  cases scanQualifiedName cs with
  | none => rfl
  | some found =>
      obtain ⟨name, rest⟩ := found
      simp only [Option.bind_eq_bind, Option.bind_some, scanSpaces]
      rcases skipSpaces rest with _ | ⟨c, after⟩
      · rfl
      · by_cases hc : c = '>'
        · subst hc
          rfl
        · simp [scanSign, hc]

theorem closed_scanEndTag : Closed scanEndTag := by
  rw [funext scanEndTag_eq]
  exact local_scanQualifiedName.bind_closed fun name => local_scanSpaces.bind_closed fun _ =>
    closed_scanSign.map fun _ => name

end Markup
end DeclarativeBuild
