import DeclarativeBuild.Proofs.Markup.Items

/-!
# What comes before the content

A declaration, comments and the start tag of the root element are read alike whatever the root
element holds.
-/

namespace DeclarativeBuild
namespace Markup

/-- What a scanner passes over is passed over alike before whatever goes on alike. -/
def Skips (f : List Char → Option (List Char)) : Prop :=
  ∀ cs rest, f cs = some rest → ∃ p, cs = p ++ rest ∧ ∀ s, Alike rest s → f (p ++ s) = some s

variable {f g : List Char → Option (List Char)}

theorem Skips.bind (hf : Skips f) (hg : Skips g) : Skips fun cs => f cs >>= g := by
  intro cs rest h
  obtain ⟨middle, hmiddle, hrest⟩ := Option.bind_eq_some_iff.mp h
  obtain ⟨p, rfl, hp⟩ := hf cs middle hmiddle
  obtain ⟨p', rfl, hp'⟩ := hg middle rest hrest
  refine ⟨p ++ p', (List.append_assoc _ _ _).symm, fun s hs => ?_⟩
  simp only [List.append_assoc, hp (p' ++ s) (hs.append p'), Option.bind_eq_bind, Option.bind_some]
  exact hp' s hs

/-- Which of two ways is gone may hang on how the input starts. -/
theorem Skips.ite {pattern : List Char} (hpattern : '>' ∉ pattern.dropLast) (hf : Skips f)
    (hg : Skips g) : Skips fun cs => if pattern.isPrefixOf cs then f cs else g cs := by
  intro cs rest h
  have hsame : ∀ p s, Alike rest s →
      pattern.isPrefixOf (p ++ s) = pattern.isPrefixOf (p ++ rest) :=
    fun p s hs => ((hs.append p).isPrefixOf_eq hpattern).symm
  simp only at h
  split at h
  · next hyes =>
    obtain ⟨p, rfl, hp⟩ := hf cs rest h
    refine ⟨p, rfl, fun s hs => ?_⟩
    simp only [hsame p s hs, hyes, if_true]
    exact hp s hs
  · next hno =>
    obtain ⟨p, rfl, hp⟩ := hg cs rest h
    refine ⟨p, rfl, fun s hs => ?_⟩
    simp only [hsame p s hs, hno]
    exact hp s hs

theorem skips_some : Skips some := by
  rintro cs rest ⟨⟩
  exact ⟨[], rfl, fun s _ => rfl⟩

theorem skips_none : Skips fun _ => none := by
  rintro cs rest ⟨⟩

theorem skips_stripPrefix (opening : List Char) : Skips (stripPrefix? opening) := by
  intro cs rest h
  exact ⟨opening, stripPrefix?_eq_some h, fun s _ => stripPrefix?_append opening s⟩

theorem Local.skips {α : Type} {f : List Char → Option (α × List Char)} (hf : Local f) :
    Skips fun cs => (f cs).map (·.2) := by
  intro cs rest h
  obtain ⟨⟨x, after⟩, hx, rfl⟩ := Option.map_eq_some_iff.mp h
  obtain ⟨p, hcs, hp⟩ := hf cs x after hx
  refine ⟨p, hcs, fun s hs => ?_⟩
  simp only [hp s hs, Option.map_some]

theorem skips_skipSpaces : Skips fun cs => some (skipSpaces cs) :=
  local_scanSpaces.skips

/-- Spaces, which are missing only at the end of the input. -/
def gap (cs : List Char) : Option (List Char) :=
  match cs with
  | c :: _ => if isSpace c then some (skipSpaces cs) else none
  | [] => some []

theorem skips_gap : Skips gap := by
  intro cs rest h
  rcases cs with _ | ⟨c, tail⟩
  · cases h
    refine ⟨[], rfl, fun s hs => ?_⟩
    obtain ⟨c, cs', ds', hnil, -⟩ := hs.exists_head
    cases hnil
  · rw [gap] at h
    split at h
    · next hc =>
      obtain ⟨p, hcs, hp⟩ := skips_skipSpaces (c :: tail) rest h
      refine ⟨(c :: tail).takeWhile isSpace, ?_, fun s hs => ?_⟩
      · rw [← Option.some.inj h]
        exact (takeWhile_append_skipSpaces (c :: tail)).symm
      · have hskip := @skipSpaces_append (c :: tail) s (Option.some.inj h ▸ hs)
        rw [List.takeWhile_cons_of_pos hc, List.cons_append] at hskip ⊢
        rw [gap, if_pos hc, hskip]
    · cases h

theorem skips_declarationGap : Skips declarationGap := by
  have heq : ∀ cs, declarationGap cs = if ['?', '>'].isPrefixOf cs then some cs else gap cs := by
    intro cs
    rw [declarationGap.eq_def]
    by_cases hend : ['?', '>'].isPrefixOf cs = true
    · rw [hend]
      rfl
    · cases cs with
      | nil => rfl
      | cons c tail => simp [hend, gap]
  rw [funext heq]
  exact skips_some.ite (by decide) skips_gap

theorem skips_skipDeclared {name : String} (hname : '>' ∉ name.toList.dropLast) :
    Skips (skipDeclared name) :=
  local_scanAttribute.skips.ite hname skips_some

theorem skips_skipDeclaration : Skips skipDeclaration := by
  have heq : ∀ cs, skipDeclaration cs =
      if "<?xml ".toList.isPrefixOf cs then
        stripPrefix? "<?xml".toList cs >>= fun cs => declarationGap cs >>= fun cs =>
          if "version".toList.isPrefixOf cs then
            skipDeclared "version" cs >>= fun cs => declarationGap cs >>= fun cs =>
              (if "encoding".toList.isPrefixOf cs then skipDeclared "encoding" cs >>= declarationGap
                else some cs) >>= fun cs =>
                skipDeclared "standalone" cs >>= fun cs =>
                  some (skipSpaces cs) >>= stripPrefix? ['?', '>']
          else none
      else some cs := by
    intro cs
    rw [skipDeclaration]
    by_cases hopen : "<?xml ".toList.isPrefixOf cs = true
    · obtain ⟨after, rfl⟩ := List.isPrefixOf_iff_prefix.mp hopen
      have hdrop : ("<?xml ".toList ++ after).drop 5 = ' ' :: after := rfl
      have hstrip : stripPrefix? "<?xml".toList ("<?xml ".toList ++ after) = some (' ' :: after) :=
        stripPrefix?_append "<?xml".toList (' ' :: after)
      rw [hopen, hdrop, hstrip, if_neg (by decide), if_pos rfl, Option.bind_eq_bind,
        Option.bind_eq_bind, Option.bind_some]
      refine congrArg _ (funext fun cs => ?_)
      by_cases hversion : "version".toList.isPrefixOf cs = true
      · rw [hversion, if_neg (by decide), if_pos rfl]
        exact Option.bind_assoc _ _ _
      · rw [if_neg hversion, if_pos (by rw [(Bool.not_eq_true _).mp hversion]; rfl)]
        rfl
    · rw [if_neg hopen, if_pos (by rw [(Bool.not_eq_true _).mp hopen]; rfl)]
  rw [funext heq]
  refine Skips.ite (by decide) ?_ skips_some
  refine (skips_stripPrefix _).bind (skips_declarationGap.bind ?_)
  refine Skips.ite (by decide) ?_ skips_none
  refine (skips_skipDeclared (by decide)).bind (skips_declarationGap.bind (Skips.bind ?_ ?_))
  · exact ((skips_skipDeclared (by decide)).bind skips_declarationGap).ite (by decide) skips_some
  · exact (skips_skipDeclared (by decide)).bind (skips_skipSpaces.bind (skips_stripPrefix _))

/-- What opens a comment or an instruction, and what reads the rest of it. -/
inductive OpensRemark : List Char → (List Char → Option (Unit × List Char)) → Prop
  | comment : OpensRemark ['<', '!', '-', '-'] scanComment
  | instruction : OpensRemark ['<', '?'] scanInstruction

variable {opening cs rest : List Char} {scan : List Char → Option (Unit × List Char)}

theorem OpensRemark.closed (h : OpensRemark opening scan) : Closed scan := by
  cases h with
  | comment => exact closed_scanComment
  | instruction => exact closed_scanInstruction

theorem OpensRemark.skipSpaces_append (h : OpensRemark opening scan) (cs s : List Char) :
    skipSpaces (cs.takeWhile isSpace ++ (opening ++ s)) = opening ++ s := by
  refine (takeWhile_of_stop (fun c hc => List.mem_takeWhile_imp hc) fun c hc => ?_).2
  cases h <;>
    · obtain rfl := Option.some.inj hc
      decide

theorem skipMisc_of_remark (h : OpensRemark opening scan) {tail after : List Char}
    (hcs : skipSpaces cs = opening ++ tail) (hscan : scan tail = some ((), after))
    (hshorter : after.length < cs.length) : skipMisc cs = skipMisc after := by
  cases h <;>
    · rw [skipMisc, hcs]
      simp only [List.cons_append, List.nil_append, hscan, hshorter, if_true]

theorem skipMisc_of_other
    (hother : ∀ opening scan, OpensRemark opening scan → ¬ opening <+: skipSpaces cs) :
    skipMisc cs = some (skipSpaces cs) := by
  rw [skipMisc]
  split
  · next tail heq => exact absurd ⟨tail, heq.symm⟩ (hother _ _ .comment)
  · next tail heq => exact absurd ⟨tail, heq.symm⟩ (hother _ _ .instruction)
  · rfl

theorem skipMisc_cases (h : skipMisc cs = some rest) :
    (∃ opening scan tail after, OpensRemark opening scan ∧ skipSpaces cs = opening ++ tail ∧
      scan tail = some ((), after) ∧ after.length < cs.length ∧ skipMisc after = some rest) ∨
    ((∀ opening scan, OpensRemark opening scan → ¬ opening <+: skipSpaces cs) ∧
      skipSpaces cs = rest) := by
  rw [skipMisc] at h
  split at h
  · next tail heq =>
    split at h
    · cases h
    · next after hscan =>
      split at h
      · next hshorter => exact .inl ⟨_, _, tail, after, .comment, heq, hscan, hshorter, h⟩
      · cases h
  · next tail heq =>
    split at h
    · cases h
    · next after hscan =>
      split at h
      · next hshorter => exact .inl ⟨_, _, tail, after, .instruction, heq, hscan, hshorter, h⟩
      · cases h
  · next hcomment hinstruction =>
    refine .inr ⟨fun opening scan hopens => ?_, Option.some.inj h⟩
    rintro ⟨tail, htail⟩
    cases hopens with
    | comment => exact hcomment tail htail.symm
    | instruction => exact hinstruction tail htail.symm

theorem skips_skipMisc : Skips skipMisc := by
  intro cs
  induction hn : cs.length using Nat.strong_induction_on generalizing cs with
  | _ n ih =>
    subst hn
    intro rest h
    have hcs := takeWhile_append_skipSpaces cs
    rcases skipMisc_cases h with
      ⟨opening, scan, tail, after, hopens, heq, hscan, hshorter, hmore⟩ | ⟨hother, rfl⟩
    -- Its closing sign fixes a comment or instruction; the rest is shorter and skipped alike.
    · obtain ⟨p, hsign, rfl, hall⟩ := hopens.closed _ _ _ hscan
      obtain ⟨p', rfl, hall'⟩ := ih after.length hshorter after rfl rest hmore
      refine ⟨cs.takeWhile isSpace ++ (opening ++ (p ++ p')), ?_, fun s hs => ?_⟩
      · rw [heq] at hcs
        simpa using hcs.symm
      · rw [List.append_assoc, List.append_assoc, List.append_assoc,
          skipMisc_of_remark hopens (hopens.skipSpaces_append cs _) (hall (p' ++ s))]
        · exact hall' s hs
        · have := List.length_pos_of_mem hsign
          simp
          omega
    · refine ⟨cs.takeWhile isSpace, hcs.symm, fun s hs => ?_⟩
      have hskip := skipSpaces_append hs
      rw [skipMisc_of_other, hskip]
      intro opening scan hopens hprefix
      rw [hskip, ← hs.prefix_iff] at hprefix
      · exact hother opening scan hopens hprefix
      · cases hopens <;> decide

theorem Skips.bind_closed {α : Type} {g : List Char → Option (α × List Char)} (hf : Skips f)
    (hg : Closed g) : Closed fun cs => f cs >>= g := by
  intro cs x rest h
  obtain ⟨middle, hmiddle, hrest⟩ := Option.bind_eq_some_iff.mp h
  obtain ⟨p, rfl, hp⟩ := hf cs middle hmiddle
  obtain ⟨p', hsign, rfl, hp'⟩ := hg middle x rest hrest
  refine ⟨p ++ p', List.mem_append_right p hsign, (List.append_assoc _ _ _).symm, fun s => ?_⟩
  simp only [List.append_assoc, hp (p' ++ s) (.of_mem hsign _ _), Option.bind_eq_bind,
    Option.bind_some]
  exact hp' s

/-- What may stand before the root element: a mark of the byte order, a declaration, comments. -/
def skipProlog (cs : List Char) : Option (List Char) :=
  (if ['\ufeff'].isPrefixOf cs then stripPrefix? ['\ufeff'] cs else some cs) >>= fun cs =>
    skipDeclaration cs >>= skipMisc

theorem skipProlog_eq (cs : List Char) :
    skipProlog cs =
      skipDeclaration (if cs.head? == some '\ufeff' then cs.drop 1 else cs) >>= skipMisc := by
  rw [skipProlog]
  rcases cs with _ | ⟨c, tail⟩
  · rfl
  · by_cases hc : c = '\ufeff'
    · rw [hc]
      rfl
    · have hmark : ['\ufeff'].isPrefixOf (c :: tail) = false := by
        simp [List.isPrefixOf, Ne.symm hc]
      have hhead : ((c :: tail).head? == some '\ufeff') = false := by simp [hc]
      simp only [hmark, hhead, Bool.false_eq_true, if_false]
      rfl

theorem skips_skipProlog : Skips skipProlog :=
  ((skips_stripPrefix _).ite (by decide) skips_some).bind
    (skips_skipDeclaration.bind skips_skipMisc)

/-- The element that a start tag opens, unless the tag is an end tag too. -/
def opened? : QualifiedName × List Attribute × TagEnd → Option OpenElement
  | (name, attributes, .opening) =>
    (enter? Namespaces.initial name attributes).map fun (scope, plain) => .start name scope plain
  | (_, _, .closed) => none

/-- Everything up to the content of the root element. -/
def openRoot (cs : List Char) : Option (OpenElement × List Char) :=
  skipProlog cs >>= fun cs => stripPrefix? ['<'] cs >>= fun cs =>
    scanStartTag cs >>= fun (tag, cs) => (opened? tag).map fun root => (root, cs)

theorem closed_openRoot : Closed openRoot :=
  skips_skipProlog.bind_closed ((skips_stripPrefix _).bind_closed
    (closed_scanStartTag.filterMap opened?))

theorem readDocument_of_openRoot {source : String} {root : OpenElement} {content : List Char}
    (h : openRoot source.toList = some (root, content)) :
    readDocument source = (readContent root [] content).bind fun (e, rest) =>
      (skipMisc rest).bind fun rest => if rest.isEmpty then some e else none := by
  obtain ⟨start, hprolog, h⟩ := Option.bind_eq_some_iff.mp h
  obtain ⟨tag, htag, h⟩ := Option.bind_eq_some_iff.mp h
  obtain ⟨⟨⟨name, attributes, tagEnd⟩, rest⟩, hscan, h⟩ := Option.bind_eq_some_iff.mp h
  obtain ⟨o, ho, heq⟩ := Option.map_eq_some_iff.mp h
  cases heq
  obtain rfl := stripPrefix?_eq_some htag
  cases tagEnd with
  | closed => cases ho
  | opening =>
      obtain ⟨⟨scope, plain⟩, henter, rfl⟩ := Option.map_eq_some_iff.mp ho
      rw [skipProlog_eq] at hprolog
      have hroot : readRoot (['<'] ++ tag) =
          readContent (OpenElement.start name scope plain) [] content := by
        simp only [List.cons_append, List.nil_append, readRoot, hscan, henter]
      simp only [readDocument, Option.bind_eq_bind] at hprolog ⊢
      rw [hprolog, Option.bind_some, hroot]

end Markup
end DeclarativeBuild
