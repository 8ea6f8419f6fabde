import DeclarativeBuild.Proofs.Markup.Scanning

/-!
# How far a piece of content reaches

Every tag, comment and marked section ends with a sign of its own.  A text ends where a tag may
start.
-/

namespace DeclarativeBuild
namespace Markup

theorem skipSpaces_append {cs s : List Char} (h : Alike (skipSpaces cs) s) :
    skipSpaces (cs.takeWhile isSpace ++ s) = s :=
  (takeWhile_of_alike h).2

theorem takeWhile_append_skipSpaces (cs : List Char) : cs.takeWhile isSpace ++ skipSpaces cs = cs :=
  List.takeWhile_append_dropWhile

theorem skipSpaces_sign {cs p rest : List Char} (h : skipSpaces cs = p ++ rest) (hsign : '>' ∈ p) :
    cs = (cs.takeWhile isSpace ++ p) ++ rest ∧
      ∀ s, skipSpaces ((cs.takeWhile isSpace ++ p) ++ s) = p ++ s := by
  refine ⟨?_, fun s => ?_⟩
  · rw [List.append_assoc, ← h, takeWhile_append_skipSpaces]
  · rw [List.append_assoc]
    apply skipSpaces_append
    rw [h]
    exact .of_mem hsign rest s

section Tags

theorem head_of_scanAttribute {cs rest : List Char} {x : QualifiedName × List Char}
    (h : scanAttribute cs = some (x, rest)) :
    ∃ c tail, cs = c :: tail ∧ isNameChar c = true := by
  obtain ⟨⟨name, after⟩, hname, -⟩ := Option.bind_eq_some_iff.mp h
  exact head_of_scanQualifiedName hname

theorem scanAttributes_of_closed {cs rest : List Char} (h : skipSpaces cs = '/' :: '>' :: rest) :
    scanAttributes cs = some (([], .closed), rest) := by
  rw [scanAttributes, h]
  rfl

theorem scanAttributes_of_opening {cs rest : List Char} (h : skipSpaces cs = '>' :: rest) :
    scanAttributes cs = some (([], .opening), rest) := by
  rw [scanAttributes, h]
  rfl

theorem scanAttributes_of_attribute {cs start rest : List Char} {name : QualifiedName}
    {raw : List Char} {ws : List Written} (hstart : skipSpaces cs = start)
    (hshorter : start.length < cs.length)
    (hattribute : scanAttribute start = some ((name, raw), rest))
    (hrest : rest.length < cs.length) (hws : written raw = some ws) :
    scanAttributes cs = (scanAttributes rest).map fun ((attributes, tagEnd), rest) =>
      ((⟨name, String.ofList (attributeValue ws)⟩ :: attributes, tagEnd), rest) := by
  obtain ⟨c, tail, rfl, hc⟩ := head_of_scanAttribute hattribute
  rw [scanAttributes]
  split
  · next heq =>
    obtain rfl : c = '/' := (List.cons.inj (hstart.symm.trans heq)).1
    exact absurd hc (by decide)
  · next heq =>
    obtain rfl : c = '>' := (List.cons.inj (hstart.symm.trans heq)).1
    exact absurd hc (by decide)
  · simp only [hstart, hshorter, hattribute, hrest, if_true, hws]
    cases scanAttributes rest with
    | none => rfl
    | some found => rfl

theorem scanAttributes_cases {cs rest : List Char} {x : List Attribute × TagEnd}
    (h : scanAttributes cs = some (x, rest)) :
    (skipSpaces cs = '/' :: '>' :: rest ∧ x = ([], .closed)) ∨
    (skipSpaces cs = '>' :: rest ∧ x = ([], .opening)) ∨
    ∃ name raw after ws attributes tagEnd,
      (skipSpaces cs).length < cs.length ∧
      scanAttribute (skipSpaces cs) = some ((name, raw), after) ∧
      after.length < cs.length ∧ written raw = some ws ∧
      scanAttributes after = some ((attributes, tagEnd), rest) ∧
      x = (⟨name, String.ofList (attributeValue ws)⟩ :: attributes, tagEnd) := by
  rw [scanAttributes] at h
  split at h
  · next heq =>
    cases h
    exact .inl ⟨heq, rfl⟩
  · next heq =>
    cases h
    exact .inr (.inl ⟨heq, rfl⟩)
  · refine .inr (.inr ?_)
    split at h
    · next hshorter =>
      split at h
      · cases h
      · next name raw after hattribute =>
        split at h
        · next hafter =>
          split at h
          · next ws attributes tagEnd after' hws hmore =>
            cases h
            exact ⟨name, raw, after, ws, attributes, tagEnd, hshorter, hattribute, hafter, hws,
              hmore, rfl⟩
          · cases h
        · cases h
    · cases h

theorem closed_scanAttributes : Closed scanAttributes := by
  intro cs
  induction hn : cs.length using Nat.strong_induction_on generalizing cs with
  | _ n ih =>
    subst hn
    intro x rest h
    rcases scanAttributes_cases h with ⟨heq, rfl⟩ | ⟨heq, rfl⟩ |
      ⟨name, raw, after, ws, attributes, tagEnd, hshorter, hattribute, hafter, hws, hmore, rfl⟩
    · have heq' : skipSpaces cs = ['/', '>'] ++ rest := heq
      obtain ⟨hcs, hall⟩ := skipSpaces_sign heq' (by decide)
      exact ⟨_, by simp, hcs, fun s => scanAttributes_of_closed (hall s)⟩
    · have heq' : skipSpaces cs = ['>'] ++ rest := heq
      obtain ⟨hcs, hall⟩ := skipSpaces_sign heq' (by decide)
      exact ⟨_, by simp, hcs, fun s => scanAttributes_of_opening (hall s)⟩
    -- An attribute may end anywhere, but the sign that closes the tag comes after it.
    · obtain ⟨p, hp, hall⟩ := local_scanAttribute _ _ _ hattribute
      obtain ⟨p', hsign, rfl, hall'⟩ := ih after.length hafter after rfl _ _ hmore
      have hcs := takeWhile_append_skipSpaces cs
      have hspaces : 0 < (cs.takeWhile isSpace).length := by
        have := congrArg List.length hcs
        simp only [List.length_append] at this
        omega
      refine ⟨cs.takeWhile isSpace ++ (p ++ p'), by simp [hsign], ?_, fun s => ?_⟩
      · rw [List.append_assoc, List.append_assoc, ← hp, hcs]
      · have halike : Alike (skipSpaces cs) (p ++ (p' ++ s)) := by
          rw [hp]
          exact (Alike.of_mem hsign rest s).append p
        rw [List.append_assoc, List.append_assoc,
          scanAttributes_of_attribute (skipSpaces_append halike) (by simp; omega)
            (hall _ (.of_mem hsign rest s)) (by simp; omega) hws, hall' s]
        rfl

theorem scanStartTag_eq (cs : List Char) :
    scanStartTag cs = scanQualifiedName cs >>= fun (name, cs) =>
      (scanAttributes cs).map fun (x, cs) => ((name, x.1, x.2), cs) := by
  rw [scanStartTag]
  cases scanQualifiedName cs with
  | none => rfl
  | some found =>
      simp only [Option.bind_eq_bind, Option.bind_some]
      cases scanAttributes found.2 <;> rfl

theorem closed_scanStartTag : Closed scanStartTag := by
  rw [funext scanStartTag_eq]
  exact local_scanQualifiedName.bind_closed fun name =>
    closed_scanAttributes.map fun x => (name, x.1, x.2)

theorem head_of_scanStartTag {cs rest : List Char} {x : QualifiedName × List Attribute × TagEnd}
    (h : scanStartTag cs = some (x, rest)) :
    ∃ c tail, cs = c :: tail ∧ isNameChar c = true := by
  obtain ⟨⟨name, after⟩, hname, -⟩ := Option.bind_eq_some_iff.mp h
  exact head_of_scanQualifiedName hname

end Tags

section Items

variable {cs rest : List Char} {item : Item}

theorem stripPrefix?_append (opening rest : List Char) :
    stripPrefix? opening (opening ++ rest) = some rest := by
  rw [stripPrefix?, if_pos (List.isPrefixOf_iff_prefix.mpr (List.prefix_append opening rest)),
    List.drop_left]

theorem stripPrefix?_eq_some {opening : List Char} (h : stripPrefix? opening cs = some rest) :
    cs = opening ++ rest := by
  rw [stripPrefix?] at h
  split at h
  · next hprefix =>
    obtain ⟨after, rfl⟩ := List.isPrefixOf_iff_prefix.mp hprefix
    rw [List.drop_left] at h
    cases h
    rfl
  · cases h

theorem scanItem_section (body : List Char) :
    scanItem ("<![CDATA[".toList ++ body) =
      (scanUntil "]]>".toList body).map fun (raw, after) =>
        (.text (textValue (raw.map (⟨·, false⟩))), after) := by
  have hstrip := stripPrefix?_append "[CDATA[".toList body
  rw [show "<![CDATA[".toList ++ body = '<' :: '!' :: ("[CDATA[".toList ++ body) from rfl, scanItem,
    hstrip, Option.map_eq_bind]
  · rfl
  · rintro after ⟨⟩

theorem scanItem_startTag {c : Char} {tail : List Char} (hc : isNameChar c = true) :
    scanItem ('<' :: c :: tail) = (scanStartTag (c :: tail)).map fun (x, after) =>
      (.startTag x.1 x.2.1 x.2.2, after) := by
  -- None of the signs that tell the other pieces from a start tag belongs to a name.
  have hne : ∀ d after, isNameChar d = false → c :: tail ≠ d :: after := by
    rintro d after hd ⟨⟩
    rw [hc] at hd
    cases hd
  rw [scanItem]
  · exact fun after => hne '!' _ (by decide)
  · exact fun after => hne '!' after (by decide)
  · exact fun after => hne '?' after (by decide)
  · exact fun after => hne '/' after (by decide)

theorem scanItem_of_text {c : Char} (hc : c ≠ '<') (tail : List Char) :
    scanItem (c :: tail) = (scanText (c :: tail)).map fun (text, after) => (.text text, after) := by
  rw [scanItem]
  · exact fun h => absurd h (List.cons_ne_nil c tail)
  all_goals
    rintro after ⟨⟩
    exact hc rfl

/-- Whether nothing but a tag or a comment can come first. -/
def AtTag (cs : List Char) : Prop :=
  ∀ c, cs.head? = some c → c = '<'

theorem atTag_dropWhile (cs : List Char) : AtTag (cs.dropWhile (· != '<')) := by
  intro c hc
  simpa using head?_dropWhile hc

theorem notMem_takeWhile (cs : List Char) : '<' ∉ cs.takeWhile (· != '<') := by
  intro hmem
  simpa using List.mem_takeWhile_imp hmem

theorem scanText_append {raw s : List Char} (hraw : '<' ∉ raw) (hs : AtTag s) :
    scanText (raw ++ s) = if raw.all isDocumentChar && !occursIn "]]>".toList raw then
      (written raw).map fun ws => (textValue ws, s) else none := by
  obtain ⟨htake, hdrop⟩ : (raw ++ s).takeWhile (· != '<') = raw ∧
      (raw ++ s).dropWhile (· != '<') = s := by
    refine takeWhile_of_stop (fun c hc => ?_) fun c hc => ?_
    · simp only [bne_iff_ne]
      rintro rfl
      exact hraw hc
    · simp [hs c hc]
  rw [scanText, drop_length_takeWhile, htake, hdrop]

theorem scanText_eq_some {text : List Char} (h : scanText cs = some (text, rest)) :
    ∃ raw, cs = raw ++ rest ∧ '<' ∉ raw ∧ AtTag rest ∧
      ∀ s, AtTag s → scanText (raw ++ s) = some (text, s) := by
  have hcs : cs.takeWhile (· != '<') ++ cs.dropWhile (· != '<') = cs :=
    List.takeWhile_append_dropWhile
  have hraw := notMem_takeWhile cs
  have hrest := atTag_dropWhile cs
  rw [← hcs, scanText_append hraw hrest] at h
  split at h
  · next hok =>
    obtain ⟨ws, hws, heq⟩ := Option.map_eq_some_iff.mp h
    cases heq
    refine ⟨_, hcs.symm, hraw, hrest, fun s hs => ?_⟩
    rw [scanText_append hraw hs, if_pos hok, hws]
    rfl
  · cases h

theorem scanItem_append_of_text {raw : List Char} (hne : raw ≠ []) (hraw : '<' ∉ raw)
    (s : List Char) :
    scanItem (raw ++ s) = (scanText (raw ++ s)).map fun (text, after) => (.text text, after) := by
  obtain ⟨c, tail, rfl⟩ := List.exists_cons_of_ne_nil hne
  have hc : c ≠ '<' := by
    rintro rfl
    exact hraw List.mem_cons_self
  exact scanItem_of_text hc (tail ++ s)

/-- What is read with something in front of it that tells what it is. -/
theorem Closed.scanItem_append {α : Type} {f : List Char → Option (α × List Char)} (hf : Closed f)
    (opening : List Char) (make : α → Item)
    (heq : ∀ r, scanItem (opening ++ r) = (f r).map fun (x, after) => (make x, after))
    (h : (f cs).map (fun (x, after) => (make x, after)) = some (item, rest)) :
    ∃ p, p ≠ [] ∧ opening ++ cs = p ++ rest ∧ ∀ s, scanItem (p ++ s) = some (item, s) := by
  obtain ⟨p, hsign, rfl, hall⟩ := hf.map make _ _ _ h
  refine ⟨opening ++ p, ?_, (List.append_assoc _ _ _).symm, fun s => ?_⟩
  · exact List.append_ne_nil_of_right_ne_nil _ (List.ne_nil_of_mem hsign)
  · rw [List.append_assoc, heq]
    exact hall s

/-- A piece of content is read alike before whatever starts like what followed it, and before every
tag or comment. -/
theorem scanItem_eq_some (h : scanItem cs = some (item, rest)) :
    ∃ p, p ≠ [] ∧ cs = p ++ rest ∧
      ∀ s, s.head? = rest.head? ∨ s.head? = some '<' → scanItem (p ++ s) = some (item, s) := by
  -- All but texts end with a sign of their own, so that nothing is asked of what follows.
  have hclosed : (∃ p, p ≠ [] ∧ cs = p ++ rest ∧ ∀ s, scanItem (p ++ s) = some (item, s)) →
      ∃ p, p ≠ [] ∧ cs = p ++ rest ∧
        ∀ s, s.head? = rest.head? ∨ s.head? = some '<' → scanItem (p ++ s) = some (item, s) :=
    fun ⟨p, hne, hcs, hall⟩ => ⟨p, hne, hcs, fun s _ => hall s⟩
  rw [scanItem.eq_def] at h
  split at h
  · cases h
  · exact hclosed (closed_scanComment.scanItem_append "<!--".toList (fun _ => .remark) (fun _ => rfl) h)
  · next tail hcomment =>
    apply hclosed
    obtain ⟨body, hbody, hscan⟩ := Option.bind_eq_some_iff.mp h
    obtain rfl := stripPrefix?_eq_some hbody
    exact (closed_scanUntil (by decide)).scanItem_append "<![CDATA[".toList
      (fun raw => .text (textValue (raw.map (⟨·, false⟩)))) scanItem_section
      (Option.map_eq_bind.trans hscan)
  · exact hclosed (closed_scanInstruction.scanItem_append "<?".toList (fun _ => .remark) (fun _ => rfl) h)
  · exact hclosed (closed_scanEndTag.scanItem_append "</".toList .endTag (fun _ => rfl) h)
  · next tail _ _ _ _ =>
    apply hclosed
    obtain ⟨⟨x, after⟩, hscan, heq⟩ := Option.map_eq_some_iff.mp h
    cases heq
    obtain ⟨p, hsign, rfl, hall⟩ := closed_scanStartTag _ _ _ hscan
    refine ⟨'<' :: p, List.cons_ne_nil _ _, rfl, fun s => ?_⟩
    obtain ⟨c, tail, heq, hc⟩ := head_of_scanStartTag (hall s)
    rw [List.cons_append, heq, scanItem_startTag hc, ← heq, hall s]
    rfl
  · next hnil _ _ _ _ htag =>
    obtain ⟨⟨text, after⟩, hscan, heq⟩ := Option.map_eq_some_iff.mp h
    cases heq
    obtain ⟨raw, rfl, hraw, hrest, hall⟩ := scanText_eq_some hscan
    rcases raw with _ | ⟨c, raw⟩
    · rcases rest with _ | ⟨c, tail⟩
      · exact absurd rfl hnil
      · obtain rfl := hrest c rfl
        exact absurd rfl (htag tail)
    · refine ⟨c :: raw, List.cons_ne_nil c raw, rfl, fun s hs => ?_⟩
      have hat : AtTag s := by
        intro d hd
        rcases hs with hs | hs
        · exact hrest d (hs.symm.trans hd)
        · exact (Option.some.inj (hs.symm.trans hd)).symm
      rw [scanItem_append_of_text (List.cons_ne_nil c raw) hraw, hall s hat]
      rfl

end Items

end Markup
end DeclarativeBuild
