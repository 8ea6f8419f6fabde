import DeclarativeBuild.Proofs.Text.Splitting
import DeclarativeBuild.Proofs.Wildcard.Matching
import Mathlib.Data.List.TakeWhile

/-!
# Reading a pattern

What a text reads as does not depend on what stands before it, but for a `**`, which has to start a
component.  So a text is a pattern if its components are, and text without wildcards reads as itself.
-/

namespace DeclarativeBuild
namespace Wildcard
namespace Pattern

section Sets

variable {cs set after : List Char} {token : Token}

theorem splitSet_eq_some_iff : splitSet cs = some (set, after) ↔
    ∃ first inner, cs = first :: (inner ++ ']' :: after) ∧ ']' ∉ inner ∧ set = first :: inner := by
  constructor
  · intro h
    cases cs with
    | nil => cases h
    | cons first more =>
        have hsplit : more.takeWhile (· != ']') ++ more.drop (more.takeWhile (· != ']')).length = more :=
          List.prefix_iff_eq_append.mp (List.takeWhile_prefix _)
        have hrest : more.dropWhile (· != ']') = more.drop (more.takeWhile (· != ']')).length :=
          List.append_cancel_left (List.takeWhile_append_dropWhile.trans hsplit.symm)
        have hstop := List.head?_dropWhile_not (· != ']') more
        rw [splitSet] at h
        split at h
        · next c rest hdrop =>
          cases h
          rw [hrest, hdrop] at hstop
          obtain rfl : c = ']' := by simpa using hstop
          rw [hdrop] at hsplit
          refine ⟨first, _, by rw [hsplit], fun hmem => ?_, rfl⟩
          simpa using List.mem_takeWhile_imp hmem
        · cases h
  · rintro ⟨first, inner, rfl, hinner, rfl⟩
    have htake : (inner ++ ']' :: after).takeWhile (· != ']') = inner := by
      rw [List.takeWhile_append_of_pos (by simpa using fun c hc => ne_of_mem_of_not_mem hc hinner)]
      simp
    rw [splitSet, htake, List.drop_left]

theorem splitSet_append (h : splitSet cs = some (set, after)) (more : List Char) :
    splitSet (cs ++ more) = some (set, after ++ more) := by
  obtain ⟨first, inner, rfl, hinner, rfl⟩ := splitSet_eq_some_iff.mp h
  exact splitSet_eq_some_iff.mpr ⟨first, inner, by simp, hinner, rfl⟩

theorem splitSet_subset (h : splitSet cs = some (set, after)) : after ⊆ cs := by
  obtain ⟨first, inner, rfl, -, -⟩ := splitSet_eq_some_iff.mp h
  exact fun c hc => by simp [hc]

theorem scanSet_of_ne {c : Char} {rest : List Char} (h : c ≠ '!') : scanSet (c :: rest) =
    (splitSet (c :: rest)).map fun (set, after) => (.within (charRanges set), after) := by
  unfold scanSet
  split
  · next heq => exact absurd (List.cons_eq_cons.mp heq).1 h
  · rfl

/-- A set is read up to its bracket and stands for one character. -/
theorem scanSet_spec (h : scanSet cs = some (token, after)) :
    (∀ more, scanSet (cs ++ more) = some (token, after ++ more)) ∧ after ⊆ cs ∧
      token ≠ .anyDepth ∧ ∀ c, token ≠ .char c := by
  cases cs with
  | nil => cases h
  | cons c rest =>
      by_cases hbang : c = '!'
      · subst hbang
        obtain ⟨⟨set, _⟩, hset, heq⟩ := Option.map_eq_some_iff.mp h
        cases heq
        refine ⟨fun more => ?_, fun c hc => List.mem_cons_of_mem _ (splitSet_subset hset hc),
          by simp, by simp⟩
        exact Option.map_eq_some_iff.mpr ⟨_, splitSet_append hset more, rfl⟩
      · rw [scanSet_of_ne hbang] at h
        obtain ⟨⟨set, _⟩, hset, heq⟩ := Option.map_eq_some_iff.mp h
        cases heq
        refine ⟨fun more => ?_, splitSet_subset hset, by simp, by simp⟩
        rw [List.cons_append, scanSet_of_ne hbang]
        exact Option.map_eq_some_iff.mpr ⟨_, splitSet_append hset more, rfl⟩

end Sets

/-- What a text reads as, where a `**` may or may not stand at its start. -/
inductive Reads : Bool → List Char → Pattern → Prop
  | done (starts : Bool) : Reads starts [] []
  | anyChar {starts : Bool} {rest : List Char} {p : Pattern} (onward : Reads false rest p) :
      Reads starts ('?' :: rest) (.anyChar :: p)
  | anyText {starts : Bool} {rest : List Char} {p : Pattern} (single : rest.head? ≠ some '*')
      (onward : Reads false rest p) : Reads starts ('*' :: rest) (.anyText :: p)
  | depthLast : Reads true ['*', '*'] [.anyDepth]
  | depth {rest : List Char} {p : Pattern} (onward : Reads true rest p) :
      Reads true ('*' :: '*' :: '/' :: rest) (.anyDepth :: p)
  | set {starts : Bool} {rest after : List Char} {token : Token} {p : Pattern}
      (scanned : scanSet rest = some (token, after)) (shorter : after.length < rest.length)
      (onward : Reads false after p) : Reads starts ('[' :: rest) (token :: p)
  | char {starts : Bool} {c : Char} {rest : List Char} {p : Pattern} (question : c ≠ '?')
      (star : c ≠ '*') (bracket : c ≠ '[') (onward : Reads (c == '/') rest p) :
      Reads starts (c :: rest) (.char c :: p)

/-- Whether a component starts after a character. -/
def startsAfter (previous : Option Char) : Bool :=
  !(previous.isSome && previous != some '/')

variable {starts : Bool} {cs rest : List Char} {p q : Pattern} {position : Nat}
variable {previous : Option Char} {c : Char} {token : Token}

theorem startsAfter_some (c : Char) : startsAfter (some c) = (c == '/') := by
  rw [startsAfter, Bool.eq_iff_iff]
  simp

theorem exists_of_map_eq_ok {α β : Type} {f : α → β} {x : Except Fault α} {b : β}
    (h : x.map f = .ok b) : ∃ a, x = .ok a ∧ f a = b := by
  cases x with
  | error fault => cases h
  | ok a => exact ⟨a, rfl, Except.ok.inj h⟩

theorem reads_of_parseFrom (h : parseFrom position previous cs = .ok p) :
    Reads (startsAfter previous) cs p := by
  fun_induction parseFrom position previous cs generalizing p with
  | case1 => cases h; exact .done _
  | case2 position previous rest ih =>
      obtain ⟨q, hq, rfl⟩ := exists_of_map_eq_ok h
      exact .anyChar (ih hq)
  | case3 | case4 | case7 | case9 | case11 => cases h
  | case5 position previous hstarts =>
      cases h
      rw [startsAfter, Bool.not_eq_true _ |>.mp hstarts]
      exact .depthLast
  | case6 position previous hstarts rest hsingle ih =>
      obtain ⟨q, hq, rfl⟩ := exists_of_map_eq_ok h
      rw [startsAfter, Bool.not_eq_true _ |>.mp hstarts]
      exact .depth (ih hq)
  | case8 position previous rest htwo hone ih =>
      obtain ⟨q, hq, rfl⟩ := exists_of_map_eq_ok h
      refine .anyText (fun hhead => ?_) (ih hq)
      obtain ⟨more, hmore⟩ := List.head?_eq_some_iff.mp hhead
      exact hone more hmore
  | case10 position previous rest token after hscan hshorter ih =>
      obtain ⟨q, hq, rfl⟩ := exists_of_map_eq_ok h
      exact .set hscan hshorter (ih hq)
  | case12 position previous c rest hquestion hthree htwo hstar hbracket ih =>
      obtain ⟨q, hq, rfl⟩ := exists_of_map_eq_ok h
      exact .char hquestion hstar hbracket (startsAfter_some c ▸ ih hq)

theorem parseFrom_of_reads (h : Reads starts cs p) (hstarts : startsAfter previous = starts) :
    parseFrom position previous cs = .ok p := by
  induction h generalizing position previous with
  | done => rw [parseFrom]
  | anyChar _ ih =>
      rw [parseFrom, ih (by decide)]
      rfl
  | anyText single _ ih =>
      rw [parseFrom, ih (by decide)]
      · rfl
      · rintro tail rfl
        exact single rfl
      · rintro tail rfl
        exact single rfl
  | depthLast =>
      rw [startsAfter, Bool.not_eq_true'] at hstarts
      rw [parseFrom, hstarts]
      · rfl
  | depth _ ih =>
      rw [startsAfter, Bool.not_eq_true'] at hstarts
      rw [parseFrom, hstarts]
      · simp only [Bool.false_eq_true, if_false, ih (by decide : startsAfter (some '/') = true)]
        rfl
  | set scanned shorter _ ih =>
      rw [parseFrom, scanned]
      simp only [if_pos shorter, ih (by decide : startsAfter (some ']') = false)]
      rfl
  | char question star bracket _ ih =>
      rw [parseFrom, ih (startsAfter_some _)]
      · rfl
      all_goals simp [question, star, bracket]

theorem parse_eq_ok_iff {text : String} : parse text = .ok p ↔ Reads true text.toList p :=
  ⟨reads_of_parseFrom, fun h => parseFrom_of_reads h rfl⟩

/-- A component that can be read can be read before others. -/
theorem Reads.exists_append (h : Reads starts cs p) (hsep : '/' ∉ cs) (hrest : Reads true rest q) :
    ∃ whole, Reads starts (cs ++ '/' :: rest) whole := by
  have hslash : ∀ starts, Reads starts ('/' :: rest) (.char '/' :: q) := fun _ =>
    .char (by decide) (by decide) (by decide) hrest
  induction h with
  | done starts => exact ⟨_, hslash starts⟩
  | anyChar _ ih =>
      obtain ⟨whole, hwhole⟩ := ih (List.not_mem_of_not_mem_cons hsep)
      exact ⟨_, .anyChar hwhole⟩
  | @anyText starts cs p single _ ih =>
      obtain ⟨whole, hwhole⟩ := ih (List.not_mem_of_not_mem_cons hsep)
      refine ⟨_, .anyText ?_ hwhole⟩
      cases cs with
      | nil => simp
      | cons c cs => exact single
  | depthLast => exact ⟨_, .depth hrest⟩
  | depth => simp at hsep
  | @set starts cs after token p scanned shorter _ ih =>
      obtain ⟨hscan, hsubset, -⟩ := scanSet_spec scanned
      obtain ⟨whole, hwhole⟩ := ih fun hmem => hsep (List.mem_cons_of_mem _ (hsubset hmem))
      exact ⟨_, .set (hscan _) (by simpa using shorter) hwhole⟩
  | char question star bracket _ ih =>
      obtain ⟨whole, hwhole⟩ := ih (List.not_mem_of_not_mem_cons hsep)
      exact ⟨_, .char question star bracket hwhole⟩

/-- A text without wildcards reads as itself. -/
theorem reads_map_char (h : ∀ c ∈ cs, c ≠ '?' ∧ c ≠ '*' ∧ c ≠ '[') :
    Reads starts cs (cs.map .char) := by
  induction cs generalizing starts with
  | nil => exact .done starts
  | cons c cs ih =>
      obtain ⟨hquestion, hstar, hbracket⟩ := h c List.mem_cons_self
      exact .char hquestion hstar hbracket (ih fun d hd => h d (List.mem_cons_of_mem c hd))

/-- A `**` is a component of its own. -/
theorem Reads.eq_of_mem_anyDepth (h : Reads starts cs p) (hsep : '/' ∉ cs)
    (hmem : .anyDepth ∈ p) : starts = true ∧ p = [.anyDepth] := by
  induction h with
  | done => cases hmem
  | anyChar _ ih | anyText _ _ ih =>
      have hlater := ih (List.not_mem_of_not_mem_cons hsep) (by simpa using hmem)
      exact absurd hlater.1 Bool.false_ne_true
  | depthLast => exact ⟨rfl, rfl⟩
  | depth => simp at hsep
  | @set starts cs after token p scanned shorter _ ih =>
      obtain ⟨-, hsubset, htoken, -⟩ := scanSet_spec scanned
      have hlater := ih (fun hmem => hsep (List.mem_cons_of_mem _ (hsubset hmem)))
        ((List.mem_cons.mp hmem).resolve_left htoken.symm)
      exact absurd hlater.1 Bool.false_ne_true
  | @char starts c cs p question star bracket _ ih =>
      have hlater := ih (List.not_mem_of_not_mem_cons hsep) (by simpa using hmem)
      have hslash : c = '/' := by simpa using hlater.1
      exact absurd (hslash ▸ List.mem_cons_self) hsep

theorem Reads.mem_of_mem_char (h : Reads starts cs p) (hmem : .char c ∈ p) : c ∈ cs := by
  induction h with
  | done => cases hmem
  | anyChar _ ih | anyText _ _ ih => exact List.mem_cons_of_mem _ (ih (by simpa using hmem))
  | depthLast => simp at hmem
  | depth _ ih =>
      have hlater := ih (by simpa using hmem)
      simp [hlater]
  | set scanned shorter _ ih =>
      obtain ⟨-, hsubset, -, htoken⟩ := scanSet_spec scanned
      exact List.mem_cons_of_mem _
        (hsubset (ih ((List.mem_cons.mp hmem).resolve_left (htoken c).symm)))
  | char _ _ _ _ ih =>
      rcases List.mem_cons.mp hmem with heq | hmem
      · cases heq
        exact List.mem_cons_self
      · exact List.mem_cons_of_mem _ (ih hmem)

theorem Reads.isComponent (h : Reads starts cs p) (hsep : '/' ∉ cs) : p.IsComponent where
  recursive hrecursive := (h.eq_of_mem_anyDepth hsep (by simpa [isRecursive] using hrecursive)).2
  literal name hname hslash := by
    obtain rfl := literal?_eq_some_iff.mp hname
    exact hsep (h.mem_of_mem_char (List.mem_map_of_mem hslash))

/-- A text is a pattern if its components are. -/
theorem exists_parse_of_pieces {text : String}
    (h : ∀ piece ∈ Text.splitString '/' text, ∃ p, parse piece = .ok p) :
    ∃ whole, parse text = .ok whole := by
  have hjoin : ∀ pieces : List (List Char), pieces ≠ [] →
      (∀ piece ∈ pieces, '/' ∉ piece ∧ ∃ p, Reads true piece p) →
      ∃ whole, Reads true (Text.join ['/'] pieces) whole := by
    intro pieces hne hpieces
    induction pieces with
    | nil => exact absurd rfl hne
    | cons piece more ih =>
        obtain ⟨hsep, p, hp⟩ := hpieces piece List.mem_cons_self
        cases more with
        | nil => exact ⟨p, hp⟩
        | cons next more =>
            obtain ⟨q, hq⟩ := ih (List.cons_ne_nil next more) fun other hother =>
              hpieces other (List.mem_cons_of_mem piece hother)
            rw [Text.join, List.append_assoc, List.singleton_append]
            exact hp.exists_append hsep hq
  obtain ⟨whole, hwhole⟩ := hjoin (Text.pieces '/' text.toList) (Text.pieces_ne_nil _ _) fun piece hpiece => by
    obtain ⟨p, hp⟩ := h (String.ofList piece) (List.mem_map_of_mem hpiece)
    refine ⟨Text.notMem_of_mem_pieces hpiece, p, ?_⟩
    simpa using parse_eq_ok_iff.mp hp
  rw [Text.join_pieces] at hwhole
  exact ⟨whole, parse_eq_ok_iff.mpr hwhole⟩

end Pattern
end Wildcard
end DeclarativeBuild
