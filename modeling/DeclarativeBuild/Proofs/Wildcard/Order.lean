import DeclarativeBuild.Proofs.Wildcard.Matching
import Mathlib.Data.List.DropRight
import Mathlib.Data.List.Lex
import Mathlib.Data.String.Basic

/-!
# Order of matches

Matches come in the order of their names if no `**` has more than one component after it, and no
wildcard stands for dots.  Views that are alike wherever a pattern leads have the same matches.
-/

namespace DeclarativeBuild
namespace Wildcard

namespace Pattern

/-- Whether the matches of a pattern are found in the order of their names.  Below a `**` everything
that matches under one name comes before what lies deeper, and dots come before all other names. -/
def InOrder : List Pattern → Prop
  | [] => True
  | p :: rest =>
    (p.isRecursive = true → (Ground.afterRecursive rest).length ≤ 1) ∧
      (p.literal? = none → Ground.dotNames p = []) ∧ InOrder rest

theorem afterRecursive_afterRecursive (rest : List Pattern) :
    Ground.afterRecursive (Ground.afterRecursive rest) = Ground.afterRecursive rest :=
  List.dropWhile_idempotent _ rest

theorem InOrder.afterRecursive {rest : List Pattern} (h : InOrder rest) :
    InOrder (Ground.afterRecursive rest) := by
  induction rest with
  | nil => exact h
  | cons q rest ih =>
      rw [Ground.afterRecursive, List.dropWhile_cons]
      split
      · exact ih h.2.2
      · exact h

end Pattern

namespace View

open Pattern Ground

variable {v v' : View} {size : List String → Nat} {here names : List String} {name : String}
variable {depth : Nat} {p : Pattern} {rest patterns : List Pattern} {isDirectory : Bool}

/-- Whether matches come in the order of their names.  Directories out of reach may come anywhere. -/
def Sorted (found : List Found) : Prop :=
  found.Pairwise fun f g => f.2 ≠ none → g.2 ≠ none → f.1 < g.1

theorem Sorted.under {found : List Found} (h : Sorted found) (name : String) :
    Sorted (found.map (Found.under name)) :=
  List.pairwise_map.mpr (h.imp fun hlt hf hg =>
    List.cons_lt_cons_iff.mpr (.inr ⟨rfl, hlt hf hg⟩))

theorem ne_nil_of_mem_search {f : Found} (h : f ∈ v.search depth (p :: rest) here isDirectory)
    (hmatch : f.2 ≠ none) : f.1 ≠ [] := by
  obtain ⟨name, _, _, _, g, -, -, rfl⟩ :=
    exists_goes_of_mem_search h fun heq => hmatch (congrArg Prod.snd heq)
  exact List.cons_ne_nil name g.1

/-- A search ends because patterns are used up, or depth is under a `**`. -/
theorem search_induction {motive : Nat → List Pattern → Prop} (nil : ∀ depth, motive depth [])
    (cons : ∀ depth p rest, (∀ depth, motive depth rest) →
      (∀ depth q more, afterRecursive rest = q :: more → motive depth more) →
      (∀ less, depth = less + 1 → motive less (p :: afterRecursive rest)) → motive depth (p :: rest))
    (depth : Nat) (patterns : List Pattern) : motive depth patterns := by
  induction hn : patterns.length using Nat.strong_induction_on generalizing patterns depth with
  | _ n ih =>
    subst hn
    cases patterns with
    | nil => exact nil depth
    | cons p rest =>
        have hshorter := length_afterRecursive rest
        have hrest : ∀ depth, motive depth rest := fun depth => ih _ (by simp) depth rest rfl
        have hmore : ∀ depth q more, afterRecursive rest = q :: more → motive depth more := by
          intro depth q more hafter
          rw [hafter, List.length_cons] at hshorter
          exact ih _ (by simp; omega) depth more rfl
        induction depth with
        | zero => exact cons 0 p rest hrest hmore fun less h => absurd h (by omega)
        | succ depth ihdepth =>
            refine cons (depth + 1) p rest hrest hmore fun less h => ?_
            obtain rfl : less = depth := by omega
            rcases Nat.lt_or_eq_of_le hshorter with hlt | heq
            · exact ih _ (by simpa using hlt) _ _ rfl
            · have hsame : afterRecursive rest = rest :=
                (List.dropWhile_sublist isRecursive).eq_of_length heq
              rw [hsame]
              exact ihdepth

/-- A name comes before all that lies deeper. -/
theorem Sorted.cons_under {own found : List Found} {name : String}
    (hown : own = [] ∨ ∃ isDirectory, own = [([name], isDirectory)]) (hfound : Sorted found)
    (hne : ∀ f ∈ found, f.2 ≠ none → f.1 ≠ []) : Sorted (own ++ found.map (Found.under name)) := by
  obtain rfl | ⟨isDirectory, rfl⟩ := hown
  · exact hfound.under name
  · refine List.pairwise_cons.mpr ⟨fun f hf _ hmatch => ?_, hfound.under name⟩
    obtain ⟨g, hg, rfl⟩ := List.mem_map.mp hf
    obtain ⟨c, tail, hcons⟩ := List.exists_cons_of_ne_nil (hne g hg hmatch)
    refine List.cons_lt_cons_iff.mpr (.inr ⟨rfl, ?_⟩)
    rw [hcons]
    exact List.nil_lt_cons c tail

theorem sorted_atChild {child : String × Bool} (hp : InOrder (p :: rest))
    (hrest : ∀ depth here isDirectory, Sorted (v.search depth rest here isDirectory))
    (hbelow : ∀ less, depth = less + 1 → ∀ here isDirectory,
      Sorted (v.search less (p :: afterRecursive rest) here isDirectory)) :
    Sorted (v.atChild depth p rest here child) := by
  unfold atChild
  split
  · next hrecursive =>
    have hlength := hp.1 hrecursive
    have hsorted : Sorted (v.deeper depth (p :: afterRecursive rest) (here ++ [child.1]) child.2) ∧
        ∀ f ∈ v.deeper depth (p :: afterRecursive rest) (here ++ [child.1]) child.2,
          f.2 ≠ none → f.1 ≠ [] := by
      unfold deeper
      split
      · exact ⟨.nil, by simp⟩
      · next less =>
        split
        · exact ⟨hbelow less rfl _ _, fun f hf => ne_nil_of_mem_search hf⟩
        · exact ⟨.nil, by simp⟩
    refine Sorted.cons_under ?_ hsorted.1 hsorted.2
    split
    · split
      · exact .inr ⟨some true, rfl⟩
      · exact .inl rfl
    · next q more hafter =>
      obtain rfl : more = [] := by
        rw [hafter] at hlength
        simpa using hlength
      rw [search_nil]
      split
      · exact .inr ⟨some child.2, rfl⟩
      · exact .inl rfl
  · split
    · exact (hrest _ _ _).under _
    · exact .nil

theorem sorted_search (hv : v.Sees size) (depth : Nat) (patterns : List Pattern)
    (hpatterns : InOrder patterns) (here : List String) (isDirectory : Bool) :
    Sorted (v.search depth patterns here isDirectory) := by
  induction depth, patterns using search_induction generalizing here isDirectory with
  | nil depth =>
      rw [search_nil]
      exact List.pairwise_singleton _ _
  | cons depth p rest hrest hmore hbelow =>
      obtain ⟨hrun, hdots, hinorder⟩ := hpatterns
      cases htext : p.literal? with
      | some name =>
          rw [search_of_literal htext]
          split
          · exact (hrest _ hinorder _ _).under _
          · exact .nil
      | none =>
          cases isDirectory with
          | false =>
              rw [search_of_file htext]
              exact .nil
          | true =>
              cases hhere : v.isDirectory here with
              | false =>
                  rw [search_of_barred htext hhere]
                  exact List.pairwise_singleton _ _
              | true =>
                  rw [search_of_wild htext hhere, hdots htext, List.flatMap_nil, List.nil_append]
                  refine List.pairwise_flatMap.mpr ⟨fun child _ => ?_, ?_⟩
                  · refine sorted_atChild ⟨hrun, hdots, hinorder⟩
                      (fun depth => hrest depth hinorder)
                      fun less hless => hbelow less hless ⟨?_, hdots, hinorder.afterRecursive⟩
                    rwa [afterRecursive_afterRecursive]
                  · refine (List.pairwise_map.mp (hv.children_sorted here)).imp_of_mem ?_
                    intro a b ha hb hlt f hf g hg _ _
                    obtain ⟨_, _, _, f, -, -, rfl⟩ := exists_goes_of_mem_atChild htext hhere ha hf
                    obtain ⟨_, _, _, g, -, -, rfl⟩ := exists_goes_of_mem_atChild htext hhere hb hg
                    exact List.cons_lt_cons_iff.mpr (.inl hlt)

/-- Whether two views show the same at a place. -/
def AlikeAt (v v' : View) (names : List String) : Prop :=
  v.isDirectory names = v'.isDirectory names ∧ v.holds names = v'.holds names ∧
    v.children names = v'.children names

theorem flatMap_congr {α β : Type} {l : List α} {f g : α → List β} (h : ∀ a ∈ l, f a = g a) :
    l.flatMap f = l.flatMap g := by
  rw [List.flatMap_def, List.flatMap_def, List.map_congr_left h]

theorem atChild_congr {child : String × Bool}
    (hown : ∀ d, p.isRecursive = false → p.accepts child.1.toList = true →
      v.search Disk.pathLimit rest (here ++ [child.1]) d =
        v'.search Disk.pathLimit rest (here ++ [child.1]) d)
    (hleave : ∀ d q more, p.isRecursive = true → afterRecursive rest = q :: more →
      q.accepts child.1.toList = true →
      v.search Disk.pathLimit more (here ++ [child.1]) d =
        v'.search Disk.pathLimit more (here ++ [child.1]) d)
    (hdescend : ∀ less, p.isRecursive = true → child.2 = true → depth = less + 1 →
      v.search less (p :: afterRecursive rest) (here ++ [child.1]) true =
        v'.search less (p :: afterRecursive rest) (here ++ [child.1]) true) :
    v.atChild depth p rest here child = v'.atChild depth p rest here child := by
  unfold atChild deeper
  split
  · next hrecursive =>
    congr 1
    · split
      · rfl
      · next q more hafter =>
        split
        · next haccepted => rw [hleave _ q more hrecursive hafter haccepted]
        · rfl
    · congr 1
      split
      · rfl
      · next less =>
        split
        · next hdirectory => exact hdescend less hrecursive hdirectory rfl
        · rfl
  · next hsingle =>
    split
    · next haccepted => rw [hown _ (by simpa using hsingle) haccepted]
    · rfl

/-- A search depends on nothing but what is seen where the pattern leads. -/
theorem search_congr (hv : v.Sees size) (depth : Nat) (patterns : List Pattern)
    (hpatterns : ∀ p ∈ patterns, p.IsComponent) (here : List String) (isDirectory : Bool)
    (halike : ∀ names left, Leaves patterns names left → v.AlikeAt v' (here ++ names)) :
    v.search depth patterns here isDirectory = v'.search depth patterns here isDirectory := by
  induction depth, patterns using search_induction generalizing here isDirectory with
  | nil depth => rw [search_nil, search_nil]
  | cons depth p rest hrest hmore hbelow =>
      have hnext : ∀ {name next}, Takes (p :: rest) name next →
          (∀ q ∈ next, q.IsComponent) ∧
            ∀ names left, Leaves next names left → v.AlikeAt v' (here ++ [name] ++ names) := by
        intro name next htakes
        refine ⟨fun q hq => hpatterns q (htakes.subset hq), fun names left hleaves => ?_⟩
        rw [← List.append_cons]
        exact halike _ _ (.step htakes hleaves)
      have hgoes : ∀ {name depth' next d d'}, Goes v here depth (p :: rest) d name depth' next d' →
          Takes (p :: rest) name next := fun h => h.takes hv hpatterns
      have hhere : v.AlikeAt v' here := by
        simpa using halike [] _ (.all _)
      have hat : ∀ {name next}, Takes (p :: rest) name next → v.AlikeAt v' (here ++ [name]) :=
        fun htakes => halike _ _ (.step htakes (.all _))
      cases htext : p.literal? with
      | some name =>
          obtain ⟨hsingle, hallows⟩ := allows_of_literal? htext (hpatterns p List.mem_cons_self)
          have htakes : Takes (p :: rest) (String.ofList name) rest := .own hsingle hallows
          obtain ⟨hcomponents, hleaves⟩ := hnext htakes
          obtain ⟨hdirectory, hholds, -⟩ := hat htakes
          rw [search_of_literal htext, search_of_literal htext, finds, finds, ← hholds,
            ← hdirectory, hrest _ hcomponents _ _ hleaves]
      | none =>
          cases isDirectory with
          | false => rw [search_of_file htext, search_of_file htext]
          | true =>
              cases hentered : v.isDirectory here with
              | false =>
                  rw [search_of_barred htext hentered,
                    search_of_barred htext (hhere.1.symm.trans hentered)]
              | true =>
                  rw [search_of_wild htext hentered,
                    search_of_wild htext (hhere.1.symm.trans hentered), ← hhere.2.2]
                  congr 1
                  · refine flatMap_congr fun name hname => ?_
                    have htakes := hgoes (.dotted htext hentered hname)
                    obtain ⟨hcomponents, hleaves⟩ := hnext htakes
                    rw [← (hat htakes).1, hrest _ hcomponents _ _ hleaves]
                  · refine flatMap_congr fun child hchild => ?_
                    obtain ⟨name, d⟩ := child
                    refine atChild_congr (fun d' hsingle haccepted => ?_)
                      (fun d' q more hrecursive hafter haccepted => ?_)
                      fun less hrecursive hdirectory hless => ?_
                    · obtain ⟨hcomponents, hleaves⟩ :=
                        hnext (hgoes (.own htext hentered hsingle hchild haccepted))
                      exact hrest _ hcomponents _ _ hleaves
                    · obtain ⟨hcomponents, hleaves⟩ :=
                        hnext (hgoes (.leave htext hentered hrecursive hafter hchild haccepted))
                      exact hmore _ q more hafter hcomponents _ _ hleaves
                    · obtain rfl : d = true := hdirectory
                      subst hless
                      obtain ⟨hcomponents, hleaves⟩ :=
                        hnext (hgoes (.descend htext hentered hrecursive hchild))
                      exact hbelow less rfl hcomponents _ _ hleaves

end View
end Wildcard
end DeclarativeBuild
