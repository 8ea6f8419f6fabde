import DeclarativeBuild.Wildcard.Matches
import DeclarativeBuild.Proofs.Disk.Following

/-!
# Searching a directory

The search for the matches of a pattern, told by what is seen inside one directory: the paths are
lists of names from there on, and the path of the directory itself plays no part.  A directory that
is seen in its parent and cannot be entered ends the search there.
-/

namespace DeclarativeBuild
namespace Wildcard

/-- What is seen inside a directory.  Whatever stands there is known by the names that lead to it. -/
structure View where
  isDirectory : List String → Bool
  holds : List String → Bool
  /-- The names in a directory, each with whether it is one of a directory. -/
  children : List String → List (String × Bool)

/-- The names that lead to a match, and whether it is a directory; or those that lead to a directory
that cannot be read. -/
abbrev Found := List String × Option Bool

def Found.under (name : String) (f : Found) : Found :=
  (name :: f.1, f.2)

namespace View

open Ground

/-- Whether a pattern without wildcards finds its name.  Dots are found in every directory. -/
def finds (v : View) (here : List String) (isDirectory : Bool) (name : String) : Bool :=
  if name == "." || name == ".." then isDirectory else v.holds (here ++ [name])

/-- The matches below the directory at `here`, as `Ground.explore` finds them. -/
def search (v : View) (depth : Nat) (patterns : List Pattern) (here : List String)
    (isDirectory : Bool) : List Found :=
  match patterns with
  | [] => [([], some isDirectory)]
  | p :: rest =>
    match p.literal? with
    | some name =>
      let name := String.ofList name
      let next := here ++ [name]
      if !v.finds here isDirectory name then []
      else (search v Disk.pathLimit rest next (v.isDirectory next)).map (Found.under name)
    | none =>
      if !isDirectory then []
      else if !v.isDirectory here then [([], none)]
      else
        let dotted := (dotNames p).flatMap fun name =>
          let next := here ++ [name]
          (search v Disk.pathLimit rest next (v.isDirectory next)).map (Found.under name)
        dotted ++ (v.children here).flatMap fun (name, isDirectory) =>
          let next := here ++ [name]
          if p.isRecursive then
            let below :=
              match depth with
              | 0 => []
              | depth + 1 =>
                if isDirectory then
                  (search v depth (p :: afterRecursive rest) next true).map (Found.under name)
                else []
            let own :=
              match _h : afterRecursive rest with
              | [] => if isDirectory then [([name], some true)] else []
              | q :: more =>
                if q.accepts name.toList then
                  (search v Disk.pathLimit more next isDirectory).map (Found.under name)
                else []
            own ++ below
          else if p.accepts name.toList then
            (search v Disk.pathLimit rest next isDirectory).map (Found.under name)
          else []
termination_by (patterns.length, depth)
decreasing_by
  · exact .left _ _ (by simp)
  · exact .left _ _ (by simp)
  · have := length_afterRecursive rest
    rcases Nat.lt_or_eq_of_le this with h | h
    · exact .left _ _ (by simpa using h)
    · simp only [List.length_cons, h]
      exact .right _ (by omega)
  · have := length_afterRecursive rest
    simp_all
    exact .left _ _ (by omega)
  · exact .left _ _ (by simp)

/-- Where a search goes next, with what is left of the depth and of the patterns. -/
inductive Goes (v : View) (here : List String) :
    Nat → List Pattern → Bool → String → Nat → List Pattern → Bool → Prop
  | literal {depth : Nat} {p : Pattern} {rest : List Pattern} {isDirectory : Bool} {name : List Char}
      (text : p.literal? = some name)
      (found : v.finds here isDirectory (String.ofList name) = true) :
      Goes v here depth (p :: rest) isDirectory (String.ofList name) Disk.pathLimit rest
        (v.isDirectory (here ++ [String.ofList name]))
  | dotted {depth : Nat} {p : Pattern} {rest : List Pattern} {name : String}
      (wild : p.literal? = none) (entered : v.isDirectory here = true)
      (special : name ∈ dotNames p) :
      Goes v here depth (p :: rest) true name Disk.pathLimit rest (v.isDirectory (here ++ [name]))
  | own {depth : Nat} {p : Pattern} {rest : List Pattern} {name : String} {isDirectory : Bool}
      (wild : p.literal? = none) (entered : v.isDirectory here = true)
      (single : p.isRecursive = false)
      (child : (name, isDirectory) ∈ v.children here) (accepted : p.accepts name.toList = true) :
      Goes v here depth (p :: rest) true name Disk.pathLimit rest isDirectory
  | last {depth : Nat} {p : Pattern} {rest : List Pattern} {name : String}
      (wild : p.literal? = none) (entered : v.isDirectory here = true)
      (recursive : p.isRecursive = true) (after : afterRecursive rest = [])
      (child : (name, true) ∈ v.children here) :
      Goes v here depth (p :: rest) true name Disk.pathLimit [] true
  | leave {depth : Nat} {p q : Pattern} {rest more : List Pattern} {name : String}
      {isDirectory : Bool} (wild : p.literal? = none) (entered : v.isDirectory here = true)
      (recursive : p.isRecursive = true) (after : afterRecursive rest = q :: more)
      (child : (name, isDirectory) ∈ v.children here) (accepted : q.accepts name.toList = true) :
      Goes v here depth (p :: rest) true name Disk.pathLimit more isDirectory
  | descend {depth : Nat} {p : Pattern} {rest : List Pattern} {name : String}
      (wild : p.literal? = none) (entered : v.isDirectory here = true)
      (recursive : p.isRecursive = true) (child : (name, true) ∈ v.children here) :
      Goes v here (depth + 1) (p :: rest) true name depth (p :: afterRecursive rest) true

variable {v : View} {depth : Nat} {p : Pattern} {rest : List Pattern} {here : List String}
variable {isDirectory : Bool} {f : Found}

theorem search_nil : v.search depth [] here isDirectory = [([], some isDirectory)] := by
  rw [search]

theorem search_of_literal {name : List Char} (h : p.literal? = some name) :
    v.search depth (p :: rest) here isDirectory =
      if v.finds here isDirectory (String.ofList name) then
        (v.search Disk.pathLimit rest (here ++ [String.ofList name])
          (v.isDirectory (here ++ [String.ofList name]))).map (Found.under (String.ofList name))
      else [] := by
  rw [search, h]
  simp only [Bool.not_eq_true', Bool.eq_false_iff, ne_eq, ite_not]

/-- The matches below a directory that a `**` has reached. -/
def deeper (v : View) (depth : Nat) (patterns : List Pattern) (here : List String)
    (isDirectory : Bool) : List Found :=
  match depth with
  | 0 => []
  | depth + 1 => if isDirectory then v.search depth patterns here true else []

/-- The matches at and below a name that is seen in a directory. -/
def atChild (v : View) (depth : Nat) (p : Pattern) (rest : List Pattern) (here : List String)
    (child : String × Bool) : List Found :=
  if p.isRecursive then
    (match afterRecursive rest with
    | [] => if child.2 then [([child.1], some true)] else []
    | q :: more =>
      if q.accepts child.1.toList then
        (v.search Disk.pathLimit more (here ++ [child.1]) child.2).map (Found.under child.1)
      else []) ++
      (v.deeper depth (p :: afterRecursive rest) (here ++ [child.1]) child.2).map
        (Found.under child.1)
  else if p.accepts child.1.toList then
    (v.search Disk.pathLimit rest (here ++ [child.1]) child.2).map (Found.under child.1)
  else []

theorem search_of_wild (h : p.literal? = none) (hhere : v.isDirectory here = true) :
    v.search depth (p :: rest) here true =
      ((dotNames p).flatMap fun name =>
        (v.search Disk.pathLimit rest (here ++ [name]) (v.isDirectory (here ++ [name]))).map
          (Found.under name)) ++
      (v.children here).flatMap (v.atChild depth p rest here) := by
  rw [search, h]
  simp only [hhere, Bool.not_true, Bool.false_eq_true, if_false]
  congr 2
  funext child
  unfold atChild
  split
  · congr 1
    · split <;> rename_i heq <;> simp [heq]
    · unfold deeper
      split
      · rfl
      · split <;> rfl
  · rfl

theorem search_of_file (h : p.literal? = none) : v.search depth (p :: rest) here false = [] := by
  rw [search, h]
  rfl

theorem search_of_barred (h : p.literal? = none) (hhere : v.isDirectory here = false) :
    v.search depth (p :: rest) here true = [([], none)] := by
  rw [search, h]
  simp [hhere]

theorem exists_goes_of_mem_atChild {child : String × Bool} (h : p.literal? = none)
    (hhere : v.isDirectory here = true) (hchild : child ∈ v.children here)
    (hf : f ∈ v.atChild depth p rest here child) :
    ∃ depth' patterns isDirectory' g,
      Goes v here depth (p :: rest) true child.1 depth' patterns isDirectory' ∧
        g ∈ v.search depth' patterns (here ++ [child.1]) isDirectory' ∧ f = g.under child.1 := by
  obtain ⟨name, isDirectory⟩ := child
  unfold atChild at hf
  split at hf
  · next hrecursive =>
    rcases List.mem_append.mp hf with hf | hf
    · split at hf
      · next hafter =>
        split at hf
        · next hdirectory =>
          obtain rfl : isDirectory = true := hdirectory
          obtain rfl := List.mem_singleton.mp hf
          exact ⟨_, _, _, ([], some true), .last h hhere hrecursive hafter hchild,
            by simp [search_nil], rfl⟩
        · cases hf
      · next q more hafter =>
        split at hf
        · next haccepted =>
          obtain ⟨g, hg, rfl⟩ := List.mem_map.mp hf
          exact ⟨_, _, _, g, .leave h hhere hrecursive hafter hchild haccepted, hg, rfl⟩
        · cases hf
    · obtain ⟨g, hg, rfl⟩ := List.mem_map.mp hf
      unfold deeper at hg
      split at hg
      · cases hg
      · split at hg
        · next hdirectory =>
          obtain rfl : isDirectory = true := hdirectory
          exact ⟨_, _, _, g, .descend h hhere hrecursive hchild, hg, rfl⟩
        · cases hg
  · next hsingle =>
    split at hf
    · next haccepted =>
      obtain ⟨g, hg, rfl⟩ := List.mem_map.mp hf
      exact ⟨_, _, _, g, .own h hhere (by simpa using hsingle) hchild haccepted, hg, rfl⟩
    · cases hf

/-- A search ends at a directory that cannot be read, or goes on. -/
theorem mem_search_cases (hf : f ∈ v.search depth (p :: rest) here isDirectory) :
    (f = ([], none) ∧ p.literal? = none ∧ isDirectory = true ∧ v.isDirectory here = false) ∨
      ∃ name depth' patterns isDirectory' g,
        Goes v here depth (p :: rest) isDirectory name depth' patterns isDirectory' ∧
          g ∈ v.search depth' patterns (here ++ [name]) isDirectory' ∧ f = g.under name := by
  cases htext : p.literal? with
  | some name =>
      rw [search_of_literal htext] at hf
      split at hf
      · next hfound =>
        obtain ⟨g, hg, rfl⟩ := List.mem_map.mp hf
        exact .inr ⟨_, _, _, _, g, .literal htext hfound, hg, rfl⟩
      · cases hf
  | none =>
      cases isDirectory with
      | false =>
          rw [search_of_file htext] at hf
          cases hf
      | true =>
          cases hhere : v.isDirectory here with
          | false =>
              rw [search_of_barred htext hhere] at hf
              exact .inl ⟨List.mem_singleton.mp hf, rfl, rfl, rfl⟩
          | true =>
              rw [search_of_wild htext hhere] at hf
              rcases List.mem_append.mp hf with hf | hf
              · obtain ⟨name, hname, hf⟩ := List.mem_flatMap.mp hf
                obtain ⟨g, hg, rfl⟩ := List.mem_map.mp hf
                exact .inr ⟨_, _, _, _, g, .dotted htext hhere hname, hg, rfl⟩
              · obtain ⟨child, hchild, hf⟩ := List.mem_flatMap.mp hf
                exact .inr ⟨_, exists_goes_of_mem_atChild htext hhere hchild hf⟩

theorem exists_goes_of_mem_search (hf : f ∈ v.search depth (p :: rest) here isDirectory)
    (hne : f ≠ ([], none)) :
    ∃ name depth' patterns isDirectory' g,
      Goes v here depth (p :: rest) isDirectory name depth' patterns isDirectory' ∧
        g ∈ v.search depth' patterns (here ++ [name]) isDirectory' ∧ f = g.under name :=
  (mem_search_cases hf).resolve_left fun h => hne h.1

theorem nil_none_mem_search_iff {patterns : List Pattern} :
    ([], none) ∈ v.search depth patterns here isDirectory ↔
      (∃ q more, patterns = q :: more ∧ q.literal? = none) ∧ isDirectory = true ∧
        v.isDirectory here = false := by
  constructor
  · intro hmem
    cases patterns with
    | nil => simp [search_nil] at hmem
    | cons q more =>
        obtain ⟨-, hwild, hflag, hhere⟩ | ⟨name, _, _, _, g, -, -, heq⟩ := mem_search_cases hmem
        · exact ⟨⟨q, more, rfl, hwild⟩, hflag, hhere⟩
        · cases heq
  · rintro ⟨⟨q, more, rfl, hwild⟩, rfl, hhere⟩
    rw [search_of_barred hwild hhere]
    exact List.mem_singleton.mpr rfl

theorem mem_search_of_goes {name : String} {depth' : Nat} {patterns : List Pattern}
    {isDirectory' : Bool}
    (h : Goes v here depth (p :: rest) isDirectory name depth' patterns isDirectory')
    (hf : f ∈ v.search depth' patterns (here ++ [name]) isDirectory') :
    f.under name ∈ v.search depth (p :: rest) here isDirectory := by
  have hunder := List.mem_map_of_mem (f := Found.under name) hf
  have hchild : ∀ {depth isDirectory}, p.literal? = none → v.isDirectory here = true →
      (name, isDirectory) ∈ v.children here →
      f.under name ∈ v.atChild depth p rest here (name, isDirectory) →
      f.under name ∈ v.search depth (p :: rest) here true := by
    intro depth isDirectory hwild hhere hchild hmem
    rw [search_of_wild hwild hhere]
    exact List.mem_append_right _ (List.mem_flatMap.mpr ⟨_, hchild, hmem⟩)
  cases h with
  | literal text found =>
      rw [search_of_literal text, if_pos found]
      exact hunder
  | dotted wild entered special =>
      rw [search_of_wild wild entered]
      exact List.mem_append_left _ (List.mem_flatMap.mpr ⟨name, special, hunder⟩)
  | own wild entered single child accepted =>
      refine hchild wild entered child ?_
      simpa only [atChild, single, Bool.false_eq_true, if_false, accepted, if_true] using hunder
  | last wild entered recursive after child =>
      refine hchild wild entered child ?_
      obtain rfl : f = ([], some true) := by simpa [search_nil] using hf
      simp [atChild, recursive, after, Found.under]
  | leave wild entered recursive after child accepted =>
      refine hchild wild entered child ?_
      simp only [atChild, recursive, if_true, after, accepted]
      exact List.mem_append_left _ hunder
  | descend wild entered recursive child =>
      refine hchild wild entered child ?_
      simp only [atChild, recursive, if_true]
      exact List.mem_append_right _ hunder

end View
end Wildcard
end DeclarativeBuild
