import DeclarativeBuild.Proofs.Disk.Components
import DeclarativeBuild.Proofs.Wildcard.Search
import Mathlib.Data.List.Induction

/-!
# Names that match a pattern

A list of names matches a pattern if the components of the pattern can be used up on them, name by
name.  On a view that shows what stands on a disk, a search finds what matches and stands there.
-/

namespace DeclarativeBuild
namespace Wildcard

namespace Pattern

open Ground

/-- Whether a component of a pattern may stand for a name.  Names that lead nowhere or upward have to
be written out at least by their first dot. -/
def Allows (p : Pattern) (name : String) : Prop :=
  '/' ∉ name.toList ∧ p.accepts name.toList = true ∧ (name = "" → p = []) ∧
    (name = "." ∨ name = ".." → p.head? = some (.char '.'))

instance (p : Pattern) (name : String) : Decidable (p.Allows name) :=
  inferInstanceAs (Decidable (_ ∧ _ ∧ _ ∧ _))

/-- What the components of a pattern are like when they are read one by one. -/
structure IsComponent (p : Pattern) : Prop where
  recursive : p.isRecursive = true → p = [.anyDepth]
  literal : ∀ name, p.literal? = some name → '/' ∉ name

/-- What is left of a pattern after one name.  A `**` stands for names of directories: it stays, or
the name is the one after it, or the last one. -/
inductive Takes : List Pattern → String → List Pattern → Prop
  | own {p : Pattern} {rest : List Pattern} {name : String} (single : p.isRecursive = false)
      (allowed : p.Allows name) : Takes (p :: rest) name rest
  | last {p : Pattern} {rest : List Pattern} {name : String} (recursive : p.isRecursive = true)
      (after : afterRecursive rest = []) (plain : Path.isPlainName name = true) :
      Takes (p :: rest) name []
  | leave {p q : Pattern} {rest more : List Pattern} {name : String}
      (recursive : p.isRecursive = true) (after : afterRecursive rest = q :: more)
      (plain : Path.isPlainName name = true) (accepted : q.accepts name.toList = true) :
      Takes (p :: rest) name more
  | descend {p : Pattern} {rest : List Pattern} {name : String} (recursive : p.isRecursive = true)
      (plain : Path.isPlainName name = true) : Takes (p :: rest) name (p :: afterRecursive rest)

/-- What is left of a pattern after some names. -/
inductive Leaves : List Pattern → List String → List Pattern → Prop
  | all (patterns : List Pattern) : Leaves patterns [] patterns
  | step {patterns next left : List Pattern} {name : String} {names : List String}
      (taken : Takes patterns name next) (onward : Leaves next names left) :
      Leaves patterns (name :: names) left

/-- Whether a pattern is used up on some names. -/
def Matches (patterns : List Pattern) (names : List String) : Prop :=
  Leaves patterns names []

variable {p : Pattern} {patterns next rest : List Pattern} {name : String} {names : List String}

theorem literal?_eq_some_iff {cs : List Char} : p.literal? = some cs ↔ p = cs.map .char := by
  induction p generalizing cs with
  | nil => cases cs <;> simp [literal?]
  | cons t rest ih =>
      cases t with
      | char c =>
          rw [literal?, Option.map_eq_some_iff]
          cases cs with
          | nil => simp
          | cons d cs =>
              simp only [ih, List.cons_eq_cons, List.map_cons, Token.char.injEq]
              exact ⟨fun ⟨ds, hds, hc, heq⟩ => ⟨hc, heq ▸ hds⟩, fun ⟨hc, hds⟩ => ⟨cs, hds, hc, rfl⟩⟩
      | anyChar | within | outside | anyText | anyDepth => cases cs <;> simp [literal?]

theorem accepts_map_char_iff {cs ds : List Char} :
    accepts (cs.map .char) ds = true ↔ ds = cs := by
  induction cs generalizing ds with
  | nil => simp [accepts_nil_left]
  | cons c cs ih =>
      rw [List.map_cons]
      cases ds with
      | nil => simp [accepts_nil_right, Token.isAnyText]
      | cons d ds =>
          rw [accepts_cons_char rfl]
          simp [Token.acceptsChar, ih]

theorem allows_of_literal? {cs : List Char} (h : p.literal? = some cs) (hp : p.IsComponent) :
    p.isRecursive = false ∧ p.Allows (String.ofList cs) := by
  have hsep := hp.literal cs h
  obtain rfl := literal?_eq_some_iff.mp h
  refine ⟨by simp [isRecursive], by simpa using hsep, ?_, ?_, ?_⟩
  · simp [accepts_map_char_iff]
  · intro hempty
    have := congrArg String.toList hempty
    simpa using this
  · rintro (hdot | hdot) <;>
      · have := congrArg String.toList hdot
        rw [String.toList_ofList] at this
        rw [this]
        rfl

theorem literal?_of_isRecursive (h : p.isRecursive = true) : p.literal? = none := by
  rw [Option.eq_none_iff_forall_ne_some]
  intro cs hcs
  obtain rfl := literal?_eq_some_iff.mp hcs
  simp [isRecursive] at h

theorem mem_dotNames_iff :
    name ∈ dotNames p ↔ (name = "." ∨ name = "..") ∧ p.head? = some (.char '.') ∧
      p.accepts name.toList = true := by
  unfold dotNames
  split
  · simp only [List.mem_filter, List.mem_cons, List.not_mem_nil, or_false, List.head?_cons,
      true_and]
    rw [or_comm]
  · next hdot =>
    refine ⟨fun h => absurd h List.not_mem_nil, fun ⟨_, hhead, _⟩ => ?_⟩
    obtain ⟨rest, hrest⟩ := List.head?_eq_some_iff.mp hhead
    exact absurd hrest (hdot rest)

theorem allows_of_isPlainName (h : Path.isPlainName name = true)
    (haccepts : p.accepts name.toList = true) : p.Allows name := by
  obtain ⟨hsep, hidle, hup⟩ := Path.isPlainName_iff.mp h
  refine ⟨hsep, haccepts, ?_, ?_⟩
  · rintro rfl
    exact absurd hidle (by decide)
  · rintro (rfl | rfl)
    · exact absurd hidle (by decide)
    · exact absurd rfl hup

/-- Whether a pattern ends with a `**`, which stands for a directory. -/
def endsRecursive (patterns : List Pattern) : Bool :=
  patterns.getLast?.any isRecursive

theorem endsRecursive_cons (h : rest ≠ []) : endsRecursive (p :: rest) = endsRecursive rest := by
  obtain ⟨q, more, rfl⟩ := List.exists_cons_of_ne_nil h
  rw [endsRecursive, List.getLast?_cons_cons, endsRecursive]

theorem endsRecursive_cons_of_single (h : p.isRecursive = false) :
    endsRecursive (p :: rest) = endsRecursive rest := by
  cases rest with
  | nil => simp [endsRecursive, h]
  | cons q more => exact endsRecursive_cons (List.cons_ne_nil q more)

/-- It does not matter how many `**` stand one after the other. -/
theorem endsRecursive_afterRecursive (h : p.isRecursive = true) :
    endsRecursive (p :: rest) = endsRecursive (p :: afterRecursive rest) := by
  induction rest generalizing p with
  | nil => rfl
  | cons q rest ih =>
      rw [afterRecursive, List.dropWhile_cons]
      split
      · next hq =>
        rw [endsRecursive_cons (List.cons_ne_nil q rest), ih hq]
        change _ = endsRecursive (p :: afterRecursive rest)
        cases afterRecursive rest with
        | nil => simp [endsRecursive, h, hq]
        | cons r more =>
            rw [endsRecursive_cons (List.cons_ne_nil r more),
              endsRecursive_cons (List.cons_ne_nil r more)]
      · rfl

theorem isRecursive_of_afterRecursive {q : Pattern} {more : List Pattern}
    (h : afterRecursive rest = q :: more) : q.isRecursive = false := by
  have hnot := List.head?_dropWhile_not isRecursive rest
  rw [← afterRecursive, h] at hnot
  simpa using hnot

theorem matches_nil_iff : Matches patterns [] ↔ patterns = [] := by
  constructor
  · intro h
    cases h
    rfl
  · rintro rfl
    exact .all []

theorem matches_cons_iff : Matches patterns (name :: names) ↔
    ∃ next, Takes patterns name next ∧ Matches next names := by
  constructor
  · intro h
    cases h with
    | step taken onward => exact ⟨_, taken, onward⟩
  · rintro ⟨next, taken, onward⟩
    exact .step taken onward

/-- A pattern that ends with a `**` still does after a name, unless the name was its last. -/
theorem Takes.endsRecursive_eq (h : Takes patterns name next) :
    endsRecursive patterns = endsRecursive next ∨ next = [] ∧ endsRecursive patterns = true := by
  cases h with
  | own single allowed => exact .inl (endsRecursive_cons_of_single single)
  | last recursive after plain =>
      refine .inr ⟨rfl, ?_⟩
      rw [endsRecursive_afterRecursive recursive, after]
      simpa [endsRecursive] using recursive
  | leave recursive after plain accepted =>
      refine .inl ?_
      rw [endsRecursive_afterRecursive recursive, after, endsRecursive_cons (List.cons_ne_nil _ _),
        endsRecursive_cons_of_single (isRecursive_of_afterRecursive after)]
  | descend recursive plain => exact .inl (endsRecursive_afterRecursive recursive)

theorem Takes.subset (h : Takes patterns name next) : next ⊆ patterns := by
  have hafter : ∀ rest : List Pattern, afterRecursive rest ⊆ rest :=
    fun rest => (List.dropWhile_sublist isRecursive).subset
  cases h with
  | own => exact List.subset_cons_self _ _
  | last => exact List.nil_subset _
  | @leave p q rest _ _ recursive after plain accepted =>
      have hmore : q :: next ⊆ rest := after ▸ hafter rest
      exact fun r hr => List.mem_cons_of_mem _ (hmore (List.mem_cons_of_mem _ hr))
  | @descend p rest name recursive plain => exact List.cons_subset_cons p (hafter rest)

theorem Takes.notMem_slash (h : Takes patterns name next) : '/' ∉ name.toList := by
  cases h with
  | own single allowed => exact allowed.1
  | last _ _ plain | leave _ _ plain _ | descend _ plain => exact (Path.isPlainName_iff.mp plain).1

theorem Leaves.notMem_slash {left : List Pattern} (h : Leaves patterns names left) :
    ∀ name ∈ names, '/' ∉ name.toList := by
  induction h with
  | all => simp
  | step taken _ ih => exact List.forall_mem_cons.mpr ⟨taken.notMem_slash, ih⟩

end Pattern

namespace View

open Pattern

variable {v : View} {size : List String → Nat} {here names : List String} {name : String}
variable {depth depth' : Nat} {patterns next : List Pattern} {isDirectory isDirectory' : Bool}

/-- What a view of a disk shows, where `size` tells the sizes of the paths.  A path that is longer
than its limit leads nowhere, though its directory lists it. -/
structure Sees (v : View) (size : List String → Nat) : Prop where
  holds_of_isDirectory : ∀ {here}, v.isDirectory here = true → v.holds here = true
  isDirectory_of_holds : ∀ {here name}, '/' ∉ name.toList → v.holds (here ++ [name]) = true →
    v.isDirectory here = true
  holds_dots : ∀ {here name}, name = "." ∨ name = ".." → size (here ++ [name]) ≤ Disk.pathLimit →
    v.isDirectory here = true → v.holds (here ++ [name]) = true
  isPlainName_of_child : ∀ {here name isDirectory}, (name, isDirectory) ∈ v.children here →
    Path.isPlainName name = true
  child_iff : ∀ {here name isDirectory}, Path.isPlainName name = true →
    size (here ++ [name]) ≤ Disk.pathLimit →
    ((name, isDirectory) ∈ v.children here ↔
      v.holds (here ++ [name]) = true ∧ isDirectory = v.isDirectory (here ++ [name]))
  children_sorted : ∀ here, ((v.children here).map Prod.fst).Pairwise (· < ·)
  size_pos : ∀ here, 0 < size here
  size_le_of_holds : ∀ {here}, v.holds here = true → size here ≤ Disk.pathLimit
  size_le : ∀ {here name}, '/' ∉ name.toList → size here ≤ size (here ++ [name])
  size_lt : ∀ {here name}, Path.isPlainName name = true → size here < size (here ++ [name])

/-- A search goes on only where the pattern can take the name. -/
theorem Goes.takes (hv : v.Sees size) (hpatterns : ∀ p ∈ patterns, p.IsComponent)
    (h : Goes v here depth patterns isDirectory name depth' next isDirectory') :
    Takes patterns name next := by
  cases h with
  | literal text found =>
      obtain ⟨hsingle, hallows⟩ := allows_of_literal? text (hpatterns _ List.mem_cons_self)
      exact .own hsingle hallows
  | @dotted depth p rest name wild entered special =>
      obtain ⟨hdots, hhead, haccepts⟩ := mem_dotNames_iff.mp special
      refine .own ?_ ⟨?_, haccepts, ?_, fun _ => hhead⟩
      · rw [Bool.eq_false_iff]
        intro hrecursive
        obtain rfl := (hpatterns p List.mem_cons_self).recursive hrecursive
        cases hhead
      · rcases hdots with rfl | rfl <;> decide
      · rcases hdots with rfl | rfl <;> exact fun h => absurd h (by decide)
  | own wild entered single child accepted =>
      exact .own single (allows_of_isPlainName (hv.isPlainName_of_child child) accepted)
  | last wild entered recursive after child =>
      exact .last recursive after (hv.isPlainName_of_child child)
  | leave wild entered recursive after child accepted =>
      exact .leave recursive after (hv.isPlainName_of_child child) accepted
  | descend wild entered recursive child => exact .descend recursive (hv.isPlainName_of_child child)

/-- What a search finds matches the pattern. -/
theorem matches_of_mem_search (hv : v.Sees size) (hpatterns : ∀ p ∈ patterns, p.IsComponent)
    {found : Bool} (hf : (names, some found) ∈ v.search depth patterns here isDirectory) :
    Matches patterns names := by
  induction names generalizing depth patterns here isDirectory with
  | nil =>
      cases patterns with
      | nil => exact .all []
      | cons p rest =>
          obtain ⟨name, _, _, _, g, -, -, heq⟩ := exists_goes_of_mem_search hf (by simp)
          cases heq
  | cons name names ih =>
      cases patterns with
      | nil => simp [search_nil] at hf
      | cons p rest =>
          obtain ⟨name, _, _, _, ⟨names, _⟩, hgoes, hg, heq⟩ :=
            exists_goes_of_mem_search hf (by simp)
          cases heq
          have htakes := hgoes.takes hv hpatterns
          exact .step htakes (ih (fun q hq => hpatterns q (htakes.subset hq)) hg)

/-- Where a search goes on, it sees what stands there and has depth enough for what comes. -/
theorem Goes.sees (hv : v.Sees size) (hname : '/' ∉ name.toList)
    (hshort : size (here ++ [name]) ≤ Disk.pathLimit) (hdepth : Disk.pathLimit < depth + size here)
    (h : Goes v here depth patterns (v.isDirectory here) name depth' next isDirectory') :
    v.holds (here ++ [name]) = true ∧ isDirectory' = v.isDirectory (here ++ [name]) ∧
      Disk.pathLimit < depth' + size (here ++ [name]) := by
  have hchild : ∀ {isDirectory}, (name, isDirectory) ∈ v.children here →
      v.holds (here ++ [name]) = true ∧ isDirectory = v.isDirectory (here ++ [name]) :=
    fun child => (hv.child_iff (hv.isPlainName_of_child child) hshort).mp child
  have hfull : Disk.pathLimit < Disk.pathLimit + size (here ++ [name]) :=
    Nat.lt_add_of_pos_right (hv.size_pos _)
  generalize hhere : v.isDirectory here = isDirectory at h
  cases h with
  | literal text found =>
      refine ⟨?_, rfl, hfull⟩
      rw [finds] at found
      split at found
      · next hdots =>
        simp only [Bool.or_eq_true, beq_iff_eq] at hdots
        exact hv.holds_dots hdots hshort (hhere.trans found)
      · exact found
  | dotted wild entered special =>
      exact ⟨hv.holds_dots (mem_dotNames_iff.mp special).1 hshort hhere, rfl, hfull⟩
  | own wild entered single child accepted =>
      obtain ⟨hholds, heq⟩ := hchild child
      exact ⟨hholds, heq, hfull⟩
  | last wild entered recursive after child =>
      obtain ⟨hholds, heq⟩ := hchild child
      exact ⟨hholds, heq, hfull⟩
  | leave wild entered recursive after child accepted =>
      obtain ⟨hholds, heq⟩ := hchild child
      exact ⟨hholds, heq, hfull⟩
  | descend wild entered recursive child =>
      obtain ⟨hholds, heq⟩ := hchild child
      -- The path has become longer by at least as much as the depth has become less.
      have hlonger : size here < size (here ++ [name]) :=
        hv.size_lt (hv.isPlainName_of_child child)
      exact ⟨hholds, heq, by omega⟩

/-- Where the pattern can take a name that stands there, the search goes on. -/
theorem exists_goes (hv : v.Sees size) (h : Takes patterns name next)
    (hshort : size (here ++ [name]) ≤ Disk.pathLimit) (hholds : v.holds (here ++ [name]) = true)
    (hnext : next ≠ [] ∨ endsRecursive patterns = true → v.isDirectory (here ++ [name]) = true)
    (hdepth : Disk.pathLimit < depth + size here) :
    ∃ depth', Goes v here depth patterns (v.isDirectory here) name depth' next
      (v.isDirectory (here ++ [name])) := by
  have hchild : Path.isPlainName name = true →
      (name, v.isDirectory (here ++ [name])) ∈ v.children here :=
    fun hplain => (hv.child_iff hplain hshort).mpr ⟨hholds, rfl⟩
  have hhere := hv.isDirectory_of_holds h.notMem_slash hholds
  rw [hhere]
  cases h with
  | @own p rest name single allowed =>
      obtain ⟨hsep, haccepts, hempty, hdots⟩ := allowed
      cases htext : p.literal? with
      | some cs =>
          obtain rfl : name = String.ofList cs := by
            obtain rfl := literal?_eq_some_iff.mp htext
            rw [← accepts_map_char_iff.mp haccepts, String.ofList_toList]
          refine ⟨_, .literal htext ?_⟩
          rw [finds]
          split
          · rfl
          · exact hholds
      | none =>
          by_cases hspecial : name = "." ∨ name = ".."
          · have hdotted := mem_dotNames_iff.mpr ⟨hspecial, hdots hspecial, haccepts⟩
            exact ⟨_, .dotted htext hhere hdotted⟩
          · have hplain : Path.isPlainName name = true := by
              have hne : name ≠ "" := by
                rintro rfl
                rw [hempty rfl] at htext
                cases htext
              rw [not_or] at hspecial
              exact Path.isPlainName_iff.mpr ⟨hsep, by simp [Path.isIdle, hne, hspecial.1], hspecial.2⟩
            exact ⟨_, .own htext hhere single (hchild hplain) haccepts⟩
  | @last p rest name recursive after plain =>
      have hdirectory : v.isDirectory (here ++ [name]) = true := by
        refine hnext (.inr ?_)
        rw [endsRecursive_afterRecursive recursive, after]
        simpa [endsRecursive] using recursive
      have hmem := hchild plain
      rw [hdirectory] at hmem ⊢
      exact ⟨_, .last (literal?_of_isRecursive recursive) hhere recursive after hmem⟩
  | leave recursive after plain accepted =>
      exact ⟨_, .leave (literal?_of_isRecursive recursive) hhere recursive after (hchild plain)
        accepted⟩
  | descend recursive plain =>
      have hdirectory := hnext (.inl (List.cons_ne_nil _ _))
      have hmem := hchild plain
      have hlonger : size here < size (here ++ [name]) := hv.size_lt plain
      obtain ⟨depth, rfl⟩ : ∃ n, depth = n + 1 := ⟨depth - 1, by omega⟩
      rw [hdirectory] at hmem ⊢
      exact ⟨_, .descend (literal?_of_isRecursive recursive) hhere recursive hmem⟩

theorem Sees.size_append (hv : v.Sees size) (h : ∀ name ∈ names, '/' ∉ name.toList) :
    size here ≤ size (here ++ names) := by
  induction names generalizing here with
  | nil => simp
  | cons name names ih =>
      rw [List.append_cons]
      exact Nat.le_trans (hv.size_le (h name List.mem_cons_self))
        (ih fun other hother => h other (List.mem_cons_of_mem name hother))

theorem Sees.isDirectory_of_holds_append (hv : v.Sees size) (hne : names ≠ [])
    (h : ∀ name ∈ names, '/' ∉ name.toList) (hholds : v.holds (here ++ names) = true) :
    v.isDirectory here = true := by
  induction names using List.reverseRecOn with
  | nil => exact absurd rfl hne
  | append_singleton names name ih =>
      rw [← List.append_assoc] at hholds
      have hdirectory := hv.isDirectory_of_holds (h name (by simp)) hholds
      by_cases hnil : names = []
      · simpa [hnil] using hdirectory
      · exact ih hnil (fun other hother => h other (List.mem_append_left _ hother))
          (hv.holds_of_isDirectory hdirectory)

/-- Only a directory is the last name of a pattern that ends with a `**`. -/
theorem Goes.isDirectory_of_endsRecursive (hpatterns : ∀ p ∈ patterns, p.IsComponent)
    (h : Goes v here depth patterns isDirectory name depth' [] isDirectory')
    (hends : endsRecursive patterns = true) : isDirectory' = true := by
  have hsingle : ∀ p : Pattern, endsRecursive [p] = true → p.isRecursive = true := by
    intro p hp
    simpa [endsRecursive] using hp
  cases h with
  | literal text found =>
      rw [literal?_of_isRecursive (hsingle _ hends)] at text
      cases text
  | @dotted depth p rest name wild entered special =>
      obtain rfl := (hpatterns p List.mem_cons_self).recursive (hsingle _ hends)
      cases (mem_dotNames_iff.mp special).2.1
  | own wild entered single child accepted =>
      rw [hsingle _ hends] at single
      cases single
  | last wild entered recursive after child => rfl
  | leave wild entered recursive after child accepted =>
      rw [endsRecursive_afterRecursive recursive, after, endsRecursive_cons (List.cons_ne_nil _ _)]
        at hends
      have hsingle' := isRecursive_of_afterRecursive after
      rw [hsingle _ hends] at hsingle'
      cases hsingle'

/-- A search finds the names that match the pattern and lead to something, and to a directory if the
pattern ends with a `**`. -/
theorem mem_search_iff (hv : v.Sees size) (hpatterns : ∀ p ∈ patterns, p.IsComponent)
    (hnames : ∀ name ∈ names, '/' ∉ name.toList) (hshort : size (here ++ names) ≤ Disk.pathLimit)
    (hdepth : Disk.pathLimit < depth + size here) :
    (names, some isDirectory) ∈ v.search depth patterns here (v.isDirectory here) ↔
      Matches patterns names ∧ (names ≠ [] → v.holds (here ++ names) = true) ∧
        (endsRecursive patterns = true → v.isDirectory (here ++ names) = true) ∧
        isDirectory = v.isDirectory (here ++ names) := by
  induction names generalizing depth patterns here with
  | nil =>
      rw [matches_nil_iff]
      cases patterns with
      | nil => simp [search_nil, endsRecursive]
      | cons p rest =>
          refine iff_of_false (fun hmem => ?_) fun h => absurd h.1 (List.cons_ne_nil p rest)
          obtain ⟨name, _, _, _, g, -, -, heq⟩ := exists_goes_of_mem_search hmem (by simp)
          cases heq
  | cons name names ih =>
      obtain ⟨hname, hrest⟩ := List.forall_mem_cons.mp hnames
      rw [matches_cons_iff]
      rw [List.append_cons] at hshort ⊢
      have hshort' := Nat.le_trans (hv.size_append hrest) hshort
      constructor
      · intro hmem
        cases patterns with
        | nil => simp [search_nil] at hmem
        | cons p rest =>
            obtain ⟨name', depth', next, _, ⟨names', found⟩, hgoes, hg, heq⟩ :=
              exists_goes_of_mem_search hmem (by simp)
            simp only [Found.under, Prod.mk.injEq, List.cons.injEq] at heq
            obtain ⟨⟨rfl, rfl⟩, rfl⟩ := heq
            have htakes := hgoes.takes hv hpatterns
            obtain ⟨hholds, rfl, hdepth'⟩ := hgoes.sees hv hname hshort' hdepth
            obtain ⟨hmatches, hholds', hends, heq⟩ :=
              (ih (fun q hq => hpatterns q (htakes.subset hq)) hrest hshort hdepth').mp hg
            refine ⟨⟨next, htakes, hmatches⟩, fun _ => ?_, fun hends' => ?_, heq⟩
            · by_cases hnil : names = []
              · simpa [hnil] using hholds
              · exact hholds' hnil
            · rcases htakes.endsRecursive_eq with hsame | ⟨rfl, -⟩
              · exact hends (hsame ▸ hends')
              · obtain rfl : names = [] := by
                  cases hmatches with
                  | all => rfl
                  | step taken => cases taken
                rw [List.append_nil]
                exact hgoes.isDirectory_of_endsRecursive hpatterns hends'
      · rintro ⟨⟨next, htakes, hmatches⟩, hholds, hends, rfl⟩
        have hholds := hholds (List.cons_ne_nil name names)
        have hbelow : names ≠ [] → v.isDirectory (here ++ [name]) = true :=
          fun hne => hv.isDirectory_of_holds_append hne hrest hholds
        have hhere : v.holds (here ++ [name]) = true := by
          by_cases hnil : names = []
          · simpa [hnil] using hholds
          · exact hv.holds_of_isDirectory (hbelow hnil)
        have hnext : next ≠ [] ∨ endsRecursive patterns = true →
            v.isDirectory (here ++ [name]) = true := by
          intro h
          by_cases hnil : names = []
          · subst hnil
            obtain rfl := matches_nil_iff.mp hmatches
            simpa using hends (h.resolve_left fun hne => hne rfl)
          · exact hbelow hnil
        obtain ⟨depth', hgoes⟩ := exists_goes hv htakes hshort' hhere hnext hdepth
        obtain ⟨-, -, hdepth'⟩ := hgoes.sees hv hname hshort' hdepth
        have hends' : endsRecursive next = true →
            v.isDirectory (here ++ [name] ++ names) = true := by
          intro h
          rcases htakes.endsRecursive_eq with hsame | ⟨rfl, -⟩
          · exact hends (hsame.trans h)
          · cases h
        have hmem := (ih (fun q hq => hpatterns q (htakes.subset hq)) hrest hshort hdepth').mpr
          ⟨hmatches, fun _ => hholds, hends', rfl⟩
        cases patterns with
        | nil => cases htakes
        | cons p rest => exact mem_search_of_goes hgoes hmem

end View
end Wildcard
end DeclarativeBuild
