import DeclarativeBuild.Preset

/-!
# Lineages of presets

What the name of a preset stands for, told without a memo.  Going from parent to parent ends at a
preset without one, at a name that nothing declares, or at a name met before; only one of the three
can happen, so a resolution has one outcome.
-/

namespace DeclarativeBuild

/-- The first preset of a name. -/
def firstNamed (presets : List Preset) (name : String) : Option Preset :=
  presets.find? (·.name == name)

/-- Parameters on top of each other, the outermost first. -/
def Params.stack (layers : List Params) : Params :=
  layers.foldl Params.merge Params.empty

@[simp] theorem Params.stack_append_singleton (layers : List Params) (p : Params) :
    Params.stack (layers ++ [p]) = (Params.stack layers).merge p := by
  simp [Params.stack]

variable {find : String → Option Preset}

/-- The presets from a name up to one without a parent. -/
inductive Lineage (find : String → Option Preset) : String → List Preset → Prop
  | root {name : String} {p : Preset} (hp : find name = some p) (hr : p.parent? = none) :
      Lineage find name [p]
  | child {name parent : String} {p : Preset} {above : List Preset} (hp : find name = some p)
      (hn : p.parent? = some parent) (ha : Lineage find parent above) :
      Lineage find name (p :: above)

/-- The parameters of a lineage, from its oldest preset down. -/
def lineageParams (lineage : List Preset) : Params :=
  Params.stack (lineage.reverse.map Preset.params)

@[simp] theorem lineageParams_cons (p : Preset) (above : List Preset) :
    lineageParams (p :: above) = (lineageParams above).merge p.params := by
  simp [lineageParams]

/-- The names met from a name on, going from parent to parent. -/
inductive Ascent (find : String → Option Preset) : String → List String → Prop
  | stay (name : String) : Ascent find name [name]
  | climb {name parent : String} {p : Preset} {names : List String} (hp : find name = some p)
      (hn : p.parent? = some parent) (ha : Ascent find parent names) :
      Ascent find name (name :: names)

/-- The outcome of looking a name up without a memo: all parameters of its lineage, the undeclared
name that is met, or the names met up to the first one that is met again. -/
inductive Resolution (find : String → Option Preset) (name : String) : Except Failure Params → Prop
  | merged {lineage : List Preset} (h : Lineage find name lineage) :
      Resolution find name (.ok (lineageParams lineage))
  | unknown {names : List String} {missing : String} (h : Ascent find name (names ++ [missing]))
      (hm : find missing = none) : Resolution find name (.error (.unknownPreset missing))
  | cycle {names : List String} {again : String} (h : Ascent find name (names ++ [again]))
      (hd : names.Nodup) (ha : again ∈ names) :
      Resolution find name (.error (.presetCycle (names ++ [again])))

namespace Lineage

theorem unique {name : String} {l l' : List Preset} (h : Lineage find name l)
    (h' : Lineage find name l') : l = l' := by
  induction h generalizing l' with
  | root hp hr =>
      cases h' with
      | root hp' _ =>
          have := hp.symm.trans hp'
          simpa using this
      | child hp' hn' _ =>
          cases hp.symm.trans hp'
          simp [hr] at hn'
  | child hp hn _ ih =>
      cases h' with
      | root hp' hr' =>
          cases hp.symm.trans hp'
          simp [hn] at hr'
      | child hp' hn' ha' =>
          cases hp.symm.trans hp'
          cases hn.symm.trans hn'
          rw [ih ha']

theorem declared {name : String} {l : List Preset} (h : Lineage find name l) :
    ∃ p, find name = some p := by
  cases h with
  | root hp _ => exact ⟨_, hp⟩
  | child hp _ _ => exact ⟨_, hp⟩

/-- Presets that are added later change no lineage. -/
theorem mono {find' : String → Option Preset} {name : String} {l : List Preset}
    (hf : ∀ n p, find n = some p → find' n = some p) (h : Lineage find name l) :
    Lineage find' name l := by
  induction h with
  | root hp hr => exact .root (hf _ _ hp) hr
  | child hp hn _ ih => exact .child (hf _ _ hp) hn ih

end Lineage

namespace Ascent

theorem exists_cons {name : String} {names : List String} (h : Ascent find name names) :
    ∃ rest, names = name :: rest := by
  cases h with
  | stay => exact ⟨[], rfl⟩
  | climb _ _ _ => exact ⟨_, rfl⟩

/-- An ascent that goes on does so at the parent of its start. -/
theorem above {start name last : String} {names : List String}
    (h : Ascent find start (name :: (names ++ [last]))) :
    name = start ∧ ∃ p parent, find name = some p ∧ p.parent? = some parent ∧
      Ascent find parent (names ++ [last]) := by
  generalize hr : names ++ [last] = rest at h
  cases h with
  | stay => simp at hr
  | climb hp hn ha => exact ⟨rfl, _, _, hp, hn, ha⟩

theorem head_mem {name again : String} {names : List String}
    (h : Ascent find name (names ++ [again])) (ha : again ∈ names) : name ∈ names := by
  obtain ⟨rest, hr⟩ := h.exists_cons
  cases names with
  | nil => simp at ha
  | cons n ns =>
      have hn : n = name := (List.cons.inj hr).1
      simp [hn]

/-- One more step at the upper end. -/
theorem snoc {start name parent : String} {chain : List String} {p : Preset}
    (h : Ascent find start (chain ++ [name])) (hp : find name = some p)
    (hn : p.parent? = some parent) : Ascent find start (chain ++ [name] ++ [parent]) := by
  induction chain generalizing start with
  | nil =>
      obtain ⟨rest, hr⟩ := h.exists_cons
      have hs : name = start := (List.cons.inj hr).1
      subst hs
      exact .climb hp hn (.stay parent)
  | cons n ns ih =>
      obtain ⟨rfl, q, above, hq, hqn, ha⟩ := h.above
      exact .climb hq hqn (ih ha)

theorem comparable {start : String} {xs ys : List String} (hx : Ascent find start xs)
    (hy : Ascent find start ys) : xs <+: ys ∨ ys <+: xs := by
  induction hx generalizing ys with
  | stay =>
      obtain ⟨rest, rfl⟩ := hy.exists_cons
      exact .inl ⟨rest, rfl⟩
  | climb hp hn ha ih =>
      cases hy with
      | stay => exact .inr ⟨_, rfl⟩
      | climb hp' hn' ha' =>
          cases hp.symm.trans hp'
          cases hn.symm.trans hn'
          simpa using ih ha'

/-- Every name below the upper end is declared, and its parent is met too. -/
theorem parent_of_mem {start last name : String} {names : List String}
    (h : Ascent find start (names ++ [last])) (hm : name ∈ names) :
    ∃ p parent, find name = some p ∧ p.parent? = some parent ∧ parent ∈ names ++ [last] := by
  induction names generalizing start with
  | nil => simp at hm
  | cons n ns ih =>
      obtain ⟨-, p, parent, hp, hn, ha⟩ := h.above
      rcases List.mem_cons.mp hm with rfl | hm
      · obtain ⟨rest, hr⟩ := ha.exists_cons
        refine ⟨p, parent, hp, hn, ?_⟩
        rw [List.cons_append, hr]
        exact List.mem_cons_of_mem _ List.mem_cons_self
      · obtain ⟨q, grand, hq, hqn, hmem⟩ := ih ha hm
        exact ⟨q, grand, hq, hqn, List.mem_cons_of_mem _ hmem⟩

/-- From a name with a lineage one only meets names with a lineage. -/
theorem lineage_of_mem {start name : String} {names : List String} {l : List Preset}
    (h : Ascent find start names) (hl : Lineage find start l) (hm : name ∈ names) :
    ∃ l', Lineage find name l' := by
  induction h generalizing l with
  | stay =>
      obtain rfl := List.mem_singleton.mp hm
      exact ⟨l, hl⟩
  | climb hp hn ha ih =>
      rcases List.mem_cons.mp hm with rfl | hm
      · exact ⟨l, hl⟩
      · cases hl with
        | root hp' hr' =>
            cases hp.symm.trans hp'
            simp [hn] at hr'
        | child hp' hn' hl' =>
            cases hp.symm.trans hp'
            cases hn.symm.trans hn'
            exact ih hl' hm

end Ascent

/-- Names whose parents are among them. -/
def Endless (find : String → Option Preset) (names : List String) : Prop :=
  ∀ name ∈ names, ∃ p parent, find name = some p ∧ p.parent? = some parent ∧ parent ∈ names

namespace Endless

variable {names : List String}

theorem of_ascent {start again : String} (h : Ascent find start (names ++ [again]))
    (ha : again ∈ names) : Endless find names := by
  intro name hm
  obtain ⟨p, parent, hp, hn, hmem⟩ := h.parent_of_mem hm
  refine ⟨p, parent, hp, hn, ?_⟩
  rcases List.mem_append.mp hmem with hmem | hmem
  · exact hmem
  · exact List.mem_singleton.mp hmem ▸ ha

theorem not_lineage (he : Endless find names) {name : String} {l : List Preset}
    (hm : name ∈ names) : ¬ Lineage find name l := by
  intro hl
  induction hl with
  | root hp hr =>
      obtain ⟨q, parent, hq, hqn, _⟩ := he _ hm
      cases hp.symm.trans hq
      simp [hr] at hqn
  | child hp hn _ ih =>
      obtain ⟨q, parent, hq, hqn, hmem⟩ := he _ hm
      cases hp.symm.trans hq
      cases hn.symm.trans hqn
      exact ih hmem

theorem mem_of_ascent (he : Endless find names) {start name : String} {met : List String}
    (h : Ascent find start met) (hs : start ∈ names) (hm : name ∈ met) : name ∈ names := by
  induction h with
  | stay =>
      obtain rfl := List.mem_singleton.mp hm
      exact hs
  | climb hp hn _ ih =>
      obtain ⟨q, parent, hq, hqn, hmem⟩ := he _ hs
      cases hp.symm.trans hq
      cases hn.symm.trans hqn
      rcases List.mem_cons.mp hm with rfl | hm
      · exact hs
      · exact ih hmem hm

end Endless

namespace Resolution

variable {name : String}

theorem merged_not_unknown {l : List Preset} {names : List String} {missing : String}
    (hl : Lineage find name l) (h : Ascent find name (names ++ [missing])) :
    find missing ≠ none := by
  have hmem : missing ∈ names ++ [missing] := by simp
  obtain ⟨l', hl'⟩ := h.lineage_of_mem hl hmem
  obtain ⟨p, hp⟩ := hl'.declared
  simp [hp]

theorem cycle_not_unknown {names met : List String} {again missing : String}
    (h : Ascent find name (names ++ [again])) (ha : again ∈ names)
    (h' : Ascent find name (met ++ [missing])) : find missing ≠ none := by
  have he := Endless.of_ascent h ha
  have hm : missing ∈ names := he.mem_of_ascent h' (h.head_mem ha) (by simp)
  obtain ⟨p, _, hp, _⟩ := he missing hm
  simp [hp]

theorem cycle_not_merged {names : List String} {again : String} {l : List Preset}
    (h : Ascent find name (names ++ [again])) (ha : again ∈ names) : ¬ Lineage find name l :=
  (Endless.of_ascent h ha).not_lineage (h.head_mem ha)

theorem unknown_eq_of_initial {names met : List String} {missing other : String}
    (hm : find missing = none) (h' : Ascent find name (met ++ [other]))
    (hpre : names ++ [missing] <+: met ++ [other]) : missing = other := by
  rcases List.prefix_concat_iff.mp hpre with heq | hpre
  · simpa using (List.append_inj' heq rfl).2
  · obtain ⟨p, _, hp, _⟩ := h'.parent_of_mem (hpre.subset (by simp : missing ∈ names ++ [missing]))
    simp [hm] at hp

theorem cycle_eq_of_initial {names met : List String} {again other : String} (ha : again ∈ names)
    (hd : met.Nodup) (hpre : names ++ [again] <+: met ++ [other]) :
    names ++ [again] = met ++ [other] := by
  rcases List.prefix_concat_iff.mp hpre with heq | hpre
  · exact heq
  · have hnd : (names ++ [again]).Nodup := hd.sublist hpre.sublist
    have := (List.nodup_append.mp hnd).2.2 again ha again (by simp)
    exact absurd rfl this

theorem unique {r r' : Except Failure Params} (h : Resolution find name r)
    (h' : Resolution find name r') : r = r' := by
  cases h with
  | merged hl =>
      cases h' with
      | merged hl' => rw [hl.unique hl']
      | unknown h' hm' => exact absurd hm' (merged_not_unknown hl h')
      | cycle h' _ ha' => exact absurd hl (cycle_not_merged h' ha')
  | unknown h hm =>
      cases h' with
      | merged hl' => exact absurd hm (merged_not_unknown hl' h)
      | unknown h' hm' =>
          rcases h.comparable h' with hpre | hpre
          · rw [unknown_eq_of_initial hm h' hpre]
          · rw [unknown_eq_of_initial hm' h hpre]
      | cycle h' _ ha' => exact absurd hm (cycle_not_unknown h' ha' h)
  | cycle h hd ha =>
      cases h' with
      | merged hl' => exact absurd hl' (cycle_not_merged h ha)
      | unknown h' hm' => exact absurd hm' (cycle_not_unknown h ha h')
      | cycle h' hd' ha' =>
          rcases h.comparable h' with hpre | hpre
          · rw [cycle_eq_of_initial ha hd' hpre]
          · rw [cycle_eq_of_initial ha' hd hpre]

end Resolution

end DeclarativeBuild
