import DeclarativeBuild.Proofs.Preset.Lineage

/-!
# The memo of a preset table

A table remembers what it resolved.  Whatever it was asked before, and in between whichever
declarations, it remembers nothing but what lineages give, so its answers depend on the declarations
alone.
-/

namespace DeclarativeBuild

/-- What is remembered of a name is what its lineage gives. -/
def Recalls (find : String → Option Preset) (known : List (String × Params)) : Prop :=
  ∀ name params, known.lookup name = some params →
    ∃ lineage, Lineage find name lineage ∧ params = lineageParams lineage

namespace Recalls

variable {find : String → Option Preset} {known : List (String × Params)}

theorem nil : Recalls find [] := by
  intro name params h
  simp at h

theorem cons {name : String} {lineage : List Preset} (hk : Recalls find known)
    (hl : Lineage find name lineage) : Recalls find ((name, lineageParams lineage) :: known) := by
  intro other params h
  by_cases ho : other = name
  · subst ho
    have hp : lineageParams lineage = params := by simpa using h
    exact ⟨lineage, hl, hp.symm⟩
  · have hb : (other == name) = false := by simpa using ho
    exact hk other params (by simpa [List.lookup_cons, hb] using h)

theorem mono {find' : String → Option Preset} (hf : ∀ n p, find n = some p → find' n = some p)
    (hk : Recalls find known) : Recalls find' known := by
  intro name params h
  obtain ⟨lineage, hl, hp⟩ := hk name params h
  exact ⟨lineage, hl.mono hf, hp⟩

end Recalls

namespace PresetTable

theorem nodup_append_of_contains_eq_false {chain : List String} {name : String}
    (hd : chain.Nodup) (hc : chain.contains name = false) : (chain ++ [name]).Nodup := by
  have hm : name ∉ chain := by simpa using hc
  refine List.nodup_append.mpr ⟨hd, by simp, ?_⟩
  intro n hn m hn'
  obtain rfl := List.mem_singleton.mp hn'
  exact fun h => hm (h ▸ hn)

/-- A resolution that was reached from `start` by way of `chain` gives what the lineage of its name
gives, or fails as the whole resolution of `start` does. -/
theorem resolveFrom_spec {presets : List Preset} {start name : String} {chain : List String}
    {known : List (String × Params)} (hk : Recalls (firstNamed presets) known)
    (ha : Ascent (firstNamed presets) start (chain ++ [name])) (hd : chain.Nodup) :
    Recalls (firstNamed presets) (resolveFrom presets chain name known).2 ∧
      (∀ params, (resolveFrom presets chain name known).1 = .ok params →
        ∃ lineage, Lineage (firstNamed presets) name lineage ∧ params = lineageParams lineage) ∧
      ∀ failure, (resolveFrom presets chain name known).1 = .error failure →
        Resolution (firstNamed presets) start (.error failure) := by
  fun_induction resolveFrom presets chain name known with
  | case1 chain name params hl =>
      -- The memo is asked before the chain; what it holds has a lineage, so no cycle is overlooked.
      exact ⟨hk, fun _ h => Except.ok.inj h ▸ hk name params hl, by simp⟩
  | case2 chain name hl hc =>
      have hm : name ∈ chain := by simpa using hc
      refine ⟨hk, by simp, fun failure h => ?_⟩
      exact Except.error.inj h ▸ .cycle ha hd hm
  | case3 chain name hl hc hp =>
      refine ⟨hk, by simp, fun failure h => ?_⟩
      exact Except.error.inj h ▸ .unknown ha hp
  | case4 chain name hl hc p hp hr params =>
      have hroot : Lineage (firstNamed presets) name [p] := .root hp hr
      have hparams : params = lineageParams [p] := rfl
      refine ⟨hparams ▸ hk.cons hroot, fun _ h => ?_, by simp⟩
      exact ⟨[p], hroot, (Except.ok.inj h).symm.trans hparams⟩
  | case5 chain name hl hc p hp parent hn failure known' hrec ih =>
      -- A failure above is told of `start` already.  What was learnt on the way stays in the memo.
      have hspec := ih (ha.snoc hp hn) (nodup_append_of_contains_eq_false hd hc)
      rw [hrec] at hspec
      exact ⟨hspec.1, by simp, fun f h => hspec.2.2 f h⟩
  | case6 chain name hl hc p hp parent hn base known' hrec params ih =>
      have hspec := ih (ha.snoc hp hn) (nodup_append_of_contains_eq_false hd hc)
      rw [hrec] at hspec
      obtain ⟨above, hl', rfl⟩ := hspec.2.1 base rfl
      have hchild : Lineage (firstNamed presets) name (p :: above) := .child hp hn hl'
      have hparams : params = lineageParams (p :: above) := (lineageParams_cons p above).symm
      refine ⟨hparams ▸ hspec.1.cons hchild, fun _ h => ?_, by simp⟩
      exact ⟨p :: above, hchild, (Except.ok.inj h).symm.trans hparams⟩

/-- The memo of a table holds what its own declarations give. -/
def Sound (t : PresetTable) : Prop :=
  Recalls t.find? t.known

theorem find?_eq_firstNamed (t : PresetTable) : t.find? = firstNamed t.presets := rfl

variable {t u : PresetTable}

theorem resolve_spec (ht : t.Sound) (name : String) :
    Resolution t.find? name (t.resolve name).1 ∧ (t.resolve name).2.Sound := by
  have hstay : Ascent (firstNamed t.presets) name ([] ++ [name]) := .stay name
  obtain ⟨hk, hok, herror⟩ := resolveFrom_spec ht hstay List.nodup_nil
  refine ⟨?_, hk⟩
  cases hr : (t.resolve name).1 with
  | ok params =>
      obtain ⟨lineage, hl, rfl⟩ := hok params hr
      exact .merged hl
  | error failure => exact herror failure hr

@[simp] theorem presets_apply (t : PresetTable) (preset? : Option String) (own : Params) :
    (t.apply preset? own).2.presets = t.presets := by
  cases preset? <;> rfl

@[simp] theorem find?_apply (t : PresetTable) (preset? : Option String) (own : Params) :
    (t.apply preset? own).2.find? = t.find? := by
  rw [find?_eq_firstNamed, presets_apply, find?_eq_firstNamed]

theorem sound_apply (ht : t.Sound) (preset? : Option String) (own : Params) :
    (t.apply preset? own).2.Sound := by
  cases preset? with
  | none => exact ht
  | some name => exact (resolve_spec ht name).2

theorem firstNamed_append (ps qs : List Preset) (name : String) :
    firstNamed (ps ++ qs) name = (firstNamed ps name).or (firstNamed qs name) :=
  List.find?_append

theorem find?_declare (t : PresetTable) (p : Preset) (name : String) :
    (t.declare p).2.find? name = (t.find? name).or (firstNamed [p] name) := by
  unfold declare
  split
  · next hc =>
    by_cases hn : p.name = name
    · subst hn
      exact (Option.or_of_isSome hc).symm
    · have hnone : firstNamed [p] name = none := by simp [firstNamed, hn]
      simp [hnone]
  · exact firstNamed_append t.presets [p] name

theorem sound_declare (ht : t.Sound) (p : Preset) : (t.declare p).2.Sound := by
  have hk : (t.declare p).2.known = t.known := by
    unfold declare
    split <;> rfl
  have hf : ∀ name q, t.find? name = some q → (t.declare p).2.find? name = some q := by
    intro name q hq
    rw [find?_declare, hq, Option.some_or]
  unfold Sound
  rw [hk]
  exact ht.mono hf

/-- What is done to a table. -/
inductive Operation where
  | declare (p : Preset)
  | resolve (name : String)
  | apply (preset? : Option String) (own : Params)
deriving DecidableEq, Repr

namespace Operation

def run (t : PresetTable) : Operation → PresetTable
  | declare p => (t.declare p).2
  | resolve name => (t.resolve name).2
  | apply preset? own => (t.apply preset? own).2

def declared? : Operation → Option Preset
  | declare p => some p
  | resolve _ | apply _ _ => none

theorem sound_run (ht : t.Sound) (o : Operation) : (o.run t).Sound := by
  cases o with
  | declare p => exact sound_declare ht p
  | resolve name => exact (resolve_spec ht name).2
  | apply preset? own => exact sound_apply ht preset? own

theorem find?_run (t : PresetTable) (o : Operation) (name : String) :
    (o.run t).find? name = (t.find? name).or (firstNamed o.declared?.toList name) := by
  cases o with
  | declare p => exact find?_declare t p name
  | resolve _ => exact (Option.or_none).symm
  | apply preset? own =>
      rw [run, find?_apply]
      exact (Option.or_none).symm

end Operation

/-- The table after a history of operations that starts from nothing. -/
def after (history : List Operation) : PresetTable :=
  history.foldl Operation.run empty

/-- All presets that a history declares, also those whose name is taken by then. -/
def declarations (history : List Operation) : List Preset :=
  history.filterMap Operation.declared?

theorem sound_foldl (ht : t.Sound) (history : List Operation) :
    (history.foldl Operation.run t).Sound := by
  induction history generalizing t with
  | nil => exact ht
  | cons o rest ih => exact ih (o.sound_run ht)

theorem sound_after (history : List Operation) : (after history).Sound :=
  sound_foldl (t := empty) Recalls.nil history

theorem find?_foldl (t : PresetTable) (history : List Operation) (name : String) :
    (history.foldl Operation.run t).find? name =
      (t.find? name).or (firstNamed (declarations history) name) := by
  induction history generalizing t with
  | nil => exact (Option.or_none).symm
  | cons o rest ih =>
      have hd : declarations (o :: rest) = o.declared?.toList ++ declarations rest := by
        cases o <;> rfl
      rw [List.foldl_cons, ih, o.find?_run, hd, firstNamed_append, Option.or_assoc]

theorem find?_after (history : List Operation) :
    (after history).find? = firstNamed (declarations history) := by
  funext name
  exact find?_foldl empty history name

/-- Tables that declare the same, whatever they remember. -/
structure Agree (t u : PresetTable) : Prop where
  find_eq : t.find? = u.find?
  left : t.Sound
  right : u.Sound

theorem agree_after {history other : List Operation}
    (h : declarations history = declarations other) : Agree (after history) (after other) :=
  ⟨by rw [find?_after, find?_after, h], sound_after history, sound_after other⟩

namespace Agree

theorem resolve (h : Agree t u) (name : String) :
    (t.resolve name).1 = (u.resolve name).1 ∧ Agree (t.resolve name).2 (u.resolve name).2 := by
  obtain ⟨ht, ht'⟩ := resolve_spec h.left name
  obtain ⟨hu, hu'⟩ := resolve_spec h.right name
  exact ⟨ht.unique (h.find_eq ▸ hu), h.find_eq, ht', hu'⟩

theorem apply (h : Agree t u) (preset? : Option String) (own : Params) :
    (t.apply preset? own).1 = (u.apply preset? own).1 ∧
      Agree (t.apply preset? own).2 (u.apply preset? own).2 := by
  cases preset? with
  | none => exact ⟨rfl, h⟩
  | some name =>
      obtain ⟨heq, hagree⟩ := h.resolve name
      exact ⟨congrArg (·.map (·.merge own)) heq, hagree⟩

end Agree

/-- After any history, a name resolves to what its lineage among the declarations so far gives, or
fails as that lineage does; nothing else that was asked before can be told from an answer. -/
theorem resolve_after_iff (history : List Operation) (name : String) :
    (∀ result, ((after history).resolve name).1 = result ↔
      Resolution (firstNamed (declarations history)) name result) ∧
    ∀ other, declarations other = declarations history →
      ((after other).resolve name).1 = ((after history).resolve name).1 ∧
      ∀ preset? own,
        ((after other).apply preset? own).1 = ((after history).apply preset? own).1 := by
  have hres : Resolution (firstNamed (declarations history)) name
      ((after history).resolve name).1 := by
    have hspec := resolve_spec (sound_after history) name
    rw [find?_after] at hspec
    exact hspec.1
  refine ⟨fun result => ⟨?_, ?_⟩, fun other ho => ?_⟩
  · rintro rfl
    exact hres
  · exact fun h => hres.unique h
  · have hagree := agree_after ho
    exact ⟨(hagree.resolve name).1, fun preset? own => (hagree.apply preset? own).1⟩

/-- A preset whose parent is declared after it was looked up for the first time. -/
def lateParent : List Operation :=
  [.declare { name := "child", parent? := some "base", params := { opts := ["-O2"] } },
    .resolve "child", .declare { name := "base", parent? := none, params := { opts := ["-Wall"] } }]

theorem resolve_after_lateParent :
    declarations (lateParent.eraseIdx 1) = declarations lateParent ∧
      ((after lateParent).resolve "child").1 = .ok { opts := ["-Wall", "-O2"] } ∧
      ((after (lateParent.eraseIdx 1)).resolve "child").1 = .ok { opts := ["-Wall", "-O2"] } := by
  have hd : declarations (lateParent.eraseIdx 1) = declarations lateParent := rfl
  have hlineage : Lineage (firstNamed (declarations lateParent)) "child" _ :=
    .child rfl rfl (.root rfl rfl)
  obtain ⟨hiff, hother⟩ := resolve_after_iff lateParent "child"
  have hres := (hiff (.ok { opts := ["-Wall", "-O2"] })).mpr (.merged hlineage)
  exact ⟨hd, hres, (hother _ hd).1.trans hres⟩

end PresetTable

end DeclarativeBuild
