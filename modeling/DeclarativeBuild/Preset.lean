import DeclarativeBuild.Params

/-!
# Presets

Named parameters that build on other presets.  A table keeps the declarations and the merged
parameters of the names that were looked up before.
-/

namespace DeclarativeBuild

structure Preset where
  name : String
  parent? : Option String
  params : Params
deriving DecidableEq, Inhabited, Repr

def Preset.ofElement (props : Properties) (base : Path) (e : Element) : Except Failure Preset := do
  let name ← e.require "name"
  let params ← Params.ofElement props base e
  return { name, parent? := e.attribute? "parent", params }

/-- Presets in declaration order, and merged parameters that are known already. -/
structure PresetTable where
  presets : List Preset := []
  known : List (String × Params) := []

namespace PresetTable

def empty : PresetTable := {}

def find? (t : PresetTable) (name : String) : Option Preset :=
  t.presets.find? (·.name == name)

def contains (t : PresetTable) (name : String) : Bool :=
  (t.find? name).isSome

def names (t : PresetTable) : List String :=
  t.presets.map Preset.name

/-- Adds a preset unless its name is taken, and says whether it did. -/
def declare (t : PresetTable) (p : Preset) : Bool × PresetTable :=
  if t.contains p.name then (false, t) else (true, { t with presets := t.presets ++ [p] })

/-- How many presets are not on a chain of names. -/
def remaining (presets : List Preset) (chain : List String) : Nat :=
  presets.countP fun p => !chain.contains p.name

theorem remaining_lt {presets : List Preset} {chain : List String} {name : String} {p : Preset}
    (hp : presets.find? (·.name == name) = some p) (hn : chain.contains name = false) :
    remaining presets (chain ++ [name]) < remaining presets chain := by
  induction presets with
  | nil => simp at hp
  | cons q rest ih =>
    have mono : ∀ l : List Preset, remaining l (chain ++ [name]) ≤ remaining l chain := by
      intro l
      apply List.countP_mono_left
      simp +contextual
    by_cases hq : q.name = name
    · have := mono rest
      simp only [List.contains_eq_mem, decide_eq_false_iff_not] at hn
      simp only [remaining, List.countP_cons] at this ⊢
      simp [hq, hn]
      simp at this
      omega
    · have := ih (by simpa [List.find?_cons, hq] using hp)
      simp only [remaining, List.countP_cons] at this ⊢
      simp [hq]
      simp at this
      omega

/-- The merged parameters of a name whose descendants on `chain` wait for it. -/
def resolveFrom (presets : List Preset) (chain : List String) (name : String)
    (known : List (String × Params)) : Except Failure Params × List (String × Params) :=
  match known.lookup name with
  | some params => (.ok params, known)
  | none =>
    match _hc : chain.contains name with
    | true => (.error (.presetCycle (chain ++ [name])), known)
    | false =>
      match _hp : presets.find? (·.name == name) with
      | none => (.error (.unknownPreset name), known)
      | some preset =>
        match preset.parent? with
        | none =>
          let params := Params.empty.merge preset.params
          (.ok params, (name, params) :: known)
        | some parent =>
          match resolveFrom presets (chain ++ [name]) parent known with
          | (.error e, known) => (.error e, known)
          | (.ok base, known) =>
            let params := base.merge preset.params
            (.ok params, (name, params) :: known)
termination_by remaining presets chain
decreasing_by exact remaining_lt (by assumption) (by assumption)

/-- The parameters of a preset on top of those of its parents. -/
def resolve (t : PresetTable) (name : String) : Except Failure Params × PresetTable :=
  let (result, known) := resolveFrom t.presets [] name t.known
  (result, { t with known })

/-- Parameters on top of those of a preset, if one is named. -/
def apply (t : PresetTable) (preset? : Option String) (own : Params) :
    Except Failure Params × PresetTable :=
  match preset? with
  | none => (.ok own, t)
  | some name =>
    let (result, t) := t.resolve name
    (result.map (·.merge own), t)

end PresetTable

end DeclarativeBuild
