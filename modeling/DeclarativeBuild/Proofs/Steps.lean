import DeclarativeBuild.Project.Import
import Mathlib.Order.Defs.Unbundled

/-!
# Steps that change a state and may fail

How steps end and what they leave behind.  A relation that every single step keeps between the state
it finds and the state it leaves is kept by whole programs, also by those that fail on the way.
-/

namespace DeclarativeBuild

variable {ε σ α β : Type}

/-- How steps end and what they leave, begun in a state. -/
def runFrom (s : σ) (steps : ExceptT ε (StateM σ) α) : Except ε α × σ :=
  (ExceptT.run steps).run s

@[simp] theorem runFrom_pure (s : σ) (a : α) :
    runFrom s (pure a : ExceptT ε (StateM σ) α) = (.ok a, s) := rfl

theorem runFrom_bind (s : σ) (steps : ExceptT ε (StateM σ) α)
    (next : α → ExceptT ε (StateM σ) β) :
    runFrom s (steps >>= next) =
      match runFrom s steps with
      | (.error e, s') => (.error e, s')
      | (.ok a, s') => runFrom s' (next a) := by
  unfold runFrom
  rw [ExceptT.run_bind, StateT.run_bind]
  change (match (ExceptT.run steps).run s with | (outcome, s') => _) = _
  cases (ExceptT.run steps).run s with
  | mk outcome s' => cases outcome <;> rfl

@[simp] theorem runFrom_tryCatch (s : σ) (steps : ExceptT ε (StateM σ) α)
    (handler : ε → ExceptT ε (StateM σ) α) :
    runFrom s (tryCatch steps handler) =
      match runFrom s steps with
      | (.error e, s') => runFrom s' (handler e)
      | (.ok a, s') => (.ok a, s') := by
  unfold runFrom
  change ((ExceptT.run steps >>= fun outcome => match outcome with
    | .ok a => pure (.ok a)
    | .error e => ExceptT.run (handler e) : StateM σ _).run s) = _
  rw [StateT.run_bind]
  change (match (ExceptT.run steps).run s with | (outcome, s') => _) = _
  cases (ExceptT.run steps).run s with
  | mk outcome s' => cases outcome <;> rfl

theorem runFrom_bind_of_ok {s s' : σ} {steps : ExceptT ε (StateM σ) α} {a : α}
    (h : runFrom s steps = (.ok a, s')) (next : α → ExceptT ε (StateM σ) β) :
    runFrom s (steps >>= next) = runFrom s' (next a) := by
  rw [runFrom_bind, h]

theorem runFrom_bind_of_error {s s' : σ} {steps : ExceptT ε (StateM σ) α} {e : ε}
    (h : runFrom s steps = (.error e, s')) (next : α → ExceptT ε (StateM σ) β) :
    runFrom s (steps >>= next) = (.error e, s') := by
  rw [runFrom_bind, h]

theorem runFrom_get_bind (s : σ) (next : σ → ExceptT ε (StateM σ) β) :
    runFrom s (get >>= next) = runFrom s (next s) := rfl

theorem runFrom_lift_bind (s : σ) (outcome : Except ε α) (next : α → ExceptT ε (StateM σ) β) :
    runFrom s (liftM outcome >>= next) =
      match outcome with
      | .error e => (.error e, s)
      | .ok a => runFrom s (next a) := by
  cases outcome <;> rfl

theorem runFrom_bind_eq_ok {s t : σ} {steps : ExceptT ε (StateM σ) α}
    {next : α → ExceptT ε (StateM σ) β} {b : β} (h : runFrom s (steps >>= next) = (.ok b, t)) :
    ∃ a s', runFrom s steps = (.ok a, s') ∧ runFrom s' (next a) = (.ok b, t) := by
  rw [runFrom_bind] at h
  cases hs : runFrom s steps with
  | mk outcome s' =>
      rw [hs] at h
      cases outcome with
      | error e => simp at h
      | ok a => exact ⟨a, s', rfl, h⟩

theorem runFrom_bind_eq_error {s t : σ} {steps : ExceptT ε (StateM σ) α}
    {next : α → ExceptT ε (StateM σ) β} {e : ε}
    (h : runFrom s (steps >>= next) = (.error e, t)) :
    runFrom s steps = (.error e, t) ∨
      ∃ a s', runFrom s steps = (.ok a, s') ∧ runFrom s' (next a) = (.error e, t) := by
  rw [runFrom_bind] at h
  cases hs : runFrom s steps with
  | mk outcome s' =>
      rw [hs] at h
      cases outcome with
      | error e' =>
          refine .inl ?_
          simpa using h
      | ok a => exact .inr ⟨a, s', rfl, h⟩

section Lists

variable {ι : Type} {act : ι → ExceptT ε (StateM σ) PUnit}

theorem forM_cons (i : ι) (rest : List ι) :
    (i :: rest).forM act = act i >>= fun _ => rest.forM act := rfl

theorem forM_append (before after : List ι) :
    (before ++ after).forM act = before.forM act >>= fun _ => after.forM act :=
  List.forM_append

/-- Items that are all gone through are gone through part by part. -/
theorem runFrom_forM_append_eq_ok {s t : σ} {before after : List ι}
    (h : runFrom s ((before ++ after).forM act) = (.ok ⟨⟩, t)) :
    ∃ s', runFrom s (before.forM act) = (.ok ⟨⟩, s') ∧
      runFrom s' (after.forM act) = (.ok ⟨⟩, t) := by
  induction before generalizing s with
  | nil => exact ⟨s, rfl, h⟩
  | cons i rest ih =>
      rw [List.cons_append, forM_cons] at h
      obtain ⟨_, s₁, hi, hrest⟩ := runFrom_bind_eq_ok h
      obtain ⟨s', hbefore, hafter⟩ := ih hrest
      refine ⟨s', ?_, hafter⟩
      rw [forM_cons, runFrom_bind_of_ok hi]
      exact hbefore

/-- Where going through items fails, it fails at one of them. -/
theorem runFrom_forM_eq_error {s t : σ} {items : List ι} {e : ε}
    (h : runFrom s (items.forM act) = (.error e, t)) :
    ∃ before i after s', items = before ++ i :: after ∧
      runFrom s (before.forM act) = (.ok ⟨⟩, s') ∧ runFrom s' (act i) = (.error e, t) := by
  induction items generalizing s with
  | nil => simp at h
  | cons i rest ih =>
      rw [forM_cons] at h
      rcases runFrom_bind_eq_error h with hi | ⟨_, s', hi, hrest⟩
      · exact ⟨[], i, rest, s, rfl, rfl, hi⟩
      · obtain ⟨before, j, after, u, rfl, hbefore, hj⟩ := ih hrest
        refine ⟨i :: before, j, after, u, rfl, ?_, hj⟩
        rw [forM_cons, runFrom_bind_of_ok hi]
        exact hbefore

/-- Going through items fails at the first that fails. -/
theorem runFrom_forM_of_error {s s' t : σ} {before : List ι} {i : ι} {e : ε}
    (hbefore : runFrom s (before.forM act) = (.ok ⟨⟩, s')) (hi : runFrom s' (act i) = (.error e, t))
    (after : List ι) : runFrom s ((before ++ i :: after).forM act) = (.error e, t) := by
  induction before generalizing s with
  | nil =>
      obtain rfl : s = s' := congrArg Prod.snd hbefore
      rw [List.nil_append, forM_cons, runFrom_bind_of_error hi]
  | cons j rest ih =>
      rw [forM_cons] at hbefore
      obtain ⟨_, u, hj, hrest⟩ := runFrom_bind_eq_ok hbefore
      rw [List.cons_append, forM_cons, runFrom_bind_of_ok hj]
      exact ih hrest

end Lists

/-- Steps keep a relation between what they find and what they leave, however they end. -/
def Ensures (R : σ → σ → Prop) (steps : ExceptT ε (StateM σ) α) : Prop :=
  ∀ s, R s (runFrom s steps).2

namespace Ensures

variable {R : σ → σ → Prop}

theorem mono {Q : σ → σ → Prop} {steps : ExceptT ε (StateM σ) α} (h : Ensures R steps)
    (hq : ∀ s t, R s t → Q s t) : Ensures Q steps :=
  fun s => hq _ _ (h s)

theorem pure [Std.Refl R] (a : α) : Ensures R (Pure.pure a : ExceptT ε (StateM σ) α) :=
  fun s => refl_of R s

theorem throw [Std.Refl R] (e : ε) :
    Ensures R (MonadExcept.throw e : ExceptT ε (StateM σ) α) :=
  fun s => refl_of R s

theorem get [Std.Refl R] : Ensures R (MonadState.get : ExceptT ε (StateM σ) σ) :=
  fun s => refl_of R s

theorem modify {change : σ → σ} (h : ∀ s, R s (change s)) :
    Ensures R (modify change : ExceptT ε (StateM σ) PUnit) :=
  h

theorem lift [Std.Refl R] (outcome : Except ε α) :
    Ensures R (liftM outcome : ExceptT ε (StateM σ) α) :=
  fun s => refl_of R s

theorem bind [IsTrans σ R] {steps : ExceptT ε (StateM σ) α}
    {next : α → ExceptT ε (StateM σ) β} (hs : Ensures R steps) (hn : ∀ a, Ensures R (next a)) :
    Ensures R (steps >>= next) := by
  intro s
  have h := hs s
  rw [runFrom_bind]
  generalize runFrom s steps = found at h ⊢
  obtain ⟨outcome, s'⟩ := found
  cases outcome with
  | error e => exact h
  | ok a => exact trans_of R h (hn a s')

theorem forM [Std.Refl R] [IsTrans σ R] {ι : Type} {act : ι → ExceptT ε (StateM σ) PUnit}
    (h : ∀ i, Ensures R (act i)) (items : List ι) : Ensures R (items.forM act) := by
  induction items with
  | nil => exact .pure _
  | cons i rest ih =>
      rw [forM_cons]
      exact (h i).bind fun _ => ih

end Ensures

namespace Import

@[simp] theorem runFrom_check_ok (l : Loading) (a : α) :
    runFrom l (check (.ok a)) = (.ok a, l) := rfl

@[simp] theorem runFrom_check_error (l : Loading) (failure : Failure) :
    runFrom l (check (.error failure) : Import α) = (.error (.failed failure), l) := rfl

@[simp] theorem runFrom_project (l : Loading) :
    runFrom l Import.project = (.ok l.project, l) := rfl

@[simp] theorem runFrom_update (l : Loading) (change : Project → Project) :
    runFrom l (update change) = (.ok ⟨⟩, { l with project := change l.project }) := rfl

@[simp] theorem runFrom_note (l : Loading) (level : LogLevel) (text : String) :
    runFrom l (note level text) =
      (.ok ⟨⟩, { l with journal := l.journal ++ [⟨level, text⟩] }) := rfl

@[simp] theorem runFrom_afterwards (l : Loading) (steps : Import α) (change : Project → Project) :
    runFrom l (afterwards steps change) =
      ((runFrom l steps).1,
        { (runFrom l steps).2 with project := change (runFrom l steps).2.project }) := rfl

end Import

end DeclarativeBuild
