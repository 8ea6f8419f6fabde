import DeclarativeBuild.Proofs.Properties.Nodes
import Mathlib.Data.List.Induction

/-!
# What nested properties declare

Each node of a tree is looked at in the properties that the nodes before it leave.  A name that has
no value gets that of the first node that is reached and declares it, and a node that fails leaves
the properties as it finds them.
-/

namespace DeclarativeBuild
namespace Properties

section Histories

/-! What is left after some nodes in document order is told by a function of these nodes. -/

variable (left : List Node → Properties)

/-- The conditions of the elements around a node hold, each where it was looked at. -/
def Entered (before : List Node) (n : Node) : Prop :=
  ∀ earlier u, earlier ++ [u] <+: before → u.address <+: n.address →
    (left earlier).holds u.element = .ok true

/-- So does its own. -/
def Reached (before : List Node) (n : Node) : Prop :=
  Entered left before n ∧ (left before).holds n.element = .ok true

/-- A node is reached and has a value for a name. -/
structure Declares (before : List Node) (n : Node) (key template : String) : Prop where
  reached : Reached left before n
  key_eq : n.key? = some key
  value_eq : n.element.attribute? "value" = some template

/-- One of the visited nodes has a value for a name. -/
def Declared (visited : List Node) (key : String) : Prop :=
  ∃ before n, before ++ [n] <+: visited ∧ ∃ template, Declares left before n key template

/-- The first node that has a value for a name gives it that value, expanded there. -/
def Adds (visited : List Node) (key value : String) : Prop :=
  ∃ before n, before ++ [n] <+: visited ∧ ¬Declared left before key ∧
    ∃ template, Declares left before n key template ∧ (left before).expand template = .ok value

/-- How a node fails.  The value of a name that has one is not looked at. -/
inductive Fails (before : List Node) (n : Node) : Failure → Prop
  | condition {name : String} (hentered : Entered left before n)
      (hif : n.element.attribute? "if" = some name)
      (hcompared : n.element.has "eq" = true ∨ n.element.has "neq" = true)
      (habsent : (left before).get? name = none) : Fails before n (.undefinedProperty name)
  | nameless (hreached : Reached left before n) (hname : n.element.has "name" = false) :
      Fails before n (.missingAttribute n.element.tag "name")
  | value {key template name : String} (hdeclares : Declares left before n key template)
      (habsent : (left before).get? key = none)
      (hundefined : (left before).expand template = .error (.undefinedProperty name)) :
      Fails before n (.undefinedProperty name)

/-- What is left after each of the visited nodes, none of which fails: the properties that were there,
and those that nodes add. -/
structure History (p : Properties) (visited : List Node) : Prop where
  get?_iff : ∀ before, before <+: visited → ∀ key value, (left before).get? key = some value ↔
    p.get? key = some value ∨ p.get? key = none ∧ Adds left before key value
  contains_iff : ∀ before, before <+: visited → ∀ key, (left before).contains key = true ↔
    p.contains key = true ∨ Declared left before key
  not_fails : ∀ before n, before ++ [n] <+: visited → ∀ failure, ¬Fails left before n failure

/-- All nodes were visited, or the one after them fails. -/
def Ends (all visited : List Node) : Except Failure Unit → Prop
  | .ok _ => visited = all
  | .error failure => ∃ n, visited ++ [n] <+: all ∧ Fails left visited n failure

end Histories

theorem prefix_concat_iff {α : Type} {before visited : List α} {n m : α} :
    before ++ [n] <+: visited ++ [m] ↔ before ++ [n] <+: visited ∨ before = visited ∧ n = m := by
  rw [List.prefix_concat_iff, List.append_singleton_inj, or_comm]

theorem exists_prefix_concat_iff {α : Type} {visited : List α} {m : α} {P : List α → α → Prop} :
    (∃ before n, before ++ [n] <+: visited ++ [m] ∧ P before n) ↔
      (∃ before n, before ++ [n] <+: visited ∧ P before n) ∨ P visited m := by
  simp only [prefix_concat_iff, or_and_right, exists_or]
  refine or_congr_right ⟨?_, fun h => ⟨visited, m, ⟨rfl, rfl⟩, h⟩⟩
  rintro ⟨_, _, ⟨rfl, rfl⟩, h⟩
  exact h

theorem contains_eq_true_iff {p : Properties} {key : String} :
    p.contains key = true ↔ ∃ value, p.get? key = some value :=
  Option.isSome_iff_exists

theorem contains_eq_false_iff {p : Properties} {key : String} :
    p.contains key = false ↔ p.get? key = none := by
  simp [contains]

section Failures

variable {p : Properties} {e : Element} {failure : Failure}

theorem map_eq_error_iff {α β : Type} {x : Except Failure α} {f : α → β} :
    x.map f = .error failure ↔ x = .error failure := by
  cases x <;> simp [Except.map]

theorem compared_eq_error_iff {name : String} :
    p.compared name = .error failure ↔ p.get? name = none ∧ failure = .undefinedProperty name := by
  unfold compared
  cases p.get? name <;> simp [eq_comm]

/-- A condition fails only where it compares a property that there is not. -/
theorem holds_eq_error_iff :
    p.holds e = .error failure ↔ ∃ name, e.attribute? "if" = some name ∧
      (e.has "eq" = true ∨ e.has "neq" = true) ∧ p.get? name = none ∧
        failure = .undefinedProperty name := by
  unfold holds Element.has
  cases e.attribute? "if" with
  | none => simp
  | some name =>
      cases e.attribute? "eq" <;> cases e.attribute? "neq" <;>
        simp [map_eq_error_iff, compared_eq_error_iff]

theorem exists_of_fill_eq_error {value? : String → Option String}
    {segments : List Template.Segment} (h : Template.fill value? segments = .error failure) :
    ∃ name, failure = .undefinedProperty name := by
  induction segments with
  | nil => cases h
  | cons segment rest ih =>
      cases segment with
      | char c =>
          rw [Template.fill, map_eq_error_iff] at h
          exact ih h
      | reference name =>
          unfold Template.fill at h
          split at h
          · exact ⟨_, (Except.error.inj h).symm⟩
          · exact ih (map_eq_error_iff.mp h)

theorem exists_of_expand_eq_error {text : String} (h : p.expand text = .error failure) :
    ∃ name, failure = .undefinedProperty name := by
  rw [expand, Template.expand, map_eq_error_iff] at h
  exact exists_of_fill_eq_error h

end Failures

namespace Walk

variable {w w' : Walk} {n : Node} {key template value : String} {failure : Failure}

/-- A node that is not inside an element whose condition failed, and has a value for a name. -/
structure Declares (w : Walk) (n : Node) (key template : String) : Prop where
  isOpen : ¬w.IsShut n.address
  holds : w.store.holds n.element = .ok true
  key_eq : n.key? = some key
  value_eq : n.element.attribute? "value" = some template

/-- All that one node can do. -/
inductive Step (w : Walk) (n : Node) : Except Failure Unit × Walk → Prop
  | inside (h : w.IsShut n.address) : Step w n (.ok (), w)
  | unmet (hopen : ¬w.IsShut n.address) (h : w.store.holds n.element = .ok false) :
      Step w n (.ok (), { w with shut := n.address :: w.shut })
  | unknown {failure : Failure} (hopen : ¬w.IsShut n.address)
      (h : w.store.holds n.element = .error failure) : Step w n (.error failure, w)
  | nameless (hopen : ¬w.IsShut n.address) (h : w.store.holds n.element = .ok true)
      (hname : n.element.has "name" = false) :
      Step w n (.error (.missingAttribute n.element.tag "name"), w)
  | bare (hopen : ¬w.IsShut n.address) (h : w.store.holds n.element = .ok true)
      (hnone : ∀ key template, ¬w.Declares n key template) : Step w n (.ok (), w)
  | kept {key template : String} (h : w.Declares n key template)
      (hkey : w.store.contains key = true) : Step w n (.ok (), w)
  | undefined {key template : String} {failure : Failure} (h : w.Declares n key template)
      (hkey : w.store.contains key = false) (hexpand : w.store.expand template = .error failure) :
      Step w n (.error failure, w)
  | declared {key template value : String} (h : w.Declares n key template)
      (hkey : w.store.contains key = false) (hexpand : w.store.expand template = .ok value) :
      Step w n (.ok (), { w with store := (w.store.declare key value).2 })

/-- What a node does that has a value for a name. -/
theorem step_of_declares (h : w.Declares n key template) :
    w.Step n (match if w.store.contains key then (.ok (), w.store)
      else
        match w.store.expand template with
        | .error failure => (.error failure, w.store)
        | .ok value => (.ok (), (w.store.declare key value).2) with
      | (outcome, store) => (outcome, { w with store })) := by
  cases hcontains : w.store.contains key with
  | true => exact .kept h hcontains
  | false =>
      cases hexpand : w.store.expand template with
      | error failure => exact .undefined h hcontains hexpand
      | ok value => exact .declared h hcontains hexpand

theorem step_of_after {found : Except Failure Unit × Walk} (h : w.after n = found) :
    w.Step n found := by
  subst h
  unfold after
  split
  · next h => exact .inside h
  · next hopen =>
    cases hholds : w.store.holds n.element with
    | error failure => exact .unknown hopen hholds
    | ok holds =>
        cases holds with
        | false => exact .unmet hopen hholds
        | true =>
            cases hname : n.element.attribute? "name" with
            | none =>
                simp only [Element.require, hname]
                exact .nameless hopen hholds (by simp [Element.has, hname])
            | some name =>
                simp only [Element.require, hname]
                cases hkey : n.key? with
                | none => exact .bare hopen hholds fun key template h => by cases hkey ▸ h.key_eq
                | some key =>
                    simp only [runFrom_declareOwn]
                    cases hvalue : n.element.attribute? "value" with
                    | none =>
                        exact .bare hopen hholds fun key template h => by cases hvalue ▸ h.value_eq
                    | some template => exact step_of_declares ⟨hopen, hholds, hkey, hvalue⟩

theorem Declares.unique {other : String} (h : w.Declares n key template)
    (hother : w.Declares n other value) : other = key ∧ value = template :=
  ⟨Option.some.inj (hother.key_eq.symm.trans h.key_eq),
    Option.some.inj (hother.value_eq.symm.trans h.value_eq)⟩

/-- A node that does not fail is passed over, or its condition is looked at. -/
theorem Step.reached_or (h : w.Step n (.ok (), w')) :
    w.IsShut n.address ∨ w.store.holds n.element = .ok false ∨
      w.store.holds n.element = .ok true := by
  cases h with
  | inside h => exact .inl h
  | unmet _ h => exact .inr (.inl h)
  | bare _ h _ => exact .inr (.inr h)
  | kept h _ => exact .inr (.inr h.holds)
  | declared h _ _ => exact .inr (.inr h.holds)

theorem Step.exists_expand (h : w.Step n (.ok (), w')) (hdeclares : w.Declares n key template)
    (hkey : w.store.get? key = none) : ∃ value, w.store.expand template = .ok value := by
  cases h with
  | inside h => exact absurd h hdeclares.isOpen
  | unmet _ h => cases h.symm.trans hdeclares.holds
  | bare _ _ hnone => exact absurd hdeclares (hnone key template)
  | kept h hcontains =>
      obtain ⟨rfl, rfl⟩ := h.unique hdeclares
      cases (contains_eq_false_iff.mpr hkey).symm.trans hcontains
  | declared h _ hexpand =>
      obtain ⟨rfl, rfl⟩ := h.unique hdeclares
      exact ⟨_, hexpand⟩

/-- What a node that does not fail adds. -/
theorem Step.get?_iff (h : w.Step n (.ok (), w')) :
    w'.store.get? key = some value ↔ w.store.get? key = some value ∨
      w.store.get? key = none ∧
        ∃ template, w.Declares n key template ∧ w.store.expand template = .ok value := by
  have hsame : (∀ template, w.Declares n key template → w.store.get? key ≠ none) →
      (w.store.get? key = some value ↔ w.store.get? key = some value ∨
        w.store.get? key = none ∧
          ∃ template, w.Declares n key template ∧ w.store.expand template = .ok value) :=
    fun hnone => ⟨.inl, Or.rec id fun ⟨hkey, template, hdeclares, _⟩ =>
      absurd hkey (hnone template hdeclares)⟩
  cases h with
  | inside h => exact hsame fun template hdeclares => absurd h hdeclares.isOpen
  | unmet _ h =>
      refine hsame fun template hdeclares => ?_
      cases h.symm.trans hdeclares.holds
  | bare _ _ hnone => exact hsame fun template hdeclares => absurd hdeclares (hnone key template)
  | kept h hcontains =>
      refine hsame fun template hdeclares hkey => ?_
      obtain ⟨rfl, rfl⟩ := h.unique hdeclares
      cases (contains_eq_false_iff.mpr hkey).symm.trans hcontains
  | @declared own template found h hcontains hexpand =>
      rw [get?_declare]
      have hown := contains_eq_false_iff.mp hcontains
      by_cases hkey : key = own
      · subst hkey
        have hvalue : (∃ t, w.Declares n key t ∧ w.store.expand t = .ok value) ↔ found = value := by
          constructor
          · rintro ⟨t, hdeclares, ht⟩
            obtain ⟨-, rfl⟩ := h.unique hdeclares
            exact Except.ok.inj (hexpand.symm.trans ht)
          · rintro rfl
            exact ⟨template, h, hexpand⟩
        rw [hvalue]
        simp [hown]
      · have hnone : ¬∃ t, w.Declares n key t ∧ w.store.expand t = .ok value :=
          fun ⟨t, hdeclares, _⟩ => hkey (h.unique hdeclares).1
        simp [hkey, hnone]

theorem Step.shut_iff (h : w.Step n (.ok (), w')) (address : List Nat) :
    w'.IsShut address ↔ w.IsShut address ∨ n.address <+: address ∧
      ¬w.IsShut n.address ∧ w.store.holds n.element = .ok false := by
  cases h with
  | inside h => simp [h]
  | unmet hopen h =>
      have hshut : ({ w with shut := n.address :: w.shut } : Walk).IsShut address ↔
          n.address <+: address ∨ w.IsShut address := by
        simp [IsShut]
      rw [hshut, or_comm]
      simp [hopen, h]
  | bare _ h _ => simp [h]
  | kept h _ => simp [h.holds]
  | declared h _ _ => simp [h.holds, IsShut]

end Walk

/-- All of the visited nodes were gone through. -/
def Through (p : Properties) (visited : List Node) (w : Walk) : Prop :=
  runFrom (⟨p, []⟩ : Walk) (visited.forM Walk.pass) = (.ok (), w)

/-- What is left when nodes have been gone through. -/
def leftAfter (p : Properties) (visited : List Node) : Properties :=
  (runFrom (⟨p, []⟩ : Walk) (visited.forM Walk.pass)).2.store

variable {p : Properties} {visited : List Node} {n : Node} {w w' : Walk} {key template value : String}

theorem Through.leftAfter_eq (h : Through p visited w) : leftAfter p visited = w.store :=
  congrArg (fun found : Except Failure Unit × Walk => found.2.store) h

theorem Through.of_prefix {before : List Node} (h : Through p visited w) (hb : before <+: visited) :
    ∃ w', Through p before w' := by
  obtain ⟨after, rfl⟩ := hb
  obtain ⟨w', hbefore, -⟩ := runFrom_forM_append_eq_ok h
  exact ⟨w', hbefore⟩

theorem Through.concat (h : Through p (visited ++ [n]) w') :
    ∃ w, Through p visited w ∧ w.after n = (.ok (), w') := by
  obtain ⟨w, hvisited, hn⟩ := runFrom_forM_append_eq_ok h
  rw [forM_cons] at hn
  obtain ⟨_, w₁, hpass, hnil⟩ := runFrom_bind_eq_ok hn
  obtain rfl : w₁ = w' := congrArg Prod.snd hnil
  exact ⟨w, hvisited, hpass⟩

theorem entered_concat {left : List Node → Properties} {m : Node} :
    Entered left (visited ++ [m]) n ↔ Entered left visited n ∧
      (m.address <+: n.address → (left visited).holds m.element = .ok true) := by
  unfold Entered
  simp only [prefix_concat_iff, or_imp, forall_and, and_imp, forall_eq, forall_eq_apply_imp_iff]

/-- A node is inside an element whose condition failed exactly if not all conditions around it
held. -/
theorem Through.entered_iff (h : Through p visited w) (n : Node) :
    Entered (leftAfter p) visited n ↔ ¬w.IsShut n.address := by
  induction visited using List.reverseRecOn generalizing n w with
  | nil =>
      obtain rfl : (⟨p, []⟩ : Walk) = w := congrArg Prod.snd h
      simp [Entered, Walk.IsShut]
  | append_singleton visited m ih =>
      obtain ⟨w₀, hvisited, hafter⟩ := h.concat
      have hstep := Walk.step_of_after hafter
      rw [entered_concat, ih hvisited, hstep.shut_iff, hvisited.leftAfter_eq]
      have hinside : w₀.IsShut m.address → m.address <+: n.address → w₀.IsShut n.address :=
        fun ⟨a, ha, hprefix⟩ hm => ⟨a, ha, hprefix.trans hm⟩
      rcases hstep.reached_or with hshut | hholds | hholds
      · have hm := hinside hshut
        tauto
      · simp only [hholds, Except.ok.injEq, Bool.false_eq_true, and_true]
        tauto
      · simp [hholds]

theorem Through.declares_iff (h : Through p visited w) :
    Declares (leftAfter p) visited n key template ↔ w.Declares n key template := by
  have hentered := h.entered_iff n
  have hleft := h.leftAfter_eq
  constructor
  · rintro ⟨⟨he, hh⟩, hkey, hvalue⟩
    exact ⟨hentered.mp he, hleft ▸ hh, hkey, hvalue⟩
  · rintro ⟨hopen, hh, hkey, hvalue⟩
    exact ⟨⟨hentered.mpr hopen, hleft ▸ hh⟩, hkey, hvalue⟩

theorem get?_leftAfter_concat (h : Through p (visited ++ [n]) w) :
    (leftAfter p (visited ++ [n])).get? key = some value ↔
      (leftAfter p visited).get? key = some value ∨ (leftAfter p visited).get? key = none ∧
        ∃ template, Declares (leftAfter p) visited n key template ∧
          (leftAfter p visited).expand template = .ok value := by
  obtain ⟨w₀, hvisited, hafter⟩ := h.concat
  simp only [hvisited.declares_iff]
  rw [h.leftAfter_eq, hvisited.leftAfter_eq]
  exact (Walk.step_of_after hafter).get?_iff

theorem exists_expand_of_declares (h : Through p (visited ++ [n]) w)
    (hdeclares : Declares (leftAfter p) visited n key template)
    (hkey : (leftAfter p visited).get? key = none) :
    ∃ value, (leftAfter p visited).expand template = .ok value := by
  obtain ⟨w₀, hvisited, hafter⟩ := h.concat
  rw [hvisited.leftAfter_eq] at hkey ⊢
  exact (Walk.step_of_after hafter).exists_expand (hvisited.declares_iff.mp hdeclares) hkey

/-- A name has a value exactly if it had one or a visited node declares it. -/
theorem contains_leftAfter_iff (h : Through p visited w) (key : String) :
    (leftAfter p visited).contains key = true ↔
      p.contains key = true ∨ Declared (leftAfter p) visited key := by
  induction visited using List.reverseRecOn generalizing w with
  | nil => 
      have hnone : ¬Declared (leftAfter p) [] key := by simp [Declared]
      rw [or_iff_left hnone]
      rfl
  | append_singleton visited m ih =>
      obtain ⟨w₀, hvisited, -⟩ := h.concat
      have hconcat : Declared (leftAfter p) (visited ++ [m]) key ↔
          Declared (leftAfter p) visited key ∨
            ∃ template, Declares (leftAfter p) visited m key template :=
        exists_prefix_concat_iff
      rw [hconcat, ← or_assoc, ← ih hvisited, contains_eq_true_iff, contains_eq_true_iff]
      simp only [get?_leftAfter_concat h]
      constructor
      · rintro ⟨value, hold | ⟨-, template, hdeclares, -⟩⟩
        · exact .inl ⟨value, hold⟩
        · exact .inr ⟨template, hdeclares⟩
      · rintro (⟨value, hold⟩ | ⟨template, hdeclares⟩)
        · exact ⟨value, .inl hold⟩
        · cases hkey : (leftAfter p visited).get? key with
          | some value => exact ⟨value, .inl rfl⟩
          | none =>
              obtain ⟨value, hvalue⟩ := exists_expand_of_declares h hdeclares hkey
              exact ⟨value, .inr ⟨rfl, template, hdeclares, hvalue⟩⟩

/-- A name has the value that it had, or the one that the first node that declares it adds. -/
theorem get?_leftAfter_iff (h : Through p visited w) (key value : String) :
    (leftAfter p visited).get? key = some value ↔
      p.get? key = some value ∨ p.get? key = none ∧ Adds (leftAfter p) visited key value := by
  induction visited using List.reverseRecOn generalizing w with
  | nil =>
      have hnone : ¬Adds (leftAfter p) [] key value := by simp [Adds]
      simp only [hnone, and_false, or_false]
      rfl
  | append_singleton visited m ih =>
      obtain ⟨w₀, hvisited, -⟩ := h.concat
      have hconcat : Adds (leftAfter p) (visited ++ [m]) key value ↔
          Adds (leftAfter p) visited key value ∨ ¬Declared (leftAfter p) visited key ∧
            ∃ template, Declares (leftAfter p) visited m key template ∧
              (leftAfter p visited).expand template = .ok value :=
        exists_prefix_concat_iff
      -- A name that is still without a value cannot have been declared: it would have got one.
      have hnone : (leftAfter p visited).get? key = none ↔
          p.get? key = none ∧ ¬Declared (leftAfter p) visited key := by
        have hcontains := not_congr (contains_leftAfter_iff hvisited key)
        simpa [contains, not_or] using hcontains
      rw [get?_leftAfter_concat h, ih hvisited, hnone, hconcat]
      tauto

/-- A node fails exactly where going through it does, and changes nothing then. -/
theorem Through.after_eq_error_iff (h : Through p visited w) {failure : Failure} :
    w.after n = (.error failure, w') ↔ Fails (leftAfter p) visited n failure ∧ w' = w := by
  have hentered := h.entered_iff n
  have hleft := h.leftAfter_eq
  constructor
  · intro hafter
    cases Walk.step_of_after hafter with
    | unknown hopen hholds =>
        obtain ⟨name, hif, hcompared, habsent, rfl⟩ := holds_eq_error_iff.mp hholds
        exact ⟨.condition (hentered.mpr hopen) hif hcompared (hleft ▸ habsent), rfl⟩
    | nameless hopen hholds hname =>
        exact ⟨.nameless ⟨hentered.mpr hopen, hleft ▸ hholds⟩ hname, rfl⟩
    | undefined hdeclares hkey hexpand =>
        obtain ⟨name, rfl⟩ := exists_of_expand_eq_error hexpand
        have habsent := contains_eq_false_iff.mp hkey
        exact ⟨.value (h.declares_iff.mpr hdeclares) (hleft ▸ habsent) (hleft ▸ hexpand), rfl⟩
  · rintro ⟨hfails, rfl⟩
    cases hfails with
    | condition he hif hcompared habsent =>
        have hholds := holds_eq_error_iff.mpr ⟨_, hif, hcompared, hleft ▸ habsent, rfl⟩
        exact Walk.runFrom_pass_of_holds_error (hentered.mp he) hholds
    | nameless hreached hname =>
        have hnone : n.element.attribute? "name" = none := by simpa [Element.has] using hname
        refine Walk.runFrom_pass_of_require_error (hentered.mp hreached.1) (hleft ▸ hreached.2) ?_
        rw [Element.require, hnone]
    | value hdeclares habsent hexpand =>
        obtain ⟨hopen, hholds, hkey, hvalue⟩ := h.declares_iff.mp hdeclares
        obtain ⟨name, hname⟩ := Node.exists_of_key?_eq_some hkey
        rw [hleft] at habsent hexpand
        have hcontains := contains_eq_false_iff.mpr habsent
        rw [← Walk.runFrom_pass, Walk.runFrom_pass_of_key hopen hholds
          (by rw [Element.require, hname]) hkey]
        simp [runFrom_declareOwn, hvalue, hcontains, hexpand]

theorem history_of_through (h : Through p visited w) : History (leftAfter p) p visited := by
  refine ⟨fun before hb => ?_, fun before hb => ?_, fun before n hb failure hfails => ?_⟩
  · obtain ⟨w', hbefore⟩ := h.of_prefix hb
    exact get?_leftAfter_iff hbefore
  · obtain ⟨w', hbefore⟩ := h.of_prefix hb
    exact contains_leftAfter_iff hbefore
  · obtain ⟨w', hconcat⟩ := h.of_prefix hb
    obtain ⟨w₀, hbefore, hafter⟩ := hconcat.concat
    cases hafter.symm.trans (hbefore.after_eq_error_iff.mpr ⟨hfails, rfl⟩)

/-- Declaring the properties of an element goes through it and those inside it in document order, up
to the first that fails. -/
theorem declareElement_in_document_order (p : Properties) (e : Element) :
    ∃ left visited, History left p visited ∧ (runFrom p (declareElement "" e)).2 = left visited ∧
      Ends left (nodes [] [] e) visited (runFrom p (declareElement "" e)).1 := by
  obtain ⟨houtcome, hstore, -⟩ := follows_nodes (w := ⟨p, []⟩) .nil [] (by simp) e
  rw [← houtcome, ← hstore]
  generalize hrun : runFrom (⟨p, []⟩ : Walk) ((nodes [] [] e).forM Walk.pass) = found
  obtain ⟨outcome, w⟩ := found
  cases outcome with
  | ok _ =>
      have hall : Through p (nodes [] [] e) w := hrun
      exact ⟨leftAfter p, _, history_of_through hall, hall.leftAfter_eq.symm, rfl⟩
  | error failure =>
      obtain ⟨before, n, after, w₀, hnodes, hbefore, hn⟩ := runFrom_forM_eq_error hrun
      have hbefore : Through p before w₀ := hbefore
      obtain ⟨hfails, rfl⟩ := hbefore.after_eq_error_iff.mp hn
      refine ⟨leftAfter p, before, history_of_through hbefore, hbefore.leftAfter_eq.symm, n, ?_, hfails⟩
      exact ⟨after, by simp [hnodes]⟩

example :
    let inner : Element := .mk "property" [("name", "b"), ("value", "$\x7ba\x7d2")] [] none
    let skipped : Element := .mk "property" [("if", "a.b"), ("eq", "x")] [inner] none
    let outer : Element := .mk "property" [("name", "a"), ("value", "1")] [inner, skipped] none
    (runFrom ⟨[]⟩ (declareElement "" outer)).2.entries = [("a", "1"), ("a.b", "12")] := by
  cbv

end Properties
end DeclarativeBuild
