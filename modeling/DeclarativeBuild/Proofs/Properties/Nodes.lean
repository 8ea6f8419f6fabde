import DeclarativeBuild.Proofs.Properties.Growth

/-!
# Nested properties in document order

The property elements of a tree in the order in which they stand in the document, each with the
elements around it.  Declaring the tree is going through them one by one, where those inside an
element whose condition failed are passed over.
-/

namespace DeclarativeBuild
namespace Properties

/-- A property element and where it stands: the numbers of the children that lead to it, and the
elements around it, outermost first. -/
structure Node where
  address : List Nat
  around : List Element
  element : Element

/-- The names of the elements around a node and its own, with dots between them. -/
def Node.key? (n : Node) : Option String :=
  ((n.around ++ [n.element]).mapM fun e : Element => e.attribute? "name").map ".".intercalate

theorem Node.exists_of_key?_eq_some {n : Node} {key : String} (h : n.key? = some key) :
    ∃ name, n.element.attribute? "name" = some name := by
  obtain ⟨names, hnames, -⟩ := Option.map_eq_some_iff.mp h
  cases hname : n.element.attribute? "name" with
  | none => simp [List.mapM_append, hname] at hnames
  | some name => exact ⟨name, rfl⟩

mutual

/-- An element and the properties inside it, in document order. -/
def nodes (address : List Nat) (around : List Element) : Element → List Node
  | .mk tag attributes children text? =>
    let e := Element.mk tag attributes children text?
    ⟨address, around, e⟩ :: nodesIn address (around ++ [e]) 0 children

/-- The properties among the children of an element, which are counted from `i`. -/
def nodesIn (address : List Nat) (around : List Element) (i : Nat) : List Element → List Node
  | [] => []
  | e :: rest =>
    (if e.tag == "property" then nodes (address ++ [i]) around e else []) ++
      nodesIn address around (i + 1) rest

end

/-- The properties so far, and the addresses of the elements whose condition failed. -/
structure Walk where
  store : Properties
  shut : List (List Nat) := []

namespace Walk

variable {w : Walk} {n : Node}

/-- An element whose condition failed is at an address or around it. -/
def IsShut (w : Walk) (address : List Nat) : Prop :=
  ∃ a ∈ w.shut, a <+: address

instance (w : Walk) (address : List Nat) : Decidable (w.IsShut address) :=
  inferInstanceAs (Decidable (∃ a ∈ w.shut, a <+: address))

/-- How one node ends and what it leaves. -/
def after (w : Walk) (n : Node) : Except Failure Unit × Walk :=
  if w.IsShut n.address then (.ok (), w)
  else
    match w.store.holds n.element with
    | .error failure => (.error failure, w)
    | .ok false => (.ok (), { w with shut := n.address :: w.shut })
    | .ok true =>
      -- A node that has a name but no key is inside an element without a name, which fails first.
      match n.element.require "name", n.key? with
      | .error failure, _ => (.error failure, w)
      | .ok _, none => (.ok (), w)
      | .ok _, some key =>
        let (outcome, store) := runFrom w.store (declareOwn key n.element)
        (outcome, { w with store })

/-- Goes through one node. -/
def pass (n : Node) : ExceptT Failure (StateM Walk) Unit :=
  fun w => w.after n

@[simp] theorem runFrom_pass (w : Walk) (n : Node) : runFrom w (pass n) = w.after n := rfl

section

variable (hopen : ¬w.IsShut n.address)
include hopen

theorem runFrom_pass_of_holds_error {failure : Failure} (h : w.store.holds n.element = .error failure) :
    runFrom w (pass n) = (.error failure, w) := by
  rw [runFrom_pass, after, if_neg hopen, h]

theorem runFrom_pass_of_holds_false (h : w.store.holds n.element = .ok false) :
    runFrom w (pass n) = (.ok (), { w with shut := n.address :: w.shut }) := by
  rw [runFrom_pass, after, if_neg hopen, h]

theorem runFrom_pass_of_require_error (h : w.store.holds n.element = .ok true) {failure : Failure}
    (hname : n.element.require "name" = .error failure) :
    runFrom w (pass n) = (.error failure, w) := by
  rw [runFrom_pass, after, if_neg hopen, h, hname]

theorem runFrom_pass_of_key (h : w.store.holds n.element = .ok true) {name key : String}
    (hname : n.element.require "name" = .ok name) (hkey : n.key? = some key) :
    runFrom w (pass n) = ((runFrom w.store (declareOwn key n.element)).1,
      { w with store := (runFrom w.store (declareOwn key n.element)).2 }) := by
  rw [runFrom_pass, after, if_neg hopen, h, hname, hkey]

end

end Walk

theorem runFrom_declareOwn (p : Properties) (key : String) (e : Element) :
    runFrom p (declareOwn key e) =
      match e.attribute? "value" with
      | none => (.ok (), p)
      | some template =>
        if p.contains key then (.ok (), p)
        else
          match p.expand template with
          | .error failure => (.error failure, p)
          | .ok value => (.ok (), (p.declare key value).2) := by
  unfold declareOwn
  cases e.attribute? "value" with
  | none => rfl
  | some template =>
      dsimp only
      rw [runFrom_get_bind]
      split
      · rfl
      · rw [runFrom_get_bind, runFrom_lift_bind]
        cases p.expand template <;> rfl

theorem runFrom_declareElement (p : Properties) (outer : String) (e : Element) :
    runFrom p (declareElement outer e) =
      match p.holds e with
      | .error failure => (.error failure, p)
      | .ok false => (.ok (), p)
      | .ok true =>
        match e.require "name" with
        | .error failure => (.error failure, p)
        | .ok name => runFrom p (declareOwn (outer ++ name) e >>= fun _ =>
            declareChildren (outer ++ name ++ ".") e.children) := by
  obtain ⟨tag, attributes, children, text?⟩ := e
  unfold declareElement
  dsimp only
  rw [runFrom_get_bind, runFrom_lift_bind]
  cases p.holds (.mk tag attributes children text?) with
  | error failure => rfl
  | ok holds =>
      cases holds with
      | false => rfl
      | true =>
          dsimp only
          rw [if_pos rfl, runFrom_lift_bind]
          cases (Element.mk tag attributes children text?).require "name" <;> rfl

theorem declareChildren_cons (outer : String) (e : Element) (rest : List Element) :
    declareChildren outer (e :: rest) =
      (if e.tag == "property" then declareElement outer e else pure ()) >>= fun _ =>
        declareChildren outer rest := by
  rw [declareChildren]
  split <;> rfl

/-- Going through nodes ends as declaring does and leaves the same properties, and only addresses in
a part of the tree are shut on the way. -/
structure Follows (part : List Nat → Prop) (w : Walk) (walk : ExceptT Failure (StateM Walk) Unit)
    (steps : Declaring Unit) : Prop where
  outcome : (runFrom w walk).1 = (runFrom w.store steps).1
  store : (runFrom w walk).2.store = (runFrom w.store steps).2
  shut : ∀ a ∈ (runFrom w walk).2.shut, a ∈ w.shut ∨ part a

namespace Follows

variable {part : List Nat → Prop} {w : Walk} {walk more : ExceptT Failure (StateM Walk) Unit}
  {steps others : Declaring Unit}

theorem pure : Follows part w (Pure.pure ()) (Pure.pure ()) :=
  ⟨rfl, rfl, fun _ h => .inl h⟩

theorem of_eq {outcome : Except Failure Unit} {w' : Walk} (hwalk : runFrom w walk = (outcome, w'))
    (hsteps : runFrom w.store steps = (outcome, w'.store))
    (hshut : ∀ a ∈ w'.shut, a ∈ w.shut ∨ part a) : Follows part w walk steps :=
  ⟨by rw [hwalk, hsteps], by rw [hwalk, hsteps], by rw [hwalk]; exact hshut⟩

theorem mono {wider : List Nat → Prop} (h : Follows part w walk steps)
    (hpart : ∀ a, part a → wider a) : Follows wider w walk steps :=
  ⟨h.outcome, h.store, fun a ha => (h.shut a ha).imp_right (hpart a)⟩

theorem congr (h : Follows part w walk others)
    (hsteps : runFrom w.store steps = runFrom w.store others) : Follows part w walk steps :=
  ⟨hsteps ▸ h.outcome, hsteps ▸ h.store, h.shut⟩

theorem bind {first : List Nat → Prop} (h : Follows first w walk steps)
    (hfirst : ∀ a, first a → part a)
    (hmore : ∀ w' : Walk, (∀ a ∈ w'.shut, a ∈ w.shut ∨ first a) → Follows part w' more others) :
    Follows part w (walk >>= fun _ => more) (steps >>= fun _ => others) := by
  obtain ⟨houtcome, hstore, hshut⟩ := h
  rcases hw : runFrom w walk with ⟨outcome, w'⟩
  rcases hs : runFrom w.store steps with ⟨outcome', p⟩
  rw [hw] at houtcome hstore hshut
  rw [hs] at houtcome hstore
  obtain rfl : outcome = outcome' := houtcome
  obtain rfl : w'.store = p := hstore
  cases outcome with
  | error failure =>
      have hleft := runFrom_bind_of_error hw fun _ => more
      have hright := runFrom_bind_of_error hs fun _ => others
      exact ⟨by rw [hleft, hright], by rw [hleft, hright], 
        fun a ha => (hshut a (by rwa [hleft] at ha)).imp_right (hfirst a)⟩
  | ok _ =>
      have hleft := runFrom_bind_of_ok hw fun _ => more
      have hright := runFrom_bind_of_ok hs fun _ => others
      obtain ⟨houtcome', hstore', hshut'⟩ := hmore w' hshut
      refine ⟨by rw [hleft, hright]; exact houtcome', by rw [hleft, hright]; exact hstore', ?_⟩
      rw [hleft]
      exact fun a ha => (hshut' a ha).elim (fun h => (hshut a h).imp_right (hfirst a)) .inr

end Follows

mutual

theorem prefix_address_of_mem_nodes (address : List Nat) (around : List Element) : (e : Element) →
    ∀ n ∈ nodes address around e, address <+: n.address
  | .mk tag attributes children text? => by
      intro n hn
      rw [nodes] at hn
      rcases List.mem_cons.mp hn with rfl | hn
      · exact List.prefix_rfl
      · exact prefix_address_of_mem_nodesIn address _ 0 children n hn

theorem prefix_address_of_mem_nodesIn (address : List Nat) (around : List Element) (i : Nat) :
    (elements : List Element) → ∀ n ∈ nodesIn address around i elements, address <+: n.address
  | [] => by simp [nodesIn]
  | e :: rest => by
      intro n hn
      rw [nodesIn] at hn
      rcases List.mem_append.mp hn with hfirst | hrest
      · split at hfirst
        · exact (List.prefix_append address [i]).trans
            (prefix_address_of_mem_nodes _ around e n hfirst)
        · simp at hfirst
      · exact prefix_address_of_mem_nodesIn address around (i + 1) rest n hrest

end

/-- Nodes at or inside an element whose condition failed are passed over. -/
theorem runFrom_forM_pass_of_isShut {w : Walk} {items : List Node}
    (h : ∀ n ∈ items, w.IsShut n.address) : runFrom w (items.forM Walk.pass) = (.ok (), w) := by
  induction items with
  | nil => rfl
  | cons n rest ih =>
      have hpass : runFrom w (Walk.pass n) = (.ok (), w) :=
        if_pos (h n List.mem_cons_self)
      rw [forM_cons, runFrom_bind_of_ok hpass]
      exact ih fun m hm => h m (List.mem_cons_of_mem n hm)

/-- Neither of two addresses is at or inside the other. -/
def IsApart (a b : List Nat) : Prop :=
  ¬a <+: b ∧ ¬b <+: a

theorem IsApart.child {a address : List Nat} (h : IsApart a address) (i : Nat) :
    IsApart a (address ++ [i]) := by
  have hchild : address <+: address ++ [i] := List.prefix_append address [i]
  refine ⟨fun ha => ?_, fun ha => h.2 (hchild.trans ha)⟩
  exact (List.prefix_or_prefix_of_prefix ha hchild).elim h.1 h.2

theorem isApart_of_ne {address a : List Nat} {i j : Nat} (h : i ≠ j) (ha : address ++ [i] <+: a) :
    IsApart a (address ++ [j]) := by
  have hsiblings : ∀ {k l : Nat}, address ++ [k] <+: address ++ [l] → k = l := by
    intro k l hkl
    rw [List.prefix_append_right_inj, List.cons_prefix_cons] at hkl
    exact hkl.1
  refine ⟨fun hb => h (hsiblings (ha.trans hb)), fun hb => ?_⟩
  rcases List.prefix_or_prefix_of_prefix ha hb with hij | hji
  · exact h (hsiblings hij)
  · exact h (hsiblings hji).symm

theorem attribute?_of_require {e : Element} {name value : String}
    (h : e.require name = .ok value) : e.attribute? name = some value := by
  unfold Element.require at h
  split at h
  · next hfound => rw [hfound, Except.ok.inj h]
  · cases h

/-- The names of the elements around a node, which stand before its own. -/
structure Names (outer : String) (around : List Element) (names : List String) : Prop where
  names_eq : (around.mapM fun e : Element => e.attribute? "name") = some names
  joined : ∀ name, ".".intercalate (names ++ [name]) = outer ++ name

namespace Names

variable {outer name : String} {around : List Element} {names : List String} {e : Element}

theorem nil : Names "" [] [] :=
  ⟨rfl, by simp⟩

theorem concat (h : Names outer around names) (he : e.attribute? "name" = some name) :
    Names (outer ++ name ++ ".") (around ++ [e]) (names ++ [name]) := by
  refine ⟨by simp [List.mapM_append, h.names_eq, he], fun inner => ?_⟩
  rw [String.intercalate_append_of_ne_nil (by simp) (by simp), h.joined,
    String.intercalate_singleton]

theorem key?_eq (h : Names outer around names) (he : e.attribute? "name" = some name)
    (address : List Nat) : Node.key? ⟨address, around, e⟩ = some (outer ++ name) := by
  rw [Node.key?, (h.concat he).names_eq, Option.map_some, h.joined]

end Names

mutual

theorem follows_nodes {w : Walk} {outer : String} {around : List Element} {names : List String}
    (hnames : Names outer around names) (address : List Nat)
    (hapart : ∀ a ∈ w.shut, IsApart a address) : (e : Element) →
    Follows (address <+: ·) w ((nodes address around e).forM Walk.pass) (declareElement outer e)
  | .mk tag attributes children text? => by
      have hdeclare := runFrom_declareElement w.store outer (.mk tag attributes children text?)
      have hopen : ¬w.IsShut address := fun ⟨a, ha, hprefix⟩ => (hapart a ha).1 hprefix
      rw [nodes]
      generalize he : Element.mk tag attributes children text? = e at hdeclare ⊢
      have hchildren : e.children = children := he ▸ rfl
      let n : Node := ⟨address, around, e⟩
      cases hholds : w.store.holds e with
      | error failure =>
          have hpass := Walk.runFrom_pass_of_holds_error (n := n) hopen hholds
          rw [hholds] at hdeclare
          exact .of_eq (runFrom_bind_of_error hpass _) hdeclare fun _ h => .inl h
      | ok holds =>
          cases holds with
          | false =>
              have hpass := Walk.runFrom_pass_of_holds_false (n := n) hopen hholds
              rw [hholds] at hdeclare
              have hinside : runFrom (⟨w.store, address :: w.shut⟩ : Walk)
                  ((nodesIn address (around ++ [e]) 0 children).forM Walk.pass) =
                  (.ok (), ⟨w.store, address :: w.shut⟩) := by
                apply runFrom_forM_pass_of_isShut
                intro n hn
                exact ⟨address, List.mem_cons_self, prefix_address_of_mem_nodesIn _ _ _ _ n hn⟩
              refine .of_eq ((runFrom_bind_of_ok hpass _).trans hinside) hdeclare fun a ha => ?_
              rcases List.mem_cons.mp ha with rfl | ha
              · exact .inr List.prefix_rfl
              · exact .inl ha
          | true =>
              cases hname : e.require "name" with
              | error failure =>
                  have hpass := Walk.runFrom_pass_of_require_error (n := n) hopen hholds hname
                  rw [hholds, hname] at hdeclare
                  exact .of_eq (runFrom_bind_of_error hpass _) hdeclare fun _ h => .inl h
              | ok name =>
                  have hattribute := attribute?_of_require hname
                  have hkey := hnames.key?_eq hattribute address
                  have hown : Follows (fun _ => False) w (Walk.pass n)
                      (declareOwn (outer ++ name) e) :=
                    .of_eq (Walk.runFrom_pass_of_key (n := n) hopen hholds hname hkey) rfl fun _ => .inl
                  rw [hholds, hname, hchildren] at hdeclare
                  refine Follows.congr ?_ hdeclare
                  rw [forM_cons]
                  -- Its own property shuts nothing, so that the children are apart from what is shut.
                  refine hown.bind (fun _ => False.elim) fun w' hshut => ?_
                  have hinner := hnames.concat hattribute
                  refine (follows_nodesIn hinner address 0 ?_ children).mono ?_
                  · intro j _ a ha
                    exact (hapart a ((hshut a ha).resolve_right id)).child j
                  · rintro a ⟨j, -, ha⟩
                    exact (List.prefix_append address [j]).trans ha

theorem follows_nodesIn {w : Walk} {outer : String} {around : List Element} {names : List String}
    (hnames : Names outer around names) (address : List Nat) (i : Nat)
    (hapart : ∀ j, i ≤ j → ∀ a ∈ w.shut, IsApart a (address ++ [j])) : (elements : List Element) →
    Follows (fun a => ∃ j, i ≤ j ∧ address ++ [j] <+: a) w
      ((nodesIn address around i elements).forM Walk.pass) (declareChildren outer elements)
  | [] => by
      rw [nodesIn, declareChildren]
      exact .pure
  | e :: rest => by
      have hfirst : Follows (address ++ [i] <+: ·) w
          ((if e.tag == "property" then nodes (address ++ [i]) around e else []).forM Walk.pass)
          (if e.tag == "property" then declareElement outer e else Pure.pure ()) := by
        split
        · exact follows_nodes hnames _ (hapart i (Nat.le_refl i)) e
        · exact .pure
      rw [nodesIn, declareChildren_cons, forM_append]
      refine hfirst.bind (fun a ha => ⟨i, Nat.le_refl i, ha⟩) fun w' hshut => ?_
      refine (follows_nodesIn hnames address (i + 1) ?_ rest).mono ?_
      -- What the first child shuts is inside it, and apart from the children after it.
      · intro j hj a ha
        rcases hshut a ha with ha | ha
        · exact hapart j (by omega) a ha
        · exact isApart_of_ne (by omega) ha
      · rintro a ⟨j, hj, ha⟩
        exact ⟨j, by omega, ha⟩

end

end Properties
end DeclarativeBuild
