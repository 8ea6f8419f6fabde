import DeclarativeBuild.Disk.Change
import DeclarativeBuild.Proofs.Text.Splitting

/-!
# Following paths

Where a path leads, told step by step, and the place that its last name stands for.  A path to
something leads to a directory where something stands under its last name.
-/

namespace DeclarativeBuild

namespace Path

/-- Whether a text can only be the name of something in a directory. -/
def isPlainName (name : String) : Bool :=
  !name.toList.contains '/' && !isIdle name && name != ".."

/-- A name that is joined to a directory is the last piece, after the steps to that directory. -/
theorem exists_pieces_join (base : Path) {name : String} (h : '/' ∉ name.toList) :
    ∃ before, (base.join ⟨name⟩).pieces = before ++ [name] ∧
      before.filter (!isIdle ·) = Disk.location base := by
  have hslash : ("/" : String) = String.singleton '/' := rfl
  have hname := Text.splitString_of_notMem h
  have hidle : isIdle "" = true := by decide
  have hempty : Text.splitString '/' "" = [""] := rfl
  have hrel : isAbsolute ⟨name⟩ = false := by
    rw [isAbsolute, beq_eq_false_iff_ne]
    exact fun hhead => h (List.mem_of_head? hhead)
  unfold join
  rw [hrel, Bool.false_or]
  split
  · next hbase =>
    refine ⟨[], hname, ?_⟩
    rw [Disk.location, pieces, eq_of_beq hbase, hempty, List.filter_cons_of_neg (by simp [hidle])]
  · split
    · next hlast =>
      obtain ⟨cs, hcs⟩ := List.getLast?_eq_some_iff.mp (eq_of_beq hlast)
      have htext : base.text = String.ofList cs ++ "/" ++ "" := by
        apply String.toList_inj.mp
        simpa using hcs
      refine ⟨Text.splitString '/' (String.ofList cs), ?_, ?_⟩
      · rw [pieces, htext, String.append_empty, hslash, Text.splitString_append, hname]
      · rw [Disk.location, pieces, htext, hslash, Text.splitString_append, hempty,
          List.filter_append, List.filter_cons_of_neg (by simp [hidle]), List.filter_nil,
          List.append_nil]
    · exact ⟨base.pieces, by rw [pieces, hslash, Text.splitString_append, hname]; rfl, rfl⟩

end Path

namespace Disk

/-- The name at the end of a path. -/
def lastName? (p : Path) : Option String :=
  (splitLast p).2.map Prod.fst

theorem lastName?_join (base : Path) {name : String} (h : Path.isPlainName name = true) :
    lastName? (base.join ⟨name⟩) = some name := by
  obtain ⟨⟨hsep, hidle⟩, hup⟩ : ('/' ∉ name.toList ∧ Path.isIdle name = false) ∧ name ≠ ".." := by
    simpa [Path.isPlainName] using h
  obtain ⟨before, hbefore, -⟩ := Path.exists_pieces_join base hsep
  have hne : (name == "") = false := by
    rw [Path.isIdle, Bool.or_eq_false_iff] at hidle
    exact hidle.1
  simp [lastName?, splitLast, hbefore, hne, hidle, hup]

variable {d d' : Disk} {loc : Location}

/-- A text that stands for something in a directory when a path is followed. -/
def IsStep (piece : String) : Prop :=
  Path.isIdle piece = false ∧ piece ≠ ".." ∧ piece.utf8ByteSize ≤ nameLimit

/-- All that is new on the second disk are files. -/
def OnlyGainsFiles (d d' : Disk) : Prop :=
  ∀ loc e, e.isFile = false → d'.lookup loc = some e → d.lookup loc = some e

/-- Pieces lead from one location to another, where links are followed to the end. -/
inductive Leads (d : Disk) : Nat → Location → List String → Location → Prop
  | arrived (links : Nat) (here : Location) : Leads d links here [] here
  | stay {links : Nat} {here loc : Location} {piece : String} {rest : List String}
      (directory : d.lookup here = some .directory) (idle : Path.isIdle piece = true)
      (onward : Leads d links here rest loc) : Leads d links here (piece :: rest) loc
  | up {links : Nat} {here loc : Location} {rest : List String}
      (directory : d.lookup here = some .directory)
      (onward : Leads d links here.dropLast rest loc) : Leads d links here (".." :: rest) loc
  | follow {links : Nat} {here loc : Location} {piece target : String} {rest : List String}
      (directory : d.lookup here = some .directory) (step : IsStep piece)
      (link : d.lookup (here ++ [piece]) = some (.link target))
      (onward : Leads d links (if Path.isAbsolute ⟨target⟩ then [] else here)
        (Path.pieces ⟨target⟩ ++ rest) loc) : Leads d (links + 1) here (piece :: rest) loc
  | down {links : Nat} {here loc : Location} {piece : String} {rest : List String}
      (directory : d.lookup here = some .directory) (step : IsStep piece)
      (other : ∀ target, d.lookup (here ++ [piece]) ≠ some (.link target))
      (onward : Leads d links (here ++ [piece]) rest loc) : Leads d links here (piece :: rest) loc

variable {links : Nat} {here : Location} {pieces : List String}

theorem leads_of_walk (h : d.walk true links here pieces = .ok loc) :
    d.Leads links here pieces loc := by
  fun_induction walk d true links here pieces with
  | case1 links here =>
      cases h
      exact .arrived _ _
  | case3 links here piece rest directory idle ih => exact .stay directory idle (ih h)
  | case4 links here piece rest directory idle hup ih =>
      obtain rfl := eq_of_beq hup
      exact .up directory (ih h)
  | case8 here piece rest directory idle hup hlimit target link _ links start ih =>
      exact .follow directory ⟨by simpa using idle, by simpa using hup, by omega⟩ link (ih h)
  | case9 links here piece rest directory idle hup hlimit other ih =>
      exact .down directory ⟨by simpa using idle, by simpa using hup, by omega⟩ other (ih h)
  | case2 | case5 | case7 | case10 => cases h
  | case6 => simp_all

theorem walk_of_leads (h : d.Leads links here pieces loc) :
    d.walk true links here pieces = .ok loc := by
  induction h with
  | arrived links here => rw [walk]
  | stay directory idle _ ih =>
      rw [walk, directory]
      simp only [idle, if_true, ih]
  | up directory _ ih =>
      rw [walk, directory]
      have hidle : Path.isIdle ".." = false := by decide
      simp only [hidle, Bool.false_eq_true, if_false, beq_self_eq_true, if_true, ih]
  | follow directory step link _ ih =>
      rw [walk, directory]
      have hup := beq_false_of_ne step.2.1
      simp only [step.1, hup, Nat.not_lt.mpr step.2.2, link, Bool.false_eq_true, if_false, ih,
        Bool.not_true, Bool.and_false]
  | down directory step other _ ih =>
      rw [walk, directory]
      have hup := beq_false_of_ne step.2.1
      simp only [step.1, hup, Nat.not_lt.mpr step.2.2, Bool.false_eq_true, if_false]
      exact ih

theorem walk_eq_ok_iff : d.walk true links here pieces = .ok loc ↔ d.Leads links here pieces loc :=
  ⟨leads_of_walk, walk_of_leads⟩

namespace Leads

theorem lookup_here_eq_directory (h : d.Leads links here pieces loc)
    (hend : d.lookup loc = some .directory) : d.lookup here = some .directory := by
  cases h <;> assumption

theorem lookup_here_ne_none (h : d.Leads links here pieces loc) (hend : d.lookup loc ≠ none) :
    d.lookup here ≠ none := by
  cases h <;> simp_all

/-- A dot at the end asks for a directory. -/
theorem lookup_end (h : d.Leads links here pieces loc) {before : List String}
    (hp : pieces = before ++ ["."]) : d.lookup loc = some .directory := by
  induction h generalizing before with
  | arrived links here => simp at hp
  | stay directory idle onward ih =>
      cases before with
      | nil =>
          obtain ⟨rfl, rfl⟩ := List.cons_eq_cons.mp hp
          cases onward
          exact directory
      | cons p before => exact ih (List.cons_eq_cons.mp hp).2
  | up directory onward ih =>
      cases before with
      | nil => simp at hp
      | cons p before => exact ih (List.cons_eq_cons.mp hp).2
  | follow directory step link onward ih =>
      cases before with
      | nil =>
          obtain ⟨rfl, rfl⟩ := List.cons_eq_cons.mp hp
          exact absurd step.1 (by decide)
      | cons p before =>
          obtain ⟨rfl, rfl⟩ := List.cons_eq_cons.mp hp
          exact ih (List.append_assoc _ _ _).symm
  | down directory step other onward ih =>
      cases before with
      | nil =>
          obtain ⟨rfl, rfl⟩ := List.cons_eq_cons.mp hp
          exact absurd step.1 (by decide)
      | cons p before => exact ih (List.cons_eq_cons.mp hp).2

/-- A path to something leads to the directory of its last name, where something stands under that
name. -/
theorem exists_directory (h : d.Leads links here pieces loc) (hend : d.lookup loc ≠ none)
    {before after : List String} {name : String} (hp : pieces = before ++ name :: after)
    (hidle : Path.isIdle name = false) (hup : name ≠ "..") :
    ∃ directory, d.Leads links here (before ++ ["."]) directory ∧
      d.lookup (directory ++ [name]) ≠ none := by
  have hdot : Path.isIdle "." = true := by decide
  -- The names before the last are walked alike, and the walk stops where the last one is looked up.
  induction h generalizing before with
  | arrived links here => simp at hp
  | stay directory idle onward ih =>
      cases before with
      | nil =>
          obtain ⟨rfl, rfl⟩ := List.cons_eq_cons.mp hp
          rw [idle] at hidle
          cases hidle
      | cons p before =>
          obtain ⟨rfl, rfl⟩ := List.cons_eq_cons.mp hp
          obtain ⟨found, hfound, hname⟩ := ih hend rfl
          exact ⟨found, .stay directory idle hfound, hname⟩
  | up directory onward ih =>
      cases before with
      | nil => exact absurd (List.cons_eq_cons.mp hp).1.symm hup
      | cons p before =>
          obtain ⟨rfl, rfl⟩ := List.cons_eq_cons.mp hp
          obtain ⟨found, hfound, hname⟩ := ih hend rfl
          exact ⟨found, .up directory hfound, hname⟩
  | @follow links here loc piece target rest directory step link onward ih =>
      cases before with
      | nil =>
          obtain ⟨rfl, rfl⟩ := List.cons_eq_cons.mp hp
          exact ⟨here, .stay directory hdot (.arrived _ _), by simp [link]⟩
      | cons p before =>
          obtain ⟨rfl, rfl⟩ := List.cons_eq_cons.mp hp
          obtain ⟨found, hfound, hname⟩ := ih hend (List.append_assoc _ _ _).symm
          rw [List.append_assoc] at hfound
          exact ⟨found, .follow directory step link hfound, hname⟩
  | @down links here loc piece rest directory step other onward ih =>
      cases before with
      | nil =>
          obtain ⟨rfl, rfl⟩ := List.cons_eq_cons.mp hp
          exact ⟨here, .stay directory hdot (.arrived _ _), onward.lookup_here_ne_none hend⟩
      | cons p before =>
          obtain ⟨rfl, rfl⟩ := List.cons_eq_cons.mp hp
          obtain ⟨found, hfound, hname⟩ := ih hend rfl
          exact ⟨found, .down directory step other hfound, hname⟩

/-- What leads to a directory after files were gained did so before. -/
theorem of_onlyGainsFiles (hd : d.OnlyGainsFiles d') (h : d'.Leads links here pieces loc)
    (hend : d'.lookup loc = some .directory) : d.Leads links here pieces loc := by
  induction h with
  | arrived links here => exact .arrived links here
  | stay directory idle _ ih => exact .stay (hd _ _ rfl directory) idle (ih hend)
  | up directory _ ih => exact .up (hd _ _ rfl directory) (ih hend)
  | follow directory step link _ ih =>
      exact .follow (hd _ _ rfl directory) step (hd _ _ rfl link) (ih hend)
  | down directory step other onward ih =>
      refine .down (hd _ _ rfl directory) step (fun target hlink => ?_) (ih hend)
      rw [hd _ _ rfl (onward.lookup_here_eq_directory hend)] at hlink
      cases hlink

end Leads

theorem splitLast_eq_some {p : Path} {before : List String} {name : String} {slashed : Bool}
    (h : splitLast p = (before, some (name, slashed))) :
    ∃ after, p.pieces = before ++ name :: after ∧ Path.isIdle name = false ∧ name ≠ ".." := by
  unfold splitLast at h
  split at h
  · simp at h
  · next last rest hdrop =>
    simp only [Prod.mk.injEq] at h
    obtain ⟨rfl, h⟩ := h
    split at h
    · cases h
    · next hplain =>
      obtain ⟨rfl, -⟩ := by simpa using h
      simp only [Bool.or_eq_true, beq_iff_eq, not_or, Bool.not_eq_true] at hplain
      have happend := List.takeWhile_append_dropWhile (p := (· == "")) (l := p.pieces.reverse)
      rw [hdrop] at happend
      refine ⟨(p.pieces.reverse.takeWhile (· == "")).reverse, ?_, hplain⟩
      have hreverse := congrArg List.reverse happend
      simpa using hreverse.symm

/-- Nothing stands where a path leads. -/
def Vacant (d : Disk) (cwd p : Path) : Prop :=
  ∀ s, d.slot cwd p = .ok (some s) → d.lookup s.location = none

/-- Whether something stands where a path leads. -/
def isTaken (d : Disk) (cwd p : Path) : Bool :=
  match d.slot cwd p with
  | .ok (some s) => (d.lookup s.location).isSome
  | _ => false

theorem vacant_of_isTaken_eq_false {cwd p : Path} (h : d.isTaken cwd p = false) :
    d.Vacant cwd p := by
  intro s hs
  simpa [isTaken, hs] using h

theorem slot_eq_some_iff {cwd p : Path} {s : Slot} :
    d.slot cwd p = .ok (some s) ↔
      textFault? p = none ∧ ∃ before, splitLast p = (before, some (s.name, s.slashed)) ∧
        d.Leads linkLimit (startOf cwd p) (before ++ ["."]) s.directory := by
  unfold slot
  cases textFault? p with
  | some fault => simp
  | none =>
      obtain ⟨before, last⟩ := splitLast p
      simp only [true_and]
      cases hw : d.walk true linkLimit (startOf cwd p) (before ++ ["."]) with
      | error fault => simp [← walk_eq_ok_iff, hw]
      | ok directory =>
          cases last with
          | none => simp
          | some last =>
              obtain ⟨name, slashed⟩ := last
              obtain ⟨directory', name', slashed'⟩ := s
              simp only [← walk_eq_ok_iff]
              constructor
              · intro h
                obtain ⟨rfl, rfl, rfl⟩ := by simpa using h
                exact ⟨before, rfl, hw⟩
              · rintro ⟨before', hsplit, hw'⟩
                obtain ⟨rfl, rfl, rfl⟩ := by simpa using hsplit
                obtain rfl := Except.ok.inj (hw.symm.trans hw')
                rfl

theorem lastName?_of_slot {cwd p : Path} {s : Slot} (h : d.slot cwd p = .ok (some s)) :
    lastName? p = some s.name := by
  obtain ⟨-, before, hsplit, -⟩ := slot_eq_some_iff.mp h
  rw [lastName?, hsplit]
  rfl

theorem slot_of_onlyGainsFiles (hd : d.OnlyGainsFiles d') {cwd p : Path} {s : Slot}
    (h : d'.slot cwd p = .ok (some s)) : d.slot cwd p = .ok (some s) := by
  obtain ⟨hfault, before, hsplit, hleads⟩ := slot_eq_some_iff.mp h
  -- A slot is led to by a dot at the end, so it is in a directory, which is no new file.
  have hold := hleads.of_onlyGainsFiles hd (hleads.lookup_end rfl)
  exact slot_eq_some_iff.mpr ⟨hfault, before, hsplit, hold⟩

/-- There is nothing at a path that leads to a vacant place. -/
theorem Vacant.contains_eq_false {cwd p : Path} {name : String} (h : d.Vacant cwd p)
    (hn : lastName? p = some name) : d.contains cwd p = false := by
  rw [Bool.eq_false_iff]
  intro hc
  unfold contains entryAt locate at hc
  cases hfault : textFault? p with
  | some fault => simp [hfault, Except.isOk, Except.toBool] at hc
  | none =>
      simp only [hfault] at hc
      cases hw : d.walk true linkLimit (startOf cwd p) p.pieces with
      | error fault => simp [hw, Except.isOk, Except.toBool] at hc
      | ok loc =>
          have hend : d.lookup loc ≠ none := by
            intro hnone
            simp [hw, hnone, Except.isOk, Except.toBool] at hc
          obtain ⟨⟨before, last⟩, hsplit⟩ : ∃ split, splitLast p = split := ⟨_, rfl⟩
          cases last with
          | none => simp [lastName?, hsplit] at hn
          | some last =>
              obtain ⟨name', slashed⟩ := last
              obtain ⟨after, hpieces, hidle, hup⟩ := splitLast_eq_some hsplit
              obtain ⟨directory, hleads, hentry⟩ :=
                (walk_eq_ok_iff.mp hw).exists_directory hend hpieces hidle hup
              exact hentry (h ⟨directory, name', slashed⟩
                (slot_eq_some_iff.mpr ⟨hfault, before, hsplit, hleads⟩))

end Disk

end DeclarativeBuild
