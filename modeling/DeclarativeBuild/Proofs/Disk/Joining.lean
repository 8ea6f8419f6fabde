import DeclarativeBuild.Proofs.Disk.Listing
import DeclarativeBuild.Proofs.Disk.Components

/-!
# Names joined to a directory

A walk along a path goes through the directory that its first pieces lead to.  So a path that a name
is joined to leads to what stands under the name in that directory.
-/

namespace DeclarativeBuild
namespace Disk

variable {d : Disk} {links : Nat} {here loc mid : Location} {before rest : List String}
variable {followLast : Bool}

/-- A walk goes on where its first pieces lead, with the links that are left. -/
theorem Leads.walk_append (h : d.Leads links here before mid) :
    ∃ left, ∀ followLast rest, rest ≠ [] →
      d.walk followLast links here (before ++ rest) = d.walk followLast left mid rest := by
  induction h with
  | arrived links here => exact ⟨links, fun _ _ _ => rfl⟩
  | stay directory idle _ ih =>
      obtain ⟨left, hleft⟩ := ih
      refine ⟨left, fun followLast rest hrest => ?_⟩
      rw [List.cons_append, walk, directory]
      simp only [idle, if_true, hleft followLast rest hrest]
  | up directory _ ih =>
      obtain ⟨left, hleft⟩ := ih
      refine ⟨left, fun followLast rest hrest => ?_⟩
      have hidle : Path.isIdle ".." = false := by decide
      rw [List.cons_append, walk, directory]
      simp only [hidle, Bool.false_eq_true, if_false, beq_self_eq_true, if_true,
        hleft followLast rest hrest]
  | @follow links here loc piece target pieces directory step link _ ih =>
      obtain ⟨left, hleft⟩ := ih
      refine ⟨left, fun followLast rest hrest => ?_⟩
      have hup := beq_false_of_ne step.2.1
      have hmore : (pieces ++ rest).isEmpty = false := by simp [hrest]
      have hnext := hleft followLast rest hrest
      rw [List.append_assoc] at hnext
      rw [List.cons_append, walk, directory]
      simp only [step.1, hup, Nat.not_lt.mpr step.2.2, link, Bool.false_eq_true, if_false, hmore,
        Bool.false_and, hnext]
  | down directory step other _ ih =>
      obtain ⟨left, hleft⟩ := ih
      refine ⟨left, fun followLast rest hrest => ?_⟩
      have hup := beq_false_of_ne step.2.1
      rw [List.cons_append, walk, directory]
      simp only [step.1, hup, Nat.not_lt.mpr step.2.2, Bool.false_eq_true, if_false]
      exact hleft followLast rest hrest

/-- A walk that goes on went where its first pieces lead. -/
theorem exists_leads_of_walk_append (h : d.walk followLast links here (before ++ rest) = .ok loc)
    (hrest : rest ≠ []) : ∃ mid, d.Leads links here before mid ∧ d.lookup mid = some .directory := by
  generalize hpieces : before ++ rest = pieces at h
  fun_induction walk d followLast links here pieces generalizing before with
  | case1 links here => simp [hrest] at hpieces
  | case2 | case5 | case7 | case10 => cases h
  | case3 links here piece more directory idle ih =>
      cases before with
      | nil => exact ⟨here, .arrived links here, directory⟩
      | cons first before =>
          obtain ⟨rfl, rfl⟩ := List.cons_eq_cons.mp hpieces
          obtain ⟨mid, hmid, hlookup⟩ := ih rfl h
          exact ⟨mid, .stay directory idle hmid, hlookup⟩
  | case4 links here piece more directory idle hup ih =>
      cases before with
      | nil => exact ⟨here, .arrived links here, directory⟩
      | cons first before =>
          obtain ⟨rfl, rfl⟩ := List.cons_eq_cons.mp hpieces
          obtain rfl := eq_of_beq hup
          obtain ⟨mid, hmid, hlookup⟩ := ih rfl h
          exact ⟨mid, .up directory hmid, hlookup⟩
  | case6 links here piece more directory idle hup hlimit target link hlast =>
      cases before with
      | nil => exact ⟨here, .arrived links here, directory⟩
      | cons first before =>
          obtain ⟨rfl, rfl⟩ := List.cons_eq_cons.mp hpieces
          simp [hrest] at hlast
  | case8 here piece more directory idle hup hlimit target link hlast links start =>
      rename_i ih
      cases before with
      | nil => exact ⟨here, .arrived _ here, directory⟩
      | cons first before =>
          obtain ⟨rfl, rfl⟩ := List.cons_eq_cons.mp hpieces
          obtain ⟨mid, hmid, hlookup⟩ := ih (List.append_assoc _ _ _) h
          exact ⟨mid, .follow directory ⟨by simpa using idle, by simpa using hup, by omega⟩ link hmid,
            hlookup⟩
  | case9 links here piece more directory idle hup hlimit other ih =>
      cases before with
      | nil => exact ⟨here, .arrived links here, directory⟩
      | cons first before =>
          obtain ⟨rfl, rfl⟩ := List.cons_eq_cons.mp hpieces
          obtain ⟨mid, hmid, hlookup⟩ := ih rfl h
          exact ⟨mid, .down directory ⟨by simpa using idle, by simpa using hup, by omega⟩ other hmid,
            hlookup⟩

/-- The last piece of a walk, seen from the directory that the pieces before it lead to. -/
theorem walk_singleton (h : d.lookup mid = some .directory) (followLast : Bool) (piece : String) :
    d.walk followLast links mid [piece] =
      if Path.isIdle piece then .ok mid
      else if piece == ".." then .ok mid.dropLast
      else if nameLimit < piece.utf8ByteSize then .error .nameTooLong
      else
        match d.lookup (mid ++ [piece]) with
        | some (.link target) =>
          if !followLast then .ok (mid ++ [piece])
          else
            match links with
            | 0 => .error .tooManyLinks
            | links + 1 =>
              d.walk followLast links (if Path.isAbsolute ⟨target⟩ then [] else mid)
                (Path.pieces ⟨target⟩)
        | _ => .ok (mid ++ [piece]) := by
  have hnil : ∀ links here, d.walk followLast links here [] = .ok here := by
    intro links here
    rw [walk]
  have hwalk := walk.eq_def d followLast links mid [piece]
  simp only [h, hnil, List.isEmpty_nil, Bool.true_and, List.append_nil] at hwalk
  exact hwalk

theorem leads_append_empty_iff :
    d.Leads links here (before ++ [""]) mid ↔
      d.Leads links here before mid ∧ d.lookup mid = some .directory := by
  have hidle : Path.isIdle "" = true := by decide
  constructor
  · intro h
    have hwalk := walk_of_leads h
    obtain ⟨mid', hmid, hdirectory⟩ := exists_leads_of_walk_append hwalk (List.cons_ne_nil _ _)
    obtain ⟨left, hleft⟩ := hmid.walk_append
    rw [hleft true [""] (List.cons_ne_nil _ _), walk_singleton hdirectory, if_pos hidle] at hwalk
    cases hwalk
    exact ⟨hmid, hdirectory⟩
  · rintro ⟨hmid, hdirectory⟩
    obtain ⟨left, hleft⟩ := hmid.walk_append
    apply leads_of_walk
    rw [hleft true [""] (List.cons_ne_nil _ _), walk_singleton hdirectory, if_pos hidle]

/-- What leads to something also does if the last link is not followed. -/
theorem Leads.exists_walk (h : d.Leads links here before mid) (hmid : d.lookup mid ≠ none) :
    ∃ loc, d.walk false links here before = .ok loc ∧ d.lookup loc ≠ none := by
  induction h with
  | arrived links here => exact ⟨here, by rw [walk], hmid⟩
  | stay directory idle _ ih =>
      obtain ⟨loc, hloc, hlookup⟩ := ih hmid
      refine ⟨loc, ?_, hlookup⟩
      rw [walk, directory]
      simp only [idle, if_true, hloc]
  | up directory _ ih =>
      obtain ⟨loc, hloc, hlookup⟩ := ih hmid
      refine ⟨loc, ?_, hlookup⟩
      have hidle : Path.isIdle ".." = false := by decide
      rw [walk, directory]
      simp only [hidle, Bool.false_eq_true, if_false, beq_self_eq_true, if_true, hloc]
  | @follow links here loc piece target rest directory step link _ ih =>
      obtain ⟨loc, hloc, hlookup⟩ := ih hmid
      have hup := beq_false_of_ne step.2.1
      rw [walk, directory]
      simp only [step.1, hup, Nat.not_lt.mpr step.2.2, link, Bool.false_eq_true, if_false]
      split
      · exact ⟨_, rfl, by simp [link]⟩
      · exact ⟨loc, hloc, hlookup⟩
  | down directory step other _ ih =>
      obtain ⟨loc, hloc, hlookup⟩ := ih hmid
      refine ⟨loc, ?_, hlookup⟩
      have hup := beq_false_of_ne step.2.1
      rw [walk, directory]
      simp only [step.1, hup, Nat.not_lt.mpr step.2.2, Bool.false_eq_true, if_false]
      exact hloc

end Disk

namespace Disk

theorem textFault?_eq_none_iff {p : Path} :
    textFault? p = none ↔
      '\x00' ∉ p.text.toList ∧ p.text ≠ "" ∧ p.text.utf8ByteSize ≤ pathLimit := by
  unfold textFault?
  split
  · next h => simp_all
  · next h =>
    split
    · next hempty => simp_all
    · next hempty => split <;> simp_all

end Disk

namespace Path

variable {base : Path} {name : String}

theorem text_ne_empty (h : base.isAbsolute = true) : base.text ≠ "" := by
  intro hempty
  rw [isAbsolute, hempty] at h
  cases h

theorem isAbsolute_of_notMem (h : '/' ∉ name.toList) : isAbsolute ⟨name⟩ = false := by
  rw [isAbsolute, beq_eq_false_iff_ne]
  exact fun hhead => h (List.mem_of_head? hhead)

/-- A relative path is joined to a directory with one separator before it. -/
theorem text_join (h : base.isAbsolute = true) (hrel : isAbsolute ⟨name⟩ = false) :
    (base.join ⟨name⟩).text =
      base.text ++ (if base.text.toList.getLast? == some '/' then "" else "/") ++ name := by
  have hbase : (base.text == "") = false := beq_eq_false_iff_ne.mpr (text_ne_empty h)
  simp only [join, hrel, hbase, Bool.or_self, Bool.false_eq_true, if_false]
  split <;> simp

/-- The pieces of a relative path come after those of the directory that it is joined to. -/
theorem exists_pieces_join_of_relative (h : base.isAbsolute = true)
    (hrel : isAbsolute ⟨name⟩ = false) :
    ∃ before, (base.join ⟨name⟩).pieces = before ++ Text.splitString '/' name ∧
      (base.pieces = before ∧ before.getLast? ≠ some "" ∨ base.pieces = before ++ [""]) := by
  have hslash : ("/" : String) = String.singleton '/' := rfl
  rw [pieces, text_join h hrel]
  split
  · next hlast =>
    obtain ⟨cs, hcs⟩ := List.getLast?_eq_some_iff.mp (eq_of_beq hlast)
    have htext : base.text = String.ofList cs ++ String.singleton '/' ++ "" := by
      apply String.toList_inj.mp
      simpa using hcs
    refine ⟨Text.splitString '/' (String.ofList cs), ?_, .inr ?_⟩
    · rw [htext, String.append_empty, String.append_empty, Text.splitString_append]
    · rw [pieces, htext, Text.splitString_append]
      rfl
  · next hlast =>
    refine ⟨base.pieces, by rw [hslash, Text.splitString_append]; rfl, .inl ⟨rfl, fun hend => ?_⟩⟩
    rcases Text.getLast?_splitString_eq_empty_iff.mp hend with hempty | hend
    · exact text_ne_empty h hempty
    · exact hlast (beq_of_eq hend)

theorem pieces_join (h : base.isAbsolute = true) (hname : '/' ∉ name.toList) :
    ∃ before, (base.join ⟨name⟩).pieces = before ++ [name] ∧
      (base.pieces = before ∨ base.pieces = before ++ [""]) := by
  obtain ⟨before, hjoin, hbase⟩ := exists_pieces_join_of_relative h (isAbsolute_of_notMem hname)
  rw [Text.splitString_of_notMem hname] at hjoin
  exact ⟨before, hjoin, hbase.imp_left And.left⟩

theorem textFault?_join (h : base.isAbsolute = true) (hname : '/' ∉ name.toList)
    (hjoin : Disk.textFault? (base.join ⟨name⟩) = none) : Disk.textFault? base = none := by
  obtain ⟨hnul, -, hsize⟩ := Disk.textFault?_eq_none_iff.mp hjoin
  rw [text_join h (isAbsolute_of_notMem hname)] at hnul hsize
  refine Disk.textFault?_eq_none_iff.mpr ⟨?_, text_ne_empty h, ?_⟩
  · simp only [String.toList_append, List.mem_append, not_or] at hnul
    exact hnul.1.1
  · simp only [String.utf8ByteSize_append] at hsize
    omega

theorem nul_notMem_join (h : base.isAbsolute = true) (hname : '/' ∉ name.toList)
    (hbase : Disk.textFault? base = none) (hnul : '\x00' ∉ name.toList) :
    '\x00' ∉ (base.join ⟨name⟩).text.toList := by
  rw [text_join h (isAbsolute_of_notMem hname)]
  simp only [String.toList_append, List.mem_append, not_or]
  refine ⟨⟨(Disk.textFault?_eq_none_iff.mp hbase).1, ?_⟩, hnul⟩
  split <;> simp

theorem textFault?_join_eq_none (h : base.isAbsolute = true) (hname : '/' ∉ name.toList)
    (hbase : Disk.textFault? base = none) (hnul : '\x00' ∉ name.toList)
    (hshort : (base.join ⟨name⟩).text.utf8ByteSize ≤ Disk.pathLimit) :
    Disk.textFault? (base.join ⟨name⟩) = none :=
  Disk.textFault?_eq_none_iff.mpr
    ⟨nul_notMem_join h hname hbase hnul, text_ne_empty (isAbsolute_join h _), hshort⟩

theorem textFault?_join_of_lt (h : base.isAbsolute = true) (hname : '/' ∉ name.toList)
    (hbase : Disk.textFault? base = none) (hnul : '\x00' ∉ name.toList)
    (hlong : Disk.pathLimit < (base.join ⟨name⟩).text.utf8ByteSize) :
    Disk.textFault? (base.join ⟨name⟩) = some .nameTooLong := by
  have hne : ((base.join ⟨name⟩).text == "") = false :=
    beq_false_of_ne (text_ne_empty (isAbsolute_join h _))
  rw [Disk.textFault?, if_neg (by simpa using nul_notMem_join h hname hbase hnul), hne,
    if_neg Bool.false_ne_true, if_pos hlong]

end Path

namespace Disk

variable {d : Disk} {cwd base : Path} {name : String} {mid : Location}

/-- Whether a path leads to a directory. -/
def Enters (d : Disk) (base : Path) (mid : Location) : Prop :=
  textFault? base = none ∧ d.Leads linkLimit [] base.pieces mid ∧ d.lookup mid = some .directory

theorem enters_root : d.Enters ⟨"/"⟩ [] := by
  have hidle : Path.isIdle "" = true := by decide
  have hpieces : Path.pieces ⟨"/"⟩ = ["", ""] := by decide
  refine ⟨by decide, ?_, rfl⟩
  rw [hpieces]
  exact .stay rfl hidle (.stay rfl hidle (.arrived _ _))

theorem locate_eq_ok_iff_leads {loc : Location} (h : base.isAbsolute = true) :
    d.locate true cwd base = .ok loc ↔
      textFault? base = none ∧ d.Leads linkLimit [] base.pieces loc := by
  rw [locate, startOf, if_pos h]
  cases textFault? base with
  | none => simp [walk_eq_ok_iff]
  | some fault => simp

theorem textFault?_eq_none_of_locate {followLast : Bool} {p : Path} {loc : Location}
    (h : d.locate followLast cwd p = .ok loc) : textFault? p = none := by
  rw [locate] at h
  cases hfault : textFault? p with
  | none => rfl
  | some fault => simp [hfault] at h

theorem entryAt_eq_ok_iff {followLast : Bool} {p : Path} {e : Entry} :
    d.entryAt followLast cwd p = .ok e ↔
      ∃ loc, d.locate followLast cwd p = .ok loc ∧ d.lookup loc = some e := by
  unfold entryAt
  cases d.locate followLast cwd p with
  | error fault => simp
  | ok loc => cases hl : d.lookup loc <;> simp [hl]

theorem isOk_entryAt_iff {followLast : Bool} {p : Path} :
    (d.entryAt followLast cwd p).isOk = true ↔
      ∃ loc, d.locate followLast cwd p = .ok loc ∧ d.lookup loc ≠ none := by
  have hok : (d.entryAt followLast cwd p).isOk = true ↔ ∃ e, d.entryAt followLast cwd p = .ok e := by
    cases d.entryAt followLast cwd p <;> simp [Except.isOk, Except.toBool]
  simp only [hok, entryAt_eq_ok_iff]
  constructor
  · rintro ⟨e, loc, hloc, he⟩
    exact ⟨loc, hloc, by simp [he]⟩
  · rintro ⟨loc, hloc, he⟩
    obtain ⟨e, he⟩ := Option.ne_none_iff_exists'.mp he
    exact ⟨e, loc, hloc, he⟩

theorem isDirectory_iff (h : base.isAbsolute = true) :
    d.isDirectory cwd base = true ↔ ∃ mid, d.Enters base mid := by
  have hentry : d.isDirectory cwd base = true ↔ d.entryAt true cwd base = .ok .directory := by
    unfold isDirectory
    cases d.entryAt true cwd base with
    | error fault => simp
    | ok e => cases e <;> simp [Entry.isDirectory]
  rw [hentry, entryAt_eq_ok_iff]
  simp only [locate_eq_ok_iff_leads h, Enters, and_assoc]

theorem readDirectory_eq_ok_iff_enters (h : base.isAbsolute = true)
    {entries : List (String × Entry)} :
    d.readDirectory cwd base = .ok entries ↔ ∃ mid, d.Enters base mid ∧ entries = d.listing mid := by
  rw [readDirectory_eq_ok_iff]
  simp only [locate_eq_ok_iff_leads h, Enters, and_assoc]

/-- A walk to a name goes through the directory it is joined to. -/
theorem Enters.locate_join (h : base.isAbsolute = true) (hname : '/' ∉ name.toList)
    (hmid : d.Enters base mid) (hfault : textFault? (base.join ⟨name⟩) = none) :
    ∃ left, ∀ cwd followLast, d.locate followLast cwd (base.join ⟨name⟩) =
      d.walk followLast left mid [name] := by
  obtain ⟨before, hjoin, hbase⟩ := Path.pieces_join h hname
  obtain ⟨-, hleads, hdirectory⟩ := hmid
  have hbefore : d.Leads linkLimit [] before mid := by
    rcases hbase with hbase | hbase
    · rwa [← hbase]
    · rw [hbase] at hleads
      exact (leads_append_empty_iff.mp hleads).1
  obtain ⟨left, hleft⟩ := hbefore.walk_append
  refine ⟨left, fun cwd followLast => ?_⟩
  rw [locate, hfault, startOf, if_pos (Path.isAbsolute_join h _), hjoin]
  exact hleft followLast [name] (List.cons_ne_nil _ _)

theorem exists_enters_of_locate_join {followLast : Bool} {loc : Location}
    (h : base.isAbsolute = true) (hname : '/' ∉ name.toList)
    (hloc : d.locate followLast cwd (base.join ⟨name⟩) = .ok loc) :
    textFault? (base.join ⟨name⟩) = none ∧ ∃ mid, d.Enters base mid := by
  obtain ⟨before, hjoin, hbase⟩ := Path.pieces_join h hname
  rw [locate, startOf, if_pos (Path.isAbsolute_join h _), hjoin] at hloc
  cases hfault : textFault? (base.join ⟨name⟩) with
  | some fault => simp [hfault] at hloc
  | none =>
      simp only [hfault] at hloc
      obtain ⟨mid, hmid, hdirectory⟩ := exists_leads_of_walk_append hloc (List.cons_ne_nil _ _)
      refine ⟨rfl, mid, Path.textFault?_join h hname hfault, ?_, hdirectory⟩
      rcases hbase with hbase | hbase <;> rw [hbase]
      · exact hmid
      · exact leads_append_empty_iff.mpr ⟨hmid, hdirectory⟩

theorem isOk_entryAt_of_isDirectory (h : base.isAbsolute = true)
    (hdirectory : d.isDirectory cwd base = true) : (d.entryAt false cwd base).isOk = true := by
  obtain ⟨mid, hfault, hleads, hmid⟩ := (isDirectory_iff h).mp hdirectory
  obtain ⟨loc, hloc, hlookup⟩ := hleads.exists_walk (by simp [hmid])
  refine isOk_entryAt_iff.mpr ⟨loc, ?_, hlookup⟩
  rw [locate, hfault, startOf, if_pos h]
  exact hloc

theorem isDirectory_of_isOk_entryAt_join {followLast : Bool} (h : base.isAbsolute = true)
    (hname : '/' ∉ name.toList)
    (hok : (d.entryAt followLast cwd (base.join ⟨name⟩)).isOk = true) :
    d.isDirectory cwd base = true := by
  obtain ⟨loc, hloc, -⟩ := isOk_entryAt_iff.mp hok
  exact (isDirectory_iff h).mpr (exists_enters_of_locate_join h hname hloc).2

theorem Lawful.lookup_dropLast (hd : d.Lawful) {loc : Location} {e : Entry}
    (h : d.lookup loc = some e) : d.lookup loc.dropLast = some .directory := by
  by_cases hloc : loc = []
  · rw [hloc]
    rfl
  · obtain ⟨entry, hentry, rfl⟩ := List.mem_map.mp ((isSome_lookup_iff hloc).mp (by rw [h]; rfl))
    have htree := hd.tree entry hentry
    cases hparent : d.lookup entry.1.dropLast with
    | none => simp [hparent] at htree
    | some parent => cases parent <;> simp_all [Entry.isDirectory]

/-- Every directory has dots for itself and for the directory it is in. -/
theorem isOk_entryAt_join_dots (hd : d.Lawful) (h : base.isAbsolute = true)
    (hdirectory : d.isDirectory cwd base = true) (hname : name = "." ∨ name = "..")
    (hshort : (base.join ⟨name⟩).text.utf8ByteSize ≤ pathLimit) :
    (d.entryAt false cwd (base.join ⟨name⟩)).isOk = true := by
  obtain ⟨mid, hmid⟩ := (isDirectory_iff h).mp hdirectory
  have hsep : '/' ∉ name.toList := by rcases hname with rfl | rfl <;> decide
  have hnul : '\x00' ∉ name.toList := by rcases hname with rfl | rfl <;> decide
  have hfault := Path.textFault?_join_eq_none h hsep hmid.1 hnul hshort
  obtain ⟨left, hleft⟩ := hmid.locate_join h hsep hfault
  have hwalk : d.walk false left mid [name] = _ := walk_singleton hmid.2.2 false name
  rcases hname with rfl | rfl
  · rw [if_pos (by decide)] at hwalk
    exact isOk_entryAt_iff.mpr ⟨mid, (hleft cwd false).trans hwalk, by simp [hmid.2.2]⟩
  · rw [if_neg (by decide), if_pos (by decide)] at hwalk
    exact isOk_entryAt_iff.mpr ⟨_, (hleft cwd false).trans hwalk, by simp [hd.lookup_dropLast hmid.2.2]⟩

/-- No walk arrives at a name that is too long. -/
theorem le_nameLimit_of_locate_join {followLast : Bool} {loc : Location}
    (h : base.isAbsolute = true) (hmid : d.Enters base mid) (hname : Path.isPlainName name = true)
    (hloc : d.locate followLast cwd (base.join ⟨name⟩) = .ok loc) :
    name.utf8ByteSize ≤ nameLimit := by
  obtain ⟨hsep, hidle, hup⟩ := Path.isPlainName_iff.mp hname
  obtain ⟨left, hleft⟩ := hmid.locate_join h hsep (exists_enters_of_locate_join h hsep hloc).1
  rw [hleft, walk_singleton hmid.2.2, hidle, beq_false_of_ne hup] at hloc
  by_contra hlong
  rw [if_neg Bool.false_ne_true, if_neg Bool.false_ne_true, if_pos (Nat.lt_of_not_le hlong)] at hloc
  cases hloc

theorem locate_join_of_isPlainName (h : base.isAbsolute = true)
    (hmid : d.Enters base mid) (hname : Path.isPlainName name = true)
    (hlimit : name.utf8ByteSize ≤ nameLimit) (hfault : textFault? (base.join ⟨name⟩) = none) :
    d.locate false cwd (base.join ⟨name⟩) = .ok (mid ++ [name]) ∧
      ((∀ target, d.lookup (mid ++ [name]) ≠ some (.link target)) →
        d.locate true cwd (base.join ⟨name⟩) = .ok (mid ++ [name])) := by
  obtain ⟨hsep, hidle, hup⟩ := Path.isPlainName_iff.mp hname
  obtain ⟨left, hleft⟩ := hmid.locate_join h hsep hfault
  have hwalk : ∀ followLast, d.walk followLast left mid [name] = _ :=
    fun followLast => walk_singleton hmid.2.2 followLast name
  simp only [hidle, beq_false_of_ne hup, Bool.false_eq_true, if_false, Nat.not_lt.mpr hlimit] at hwalk
  refine ⟨(hleft cwd false).trans ((hwalk false).trans ?_), fun hlink =>
    (hleft cwd true).trans ((hwalk true).trans ?_)⟩
  · split <;> rfl
  · split
    · next target heq => exact absurd heq (hlink target)
    · rfl

end Disk
end DeclarativeBuild
