import DeclarativeBuild.World

/-!
# Disks without links

Where no entry is a link, a path leads where its names lead, one after the other.
-/

namespace DeclarativeBuild

def Entry.isLink : Entry → Bool
  | .link _ => true
  | _ => false

namespace Disk

variable {d : Disk}

/-- Whether no entry is a link. -/
def isLinkless (d : Disk) : Bool :=
  d.entries.all (!·.2.isLink)

/-- Follows names from the location `here`, where every entry but the last is a directory. -/
def descend (d : Disk) (here : Location) : List String → Except SystemError Location
  | [] => .ok here
  | piece :: rest =>
    match d.lookup here with
    | none => .error .notFound
    | some .directory =>
      if Path.isIdle piece then descend d here rest
      else if piece == ".." then descend d here.dropLast rest
      else if nameLimit < piece.utf8ByteSize then .error .nameTooLong
      else descend d (here ++ [piece]) rest
    | some _ => .error .notADirectory

theorem mem_of_lookup {entries : List (Location × Entry)} {loc : Location} {e : Entry}
    (h : entries.lookup loc = some e) : (loc, e) ∈ entries := by
  obtain ⟨before, after, rfl, -⟩ := List.lookup_eq_some_iff.mp h
  simp

theorem lookup_ne_link (h : d.isLinkless = true) (loc : Location) (target : String) :
    d.lookup loc ≠ some (.link target) := by
  intro hlink
  unfold lookup at hlink
  split at hlink
  · cases hlink
  · have hall := List.all_eq_true.mp h _ (mem_of_lookup hlink)
    simp [Entry.isLink] at hall

theorem walk_eq_descend (h : d.isLinkless = true) (followLast : Bool) (links : Nat)
    (here : Location) (pieces : List String) :
    d.walk followLast links here pieces = d.descend here pieces := by
  induction pieces generalizing here with
  | nil => rw [walk, descend]
  | cons piece rest ih =>
      rw [walk, descend]
      cases hh : d.lookup here with
      | none => rfl
      | some e =>
          cases e with
          | file content executable => rfl
          | link target => rfl
          | directory =>
              simp only [ih]
              split
              · rfl
              · split
                · rfl
                · split
                  · rfl
                  · split
                    · next target hlink => exact absurd hlink (lookup_ne_link h _ target)
                    · rfl

theorem locate_eq_descend (h : d.isLinkless = true) (followLast : Bool) (cwd p : Path) :
    d.locate followLast cwd p =
      match textFault? p with
      | some e => .error e
      | none => d.descend (startOf cwd p) p.pieces := by
  unfold locate
  cases textFault? p with
  | some e => rfl
  | none => exact walk_eq_descend h _ _ _ _

theorem entryAt_eq_descend (h : d.isLinkless = true) (followLast : Bool) (cwd p : Path) :
    d.entryAt followLast cwd p =
      match textFault? p with
      | some e => .error e
      | none =>
        match d.descend (startOf cwd p) p.pieces with
        | .error e => .error e
        | .ok loc =>
          match d.lookup loc with
          | some e => .ok e
          | none => .error .notFound := by
  rw [entryAt, locate_eq_descend h]
  cases textFault? p <;> rfl

end Disk

theorem World.readText_of_entryAt {w : World} {path : Path} {source : String} {executable : Bool}
    (h : w.disk.entryAt true w.cwd path = .ok (.file source.toUTF8 executable)) :
    w.readText path = .ok source := by
  have hutf8 : String.fromUTF8? source.toUTF8 = some source := dif_pos source.isValidUTF8
  simp only [World.readText, Disk.readText, h, hutf8]

/-- A world of some files with their texts, and of some directories. -/
def World.holding (files : List (Location × String)) (directories : List Location) : World where
  disk := ⟨directories.map (·, .directory) ++
    files.map fun (location, text) => (location, .file text.toUTF8 false)⟩
  cwd := ⟨"/"⟩
  environment := []

theorem World.isLinkless_holding (files : List (Location × String)) (directories : List Location) :
    (World.holding files directories).disk.isLinkless = true := by
  simp [World.holding, Disk.isLinkless, Entry.isLink]

end DeclarativeBuild
