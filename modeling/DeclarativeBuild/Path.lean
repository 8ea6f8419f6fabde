import DeclarativeBuild.Text.Pieces

/-!
# Paths

A path keeps the text it was written with.  Everything here is lexical: `components` says what the
text means, `join`, `parents` and `withExtension` cut and extend the text itself.
-/

namespace DeclarativeBuild

structure Path where
  text : String
deriving DecidableEq, Inhabited, Repr

/-- One step of a path. -/
inductive Component where
  | root
  | here
  | up
  | name (text : String)
deriving DecidableEq, Repr

namespace Path

instance : ToString Path := ⟨Path.text⟩

def pieces (p : Path) : List String :=
  Text.splitString '/' p.text

def isAbsolute (p : Path) : Bool :=
  p.text.toList.head? == some '/'

/-- Pieces that lead nowhere: repeated separators and single dots. -/
def isIdle (piece : String) : Bool :=
  piece == "" || piece == "."

def component (piece : String) : Component :=
  if piece == ".." then .up else if piece == "." then .here else .name piece

/-- A single dot counts only where a relative path starts with it. -/
def components (p : Path) : List Component :=
  match p.pieces with
  | [] => []
  | first :: rest =>
    let start := if p.isAbsolute then [.root] else if first == "" then [] else [component first]
    start ++ (rest.filter (!isIdle ·)).map component

/-- Whether two texts name the same steps. -/
def sameSteps (p q : Path) : Bool :=
  p.components == q.components

def ofPieces (pieces : List String) : Path :=
  ⟨"/".intercalate pieces⟩

/-- The path `rel` as seen from `base`; an absolute one stands for itself. -/
def join (base rel : Path) : Path :=
  if rel.isAbsolute || base.text == "" then rel
  else if base.text.toList.getLast? == some '/' then ⟨base.text ++ rel.text⟩
  else ⟨base.text ++ "/" ++ rel.text⟩

theorem join_of_isAbsolute {base rel : Path} (h : rel.isAbsolute = true) : base.join rel = rel := by
  simp [join, h]

/-- The first piece followed by the pieces that are left, where an absolute path keeps its root. -/
def rebuild (absolute : Bool) (first : String) (rest : List String) : Path :=
  if rest.isEmpty then ⟨if absolute then "/" else first⟩ else ofPieces (first :: rest)

/-- The parents of a path with first piece `first`, whose other pieces are given last to first. -/
def parentsAbove (absolute : Bool) (first : String) : List String → List Path
  | [] => if absolute || first == "" then [] else [⟨""⟩]
  | piece :: before =>
    if isIdle piece then parentsAbove absolute first before
    else rebuild absolute first (before.dropWhile isIdle).reverse ::
      parentsAbove absolute first before

/-- The directories above a path, nearest first. -/
def parents (p : Path) : List Path :=
  match p.pieces with
  | [] => []
  | first :: rest => parentsAbove p.isAbsolute first rest.reverse

def parent? (p : Path) : Option Path :=
  p.parents.head?

/-- The pieces of a path last to first, from its last step on. -/
def fromLastStep (p : Path) : List String :=
  match p.pieces with
  | [] => []
  | first :: rest => rest.reverse.dropWhile isIdle ++ [first]

def fileName? (p : Path) : Option String :=
  match p.fromLastStep with
  | [] => none
  | last :: _ => if isIdle last || last == ".." then none else some last

/-- A name divided at its last dot, unless that dot is its first character. -/
def stemAndExtension (name : String) : String × Option String :=
  match Text.cutLast '.' name.toList with
  | some (c :: stem, extension) => (String.ofList (c :: stem), some (String.ofList extension))
  | _ => (name, none)

def extension? (p : Path) : Option String :=
  p.fileName?.bind fun name => (stemAndExtension name).2

/-- The path up to the stem of its file name, with an extension after it. -/
def setExtension (p : Path) (extension : String) : Path :=
  match p.fileName?, p.fromLastStep with
  | some name, _ :: before =>
    ofPieces (before.reverse ++ [(stemAndExtension name).1 ++ "." ++ extension])
  | _, _ => p

/-- The path with the extension of its file name replaced.  The old extension goes first: a name
that is then only dots leads upward and stays as it is. -/
def withExtension (p : Path) (extension : String) : Path :=
  match p.extension? with
  | none => p.setExtension extension
  | some old =>
    let cs := p.text.toList
    setExtension ⟨String.ofList (cs.take (cs.length - old.length))⟩ extension

/-- The text of a step inside a path. -/
def stepText : Component → String
  | .root => "/"
  | .here => "."
  | .up => ".."
  | .name n => n

/-- The path from the root, or nothing for the empty path.  Dots go, `..` stays, a final separator
stays, and two separators at the start are kept as they are. -/
def absolute? (p cwd : Path) : Option Path :=
  if p.text == "" then none else
  let chars := p.text.toList
  let twoSlashes := chars.take 2 == ['/', '/'] && chars.take 3 != ['/', '/', '/']
  let steps := p.components.filter fun c => c != .here && c != .root
  let start : Path := if twoSlashes then ⟨"//"⟩ else if p.isAbsolute then ⟨"/"⟩ else cwd
  let full := steps.foldl (fun (q : Path) c => q.join ⟨stepText c⟩) start
  some (if chars.getLast? == some '/' then full.join ⟨""⟩ else full)

/-- The steps from the directory at `base` to `target`, where both start at the same place.  There
are none when `base` leaves that place by an `up` of its own. -/
def stepsBetween : List Component → List Component → Option (List Component)
  | [], target => some target
  | base, [] => some (base.map fun _ => .up)
  | b :: base, t :: target =>
    if b = t then stepsBetween base target
    else if b = .up then none
    else some (.up :: base.map (fun _ => .up) ++ t :: target)

end Path

end DeclarativeBuild
