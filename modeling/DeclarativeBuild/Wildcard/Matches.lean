import DeclarativeBuild.Disk.Lookup
import DeclarativeBuild.Wildcard.Pattern

/-!
# Matches of a wildcard

The paths on a disk that match a pattern, component by component.  A `**` goes down through
directories and links to directories, as far as paths can be followed.  A directory that is come to
and cannot be read is among what a walk sights.
-/

namespace DeclarativeBuild
namespace Wildcard

/-- A path that a walk has reached. -/
structure Place where
  path : Path
  isDirectory : Bool

/-- A directory that could not be read. -/
structure Obstacle where
  directory : Path
  cause : SystemError
deriving DecidableEq, Repr

/-- What a walk comes upon: a match, or an obstacle. -/
abbrev Sighting := Except Obstacle Place

/-- Where a walk looks for paths. -/
structure Ground where
  disk : Disk
  cwd : Path

namespace Ground

def place (g : Ground) (path : Path) : Place :=
  ⟨path, g.disk.isDirectory g.cwd path⟩

/-- Whether something stands at a path, be it a link that leads nowhere. -/
def holds (g : Ground) (path : Path) : Bool :=
  (g.disk.entryAt false g.cwd path).isOk

/-- The path of a name inside a directory, where a single dot is left out. -/
def inside (directory : Path) (name : String) : Path :=
  if directory.components == [.here] then ⟨name⟩ else directory.join ⟨name⟩

/-- The places inside a directory by increasing names. -/
def children (g : Ground) (directory : Path) : Except SystemError (List Place) :=
  match g.disk.readDirectory g.cwd directory with
  | .error cause => .error cause
  | .ok entries => .ok <| entries.map fun (name, entry) =>
    let path := inside directory name
    match entry with
    | .link _ => g.place path
    | entry => ⟨path, entry.isDirectory⟩

/-- Names for the directory itself and the one above, which no directory lists: a pattern matches
them only if it starts with a dot. -/
def dotNames (p : Pattern) : List String :=
  match p with
  | .char '.' :: _ => ["..", "."].filter fun name => p.accepts name.toList
  | _ => []

/-- Walks end because patterns are used up, or directories are left behind under a `**`. -/
theorem lex_of_lt {a b c a' b' c' : Nat} (h : a < a' ∨ a = a' ∧ (b < b' ∨ b = b' ∧ c < c')) :
    Prod.Lex (· < ·) (Prod.Lex (· < ·) (· < ·)) (a, b, c) (a', b', c') := by
  rcases h with h | ⟨rfl, h | ⟨rfl, h⟩⟩
  · exact .left _ _ h
  · exact .right _ (.left _ _ h)
  · exact .right _ (.right _ h)

/-- The patterns after the first that are not recursive at once. -/
def afterRecursive (rest : List Pattern) : List Pattern :=
  rest.dropWhile Pattern.isRecursive

theorem length_afterRecursive (rest : List Pattern) :
    (afterRecursive rest).length ≤ rest.length :=
  (List.dropWhile_sublist _).length_le

mutual

/-- What is sighted below one place by the patterns for its further components.  Below a `**` the
walk goes `depth` more directories down, and no path that can be followed has more than its limit. -/
def explore (g : Ground) (depth : Nat) (patterns : List Pattern) (place : Place) : List Sighting :=
  match patterns with
  | [] => []
  | p :: rest =>
    match p.literal? with
    | some name =>
      let name := String.ofList name
      let next := g.place (inside place.path name)
      let found :=
        if name == "." || name == ".." then place.isDirectory else g.holds next.path
      if !found then [] else if rest.isEmpty then [.ok next] else explore g Disk.pathLimit rest next
    | none =>
      if !place.isDirectory then []
      else
        match g.children place.path with
        | .error cause => [.error ⟨place.path, cause⟩]
        | .ok children =>
          let dotted := (dotNames p).flatMap fun name =>
            let next := g.place (place.path.join ⟨name⟩)
            if rest.isEmpty then [.ok next] else explore g Disk.pathLimit rest next
          dotted ++ children.flatMap fun child => visit g depth p rest child
termination_by (patterns.length, depth, 2)
decreasing_by all_goals exact lex_of_lt (by simp)

/-- What is sighted at and below a child of the place that a pattern has been reached at. -/
def visit (g : Ground) (depth : Nat) (p : Pattern) (rest : List Pattern) (child : Place) :
    List Sighting :=
  if p.isRecursive then
    let below :=
      match depth with
      | 0 => []
      | depth + 1 =>
        if child.isDirectory then explore g depth (p :: afterRecursive rest) child else []
    match _h : afterRecursive rest with
    | [] => if child.isDirectory then .ok child :: below else []
    | q :: more => byName g q more child ++ below
  else byName g p rest child
termination_by (rest.length + 1, depth, 1)
decreasing_by
  · have := length_afterRecursive rest
    exact lex_of_lt (by simp; omega)
  · have := length_afterRecursive rest
    simp_all
    exact lex_of_lt (by omega)
  · exact lex_of_lt (by omega)

/-- What is sighted at and below a place whose own name has to match. -/
def byName (g : Ground) (p : Pattern) (rest : List Pattern) (place : Place) : List Sighting :=
  match place.path.fileName? with
  | none => []
  | some name =>
    if !p.accepts name.toList then []
    else if rest.isEmpty then [.ok place]
    else explore g Disk.pathLimit rest place
termination_by (rest.length + 1, 0, 0)
decreasing_by exact lex_of_lt (by simp)

end

/-- The pieces of a pattern's text, without an empty one at the end. -/
def components (text : String) : List String :=
  let pieces := Text.splitString '/' text
  if pieces.getLast? == some "" then pieces.dropLast else pieces

/-- Whether a sighting counts where only directories may be asked for.  Obstacles always do. -/
def counts (onlyDirectories : Bool) : Sighting → Bool
  | .ok place => !onlyDirectories || place.isDirectory
  | .error _ => true

/-- What is sighted by a pattern, in order; a final separator asks for directories. -/
def expand (g : Ground) (pattern : String) : Except Fault (List Sighting) := do
  let _ ← Pattern.parse pattern
  let absolute := Path.isAbsolute ⟨pattern⟩
  let texts := components (if absolute then String.ofList (pattern.toList.drop 1) else pattern)
  let patterns ← texts.mapM Pattern.parse
  let patterns := if pattern == "" || pattern == "/" then [[]] else patterns
  let start := g.place ⟨if absolute then "/" else "."⟩
  let sighted := explore g Disk.pathLimit patterns start
  return sighted.filter (counts (pattern.toList.getLast? == some '/'))

end Ground

end Wildcard
end DeclarativeBuild
