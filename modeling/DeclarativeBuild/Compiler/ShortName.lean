import DeclarativeBuild.Failure
import DeclarativeBuild.Text.Pieces
import DeclarativeBuild.Text.Uppercase

/-!
# Short file names

Names of at most eight characters with an extension of at most three, as the mounted drive shows
them.  Longer names keep six characters and end in `~1`; two of them may become the same name.
-/

namespace DeclarativeBuild
namespace ShortName

def maxBase : Nat := 8

def maxExtension : Nat := 3

/-- A base name of at most eight characters. -/
def shortenBase (base : List Char) : List Char :=
  if base.length > maxBase then base.take (maxBase - 2) ++ ['~', '1'] else base

theorem length_shortenBase (base : List Char) : (shortenBase base).length ≤ maxBase := by
  unfold shortenBase maxBase
  split <;> grind

/-- The short name of one segment, in upper case. -/
def ofSegment (segment : List Char) : List Char :=
  let (base, extension) := (Text.cutFirst '.' segment).getD (segment, [])
  let extension := extension.take maxExtension
  Text.uppercase (shortenBase base ++ if extension.isEmpty then [] else '.' :: extension)

/-- The short names of a path's segments, or the first segment with more than one dot. -/
def ofSegments (path : String) : List (List Char) → Except Failure (List (List Char))
  | [] => .ok []
  | segment :: rest =>
    if segment.count '.' > 1 then
      .error (.incompatiblePath path (.twoDots (String.ofList segment)))
    else (ofSegments path rest).map (ofSegment segment :: ·)

/-- A path with slashes as a path of short names with backslashes. -/
def ofPath (path : String) : Except Failure String :=
  (ofSegments path (Text.pieces '/' path.toList)).map fun names =>
    String.ofList (Text.join ['\\'] names)

end ShortName
end DeclarativeBuild
