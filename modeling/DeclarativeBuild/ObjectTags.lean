import DeclarativeBuild.World
import DeclarativeBuild.Language

/-!
# Object tags

An object element for every source file of a directory, to be pasted into a description.
-/

namespace DeclarativeBuild

/-- The extensions of sources that get a tag, in lower case. -/
def taggedExtensions : List String :=
  ["c", "cc", "cpp", "c++"]

/-- The tag of a file, if its extension is one of a source. -/
def objectTag? (path : Path) : Option String := do
  let extension ← path.extension?.map Language.lowerAscii
  if !taggedExtensions.contains extension then none
  let language ← Language.ofExtension? extension
  some ("<object lang=\"" ++ language.tag ++ "\" src=\"" ++ path.text ++ "\"/>")

/-- The tags of the regular files directly inside a directory, by increasing names. -/
def World.objectTags (w : World) (directory : Path) : Except Failure (List String) :=
  match w.disk.entryAt true w.cwd directory with
  | .error cause => .error (.system (.read directory) cause)
  | .ok .directory =>
    match w.disk.readDirectory w.cwd directory with
    | .error cause => .error (.system (.read directory) cause)
    | .ok entries => .ok (entries.filterMap fun (name, entry) =>
        if entry.isFile then objectTag? (directory.join ⟨name⟩) else none)
  | .ok _ => .ok []

end DeclarativeBuild
