import DeclarativeBuild.Text.CaseTable

/-!
# Upper case

A text is put into upper case one character at a time; a character may grow into several.
-/

namespace DeclarativeBuild
namespace Text

def CaseRun.image? (run : CaseRun) (n : Nat) : Option Nat :=
  if run.first ≤ n && n ≤ run.last && (n - run.first) % run.stride == 0 then
    some (run.image + (n - run.first))
  else none

/-- The upper case of one character, which is never empty. -/
def upperChar (c : Char) : List Char :=
  match caseExpansions.lookup c.toNat with
  | some codes => codes.map Char.ofNat
  | none =>
    match caseRuns.findSome? (·.image? c.toNat) with
    | some code => [Char.ofNat code]
    | none => [c]

def uppercase (cs : List Char) : List Char :=
  cs.flatMap upperChar

theorem uppercase_append (cs ds : List Char) :
    uppercase (cs ++ ds) = uppercase cs ++ uppercase ds := by
  simp [uppercase]

end Text
end DeclarativeBuild
