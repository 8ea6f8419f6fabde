import DeclarativeBuild.Text.Quoted

/-!
# Inert texts

A text that is shown on a terminal without steering it: the controls by which a terminal rings,
moves its cursor or changes its colours are written by their numbers.
-/

namespace DeclarativeBuild
namespace Text

/-- The controls of the terminal among the first 128 characters: bell, backspace, form feed, escape
and delete. -/
def steering : List Char :=
  ['\x07', '\x08', '\x0c', '\x1b', '\x7f']

def inertChar (c : Char) : List Char :=
  if steering.contains c then ['\\', 'x', hexDigit (c.toNat / 16), hexDigit c.toNat]
  else if 0x80 ≤ c.toNat && c.toNat ≤ 0x9f then
    ['\\', 'u', '\x7b'] ++ hex c.toNat ++ ['\x7d']
  else [c]

def inert (s : String) : String :=
  String.ofList (s.toList.flatMap inertChar)

end Text
end DeclarativeBuild
