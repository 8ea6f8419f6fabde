import DeclarativeBuild.Text.Blank
import DeclarativeBuild.Text.GlyphTable

/-!
# Quoted texts

A text between double quotes in which every character can be told: quotes, backslashes and the
common controls are escaped by a letter, characters without a glyph by their number.
-/

namespace DeclarativeBuild
namespace Text

def hexDigit (n : Nat) : Char :=
  Nat.digitChar (n % 16)

/-- The number in lower case hexadecimal digits without leading zeros. -/
def hex (n : Nat) : List Char :=
  Nat.toDigits 16 n

def quotedChar (c : Char) : List Char :=
  match c with
  | '\x00' => ['\\', '0']
  | '\t' => ['\\', 't']
  | '\r' => ['\\', 'r']
  | '\n' => ['\\', 'n']
  | '"' => ['\\', '"']
  | '\\' => ['\\', '\\']
  | _ =>
    if inRanges glyphlessRanges c.toNat then ['\\', 'u', '\x7b'] ++ hex c.toNat ++ ['\x7d'] else [c]

def quoted (s : String) : String :=
  String.ofList ('"' :: s.toList.flatMap quotedChar ++ ['"'])

end Text
end DeclarativeBuild
