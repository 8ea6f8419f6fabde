import DeclarativeBuild.Text.Blank

/-!
# Character classes of markup

The characters a document may hold, and those that may start or continue a name.
-/

namespace DeclarativeBuild
namespace Markup

def isSpace (c : Char) : Bool :=
  c == ' ' || c == '\t' || c == '\n' || c == '\r'

/-- Controls other than tab and line ends are no part of a document, nor are two noncharacters. -/
def isDocumentChar (c : Char) : Bool :=
  if c.toNat < 0x20 then isSpace c else c.toNat != 0xfffe && c.toNat != 0xffff

def nameStartRanges : List (Nat × Nat) :=
  [(0x41, 0x5a), (0x61, 0x7a), (0x3a, 0x3a), (0x5f, 0x5f), (0xc0, 0xd6), (0xd8, 0xf6),
   (0xf8, 0x2ff), (0x370, 0x37d), (0x37f, 0x1fff), (0x200c, 0x200d), (0x2070, 0x218f),
   (0x2c00, 0x2fef), (0x3001, 0xd7ff), (0xf900, 0xfdcf), (0xfdf0, 0xfffd), (0x10000, 0xeffff)]

/-- Ranges that may continue a name but not start one. -/
def nameMoreRanges : List (Nat × Nat) :=
  [(0x2d, 0x2e), (0x30, 0x39), (0xb7, 0xb7), (0x300, 0x36f), (0x203f, 0x2040)]

def isNameStart (c : Char) : Bool :=
  Text.inRanges nameStartRanges c.toNat

def isNameChar (c : Char) : Bool :=
  isNameStart c || Text.inRanges nameMoreRanges c.toNat

theorem isNameChar_of_isNameStart {c : Char} (h : isNameStart c = true) : isNameChar c = true := by
  simp [isNameChar, h]

end Markup
end DeclarativeBuild
