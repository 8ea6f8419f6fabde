import DeclarativeBuild.Text.Blank

/-!
# Wildcard patterns

A pattern is a text with wildcards: `?` and `*` inside one path component, `**` for whole components
and bracketed sets of characters.  `Pattern.parse` reads one, `Pattern.accepts` is its language.
-/

namespace DeclarativeBuild
namespace Wildcard

/-- Why a text is no pattern. -/
inductive Reason where
  | tooManyStars
  | starsInsideComponent
  | badSet
deriving DecidableEq, Repr

def Reason.message : Reason → String
  | .tooManyStars => "wildcards are either regular `*` or recursive `**`"
  | .starsInsideComponent => "recursive wildcards must form a single path component"
  | .badSet => "invalid range pattern"

/-- What is wrong with a pattern, and at which of its characters. -/
structure Fault where
  position : Nat
  reason : Reason
deriving DecidableEq, Repr

def Fault.message (f : Fault) : String :=
  "Pattern syntax error near position " ++ toString f.position ++ ": " ++ f.reason.message

/-- An inclusive range of characters. -/
structure CharRange where
  first : Char
  last : Char
deriving DecidableEq, Repr

def CharRange.contains (r : CharRange) (c : Char) : Bool :=
  r.first ≤ c && c ≤ r.last

inductive Token where
  | char (c : Char)
  | anyChar
  | within (ranges : List CharRange)
  | outside (ranges : List CharRange)
  | anyText
  | anyDepth
deriving DecidableEq, Repr

abbrev Pattern := List Token

/-- The ranges of a bracketed set: `a-z` is a range, anything else stands for itself. -/
def charRanges : List Char → List CharRange
  | a :: '-' :: b :: rest => ⟨a, b⟩ :: charRanges rest
  | a :: rest => ⟨a, a⟩ :: charRanges rest
  | [] => []

/-- A set after its bracket, where the first character in it may be a closing bracket. -/
def splitSet : List Char → Option (List Char × List Char)
  | [] => none
  | first :: more =>
    let inner := more.takeWhile (· != ']')
    match more.drop inner.length with
    | _ :: rest => some (first :: inner, rest)
    | [] => none

/-- The set that an opening bracket starts, with the rest of the text. -/
def scanSet (cs : List Char) : Option (Token × List Char) :=
  match cs with
  | '!' :: rest => (splitSet rest).map fun (set, after) => (.outside (charRanges set), after)
  | _ => (splitSet cs).map fun (set, after) => (.within (charRanges set), after)

/-- Reads the pattern from the character at `position` on, which follows `previous`. -/
def Pattern.parseFrom (position : Nat) (previous : Option Char) (cs : List Char) :
    Except Fault Pattern :=
  match cs with
  | [] => .ok []
  | '?' :: rest => (parseFrom (position + 1) (some '?') rest).map (.anyChar :: ·)
  | '*' :: '*' :: '*' :: _ => .error ⟨position + 2, .tooManyStars⟩
  | '*' :: '*' :: rest =>
    if previous.isSome && previous != some '/' then .error ⟨position - 1, .starsInsideComponent⟩
    else
      match rest with
      | [] => .ok [.anyDepth]
      | '/' :: rest => (parseFrom (position + 3) (some '/') rest).map (.anyDepth :: ·)
      | _ => .error ⟨position + 2, .starsInsideComponent⟩
  | '*' :: rest => (parseFrom (position + 1) (some '*') rest).map (.anyText :: ·)
  | '[' :: rest =>
    match scanSet rest with
    | none => .error ⟨position, .badSet⟩
    | some (token, after) =>
      if after.length < rest.length then
        (parseFrom (position + (rest.length + 1 - after.length)) (some ']') after).map (token :: ·)
      else .error ⟨position, .badSet⟩
  | c :: rest => (parseFrom (position + 1) (some c) rest).map (.char c :: ·)
termination_by cs.length
decreasing_by all_goals grind

def Pattern.parse (text : String) : Except Fault Pattern :=
  parseFrom 0 none text.toList

/-- Whether a token stands for one given character. -/
def Token.acceptsChar (c : Char) : Token → Bool
  | .char d => c == d
  | .anyChar => true
  | .within ranges => ranges.any (·.contains c)
  | .outside ranges => !ranges.any (·.contains c)
  | .anyText | .anyDepth => false

/-- Whether a token stands for any text rather than one character. -/
def Token.isAnyText : Token → Bool
  | .anyText | .anyDepth => true
  | _ => false

/-- Whether a token and the tokens after it match each end of a text, longest first, given for the
same ends whether the tokens after it do. -/
def Token.matchEnds (t : Token) : List Char → List Bool → List Bool
  | c :: cs, here :: later =>
    let below := matchEnds t cs later
    let first := if t.isAnyText then here || below.headD false
      else t.acceptsChar c && later.headD false
    first :: below
  | _, ends => if t.isAnyText then ends else [false]

/-- Whether a pattern matches each end of a text, longest first.  One pass a token keeps the work to
the product of the lengths. -/
def Pattern.matchEnds (cs : List Char) : Pattern → List Bool
  | [] => cs.map (fun _ => false) ++ [true]
  | t :: rest => t.matchEnds cs (matchEnds cs rest)

/-- Whether a pattern matches a whole name. -/
def Pattern.accepts (p : Pattern) (cs : List Char) : Bool :=
  (p.matchEnds cs).headD false

theorem Pattern.exists_matchEnds_cons (p : Pattern) (c : Char) (cs : List Char) :
    ∃ b, p.matchEnds (c :: cs) = b :: p.matchEnds cs := by
  induction p with
  | nil => exact ⟨false, rfl⟩
  | cons t rest ih =>
    obtain ⟨b, h⟩ := ih
    simp [matchEnds, h, Token.matchEnds]

theorem Pattern.matchEnds_cons (p : Pattern) (c : Char) (cs : List Char) :
    p.matchEnds (c :: cs) = p.accepts (c :: cs) :: p.matchEnds cs := by
  obtain ⟨b, h⟩ := p.exists_matchEnds_cons c cs
  rw [accepts, h]
  rfl

theorem Pattern.accepts_nil_left (cs : List Char) : accepts [] cs = cs.isEmpty := by
  cases cs <;> rfl

theorem Pattern.accepts_nil_right (t : Token) (rest : Pattern) :
    accepts (t :: rest) [] = (t.isAnyText && rest.accepts []) := by
  cases h : t.isAnyText <;> simp [accepts, matchEnds, Token.matchEnds, h]

/-- A token for any text stands for none, or takes one character and goes on. -/
theorem Pattern.accepts_cons_anyText {t : Token} (h : t.isAnyText = true) (rest : Pattern)
    (c : Char) (cs : List Char) :
    accepts (t :: rest) (c :: cs) = (rest.accepts (c :: cs) || accepts (t :: rest) cs) := by
  rw [accepts, matchEnds, matchEnds_cons rest, Token.matchEnds, if_pos h]
  rfl

/-- A token for one character takes it off both. -/
theorem Pattern.accepts_cons_char {t : Token} (h : t.isAnyText = false) (rest : Pattern) (c : Char)
    (cs : List Char) :
    accepts (t :: rest) (c :: cs) = (t.acceptsChar c && rest.accepts cs) := by
  rw [accepts, matchEnds, matchEnds_cons rest, Token.matchEnds, if_neg (by simp [h])]
  rfl

/-- The text of a pattern without wildcards. -/
def Pattern.literal? : Pattern → Option (List Char)
  | [] => some []
  | .char c :: rest => (literal? rest).map (c :: ·)
  | _ => none

/-- Whether a component stands for any number of directories. -/
def Pattern.isRecursive (p : Pattern) : Bool :=
  p.contains .anyDepth

end Wildcard
end DeclarativeBuild
