import DeclarativeBuild.Shell.Regex
import DeclarativeBuild.World

/-!
# Patterns

What `case`, trimming and file names are matched against: stars, question marks and sets, where a
backslash takes the meaning of the character after it.  Patterns look at bytes.
-/

namespace DeclarativeBuild
namespace Shell

/-- A character of a field and whether it was quoted. -/
abbrev Mark := Char × Bool

def marks (quoted : Bool) (text : String) : List Mark :=
  text.toList.map (·, quoted)

def plainText (field : List Mark) : String :=
  String.ofList (field.map Prod.fst)

/-- The bytes of a text, each as a character. -/
def bytesOf (text : List Char) : List Char :=
  (String.ofList text).toUTF8.toList.map fun b => Char.ofNat b.toNat

/-- A field as a pattern, in which quoted characters stand for themselves. -/
def patternOf (field : List Mark) : List Char :=
  field.flatMap fun (c, quoted) =>
    if quoted && ['*', '?', '[', ']', '\\', '-', '!'].contains c then ['\\', c] else [c]

/-- A pattern as the text that it is written for. -/
def withoutEscapes : List Char → List Char
  | '\\' :: c :: rest => c :: withoutEscapes rest
  | c :: rest => c :: withoutEscapes rest
  | [] => []

/-- A class of characters at the front, after its opening bracket. -/
def scanClass (cs : List Char) : Option (String × List Char) :=
  match cs with
  | ':' :: rest =>
    let name := rest.takeWhile Char.isAlpha
    match rest.drop name.length with
    | ':' :: ']' :: after => some (String.ofList name, after)
    | _ => none
  | _ => none

/-- One end of a range in a set, and what follows it. -/
def scanMember : List Char → Option (Char × List Char)
  | '\\' :: c :: rest => some (c, rest)
  | c :: rest => some (c, rest)
  | [] => none

/-- Whether a set holds a character, and the pattern after the set; there is none if the set is left
open. -/
def scanSet (c : Char) (found isFirst : Bool) (cs : List Char) : Option (Bool × List Char) :=
  match cs with
  | [] => none
  | d :: rest =>
    if d == ']' && !isFirst then some (found, rest)
    else
      match if d == '[' then scanClass rest else none with
      | some (name, after) =>
        if after.length ≤ rest.length then scanSet c (found || inClass name c) false after else none
      | none =>
        match scanMember cs with
        | none => none
        | some (low, after) =>
          match after with
          | '-' :: high :: _ =>
            if high == ']' then
              if after.length ≤ rest.length then scanSet c (found || c == low) false after else none
            else
              match scanMember (after.drop 1) with
              | some (high, after) =>
                if after.length ≤ rest.length then
                  scanSet c (found || (low ≤ c && c ≤ high)) false after
                else none
              | none => none
          | after =>
            if after.length ≤ rest.length then scanSet c (found || c == low) false after else none
termination_by cs.length
decreasing_by all_goals grind

/-- Whether a text matches a pattern; both are given by their bytes. -/
def matchesBytes (pattern text : List Char) : Bool :=
  match pattern, text with
  | [], text => text.isEmpty
  | '*' :: rest, [] => matchesBytes rest []
  | '*' :: rest, c :: more => matchesBytes rest (c :: more) || matchesBytes ('*' :: rest) more
  | '?' :: rest, _ :: more => matchesBytes rest more
  | '?' :: _, [] => false
  | '[' :: rest, c :: more =>
    let (inverted, members) := match rest with
      | '!' :: members => (true, members)
      | members => (false, members)
    match scanSet c false true members with
    | some (found, after) =>
      if after.length ≤ rest.length then found != inverted && matchesBytes after more else false
    | none => c == '[' && matchesBytes rest more
  | '[' :: _, [] => false
  | '\\' :: d :: rest, c :: more => c == d && matchesBytes rest more
  | d :: rest, c :: more => c == d && matchesBytes rest more
  | _ :: _, [] => false
termination_by (text.length, pattern.length)

/-- Whether a text matches a field that may hold wildcards. -/
def matchesField (field : List Mark) (text : List Char) : Bool :=
  matchesBytes (bytesOf (patternOf field)) (bytesOf text)

/-- A value without the shortest or longest start, or end, that matches. -/
def trimValue (atStart longest : Bool) (field : List Mark) (value : String) : String :=
  let cs := value.toList
  let pattern := bytesOf (patternOf field)
  let lengths := List.range (cs.length + 1)
  let lengths := if longest then lengths.reverse else lengths
  let found := lengths.find? fun n =>
    matchesBytes pattern (bytesOf (if atStart then cs.take n else cs.drop (cs.length - n)))
  match found with
  | some n => String.ofList (if atStart then cs.drop n else cs.take (cs.length - n))
  | none => value

/-- Whether a set is closed before the name that it stands in ends. -/
def closesSet : List Char → Bool
  | [] | '/' :: _ => false
  | '\\' :: _ :: rest => closesSet rest
  | ']' :: _ => true
  | _ :: rest => closesSet rest

/-- Whether a pattern can stand for other names than its own. -/
def isWild : List Char → Bool
  | [] => false
  | '*' :: _ | '?' :: _ => true
  | '\\' :: _ :: rest => isWild rest
  | '[' :: rest =>
    let members := if rest.head? == some '!' then rest.drop 1 else rest
    (members.head?.any (· != '/') && closesSet (members.drop 1)) || isWild rest
  | _ :: rest => isWild rest

/-- The paths that the rest of a pattern, divided into names, stands for below a start. -/
def namesBelow (w : World) (start : String) (names : List (List Char)) : List String :=
  match names with
  | [] => []
  | name :: rest =>
    let below (found : String) : List String :=
      if rest.isEmpty then [start ++ found] else namesBelow w (start ++ found ++ "/") rest
    if isWild name then
      let directory := if start == "" then "." else start
      match w.disk.readDirectory w.cwd ⟨directory⟩ with
      | .error _ => []
      | .ok entries =>
        let known := "." :: ".." :: entries.map Prod.fst
        let isAsked (found : String) := (!found.startsWith "." || name.head? == some '.' ||
          name.take 2 == ['\\', '.']) && matchesBytes (bytesOf name) (bytesOf found.toList)
        (known.filter isAsked).flatMap below
    else
      let found := String.ofList (withoutEscapes name)
      let isThere := !rest.isEmpty || (w.disk.entryAt false w.cwd ⟨start ++ found⟩).isOk
      if isThere then below found else []
termination_by names.length

/-- The names that a field stands for, which is itself if nothing matches. -/
def fieldNames (w : World) (field : List Mark) : List String :=
  let pattern := patternOf field
  if !isWild pattern then [plainText field]
  else
    let found := namesBelow w "" (Text.pieces '/' pattern)
    if found.isEmpty then [plainText field] else Disk.sortNames found

end Shell
end DeclarativeBuild
