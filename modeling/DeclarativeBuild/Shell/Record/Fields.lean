import DeclarativeBuild.Shell.Lines
import DeclarativeBuild.Shell.Record.Parser
import DeclarativeBuild.Shell.Record.Value

/-!
# Records and fields

How a text is cut into records and a record into fields, and how patterns are replaced in a text.
-/

namespace DeclarativeBuild
namespace Shell
namespace Record

/-- What stands between fields or records. -/
inductive Separator where
  | blanks
  /-- Every character is a field. -/
  | nothing
  | char (c : Char)
  | pattern (e : Regex)

namespace Separator

/-- The separator that a text stands for; a text that is no pattern separates nothing. -/
def ofText (s : String) : Separator :=
  match s.toList with
  | [' '] => .blanks
  | [] => .nothing
  | [c] => .char c
  | cs => (patternOf cs).elim .nothing .pattern

end Separator

/-- The longest match of a pattern that starts here, as its length. -/
def matchHere? (e : Regex) (previous : Option Char) (cs : List Char) : Option Nat :=
  (e.run false some ⟨previous, cs, []⟩).map fun stop => cs.length - stop.rest.length

/-- Pieces between matches of a pattern that are not empty, the current one read so far. -/
def splitByPattern (e : Regex) (previous : Option Char) (piece : List Char) (cs : List Char) :
    List (List Char) :=
  match cs with
  | [] => [piece.reverse]
  | c :: rest =>
    match matchHere? e previous cs with
    | some (n + 1) => piece.reverse :: splitByPattern e ((c :: rest)[n]?) [] (rest.drop n)
    | _ => splitByPattern e (some c) (c :: piece) rest
termination_by cs.length
decreasing_by all_goals grind

/-- Fields between blanks. -/
def splitByBlanks (cs : List Char) : List (List Char) :=
  (cs.foldr (fun c (pieces, inside) =>
    if isGap c then (pieces, false)
    else match inside, pieces with
      | true, piece :: more => ((c :: piece) :: more, true)
      | _, pieces => ([c] :: pieces, true)) (([] : List (List Char)), false)).1

/-- The fields of a text, which has none if it is empty. -/
def splitFields (separator : Separator) (cs : List Char) : List String :=
  if cs.isEmpty then []
  else
    let pieces := match separator with
      | .blanks => splitByBlanks cs
      | .nothing => cs.map fun c => [c]
      | .char c => Text.pieces c cs
      | .pattern e => splitByPattern e none [] cs
    pieces.map String.ofList

/-- Where a pattern first matches with more than nothing: what stands before, and what after. -/
def cutAt (e : Regex) (previous : Option Char) (cs : List Char) : Option (List Char × List Char) :=
  match cs with
  | [] => none
  | c :: rest =>
    match matchHere? e previous cs with
    | some (n + 1) => some ([], cs.drop (n + 1))
    | _ => (cutAt e (some c) rest).map fun (before, after) => (c :: before, after)

/-- A paragraph at the front: up to an empty line, and what follows the empty lines. -/
def cutParagraph (cs : List Char) : List Char × List Char :=
  match cs with
  | [] => ([], [])
  | '\n' :: '\n' :: rest => ([], rest.dropWhile (· == '\n'))
  | ['\n'] => ([], [])
  | c :: rest =>
    let (before, after) := cutParagraph rest
    (c :: before, after)

/-- The record at the front of a text, and the rest. -/
def nextRecord? (separator : String) (cs : List Char) : Option (String × List Char) :=
  match separator.toList with
  | [] =>
    match cs.dropWhile (· == '\n') with
    | [] => none
    | cs =>
      let (before, after) := cutParagraph cs
      some (String.ofList before, after)
  | [c] =>
    if cs.isEmpty then none
    else
      let before := cs.takeWhile (· != c)
      some (String.ofList before, cs.drop (before.length + 1))
  | source =>
    if cs.isEmpty then none
    else
      let (before, after) := ((patternOf source).bind (cutAt · none cs)).getD (cs, [])
      some (String.ofList before, after)

/-- A piece of a replacement: a character, or what was matched. -/
abbrev Replacement := List (Option Char)

/-- Reads a replacement: `&` stands for what was matched unless a backslash comes before. -/
def replacementOf (cs : List Char) : Replacement :=
  match cs with
  | [] => []
  | '\\' :: '&' :: rest => some '&' :: replacementOf rest
  | '\\' :: '\\' :: '&' :: rest => some '\\' :: none :: replacementOf rest
  | '&' :: rest => none :: replacementOf rest
  | c :: rest => some c :: replacementOf rest

def filled (r : Replacement) (found : List Char) : List Char :=
  r.flatMap fun
    | some c => [c]
    | none => found

/-- Replaces matches from here on, all of them or the first, and counts them.  Nothing is replaced
right behind a match. -/
def replaceMatches (e : Regex) (r : Replacement) (everywhere behindMatch : Bool)
    (previous : Option Char) (cs : List Char) : List Char × Nat :=
  match cs with
  | [] =>
    match matchHere? e previous [], behindMatch with
    | some _, false => (filled r [], 1)
    | _, _ => ([], 0)
  | c :: rest =>
    match matchHere? e previous cs, behindMatch with
    | some (n + 1), _ =>
      let found := cs.take (n + 1)
      let (after, count) := if everywhere then
          replaceMatches e r true true (cs[n]?) (rest.drop n)
        else (rest.drop n, 0)
      (filled r found ++ after, count + 1)
    | some 0, false =>
      let (after, count) := if everywhere then replaceMatches e r true false (some c) rest
        else (rest, 0)
      (filled r [] ++ c :: after, count + 1)
    | _, _ =>
      let (after, count) := replaceMatches e r everywhere false (some c) rest
      (c :: after, count)
termination_by cs.length
decreasing_by all_goals grind

/-- A value in the way of a directive, if there is such a conversion. -/
def shown? (convert : String) (d : Directive) (v : Value) : Option (List Char) :=
  let x := v.toNumber
  let cut (cs : List Char) := match d.precision with
    | some n => cs.take n
    | none => cs
  match d.conversion with
  | 's' => some (d.pad (cut (v.toText convert).toList))
  | 'c' =>
    match v with
    | .number x => some (d.pad [Char.ofNat ((wholeOf x) % 256).toNat])
    | v => some (d.pad ((v.toText convert).toList.take 1))
  | c =>
    if ['d', 'i', 'u', 'o', 'x', 'X'].contains c then
      if (unusualText x).isSome then some (Value.shownAs d x) else some (d.number (wholeOf x))
    else if ['e', 'E', 'f', 'F', 'g', 'G'].contains c then some (Value.shownAs d x)
    else none

/-- A text with values put into it in the way of `printf`, as far as there are values, and whether
there were enough of them. -/
def sprintf (convert : String) (format : List Char) (values : List Value) : List Char × Bool :=
  let started (text : List Char) (rest : List Char × Bool) := (text ++ rest.1, rest.2)
  match format with
  | [] => ([], true)
  | '%' :: '%' :: rest => started ['%'] (sprintf convert rest values)
  | '%' :: rest =>
    match scanDirective (values.map (·.toText convert)) rest with
    | none => (format, true)
    | some (d, args, after) =>
      match values.drop (values.length - args.length) with
      | [] => ([], false)
      | v :: left =>
        match shown? convert d v with
        | some text =>
          if after.length ≤ rest.length then started text (sprintf convert after left)
          else (text, true)
        | none => ([], false)
  | c :: rest => started [c] (sprintf convert rest values)
termination_by format.length
decreasing_by all_goals grind

/-- A part of a text from a place counted from one.  A place before the start counts as it, and
makes the part longer. -/
def substring (cs : List Char) (start : Float) (length : Option Float) : List Char :=
  let first := wholeOf (truncated start)
  match length with
  | none => cs.drop (max first 1 - 1).toNat
  | some length =>
    let size := wholeOf (truncated length)
    if first < 1 then cs.take (size - first).toNat
    else (cs.drop (first - 1).toNat).take size.toNat

/-- Where a text first stands in another one, counted from one. -/
def indexIn (part cs : List Char) : Nat :=
  match cs with
  | [] => if part.isEmpty then 1 else 0
  | _ :: rest =>
    if part.isPrefixOf cs then 1
    else
      let n := indexIn part rest
      if n == 0 then 0 else n + 1

end Record
end Shell
end DeclarativeBuild
