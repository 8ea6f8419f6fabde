import DeclarativeBuild.Shell.Editor
import DeclarativeBuild.Shell.Format

/-!
# Texts made of lines

What the utilities that read a text and write another one do: they take lines and columns out of it,
put lines in order, count, and replace characters.
-/

namespace DeclarativeBuild
namespace Shell

/-- The options of a utility with their values, and its operands. -/
structure Words where
  options : List (Char × String) := []
  operands : List String := []

namespace Words

def has (w : Words) (c : Char) : Bool :=
  w.options.any (·.1 == c)

/-- The value that an option was given last. -/
def value? (w : Words) (c : Char) : Option String :=
  w.options.reverse.lookup c

/-- The same without some options. -/
def without (w : Words) (letters : List Char) : Words :=
  { w with options := w.options.filter fun (c, _) => !letters.contains c }

def addOption (w : Words) (c : Char) (value : String) : Words :=
  { w with options := (c, value) :: w.options }

/-- The options in one word: letters without values up to one that takes a value, which is the rest
of the word. -/
def cluster (valued : List Char) : List Char → List Char × Option (Char × List Char)
  | [] => ([], none)
  | c :: cs =>
    if valued.contains c then ([], some (c, cs))
    else
      let (plain, last) := cluster valued cs
      (c :: plain, last)

/-- Long names of options and the letters that they stand for. -/
def longNames : List (String × Char) :=
  [("force", 'f'), ("recursive", 'r'), ("parents", 'p'), ("verbose", 'v'), ("all", 'a'),
    ("almost-all", 'A'), ("reverse", 'r'), ("unique", 'u'), ("count", 'c'), ("lines", 'n'),
    ("bytes", 'c'), ("chars", 'm'), ("words", 'w'), ("delimiter", 'd'), ("fields", 'f'),
    ("characters", 'c'), ("numeric-sort", 'n'), ("key", 'k'), ("field-separator", 't'),
    ("ignore-case", 'i'), ("repeated", 'd'), ("delete", 'd'), ("squeeze-repeats", 's'),
    ("symbolic", 's'), ("append", 'a'), ("quiet", 'q'), ("silent", 'q'), ("suffix", 's'),
    ("multiple", 'a'), ("number", 'n'), ("number-nonblank", 'b'), ("show-all", 'A'),
    ("show-ends", 'E'), ("show-tabs", 'T'), ("squeeze-blank", 's'), ("output", 'o'),
    ("only-delimited", 's'), ("archive", 'a'), ("no-clobber", 'n'), ("target-directory", 't'),
    ("separator", 's'), ("equal-width", 'w'), ("format", 'f'), ("max-line-length", 'L'),
    ("canonicalize", 'f'), ("canonicalize-existing", 'e'), ("canonicalize-missing", 'm'),
    ("dir", 'd'), ("directory", 'd'), ("mode", 'm'), ("no-create", 'c'), ("check", 'c'),
    ("complement", 'C'), ("output-delimiter", 'O'), ("zero-terminated", 'z'), ("stable", 's')]

/-- A long option as its letter and its value. -/
def longOption? (word : List Char) : Option (Char × String) :=
  let name := word.takeWhile (· != '=')
  (longNames.lookup (String.ofList name)).map fun c =>
    (c, String.ofList (word.drop (name.length + 1)))

/-- Tells options from operands; letters in `valued` take a value. -/
def ofArgs (valued : List Char) : List String → Words
  | [] => {}
  | "--" :: rest => { operands := rest }
  | word :: rest =>
    match word.toList with
    | '-' :: '-' :: name =>
      let after := ofArgs valued rest
      match longOption? name with
      | some (c, value) => after.addOption c value
      | none => after
    | '-' :: c :: cs =>
      let (plain, last) := cluster valued (c :: cs)
      let after : Words := match last with
        | none => ofArgs valued rest
        | some (o, []) =>
          match rest with
          | value :: rest => (ofArgs valued rest).addOption o value
          | [] => {}
        | some (o, value) => (ofArgs valued rest).addOption o (String.ofList value)
      { after with options := plain.map (·, "") ++ after.options }
    | _ =>
      let after := ofArgs valued rest
      { after with operands := word :: after.operands }

end Words

/-- Lines as a text; the last one lacks its end if `closed` is not set. -/
def joinLines (lines : List Line) (closed : Bool) : List Char :=
  if closed || lines.isEmpty then unlines lines else (unlines lines).dropLast

/-- The first lines, or all but so many of the last ones. -/
def headLines (exceptLast : Bool) (n : Nat) (text : List Char) : List Char :=
  let (lines, closed) := linesOf text
  let count := if exceptLast then lines.length - n else n
  joinLines (lines.take count) (closed || count < lines.length)

/-- The last lines, or those from a number on. -/
def tailLines (fromStart : Bool) (n : Nat) (text : List Char) : List Char :=
  let (lines, closed) := linesOf text
  joinLines (lines.drop (if fromStart then n - 1 else lines.length - n)) closed

/-- How many words a text has. -/
def wordCount (text : List Char) : Nat :=
  ((Text.pieces ' ' (text.map fun c => if c.isWhitespace then ' ' else c)).filter
    (!·.isEmpty)).length


/-- How many columns a line takes; tabs go on to the next eighth. -/
def columnsOf (line : Line) : Nat :=
  line.foldl (fun n c => if c == '\t' then n / 8 * 8 + 8 else if c < ' ' then n else n + 1) 0

/-- How many columns the longest line takes. -/
def longestLine (text : List Char) : Nat :=
  (linesOf text).1.foldl (fun n line => max n (columnsOf line)) 0

/-- A number filled up with blanks. -/
def padLeft (width n : Nat) : List Char :=
  let ds := (toString n).toList
  List.replicate (width - ds.length) ' ' ++ ds

/-- The number that starts a line, as a numerator over a power of ten that all numbers share. -/
def leadingNumber (line : Line) : Int :=
  let (negative, body) := match line.dropWhile fun c => c == ' ' || c == '\t' with
    | '-' :: rest => (true, rest)
    | rest => (false, rest)
  let whole := body.takeWhile Char.isDigit
  let fraction := match body.drop whole.length with
    | '.' :: rest => (rest.takeWhile Char.isDigit).take 9
    | _ => []
  let digits := whole ++ fraction ++ List.replicate (9 - fraction.length) '0'
  let n := (String.ofList digits).toNat?.getD 0
  if negative then -(n : Int) else n

/-- The part of a line that it is ordered by. -/
structure SortKey where
  first : Nat
  last : Option Nat
  numeric : Bool
  reversed : Bool

/-- A key as it is asked for: two field numbers and some letters. -/
def SortKey.parse (text : String) : SortKey :=
  let cs := text.toList
  let first := cs.takeWhile Char.isDigit
  let rest := cs.drop first.length
  let letters := rest.takeWhile (· != ',')
  let second := (rest.drop letters.length).drop 1
  let last := second.takeWhile Char.isDigit
  let letters := letters ++ second.drop last.length
  let number (ds : List Char) := (String.ofList ds).toNat?
  ⟨(number first).getD 1, number last, letters.contains 'n', letters.contains 'r'⟩

/-- The fields of a line: between separators, or each with the blanks before it. -/
def fieldsOf (separator : Option Char) (line : Line) : List Line :=
  match separator with
  | some c => Text.pieces c line
  | none =>
    let isBlank (c : Char) := c == ' ' || c == '\t'
    (line.foldr (fun c (fields : List Line) =>
      match fields with
      | (d :: field) :: rest =>
        if isBlank d && !isBlank c then [c] :: (d :: field) :: rest else (c :: d :: field) :: rest
      | _ => [[c]]) [])

def SortKey.select (k : SortKey) (separator : Option Char) (line : Line) : Line :=
  let fields := (fieldsOf separator line).drop (k.first - 1)
  let fields := match k.last with
    | some n => fields.take (n + 1 - k.first)
    | none => fields
  Text.join (separator.toList) fields

structure SortOrder where
  keys : List SortKey
  separator : Option Char
  ignoreCase : Bool
  reversed : Bool
  unique : Bool

namespace SortOrder

def fold (o : SortOrder) (line : Line) : Line :=
  if o.ignoreCase then line.map Char.toUpper else line

/-- How two lines stand by one key. -/
def compareBy (o : SortOrder) (k : SortKey) (a b : Line) : Ordering :=
  let a := k.select o.separator a
  let b := k.select o.separator b
  let found := if k.numeric then compare (leadingNumber a) (leadingNumber b)
    else compare (String.ofList (o.fold a)) (String.ofList (o.fold b))
  if k.reversed then found.swap else found

/-- How two lines stand by the first key that tells them apart. -/
def compareKeys (o : SortOrder) (a b : Line) : Ordering :=
  o.keys.foldl (fun found k => found.then (o.compareBy k a b)) .eq

/-- Keys first, and then all of the line. -/
def compareLines (o : SortOrder) (a b : Line) : Ordering :=
  let whole := compare (String.ofList a) (String.ofList b)
  (o.compareKeys a b).then (if o.reversed then whole.swap else whole)

/-- Drops lines that no key tells from the line before. -/
def dropEqual (o : SortOrder) : List Line → List Line
  | a :: b :: rest =>
    if (o.compareKeys a b).isEq then dropEqual o (a :: rest) else a :: dropEqual o (b :: rest)
  | lines => lines
termination_by lines => lines.length

def sort (o : SortOrder) (lines : List Line) : List Line :=
  if o.unique then o.dropEqual (lines.mergeSort fun a b => (o.compareKeys a b).isLE)
  else lines.mergeSort fun a b => (o.compareLines a b).isLE

/-- The first line that does not come after the one before it, and its number. -/
def disorder? (o : SortOrder) (number : Nat) : List Line → Option (Nat × Line)
  | a :: b :: rest =>
    let found := if o.unique then o.compareKeys a b else o.compareLines a b
    if found.isGT || (o.unique && found.isEq) then some (number, b)
    else disorder? o (number + 1) (b :: rest)
  | _ => none

/-- The order that options ask for.  Without keys all of the line is one. -/
def ofWords (w : Words) : SortOrder :=
  let asked := (w.options.filter (·.1 == 'k')).map fun (_, text) => SortKey.parse text
  let numeric := w.has 'n'
  let reversed := w.has 'r'
  let keys := if asked.isEmpty then [⟨1, none, numeric, reversed⟩]
    else asked.map fun k =>
      if k.numeric || k.reversed then k else { k with numeric, reversed }
  { keys, separator := (w.value? 't').bind fun t => t.toList.head?
    ignoreCase := w.has 'f', reversed, unique := w.has 'u' }

end SortOrder

/-- Runs of equal lines, each by its first line and its length. -/
def runsOf (same : Line → Line → Bool) (lines : List Line) : List (Line × Nat) :=
  lines.foldr (fun line runs =>
    match runs with
    | (next, n) :: rest => if same line next then (line, n + 1) :: rest else (line, 1) :: runs
    | [] => [(line, 1)]) []

/-- A line without so many of its first fields, each with the blanks before it. -/
def skipFields : Nat → Line → Line
  | 0, line => line
  | n + 1, line => skipFields n ((skipBlanks line).dropWhile fun c => c != ' ' && c != '\t')

/-- One line for each run, with its length if it is counted. -/
def uniqueLines (w : Words) (lines : List Line) : List Line :=
  let number (c : Char) : Option Nat := (w.value? c).bind String.toNat?
  let key (line : Line) : Line :=
    let rest := (skipFields ((number 'f').getD 0) line).drop ((number 's').getD 0)
    match number 'w' with
    | some n => rest.take n
    | none => rest
  let fold (line : Line) := if w.has 'i' then (key line).map Char.toLower else key line
  let runs := (runsOf (fun a b => fold a == fold b) lines).filter fun (_, n) =>
    (!w.has 'd' || 1 < n) && (!w.has 'u' || n == 1)
  runs.map fun (line, n) => if w.has 'c' then padLeft 7 n ++ ' ' :: line else line

/-- Whether a list of numbers and ranges holds a number. -/
def listed (ranges : String) (n : Nat) : Bool :=
  (Text.splitString ',' ranges).any fun range =>
    match Text.cutFirst '-' range.toList with
    | none => range.toNat? == some n
    | some (low, high) =>
      ((String.ofList low).toNat?.getD 1) ≤ n &&
        (high.isEmpty || n ≤ (String.ofList high).toNat?.getD 0)

/-- The members of a list at the positions that are listed, or at the others. -/
def pick (ranges : String) (others : Bool) (items : List α) : List α :=
  (items.zipIdx.filter fun (_, i) => listed ranges (i + 1) != others).map Prod.fst

/-- The characters or fields of a line that are asked for. -/
def cutLine (w : Words) (line : Line) : Option Line :=
  match (w.value? 'c').or (w.value? 'b'), w.value? 'f' with
  | some ranges, _ => some (pick ranges (w.has 'C') line)
  | none, some ranges =>
    let d := ((w.value? 'd').bind fun t => t.toList.head?).getD '\t'
    let glue := ((w.value? 'O').map String.toList).getD [d]
    if line.contains d then
      some (Text.join glue (pick ranges (w.has 'C') (Text.pieces d line)))
    else if w.has 's' then none else some line
  | none, none => some line

/-- What is wrong with a list of numbers and ranges. -/
def listFault? (isFields : Bool) (ranges : String) : Option String :=
  let number (ds : List Char) := (String.ofList ds).toNat?
  let isZero (ds : List Char) : Bool := number ds == some 0
  let fromOne := if isFields then "fields are numbered from 1"
    else "byte/character positions are numbered from 1"
  (Text.splitString ',' ranges).findSome? fun range =>
    let invalid := if isFields then "invalid field value '" ++ range ++ "'"
      else "invalid byte/character position '" ++ range ++ "'"
    match Text.cutFirst '-' range.toList with
    | none =>
      if range == "" || isZero range.toList then some fromOne
      else if (number range.toList).isNone then some invalid else none
    | some (low, high) =>
      if low.isEmpty && high.isEmpty then some "invalid range with no endpoint: -"
      else if high.contains '-' then
        some (if isFields then "invalid field range" else "invalid byte or character range")
      else if isZero low then some fromOne
      else if (!low.isEmpty && (number low).isNone) || (!high.isEmpty && (number high).isNone) then
        some invalid
      else if !high.isEmpty && (number high).getD 0 < (number low).getD 1 then
        some "invalid decreasing range"
      else none

/-- What is wrong with the options that tell `cut` what it is to take. -/
def cutFault? (w : Words) : Option String :=
  let positions := (w.value? 'c').or (w.value? 'b')
  match positions, w.value? 'f' with
  | none, none => some "you must specify a list of bytes, characters, or fields"
  | some _, some _ => some "only one list may be specified"
  | some ranges, none =>
    if w.has 'd' then
      some "an input delimiter may be specified only when operating on fields"
    else if w.has 's' then
      some "suppressing non-delimited lines makes sense\n\tonly when operating on fields"
    else listFault? false ranges
  | none, some ranges =>
    if 1 < ((w.value? 'd').getD "").length then some "the delimiter must be a single character"
    else listFault? true ranges

/-- A range of characters that ends before it starts. -/
def reversedRange? (cs : List Char) : Option String :=
  match cs with
  | '\\' :: _ :: rest => reversedRange? rest
  | a :: '-' :: b :: rest =>
    if b < a then some (String.ofList [a, '-', b]) else reversedRange? rest
  | _ :: rest => reversedRange? rest
  | [] => none

/-- The characters of a set, in which ranges, classes and escapes may stand. -/
def setMembers (cs : List Char) : List Char :=
  match cs with
  | [] => []
  | '[' :: ':' :: rest =>
    let name := rest.takeWhile Char.isAlpha
    match rest.drop name.length with
    | ':' :: ']' :: after =>
      let all := (List.range 128).map Char.ofNat
      if after.length ≤ rest.length then
        all.filter (inClass (String.ofList name)) ++ setMembers after
      else []
    | _ => '[' :: setMembers (':' :: rest)
  | '\\' :: rest =>
    match scanEscape rest with
    | some (c, after) => if after.length ≤ rest.length then c :: setMembers after else []
    | none => setMembers rest
  | a :: '-' :: b :: rest =>
    (List.range (b.toNat + 1 - a.toNat)).map (fun i => Char.ofNat (a.toNat + i)) ++ setMembers rest
  | c :: rest => c :: setMembers rest
termination_by cs.length
decreasing_by all_goals grind

/-- The characters of a second set, where one that is repeated fills it up to some length. -/
def filledSet (cs : List Char) (length : Nat) : List Char :=
  match cs.reverse with
  | ']' :: '*' :: c :: '[' :: before =>
    let start := setMembers before.reverse
    start ++ List.replicate (length - start.length) c
  | _ => setMembers cs

/-- Drops repetitions of some characters. -/
def squeeze (isMember : Char → Bool) : List Char → List Char
  | a :: b :: rest =>
    if a == b && isMember a then squeeze isMember (b :: rest)
    else a :: squeeze isMember (b :: rest)
  | cs => cs

/-- Replaces, deletes or squeezes characters. -/
def translate (w : Words) (text : List Char) : List Char :=
  let source := setMembers ((w.operands[0]?).getD "").toList
  let target := filledSet ((w.operands[1]?).getD "").toList source.length
  let source := if w.has 't' && 2 ≤ w.operands.length then source.take target.length else source
  let isSource (c : Char) := source.contains c != (w.has 'c' || w.has 'C')
  if w.has 'd' then
    let kept := text.filter (!isSource ·)
    if w.has 's' then squeeze (target.contains ·) kept else kept
  else if w.operands.length < 2 then squeeze isSource text
  else
    let last := target.getLastD ' '
    let replaced := text.map fun c =>
      if !isSource c then c
      else if w.has 'c' || w.has 'C' then last
      else
        match source.reverse.idxOf? c with
        | some i => (target[source.length - 1 - i]?).getD last
        | none => c
    if w.has 's' then squeeze (target.contains ·) replaced else replaced

/-- Numbers from one to another. -/
def sequenceOf (first step last : Int) : List Int :=
  if step == 0 then []
  else
    let count := if 0 < step then (last - first) / step + 1 else (first - last) / (-step) + 1
    (List.range count.toNat).map fun (i : Nat) => first + step * i

namespace Decimal

/-- How many places a number has after its point. -/
def places (n : Decimal) : Nat :=
  (-n.power).toNat

/-- A number times a power of ten that makes it a whole one. -/
def times (n : Decimal) (places : Nat) : Int :=
  let whole : Int := (n.digits * Nat.pow 10 (places + n.power).toNat : Nat)
  if n.negative then -whole else whole

end Decimal

/-- The numbers that `seq` writes, and the fault if it is called in a wrong way. -/
def sequenceLines (w : Words) (words : List String) : Except String (List String) := do
  let numbers ← words.mapM fun word =>
    match scanDecimal word with
    | some (n, []) => Except.ok n
    | _ => .error ("invalid floating point argument: '" ++ word ++ "'")
  let one : Decimal := { digits := 1 }
  let (first, step, last) ← match numbers with
    | [last] => Except.ok (one, one, last)
    | [first, last] => .ok (first, one, last)
    | [first, step, last] => .ok (first, step, last)
    | [] => .error "missing operand"
    | _ => .error ("extra operand '" ++ (words[3]?).getD "" ++ "'")
  if step.digits == 0 then
    throw ("invalid Zero increment value: '" ++ (words[1]?).getD "" ++ "'")
  let shownPlaces := max first.places step.places
  let places := max shownPlaces last.places
  let shown (places shownPlaces : Nat) (n : Int) : List Char :=
    let digits := toString (n.natAbs / Nat.pow 10 (places - shownPlaces))
    let text := Directive.withPoint shownPlaces digits.toList
    if n < 0 then '-' :: text else text
  let numbers := sequenceOf (first.times places) (step.times places) (last.times places)
  let texts := numbers.map (shown places shownPlaces)
  let width := max (shown places shownPlaces (first.times places)).length
    (shown places shownPlaces (last.times places)).length
  let padded (text : List Char) : List Char :=
    let zeros := List.replicate (width - text.length) '0'
    match text with
    | '-' :: rest => '-' :: zeros ++ rest
    | text => zeros ++ text
  let formatted (text : List Char) : List Char := match w.value? 'f' with
    | some format => (formatOnce { args := [String.ofList text] } format.toList).written
    | none => if w.has 'w' then padded text else text
  return texts.map fun text => String.ofList (formatted text)

/-- A character as it is shown to be seen. -/
def visibleByte (b : UInt8) : List Char :=
  let low (n : Nat) : List Char :=
    if n < 32 then ['^', Char.ofNat (n + 64)] else if n == 127 then ['^', '?']
    else [Char.ofNat n]
  if b == 9 || b == 10 then [Char.ofNat b.toNat]
  else if b.toNat < 128 then low b.toNat else 'M' :: '-' :: low (b.toNat - 128)

/-- A text as `cat` shows it. -/
def showText (w : Words) (text : List Char) : List Char :=
  let has (letters : List Char) := letters.any w.has
  let (lines, closed) := linesOf text
  let lines := if w.has 's' then
      (lines.foldl (fun (found : List Line) line =>
        if line.isEmpty && found.head? == some [] then found else line :: found) []).reverse
    else lines
  let marked (line : Line) : Line :=
    let line := if has ['v', 'A', 'e', 't'] then
        (String.ofList line).toUTF8.toList.flatMap visibleByte
      else line
    if has ['T', 'A', 't'] then
      line.flatMap fun c => if c == '\t' then ['^', 'I'] else [c]
    else line
  let ending (i : Nat) : Line :=
    if i + 1 < lines.length || closed then
      if has ['E', 'A', 'e'] then ['$', '\n'] else ['\n']
    else []
  ((lines.zipIdx).foldl (fun ((shown, n) : List Char × Nat) (line, i) =>
    let counts := w.has 'b' && !line.isEmpty || (w.has 'n' && !w.has 'b')
    let number := if counts then padLeft 6 n ++ ['\t'] else []
    (shown ++ number ++ marked line ++ ending i, if counts then n + 1 else n)) ([], 1)).1

/-- Lines with their numbers, which lines that are empty may lack. -/
def numberLines (all : Bool) (lines : List Line) : List Line :=
  (lines.foldl (fun (found, n) line =>
    if all || !line.isEmpty then ((padLeft 6 n ++ '\t' :: line) :: found, n + 1)
    else ((List.replicate 7 ' ' ++ line) :: found, n)) (([] : List Line), 1)).1.reverse

/-- Lines of several texts side by side. -/
def pasteLines (delimiter : List Char) (columns : List (List Line)) : List Line :=
  let rows := columns.foldl (fun n lines => max n lines.length) 0
  (List.range rows).map fun i =>
    Text.join delimiter (columns.map fun lines => (lines[i]?).getD [])

end Shell
end DeclarativeBuild
