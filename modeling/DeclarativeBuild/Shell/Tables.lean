import DeclarativeBuild.Shell.Inputs

/-!
# Texts as tables

What `comm` and `join` make of sorted texts, and how lines are broken and spread.
-/

namespace DeclarativeBuild
namespace Shell

/-- Lines of two sorted texts, each with the column it belongs to: only the first, only the second,
or both. -/
def mergeColumns (measure : Nat) (a b : List Line) : List (Nat × Line) :=
  match measure, a, b with
  | 0, _, _ => []
  | _, [], b => b.map fun line => (2, line)
  | _, a, [] => a.map fun line => (1, line)
  | measure + 1, x :: a, y :: b =>
    match compare (String.ofList x) (String.ofList y) with
    | .lt => (1, x) :: mergeColumns measure a (y :: b)
    | .eq => (3, x) :: mergeColumns measure a b
    | .gt => (2, y) :: mergeColumns measure (x :: a) b

def isSorted : List Line → Bool
  | a :: b :: rest => (compare (String.ofList a) (String.ofList b)).isLE && isSorted (b :: rest)
  | _ => true

/-- Runs a step on the lines of two files. -/
def withTwoFiles (utility : String) (s : State) (operands : List String)
    (step : State → List Line → List Line → State) : State :=
  match operands with
  | [a, b] =>
    let (s, found) := texts utility id s [a, b]
    match found with
    | [(_, x), (_, y)] => step s (linesOf x.toList).1 (linesOf y.toList).1
    | _ => s
  | [] => misused utility "missing operand" s
  | [a] => misused utility ("missing operand after " ++ quotedName a) s
  | _ :: _ :: extra :: _ => misused utility ("extra operand " ++ quotedName extra) s

/-- Tells what two sorted texts share. -/
def comm (s : State) (args : List String) : State :=
  let w := Words.ofArgs [] args
  withTwoFiles "comm" s w.operands fun s a b =>
    let hides (column : Nat) : Bool := w.has (Nat.digitChar column)
    let start (column : Nat) : List Char :=
      let before := (List.range column).filter fun c => 0 < c && !hides c
      List.replicate before.length '\t'
    let shown := (mergeColumns (a.length + b.length) a b).filter fun (column, _) => !hides column
    let s := s.write (String.ofList (unlines (shown.map fun (column, line) => start column ++ line)))
    let fault (number : Nat) (lines : List Line) (s : State) : State :=
      if isSorted lines then s
      else s.complain ("comm: file " ++ toString number ++ " is not in sorted order\n")
    if isSorted a && isSorted b then s
    else ((fault 2 b (fault 1 a s)).complain "comm: input is not in sorted order\n").withStatus 1

/-- The fields of a line of `join`. -/
def joinFields (separator : Option Char) (line : Line) : List Line :=
  match separator with
  | some c => Text.pieces c line
  | none =>
    (Text.pieces ' ' (line.map fun c => if c == '\t' then ' ' else c)).filter (!·.isEmpty)

/-- Lines with the fields that they are joined by. -/
def keyedLines (separator : Option Char) (field : Nat) (lines : List Line) :
    List (Line × List Line) :=
  lines.map fun line =>
    let fields := joinFields separator line
    ((fields[field - 1]?).getD [], fields.eraseIdx (field - 1))

/-- Joins the lines of two texts that have a field in common. -/
def join (s : State) (args : List String) : State :=
  let w := Words.ofArgs ['t', '1', '2', 'j', 'a', 'v', 'e', 'o'] args
  withTwoFiles "join" s w.operands fun s a b =>
    let number (c : Char) : Option Nat := ((w.value? c).or (w.value? 'j')).bind String.toNat?
    let separator := (w.value? 't').bind fun t => t.toList.head?
    let left := keyedLines separator ((number '1').getD 1) a
    let right := keyedLines separator ((number '2').getD 1) b
    let glue := [separator.getD ' ']
    let asked (c : Char) (side : String) : Bool := w.options.contains (c, side)
    let lonely (side : String) : Bool := asked 'a' side || asked 'v' side
    let isPaired := !(w.options.any (·.1 == 'v'))
    let single (key : Line) (rest : List Line) : Line := Text.join glue (key :: rest)
    let fromLeft := left.flatMap fun (key, fields) =>
      let mates := right.filter (·.1 == key)
      if mates.isEmpty then if lonely "1" then [(key, single key fields)] else []
      else if isPaired then mates.map fun (_, more) => (key, single key (fields ++ more))
      else []
    let fromRight := right.filterMap fun (key, fields) =>
      if lonely "2" && !(left.any (·.1 == key)) then some (key, single key fields) else none
    let rows := (fromLeft ++ fromRight).mergeSort fun x y =>
      (compare (String.ofList x.1) (String.ofList y.1)).isLE
    s.write (String.ofList (unlines (rows.map Prod.snd)))

/-- A line in pieces of some width, which end after blanks if that is asked for. -/
def foldLine (width : Nat) (atBlanks : Bool) (line : Line) : Nat → List Line
  | 0 => [line]
  | turns + 1 =>
    if line.length ≤ width || width == 0 then [line]
    else
      let start := line.take width
      let kept := start.reverse.dropWhile fun c => c != ' ' && c != '\t'
      let size := if atBlanks && !kept.isEmpty then kept.length else width
      line.take size :: foldLine width atBlanks (line.drop size) turns

def fold (s : State) (args : List String) : State :=
  let plain (a : String) : String :=
    let n := (a.drop 1).toString
    if a.startsWith "-" && n.toNat?.isSome then "-w" ++ n else a
  let w := Words.ofArgs ['w'] (args.map plain)
  let width := ((w.value? 'w').bind String.toNat?).getD 80
  filter "fold" s w.operands fun text =>
    let (lines, closed) := linesOf text
    joinLines (lines.flatMap fun line => foldLine width (w.has 's') line line.length) closed

/-- A line whose tabs are blanks up to the next stop. -/
def expandTabs (size column : Nat) : Line → Line
  | [] => []
  | '\t' :: rest =>
    let gap := if size == 0 then 1 else size - column % size
    List.replicate gap ' ' ++ expandTabs size (column + gap) rest
  | c :: rest => c :: expandTabs size (column + 1) rest

def expand (s : State) (args : List String) : State :=
  let w := Words.ofArgs ['t'] args
  let size := ((w.value? 't').bind String.toNat?).getD 8
  filterLines "expand" s w.operands (·.map (expandTabs size 0))

/-- The endings that parts of a file are named with: two letters or digits. -/
def partEnding (digits : Bool) (n : Nat) : String :=
  if digits then String.ofList [Nat.digitChar (n / 10 % 10), Nat.digitChar (n % 10)]
  else String.ofList [Char.ofNat (97 + n / 26 % 26), Char.ofNat (97 + n % 26)]

/-- Parts of a list of some length. -/
def partsBy (size : Nat) (items : List α) : Nat → List (List α)
  | 0 => []
  | turns + 1 =>
    if items.isEmpty then [] else items.take size :: partsBy size (items.drop size) turns

/-- Writes a file in parts. -/
def split (s : State) (args : List String) : State :=
  let w := Words.ofArgs ['l', 'b', 'a', 'n'] args
  let (s, found) := texts "split" ("cannot open " ++ ·) s (w.operands.take 1)
  match found with
  | [] => s
  | (_, text) :: _ =>
    let number (c : Char) : Option Nat := (w.value? c).bind String.toNat?
    let cs := text.toList
    let parts := match number 'b' with
      | some n => partsBy (max n 1) cs cs.length
      | none =>
        let (lines, closed) := linesOf cs
        let groups := partsBy (max ((number 'l').getD 1000) 1) lines lines.length
        (groups.zipIdx).map fun (group, i) => joinLines group (closed || i + 1 < groups.length)
    let start := (w.operands[1]?).getD "x"
    overFiles "split" id (fun s (file : String) =>
      let i := (file.toNat?).getD 0
      let name := start ++ partEnding (w.has 'd') i
      (writeFile s name (String.ofList ((parts[i]?).getD [])) false).mapError reason) s
      ((List.range parts.length).map toString)

end Shell
end DeclarativeBuild
