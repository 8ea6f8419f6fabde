import DeclarativeBuild.Program
import DeclarativeBuild.Shell.Lines

/-!
# Conditions and expressions

The tests that `test` makes of words and files, and the values that `expr` works out.
-/

namespace DeclarativeBuild
namespace Shell

/-- A whole decimal number with a sign perhaps; blanks around it do not count. -/
def decimalOf? (word : String) : Option Int :=
  let (negative, body) := match Text.trim word.toList with
    | '-' :: rest => (true, rest)
    | '+' :: rest => (false, rest)
    | cs => (false, cs)
  if body.isEmpty || !body.all Char.isDigit then none
  else (String.ofList body).toNat?.map fun n => if negative then -(n : Int) else n

/-- The outcome of a comparison of numbers. -/
def compareNumbers? (operator : String) (a b : Int) : Option Bool :=
  match operator with
  | "-eq" => some (a == b)
  | "-ne" => some (a != b)
  | "-lt" => some (decide (a < b))
  | "-le" => some (decide (a ≤ b))
  | "-gt" => some (decide (b < a))
  | "-ge" => some (decide (b ≤ a))
  | _ => none

/-- What stands at a path, where a link at its end is not followed. -/
def isLink (w : World) (file : String) : Bool :=
  match w.disk.entryAt false w.cwd ⟨file⟩ with
  | .ok (.link _) => true
  | _ => false

/-- Tests of one word. -/
def unaryOperators : List String :=
  ["-n", "-z", "-e", "-r", "-w", "-O", "-G", "-f", "-d", "-x", "-h", "-L", "-s", "-b", "-c", "-g",
    "-k", "-p", "-S", "-t", "-u"]

def unaryTest (w : World) (operator word : String) : Except String Bool :=
  let exists? := w.disk.contains w.cwd ⟨word⟩
  match operator with
  | "-n" => .ok (word != "")
  | "-z" => .ok (word == "")
  | "-e" | "-r" | "-w" | "-O" | "-G" => .ok exists?
  | "-f" => .ok (w.isFile ⟨word⟩)
  | "-d" => .ok (w.disk.isDirectory w.cwd ⟨word⟩)
  | "-x" => .ok (w.isProgram ⟨word⟩ || w.disk.isDirectory w.cwd ⟨word⟩)
  | "-h" | "-L" => .ok (isLink w word)
  | "-s" => .ok (match w.disk.entryAt true w.cwd ⟨word⟩ with
      | .ok (.file content _) => content.size > 0
      | .ok _ => true
      | .error _ => false)
  | "-t" => if (decimalOf? word).isSome then .ok false else .error ("Illegal number: " ++ word)
  | _ => .ok false

/-- Tests of two words. -/
def binaryOperators : List String :=
  ["=", "!=", "<", ">", "-eq", "-ne", "-lt", "-le", "-gt", "-ge", "-nt", "-ot", "-ef"]

def binaryTest (w : World) (a operator b : String) : Except String Bool :=
  let place (file : String) := (w.disk.locate true w.cwd ⟨file⟩).toOption
  let exists? (file : String) := w.disk.contains w.cwd ⟨file⟩
  match operator with
  | "=" => .ok (a == b)
  | "!=" => .ok (a != b)
  | "<" => .ok (decide (a < b))
  | ">" => .ok (decide (b < a))
  | "-nt" => .ok (exists? a && !exists? b)
  | "-ot" => .ok (!exists? a && exists? b)
  | "-ef" => .ok (exists? a && exists? b && place a == place b)
  | _ =>
    match decimalOf? a, decimalOf? b with
    | none, _ => .error ("Illegal number: " ++ a)
    | _, none => .error ("Illegal number: " ++ b)
    | some m, some n => .ok ((compareNumbers? operator m n).getD false)

/-- What a word of a test is, by the words after it. -/
inductive TestWord where
  | missing
  | operand
  | unary (operator : String)
  | binary (operator : String)
  | no
  | also
  | orElse
  | opening
  | closing
deriving DecidableEq, Repr

/-- Whether what looks like a test of one word is an operand, by the words after it. -/
def isOperand : List String → Bool
  | [] => true
  | [_] => false
  | next :: _ => binaryOperators.contains next

def TestWord.ofWords : List String → TestWord
  | [] => .missing
  | word :: rest =>
    if unaryOperators.contains word && !isOperand rest then .unary word
    else if binaryOperators.contains word then .binary word
    else
      match word with
      | "!" => .no
      | "-a" => .also
      | "-o" => .orElse
      | "(" => if rest.isEmpty then .operand else .opening
      | ")" => .closing
      | _ => .operand

mutual

/-- Whether one of some alternatives holds.  The words that are left start with the last one that
counts, and `start` is what the first word is taken for. -/
def testAny (measure : Nat) (w : World) (start : TestWord) (words : List String) :
    Except String (Bool × List String) :=
  match measure with
  | 0 => .ok (false, words)
  | measure + 1 => do
    let (a, words) ← testAll measure w start words
    if TestWord.ofWords (words.drop 1) == .orElse then
      let rest := words.drop 2
      let (b, rest) ← testAny measure w (TestWord.ofWords rest) rest
      return (a || b, rest)
    else return (a, words)

def testAll (measure : Nat) (w : World) (start : TestWord) (words : List String) :
    Except String (Bool × List String) :=
  match measure with
  | 0 => .ok (false, words)
  | measure + 1 => do
    let (a, words) ← testNot measure w start words
    if TestWord.ofWords (words.drop 1) == .also then
      let rest := words.drop 2
      let (b, rest) ← testAll measure w (TestWord.ofWords rest) rest
      return (a && b, rest)
    else return (a, words)

def testNot (measure : Nat) (w : World) (start : TestWord) (words : List String) :
    Except String (Bool × List String) :=
  match measure with
  | 0 => .ok (false, words)
  | measure + 1 =>
    if start != .no then testOne measure w start words
    else do
      let next := TestWord.ofWords (words.drop 1)
      let (a, rest) ← testNot measure w next (if next == .missing then words else words.drop 1)
      return (!a, rest)

def testOne (measure : Nat) (w : World) (start : TestWord) (words : List String) :
    Except String (Bool × List String) :=
  match measure with
  | 0 => .ok (false, words)
  | measure + 1 =>
    match start, words with
    | .missing, _ => .ok (false, words)
    | .opening, _ => do
      let inner := words.drop 1
      let next := TestWord.ofWords inner
      if next == .closing then return (false, inner)
      let (a, rest) ← testAny measure w next inner
      let rest := rest.drop 1
      if TestWord.ofWords rest == .closing then return (a, rest)
      else throw "closing paren expected"
    | .unary operator, _ :: word :: rest => do
      return (← unaryTest w operator word, word :: rest)
    | .unary operator, _ => .error (operator ++ ": argument expected")
    | _, a :: rest =>
      match TestWord.ofWords rest, rest with
      | .binary operator, _ :: b :: more => do
        return (← binaryTest w a operator b, b :: more)
      | .binary operator, _ => .error (operator ++ ": argument expected")
      | _, _ => .ok (a != "", words)
    | _, [] => .ok (false, [])

end

/-- The outcome of some words, the first of which is taken for `start`. -/
def outcomeOf (w : World) (start : TestWord) (words : List String) : Except String Bool := do
  let (a, rest) ← testAny (4 * words.length + 8) w start words
  match rest with
  | last :: _ :: _ => throw (last ++ ": unexpected operator")
  | _ => return a

/-- Whether a test holds, or does not hold, or the complaint about it.  Three or four words are told
apart by their number first. -/
def holds (w : World) (denied : Bool) (words : List String) : Except String Bool :=
  let usual (words : List String) := outcomeOf w (TestWord.ofWords words) words
  let settled (found : Except String Bool) := found.map (· != denied)
  match words with
  | [a, b, c] =>
    if binaryOperators.contains b then settled (outcomeOf w .operand words)
    else if a == "(" && c == ")" then settled (usual [b])
    else if a == "!" then holds w true [b, c]
    else settled (usual words)
  | [a, b, c, d] =>
    if a == "(" && d == ")" then settled (usual [b, c])
    else if a == "!" then holds w true [b, c, d]
    else settled (usual words)
  | words => settled (if words.isEmpty then .ok false else usual words)
termination_by words.length

namespace Expression

/-- Whether a value counts as false. -/
def isNull (v : String) : Bool :=
  v == "" || decimalOf? v == some 0

def truth (b : Bool) : String :=
  if b then "1" else "0"

/-- What an expression matches at the start of a text: the text of its first group, or how long the
match is. -/
def matchAtStart (text expression : String) : Option String := do
  let e ← Regex.parse false expression.toList
  let start : Cursor := ⟨none, text.toList, []⟩
  match e.run false some start with
  | none => return if Editing.groupsOf e == 0 then "0" else ""
  | some stop =>
    if Editing.groupsOf e == 0 then return toString (start.upTo stop).length
    else return String.ofList ((stop.groups.lookup 1).getD [])

/-- How tightly an operator binds. -/
def binding? : String → Option Nat
  | "|" => some 1
  | "&" => some 2
  | "=" | "==" | "!=" | "<" | "<=" | ">" | ">=" => some 3
  | "+" | "-" => some 4
  | "*" | "/" | "%" => some 5
  | ":" => some 6
  | _ => none

def compareValues (operator : String) (order : Ordering) : Bool :=
  match operator with
  | "=" | "==" => order.isEq
  | "!=" => !order.isEq
  | "<" => order.isLT
  | "<=" => order.isLE
  | ">" => order.isGT
  | _ => order.isGE

def outcome? (operator a b : String) : Option String :=
  let numbers (f : Int → Int → Option Int) : Option String := do
    return toString (← f (← decimalOf? a) (← decimalOf? b))
  match operator with
  | "|" => some (if !isNull a then a else if !isNull b then b else "0")
  | "&" => some (if isNull a || isNull b then "0" else a)
  | "+" => numbers fun m n => some (m + n)
  | "-" => numbers fun m n => some (m - n)
  | "*" => numbers fun m n => some (m * n)
  | "/" => numbers fun m n => if n == 0 then none else some (m.tdiv n)
  | "%" => numbers fun m n => if n == 0 then none else some (m.tmod n)
  | ":" => matchAtStart a b
  | _ =>
    match decimalOf? a, decimalOf? b with
    | some m, some n => some (truth (compareValues operator (compare m n)))
    | _, _ => some (truth (compareValues operator (compare a b)))

mutual

/-- The value of a word, a function of words or a part in parentheses. -/
def operand (measure : Nat) (args : List String) : Option (String × List String) :=
  match measure with
  | 0 => none
  | measure + 1 =>
    match args with
    | "(" :: rest =>
      match joined measure 1 rest with
      | some (v, ")" :: rest) => some (v, rest)
      | _ => none
    | "length" :: word :: rest => some (toString word.length, rest)
    | "index" :: word :: set :: rest =>
      some (toString ((word.toList.findIdx? set.toList.contains).elim 0 (· + 1)), rest)
    | "substr" :: word :: start :: count :: rest =>
      let cut := match decimalOf? start, decimalOf? count with
        | some i, some n =>
          if i ≤ 0 then [] else (word.toList.drop (i.toNat - 1)).take n.toNat
        | _, _ => []
      some (String.ofList cut, rest)
    | "match" :: word :: expression :: rest => (matchAtStart word expression).map (·, rest)
    | word :: rest => some (word, rest)
    | [] => none

/-- An operand and what follows it by operators that bind at least so tightly. -/
def joined (measure : Nat) (least : Nat) (args : List String) : Option (String × List String) :=
  match measure with
  | 0 => none
  | measure + 1 => do
    let (left, rest) ← operand measure args
    joinedAfter measure least left rest

def joinedAfter (measure : Nat) (least : Nat) (left : String) (args : List String) :
    Option (String × List String) :=
  match measure with
  | 0 => none
  | measure + 1 =>
    match args with
    | [] => some (left, [])
    | o :: rest =>
      match binding? o with
      | some strength =>
        if strength < least then some (left, args)
        else do
          let (right, rest) ← joined measure (strength + 1) rest
          joinedAfter measure least (← outcome? o left right) rest
      | none => some (left, args)

end

/-- The value of an expression, if it has one. -/
def valueOf (args : List String) : Option String :=
  match joined (4 * args.length + 4) 1 args with
  | some (v, []) => some v
  | _ => none

end Expression

end Shell
end DeclarativeBuild
