import DeclarativeBuild.Shell.Token

/-!
# Arithmetic

Expressions over whole numbers of 64 bits, with variables and assignments.  Operators bind as in the
C language, and division rounds toward zero.
-/

namespace DeclarativeBuild
namespace Shell
namespace Arithmetic

inductive Expr where
  | literal (n : Int)
  | variable (name : String)
  | unary (operator : String) (e : Expr)
  | binary (operator : String) (left right : Expr)
  | both (left right : Expr)
  | either (left right : Expr)
  | choice (condition yes no : Expr)
  /-- An assignment, of the outcome of an operator if one is given. -/
  | assign (name : String) (operator : Option String) (e : Expr)
deriving DecidableEq, Repr

/-- Why an expression has no value. -/
inductive Fault where
  | noPrimary
  | noEnd
  | noParenthesis
  | noColon
  | divisionByZero
  | illegalNumber (text : String)
deriving DecidableEq, Repr

def Fault.message (expression : String) : Fault → String
  | noPrimary => about "expecting primary"
  | noEnd => about "expecting EOF"
  | noParenthesis => about "expecting ')'"
  | noColon => about "expecting ':'"
  | divisionByZero => about "division by zero"
  | illegalNumber text => "Illegal number: " ++ text
where
  about (complaint : String) : String :=
    "arithmetic expression: " ++ complaint ++ ": \"" ++ expression ++ "\""

/-- The numbers that 64 bits with a sign stand for. -/
def wrap (n : Int) : Int :=
  n.bmod (Nat.pow 2 64)

/-- The value of a digit, which may be a letter. -/
def digitValue (c : Char) : Nat :=
  if c.isDigit then c.toNat - '0'.toNat else c.toLower.toNat - 'a'.toNat + 10

/-- A number at the front: hexadecimal after `0x`, octal after another `0`. -/
def scanNumber (cs : List Char) : Nat × List Char :=
  let isDigitOf (base : Nat) (c : Char) := c.isAlphanum && digitValue c < base
  let (base, body) := match cs with
    | '0' :: x :: d :: rest =>
      if (x == 'x' || x == 'X') && isDigitOf 16 d then (16, d :: rest) else (8, cs)
    | '0' :: _ => (8, cs)
    | cs => (10, cs)
  let digits := body.takeWhile (isDigitOf base)
  (digits.foldl (fun n c => n * base + digitValue c) 0, body.drop digits.length)

/-- The largest number. -/
def largest : Nat := Nat.pow 2 63 - 1

/-- The number that a text spells, with a sign perhaps; blanks around it do not count. -/
def numberOf? (text : String) : Option Int :=
  let bare := text.toList.dropWhile Char.isWhitespace
  let (negative, digits) := match bare with
    | '-' :: rest => (true, rest)
    | '+' :: rest => (false, rest)
    | cs => (false, cs)
  let (n, rest) := scanNumber digits
  if bare.isEmpty then some 0
  else if !(digits.head?.any Char.isDigit) || !rest.all Char.isWhitespace then none
  else if (if negative then largest + 1 else largest) < n then none
  else some (if negative then -n else n)

inductive Lexeme where
  | number (n : Int)
  | name (text : String)
  | operator (text : String)
  /-- A character that means nothing in an expression. -/
  | unknown
deriving DecidableEq, Repr

/-- Operators, longer ones before those they start with. -/
def operators : List String :=
  ["<<=", ">>=", "||", "&&", "==", "!=", "<=", ">=", "<<", ">>", "+=", "-=", "*=", "/=", "%=", "&=",
    "^=", "|=", "+", "-", "*", "/", "%", "<", ">", "&", "^", "|", "!", "~", "?", ":", "=", "(", ")"]

/-- What an expression is made of, up to a character that means nothing in it. -/
def lexemes (cs : List Char) : List Lexeme :=
  match cs with
  | [] => []
  | c :: rest =>
    if c.isWhitespace then lexemes rest
    else if c.isDigit then
      let (n, after) := scanNumber (c :: rest)
      if after.length ≤ rest.length then .number (min n largest) :: lexemes after else []
    else if isNameStart c then
      let more := rest.takeWhile isNameChar
      .name (String.ofList (c :: more)) :: lexemes (rest.drop more.length)
    else
      match scanOperator operators (c :: rest) with
      | some (o, after) =>
        if after.length ≤ rest.length then .operator o :: lexemes after else []
      | none => [.unknown]
termination_by cs.length
decreasing_by all_goals grind

/-- How tightly an operator binds. -/
def binding? : String → Option Nat
  | "||" => some 1
  | "&&" => some 2
  | "|" => some 3
  | "^" => some 4
  | "&" => some 5
  | "==" | "!=" => some 6
  | "<" | "<=" | ">" | ">=" => some 7
  | "<<" | ">>" => some 8
  | "+" | "-" => some 9
  | "*" | "/" | "%" => some 10
  | _ => none

/-- The operator inside an assignment: none for a plain one. -/
def assignment? : String → Option (Option String)
  | "=" => some none
  | "+=" => some (some "+")
  | "-=" => some (some "-")
  | "*=" => some (some "*")
  | "/=" => some (some "/")
  | "%=" => some (some "%")
  | "<<=" => some (some "<<")
  | ">>=" => some (some ">>")
  | "&=" => some (some "&")
  | "^=" => some (some "^")
  | "|=" => some (some "|")
  | _ => none

def joined (operator : String) (left right : Expr) : Expr :=
  if operator == "&&" then .both left right
  else if operator == "||" then .either left right
  else .binary operator left right

mutual

/-- An assignment or a choice.  Every reader takes a measure that shrinks with each step. -/
def parseWhole (measure : Nat) (ls : List Lexeme) : Except Fault (Expr × List Lexeme) :=
  match measure with
  | 0 => .error .noPrimary
  | measure + 1 =>
    match ls with
    | .name x :: .operator o :: rest =>
      match assignment? o with
      | some inner => (parseWhole measure rest).map fun (e, rest) => (.assign x inner e, rest)
      | none => parseChoice measure ls
    | _ => parseChoice measure ls

def parseChoice (measure : Nat) (ls : List Lexeme) : Except Fault (Expr × List Lexeme) :=
  match measure with
  | 0 => .error .noPrimary
  | measure + 1 => do
    let (condition, rest) ← parseOperand measure ls
    let (condition, rest) ← parseJoined measure 1 condition rest
    match rest with
    | .operator "?" :: rest =>
      let (yes, rest) ← parseWhole measure rest
      match rest with
      | .operator ":" :: rest =>
        let (no, rest) ← parseChoice measure rest
        return (.choice condition yes no, rest)
      | _ => throw .noColon
    | rest => return (condition, rest)

/-- What follows an operand by operators that bind at least so tightly. -/
def parseJoined (measure : Nat) (least : Nat) (left : Expr) (ls : List Lexeme) :
    Except Fault (Expr × List Lexeme) :=
  match measure with
  | 0 => .error .noPrimary
  | measure + 1 =>
    match ls with
    | .operator o :: rest =>
      match binding? o with
      | some strength =>
        if strength < least then .ok (left, ls)
        else do
          let (right, rest) ← parseOperand measure rest
          let (right, rest) ← parseJoined measure (strength + 1) right rest
          parseJoined measure least (joined o left right) rest
      | none => .ok (left, ls)
    | ls => .ok (left, ls)

def parseOperand (measure : Nat) (ls : List Lexeme) : Except Fault (Expr × List Lexeme) :=
  match measure with
  | 0 => .error .noPrimary
  | measure + 1 =>
    match ls with
    | .number n :: rest => .ok (.literal n, rest)
    | .name x :: rest => .ok (.variable x, rest)
    | .operator "(" :: rest => do
      let (e, rest) ← parseWhole measure rest
      match rest with
      | .operator ")" :: rest => return (e, rest)
      | _ => throw .noParenthesis
    | .operator o :: rest =>
      if ["+", "-", "!", "~"].contains o then
        (parseOperand measure rest).map fun (e, rest) => (.unary o e, rest)
      else .error .noPrimary
    | _ => .error .noPrimary

end

/-- Reads an expression. -/
def parse (text : String) : Except Fault Expr := do
  let ls := lexemes text.toList
  let (e, rest) ← parseWhole (5 * ls.length + 5) ls
  if rest.isEmpty then return e else throw .noEnd

def truth (b : Bool) : Int :=
  if b then 1 else 0

/-- The bits of a number, as those of a natural number below the 64th power of two. -/
def bits (n : Int) : Nat :=
  (n.emod (Nat.pow 2 64)).toNat

def applyUnary (operator : String) (n : Int) : Int :=
  match operator with
  | "-" => wrap (-n)
  | "!" => truth (n == 0)
  | "~" => -n - 1
  | _ => n

def applyBinary (operator : String) (a b : Int) : Except Fault Int :=
  match operator with
  | "+" => .ok (wrap (a + b))
  | "-" => .ok (wrap (a - b))
  | "*" => .ok (wrap (a * b))
  | "/" => if b == 0 then .error .divisionByZero else .ok (wrap (a.tdiv b))
  | "%" => if b == 0 then .error .divisionByZero else .ok (wrap (a.tmod b))
  | "<<" => .ok (wrap (a * (Nat.pow 2 (bits b % 64) : Nat)))
  | ">>" => .ok (a.fdiv (Nat.pow 2 (bits b % 64) : Nat))
  | "<" => .ok (truth (decide (a < b)))
  | "<=" => .ok (truth (decide (a ≤ b)))
  | ">" => .ok (truth (decide (b < a)))
  | ">=" => .ok (truth (decide (b ≤ a)))
  | "==" => .ok (truth (a == b))
  | "!=" => .ok (truth (a != b))
  | "&" => .ok (wrap (bits a &&& bits b : Nat))
  | "^" => .ok (wrap (bits a ^^^ bits b : Nat))
  | _ => .ok (wrap (bits a ||| bits b : Nat))

/-- Variables that an expression has assigned to, latest first. -/
abbrev Assigned := List (String × Int)

/-- The value of a variable, among those assigned to or in its text. -/
def valueOf (text : String → String) (assigned : Assigned) (name : String) : Except Fault Int :=
  match assigned.lookup name with
  | some n => .ok n
  | none =>
    match numberOf? (text name) with
    | some n => .ok n
    | none => .error (.illegalNumber (text name))

/-- The value of an expression and what it assigns. -/
def eval (text : String → String) (assigned : Assigned) : Expr → Except Fault (Int × Assigned)
  | .literal n => .ok (n, assigned)
  | .variable name => (valueOf text assigned name).map fun n => (n, assigned)
  | .unary o e => do
    let (n, assigned) ← eval text assigned e
    return (applyUnary o n, assigned)
  | .binary o left right => do
    let (a, assigned) ← eval text assigned left
    let (b, assigned) ← eval text assigned right
    return (← applyBinary o a b, assigned)
  | .both left right => do
    let (a, assigned) ← eval text assigned left
    if a == 0 then return (0, assigned)
    let (b, assigned) ← eval text assigned right
    return (truth (b != 0), assigned)
  | .either left right => do
    let (a, assigned) ← eval text assigned left
    if a != 0 then return (1, assigned)
    let (b, assigned) ← eval text assigned right
    return (truth (b != 0), assigned)
  | .choice condition yes no => do
    let (c, assigned) ← eval text assigned condition
    if c != 0 then eval text assigned yes else eval text assigned no
  | .assign name o e => do
    let (n, assigned) ← eval text assigned e
    let value ← match o with
      | none => .ok n
      | some o => do applyBinary o (← valueOf text assigned name) n
    return (value, (name, value) :: assigned)

end Arithmetic
end Shell
end DeclarativeBuild
