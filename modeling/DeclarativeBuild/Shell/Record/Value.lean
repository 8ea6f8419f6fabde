import DeclarativeBuild.Shell.Record.Token

/-!
# Values of rules

Numbers and texts, and how each is read as the other.  A text that was read counts as a number where
it looks like one.
-/

namespace DeclarativeBuild
namespace Shell
namespace Record

inductive Value where
  | unset
  | number (x : Float)
  | text (s : String)
  /-- A text that was read from outside. -/
  | input (s : String)
deriving Inhabited

/-- Characters between fields and around numbers. -/
def isGap (c : Char) : Bool :=
  c.isWhitespace || c == '\x0b' || c == '\x0c'

/-- The number at the front of a text, and what follows it: a decimal or a hexadecimal one, or a
word for what is no finite number. -/
def scanNumber (s : String) : Option (Float × List Char) :=
  let body := s.toList.dropWhile isGap
  let (negative, bare) := match body with
    | '-' :: rest => (true, rest)
    | '+' :: rest => (false, rest)
    | cs => (false, cs)
  let signed (x : Float) := if negative then -x else x
  let word := String.ofList ((bare.takeWhile Char.isAlpha).map Char.toLower)
  if word == "inf" || word == "infinity" then
    some (signed (1.0 / 0.0), bare.drop word.length)
  else if word == "nan" then some (0.0 / 0.0, bare.drop 3)
  else
    let digits := ((bare.drop 2).takeWhile fun c => c.isDigit || inClass "xdigit" c)
    match bare with
    | '0' :: x :: _ =>
      if (x == 'x' || x == 'X') && !digits.isEmpty then
        let n := digits.foldl (fun n c => n * 16 + Arithmetic.digitValue c) 0
        some (signed (Float.ofNat n), (bare.drop 2).drop digits.length)
      else scanFloat (String.ofList body)
    | _ => scanFloat (String.ofList body)

/-- Whether a text is a number and nothing else. -/
def looksNumeric (s : String) : Bool :=
  match scanNumber s with
  | some (_, rest) => rest.all isGap
  | none => false

/-- A number of the machine without its fraction, as far as 64 bits go. -/
def wholeOf (x : Float) : Int :=
  if x < 0 then -(((-x).toUInt64.toNat : Nat) : Int) else (x.toUInt64.toNat : Nat)

/-- Whether a number is shown as a whole one. -/
def isWhole (x : Float) : Bool :=
  x.floor == x && -9223372036854775808.0 ≤ x && x ≤ 18446744073709551616.0

/-- A number that is not finite. -/
def unusualText (x : Float) : Option String :=
  if x.isNaN then some "-nan"
  else if x.isInf then some (if x < 0 then "-inf" else "inf")
  else none

namespace Value

def toNumber : Value → Float
  | unset => 0
  | number x => x
  | text s | input s => ((scanNumber s).map Prod.fst).getD 0

/-- A number as one conversion shows it. -/
def shownAs (d : Directive) (x : Float) : List Char :=
  match unusualText x with
  | some word => { d with flags := d.flags.filter (· != '0') }.pad word.toList
  | none => d.decimal (0x8000000000000000 ≤ x.toBits.toNat) x.abs

/-- The text of a number, where the format tells about fractions. -/
def numberText (format : String) (x : Float) : String :=
  if isWhole x then toString (wholeOf x)
  else
    match format.toList with
    | '%' :: rest =>
      match scanDirective [] rest with
      | some (d, _, after) => String.ofList (shownAs d x ++ after)
      | none => format
    | _ => format

/-- The text of a value, where the format tells about fractions. -/
def toText (format : String) : Value → String
  | unset => ""
  | number x => numberText format x
  | text s | input s => s

def isTrue : Value → Bool
  | unset => false
  | number x => x != 0
  | text s => s != ""
  | input s => if looksNumeric s then (input s).toNumber != 0 else s != ""

def ofBool (b : Bool) : Value :=
  .number (if b then 1 else 0)

def ofNat (n : Nat) : Value :=
  .number (Float.ofNat n)

/-- Whether a value is compared as a number. -/
def isNumeric : Value → Bool
  | unset | number _ => true
  | text _ => false
  | input s => looksNumeric s

/-- Whether a comparison holds: of numbers if both sides are, and of texts otherwise. -/
def compare (format operator : String) (a b : Value) : Bool :=
  let numeric := a.isNumeric && b.isNumeric
  let x := a.toNumber
  let y := b.toNumber
  let s := a.toText format
  let t := b.toText format
  match operator with
  | "<" => if numeric then x < y else s < t
  | "<=" => if numeric then x ≤ y else s ≤ t
  | ">" => if numeric then y < x else t < s
  | ">=" => if numeric then y ≤ x else t ≤ s
  | "!=" => if numeric then x != y else s != t
  | _ => if numeric then x == y else s == t

end Value

/-- A number with the fraction cut off. -/
def truncated (x : Float) : Float :=
  if x < 0 then x.ceil else x.floor

/-- What is left of a number after dividing it, with its sign. -/
def remainder (x y : Float) : Float :=
  if x.isInf || y == 0 || x.isNaN || y.isNaN then 0.0 / 0.0
  else if y.isInf then x
  else
    let (m, q) := Directive.decoded x
    let (n, r) := Directive.decoded y
    let low := min q r
    let a := m * Nat.pow 2 (q - low).toNat
    let b := n * Nat.pow 2 (r - low).toNat
    let size := (Float.ofNat (a % b)).scaleB low
    if x < 0 then -size else size

/-- What an operator makes of two numbers. -/
def arithmetic (operator : String) (x y : Float) : Float :=
  match operator with
  | "+" => x + y
  | "-" => x - y
  | "*" => x * y
  | "/" => x / y
  | "%" => remainder x y
  | _ => x.pow y

end Record
end Shell
end DeclarativeBuild
