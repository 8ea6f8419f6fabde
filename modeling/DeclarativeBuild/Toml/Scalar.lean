import DeclarativeBuild.Toml.Value

/-!
# Numbers and dates

The values that are written as one word: booleans, integers, floats, dates and times.
-/

namespace DeclarativeBuild
namespace Toml

/-- The digits of a number, where underscores may only stand between digits. -/
def digits? (isDigit : Char → Bool) : List Char → Option (List Char)
  | [] => none
  | [c] => if isDigit c then some [c] else none
  | c :: '_' :: rest => if isDigit c then (digits? isDigit rest).map (c :: ·) else none
  | c :: rest => if isDigit c then (digits? isDigit rest).map (c :: ·) else none

def digitValue (c : Char) : Nat :=
  if c.isDigit then c.toNat - '0'.toNat else c.toLower.toNat - 'a'.toNat + 10

def numberIn (base : Nat) (ds : List Char) : Nat :=
  ds.foldl (fun n c => n * base + digitValue c) 0

/-- Integers have 64 bits with a sign. -/
def integerBound : Nat := Nat.pow 2 63

def integer? (n : Int) : Option Value :=
  if -integerBound ≤ n ∧ n < integerBound then some (.integer n) else none

def isDigitBelow (base : Nat) (c : Char) : Bool :=
  (c.isDigit || ('a' ≤ c && c ≤ 'f') || ('A' ≤ c && c ≤ 'F')) && digitValue c < base

def inBase? (base : Nat) (cs : List Char) : Option Value := do
  let ds ← digits? (isDigitBelow base) cs
  integer? (numberIn base ds)

/-- Decimal digits without a needless zero in front. -/
def plainDigits? (cs : List Char) : Option (List Char) := do
  let ds ← digits? Char.isDigit cs
  if ds.length > 1 && ds.head? == some '0' then none else some ds

/-- A number's sign and what follows it. -/
def splitSign : List Char → Bool × List Char
  | '-' :: rest => (true, rest)
  | '+' :: rest => (false, rest)
  | cs => (false, cs)

def decimal? (cs : List Char) : Option Value := do
  let (negative, body) := splitSign cs
  let n := numberIn 10 (← plainDigits? body)
  integer? (if negative then -n else n)

/-- The least number that no finite float is nearest to. -/
def floatBound : Nat := Nat.pow 2 1024 - Nat.pow 2 970

/-- Whether a positive decimal number rounds to a finite one. -/
def isFinite (mantissa : Nat) (exponent : Int) : Bool :=
  let magnitude := (toString mantissa).length + exponent
  mantissa == 0 || magnitude ≤ 308 ||
    (magnitude ≤ 309 &&
      mantissa * Nat.pow 10 exponent.toNat < floatBound * Nat.pow 10 (-exponent).toNat)

/-- A float: digits with a fraction, an exponent or both, or a special value. -/
def float? (cs : List Char) : Option Value := do
  let (negative, body) := splitSign cs
  if body == "inf".toList || body == "nan".toList then return .float (String.ofList cs)
  let whole := body.takeWhile fun c => c.isDigit || c == '_'
  let afterWhole := body.drop whole.length
  let wholeDigits ← plainDigits? whole
  let (fraction, afterFraction) ← match afterWhole with
    | '.' :: rest =>
      let part := rest.takeWhile fun c => c.isDigit || c == '_'
      (digits? Char.isDigit part).map fun ds => (ds, rest.drop part.length)
    | rest => some ([], rest)
  let exponent ← match afterFraction with
    | [] => some none
    | e :: rest =>
      if e == 'e' || e == 'E' then
        let (down, power) := splitSign rest
        (digits? Char.isDigit power).map fun ds =>
          some (if down then -(numberIn 10 ds : Int) else numberIn 10 ds)
      else none
  if fraction.isEmpty && exponent.isNone then none
  let scale := exponent.getD 0 - fraction.length
  if negative || isFinite (numberIn 10 (wholeDigits ++ fraction)) scale
  then some (.float (String.ofList cs)) else none

def twoDigits? : List Char → Option (Nat × List Char)
  | a :: b :: rest =>
    if a.isDigit && b.isDigit then some (numberIn 10 [a, b], rest) else none
  | _ => none

def daysIn (year month : Nat) : Nat :=
  if month == 2 then
    if year % 4 == 0 && (year % 100 != 0 || year % 400 == 0) then 29 else 28
  else if [4, 6, 9, 11].contains month then 30 else 31

/-- The text after a date at its front. -/
def skipDate (cs : List Char) : Option (List Char) := do
  let (century, rest) ← twoDigits? cs
  let (year, rest) ← twoDigits? rest
  match rest with
  | '-' :: rest =>
    let (month, rest) ← twoDigits? rest
    match rest with
    | '-' :: rest =>
      let (day, rest) ← twoDigits? rest
      if 1 ≤ month && month ≤ 12 && 1 ≤ day && day ≤ daysIn (century * 100 + year) month
      then some rest else none
    | _ => none
  | _ => none

/-- The text after hours and minutes at its front. -/
def skipMinutes (cs : List Char) : Option (List Char) := do
  let (hour, rest) ← twoDigits? cs
  match rest with
  | ':' :: rest =>
    let (minute, rest) ← twoDigits? rest
    if hour ≤ 23 && minute ≤ 59 then some rest else none
  | _ => none

/-- The text after a time of day at its front. -/
def skipTime (cs : List Char) : Option (List Char) := do
  match ← skipMinutes cs with
  | ':' :: rest =>
    let (second, rest) ← twoDigits? rest
    if second > 60 then none
    match rest with
    | '.' :: more =>
      let part := more.takeWhile Char.isDigit
      if part.isEmpty then none else some (more.drop part.length)
    | _ => some rest
  | _ => none

def isOffset (cs : List Char) : Bool :=
  match cs with
  | [] => true
  | [c] => c == 'Z' || c == 'z'
  | c :: rest => (c == '+' || c == '-') && skipMinutes rest == some []

/-- A date, a time, or both with an offset. -/
def isMoment (cs : List Char) : Bool :=
  match skipDate cs with
  | some [] => true
  | some (sep :: rest) =>
    (sep == 'T' || sep == 't' || sep == ' ') && (skipTime rest).any isOffset
  | none => skipTime cs == some []

/-- The value that a word stands for. -/
def scalar? (cs : List Char) : Option Value :=
  match cs with
  | '0' :: 'x' :: rest => inBase? 16 rest
  | '0' :: 'o' :: rest => inBase? 8 rest
  | '0' :: 'b' :: rest => inBase? 2 rest
  | _ =>
    if cs == "true".toList then some (.boolean true)
    else if cs == "false".toList then some (.boolean false)
    else if isMoment cs then some (.moment (String.ofList cs))
    else (decimal? cs).or (float? cs)

end Toml
end DeclarativeBuild
