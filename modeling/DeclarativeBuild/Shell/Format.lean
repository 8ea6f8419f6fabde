import DeclarativeBuild.Shell.Arithmetic

/-!
# Formatted output

What `echo` and `printf` write: escapes, and formats that are filled with words.
-/

namespace DeclarativeBuild
namespace Shell

def isOctal (c : Char) : Bool :=
  '0' ≤ c && c ≤ '7'

/-- The character that some octal digits stand for. -/
def octalChar (digits : List Char) : Char :=
  Char.ofNat (digits.foldl (fun n c => n * 8 + Arithmetic.digitValue c) 0 % 256)

/-- The character that an escape of one letter stands for. -/
def escapedChar? : Char → Option Char
  | 'a' => some '\x07'
  | 'b' => some '\x08'
  | 'f' => some '\x0c'
  | 'n' => some '\n'
  | 'r' => some '\r'
  | 't' => some '\t'
  | 'v' => some '\x0b'
  | 'e' => some '\x1b'
  | '\\' => some '\\'
  | _ => none

/-- One escape, after its backslash: a letter or up to three octal digits. -/
def scanEscape (cs : List Char) : Option (Char × List Char) :=
  match cs with
  | [] => none
  | c :: rest =>
    match escapedChar? c with
    | some d => some (d, rest)
    | none =>
      let digits := (cs.takeWhile isOctal).take 3
      if digits.isEmpty then none else some (octalChar digits, cs.drop digits.length)

/-- A text with its escapes replaced, and whether it asks for the end of all output. -/
def withEscapes (cs : List Char) : List Char × Bool :=
  match cs with
  | [] => ([], false)
  | '\\' :: 'c' :: _ => ([], true)
  | '\\' :: '0' :: rest =>
    let digits := (rest.takeWhile isOctal).take 3
    let (more, stopped) := withEscapes (rest.drop digits.length)
    (octalChar digits :: more, stopped)
  | '\\' :: rest =>
    match scanEscape rest with
    | some (c, after) =>
      if after.length ≤ rest.length then
        let (more, stopped) := withEscapes after
        (c :: more, stopped)
      else (['\\'], false)
    | none =>
      let (more, stopped) := withEscapes rest
      ('\\' :: more, stopped)
  | c :: rest =>
    let (more, stopped) := withEscapes rest
    (c :: more, stopped)
termination_by cs.length
decreasing_by all_goals grind

/-- Words between blanks, with escapes, and a line end unless it is suppressed. -/
def echo (args : List String) : String :=
  let (newline, words) := match args with
    | "-n" :: rest => (false, rest)
    | words => (true, words)
  let (text, stopped) := withEscapes (" ".intercalate words).toList
  String.ofList text ++ if newline && !stopped then "\n" else ""

/-- What `echo` writes as a program of its own, which leaves escapes alone unless it is told. -/
def plainEcho (args : List String) : String :=
  let isOption (w : String) :=
    match w.toList with
    | '-' :: letters => !letters.isEmpty && letters.all fun c => ['n', 'e', 'E'].contains c
    | _ => false
  let options := (args.takeWhile isOption).flatMap String.toList
  let words := (args.dropWhile isOption).map String.toList
  let interprets := (options.filter fun c => c == 'e' || c == 'E').getLast? == some 'e'
  let text := Text.join [' '] words
  let (text, stopped) := if interprets then withEscapes text else (text, false)
  String.ofList text ++ if options.contains 'n' || stopped then "" else "\n"

/-- How a word is put into a format. -/
structure Directive where
  flags : List Char
  width : Int
  precision : Option Nat
  conversion : Char

/-- A whole number of a directive, which may be left to a word. -/
def scanSize (args : List String) (cs : List Char) : Option Int × List String × List Char :=
  match cs with
  | '*' :: rest => (some ((Arithmetic.numberOf? (args.headD "")).getD 0), args.drop 1, rest)
  | _ =>
    let digits := cs.takeWhile Char.isDigit
    (if digits.isEmpty then none else some ((String.ofList digits).toNat?.getD 0), args,
      cs.drop digits.length)

/-- A directive after its sign. -/
def scanDirective (args : List String) (cs : List Char) :
    Option (Directive × List String × List Char) :=
  let flags := cs.takeWhile fun c => ['-', '+', ' ', '0', '#'].contains c
  let (width, args, rest) := scanSize args (cs.drop flags.length)
  let (precision, args, rest) := match rest with
    | '.' :: rest =>
      let (n, args, rest) := scanSize args rest
      (some (n.getD 0).toNat, args, rest)
    | rest => (none, args, rest)
  match rest with
  | conversion :: rest => some (⟨flags, width.getD 0, precision, conversion⟩, args, rest)
  | [] => none

namespace Directive

/-- Fills a text up to the width. -/
def pad (d : Directive) (text : List Char) : List Char :=
  let gap := List.replicate (d.width.natAbs - text.length) ' '
  if d.width < 0 || d.flags.contains '-' then text ++ gap else gap ++ text

def signOf (d : Directive) (negative : Bool) : List Char :=
  if negative then ['-'] else if d.flags.contains '+' then ['+']
  else if d.flags.contains ' ' then [' '] else []

/-- A number with its sign or mark in front, filled with zeros if that is asked for. -/
def padNumber (d : Directive) (mark digits : List Char) : List Char :=
  let digits := List.replicate (d.precision.getD 0 - digits.length) '0' ++ digits
  let zeros :=
    if d.flags.contains '0' && !d.flags.contains '-' && d.precision.isNone && 0 < d.width then
      d.width.natAbs - mark.length - digits.length
    else 0
  d.pad (mark ++ List.replicate zeros '0' ++ digits)

def digitsIn (base n : Nat) : List Char :=
  Nat.toDigits base n

/-- A whole number in the way of the conversion. -/
def number (d : Directive) (n : Int) : List Char :=
  let unsigned := Arithmetic.bits n
  let mark (m : String) := if d.flags.contains '#' && unsigned != 0 then m.toList else []
  match d.conversion with
  | 'u' => d.padNumber [] (digitsIn 10 unsigned)
  | 'o' => d.padNumber (mark "0") (digitsIn 8 unsigned)
  | 'x' => d.padNumber (mark "0x") (digitsIn 16 unsigned)
  | 'X' => d.padNumber (mark "0X") ((digitsIn 16 unsigned).map Char.toUpper)
  | _ => d.padNumber (d.signOf (n < 0)) (digitsIn 10 n.natAbs)

/-- A quotient rounded to the nearest number, and halves to the even one. -/
def roundedQuotient (a b : Nat) : Nat :=
  let q := a / b
  let twice := 2 * (a % b)
  if twice > b || (twice == b && q % 2 == 1) then q + 1 else q

/-- The size of a number of the machine as a whole number times a power of two. -/
def decoded (x : Float) : Nat × Int :=
  let bits := x.toBits.toNat
  let raw := bits / Nat.pow 2 52 % 2048
  let fraction := bits % Nat.pow 2 52
  if raw == 0 then (fraction, -1074) else (fraction + Nat.pow 2 52, (raw : Int) - 1075)

/-- The whole number next to `m * 2 ^ q * 10 ^ places`. -/
def scaled (m : Nat) (q places : Int) : Nat :=
  roundedQuotient (m * Nat.pow 2 q.toNat * Nat.pow 10 places.toNat)
    (Nat.pow 2 (-q).toNat * Nat.pow 10 (-places).toNat)

/-- Digits with a point before the last so many of them. -/
def withPoint (places : Nat) (digits : List Char) : List Char :=
  let digits := List.replicate (places + 1 - digits.length) '0' ++ digits
  let whole := digits.take (digits.length - places)
  if places == 0 then whole else whole ++ '.' :: digits.drop (digits.length - places)

/-- The power of ten that a number is at least, for a number that is not zero. -/
def magnitude (m : Nat) (q : Int) : Int :=
  let top := m * Nat.pow 2 q.toNat
  let bottom := Nat.pow 2 (-q).toNat
  if bottom ≤ top then (toString (top / bottom)).length - 1
  else
    let steps := (List.range 400).find? fun n => bottom ≤ top * Nat.pow 10 n
    Int.negOfNat (steps.getD 400)

/-- One digit and so many places after it, and the power of ten they are multiplied by. -/
def leadingDigits (places : Nat) (m : Nat) (q : Int) : Nat × Int :=
  if m == 0 then (0, 0)
  else
    let power := magnitude m q
    let digits := scaled m q (places - power)
    if digits < Nat.pow 10 (places + 1) then (digits, power) else (digits / 10, power + 1)

def withPower (places : Nat) (letter : Char) (digits : Nat) (power : Int) : List Char :=
  let shown := digitsIn 10 power.natAbs
  withPoint places (digitsIn 10 digits) ++ letter :: (if power < 0 then '-' else '+') ::
    (List.replicate (2 - shown.length) '0' ++ shown)

/-- A text without zeros after its point that say nothing. -/
def trimZeros (text : List Char) : List Char :=
  if text.contains '.' then
    (((text.reverse).dropWhile (· == '0')).dropWhile (· == '.')).reverse
  else text

/-- A number with a fraction in the way of the conversion, with six places if it says nothing. -/
def decimal (d : Directive) (negative : Bool) (size : Float) : List Char :=
  let (m, q) := decoded size
  let places := d.precision.getD 6
  let letter := if d.conversion.isUpper then 'E' else 'e'
  let text := match d.conversion.toLower with
    | 'e' =>
      let (digits, power) := leadingDigits places m q
      withPower places letter digits power
    | 'g' =>
      let significant := max places 1
      let (digits, power) := leadingDigits (significant - 1) m q
      let keep (text : List Char) := if d.flags.contains '#' then text else trimZeros text
      if power < -4 || (significant : Int) ≤ power then
        let mantissa := keep (withPoint (significant - 1) (digitsIn 10 digits))
        mantissa ++ (withPower 0 letter 0 power).drop 1
      else
        let places := (significant - 1 - power).toNat
        keep (withPoint places (digitsIn 10 (scaled m q places)))
    | _ => withPoint places (digitsIn 10 (scaled m q places))
  { d with precision := none }.padNumber (d.signOf negative) text

end Directive

/-- What is wrong with a word that should be a number: there is none at its front, or more behind
it. -/
def numberFault (word : String) (used : Bool) : String :=
  word ++ if used then ": not completely converted" else ": expected numeric value"

/-- The number that a word gives, and what is wrong with it. -/
def argumentNumber (word : String) : Int × Option String :=
  match word.toList with
  | [] => (0, none)
  | '"' :: c :: _ | '\'' :: c :: _ => (((c.toString.toUTF8.toList.head?.map UInt8.toNat).getD 0), none)
  | cs =>
    let (negative, body) := match cs.dropWhile Char.isWhitespace with
      | '-' :: rest => (true, rest)
      | '+' :: rest => (false, rest)
      | rest => (false, rest)
    let (n, rest) := Arithmetic.scanNumber body
    if !body.head?.any Char.isDigit then (0, some (numberFault word false))
    else
      let most := if negative then Arithmetic.largest + 1 else Arithmetic.largest
      let value := min n most
      let fault := if !rest.isEmpty then some (numberFault word true)
        else if most < n then some (word ++ ": Numerical result out of range")
        else none
      (if negative then -value else value, fault)

/-- A decimal number as its sign, its digits and the power of ten they are multiplied by. -/
structure Decimal where
  negative : Bool := false
  digits : Nat := 0
  power : Int := 0

/-- The number of the machine next to a decimal number without its sign. -/
def Decimal.size (n : Decimal) : Float :=
  Float.ofScientific n.digits (n.power < 0) n.power.natAbs

/-- The decimal number at the front of a word, if there is one, and what follows it. -/
def scanDecimal (word : String) : Option (Decimal × List Char) :=
  let (negative, body) := match word.toList.dropWhile Char.isWhitespace with
    | '-' :: rest => (true, rest)
    | '+' :: rest => (false, rest)
    | cs => (false, cs)
  let whole := body.takeWhile Char.isDigit
  let (fraction, rest) := match body.drop whole.length with
    | '.' :: rest => (rest.takeWhile Char.isDigit, rest.dropWhile Char.isDigit)
    | rest => ([], rest)
  if whole.isEmpty && fraction.isEmpty then none
  else
    let power? := match rest with
      | 'e' :: rest | 'E' :: rest =>
        let (negative, body) := match rest with
          | '-' :: body => (true, body)
          | '+' :: body => (false, body)
          | body => (false, body)
        let digits := body.takeWhile Char.isDigit
        let n : Int := ((String.ofList digits).toNat?.getD 0 : Nat)
        if digits.isEmpty then none
        else some (if negative then -n else n, body.drop digits.length)
      | _ => none
    let (power, rest) := power?.getD (0, rest)
    let digits := (String.ofList (whole ++ fraction)).toNat?.getD 0
    some (⟨negative, digits, power - fraction.length⟩, rest)

/-- The decimal number that a word gives, and what is wrong with it. -/
def argumentDecimal (word : String) : Decimal × Option String :=
  match word.toList with
  | [] => ({}, none)
  | '"' :: c :: _ | '\'' :: c :: _ => ({ digits := c.toNat }, none)
  | _ =>
    match scanDecimal word with
    | some (n, []) => (n, none)
    | some (n, _) => (n, some (numberFault word true))
    | none => ({}, some (numberFault word false))

/-- What filling a format has come to. -/
structure Filling where
  written : List Char := []
  args : List String
  complaints : List String := []
  status : Nat := 0
  stopped : Bool := false

namespace Filling

def write (f : Filling) (text : List Char) : Filling :=
  { f with written := f.written ++ text }

/-- Notes what is wrong with a word. -/
def note (f : Filling) (fault : Option String) : Filling :=
  match fault with
  | some why => { f with complaints := f.complaints ++ [why], status := 1 }
  | none => f

/-- Gives up. -/
def giveUp (f : Filling) (why : String) : Filling :=
  { f with complaints := f.complaints ++ [why], status := 2, stopped := true }

/-- Fills one directive, which is written as `source`. -/
def fill (f : Filling) (d : Directive) (source : List Char) : Filling :=
  let word := f.args.headD ""
  let after := { f with args := f.args.drop 1 }
  let cut (cs : List Char) := match d.precision with
    | some n => cs.take n
    | none => cs
  match d.conversion with
  | 's' => after.write (d.pad (cut word.toList))
  | 'c' => after.write (d.pad (word.toList.take 1))
  | 'b' =>
    let (text, stopped) := withEscapes word.toList
    { after.write (d.pad (cut text)) with stopped }
  | c =>
    if ['d', 'i', 'u', 'o', 'x', 'X'].contains c then
      let (n, fault) := argumentNumber word
      (after.write (d.number n)).note fault
    else if ['e', 'E', 'f', 'F', 'g', 'G'].contains c then
      let (n, fault) := argumentDecimal word
      (after.write (d.decimal n.negative n.size)).note fault
    else f.giveUp (String.ofList ('%' :: source) ++ ": invalid directive")

end Filling

/-- One pass of a format over the words that are left. -/
def formatOnce (f : Filling) (cs : List Char) : Filling :=
  if f.stopped then f
  else
    match cs with
    | [] => f
    | '%' :: '%' :: rest => formatOnce (f.write ['%']) rest
    | '%' :: rest =>
      match scanDirective f.args rest with
      | none => f.giveUp "missing format character"
      | some (d, args, after) =>
        if after.length ≤ rest.length then
          formatOnce ({ f with args }.fill d (rest.take (rest.length - after.length))) after
        else f
    | '\\' :: rest =>
      match scanEscape rest with
      | some (c, after) =>
        if after.length ≤ rest.length then formatOnce (f.write [c]) after else f
      | none =>
        match rest with
        | '"' :: rest => formatOnce (f.write ['"']) rest
        | rest => formatOnce (f.write ['\\']) rest
    | c :: rest => formatOnce (f.write [c]) rest
termination_by cs.length
decreasing_by all_goals grind

/-- A format is used again while it takes words and words are left. -/
def formatAll (format : List Char) (f : Filling) : Filling :=
  let after := formatOnce f format
  if after.stopped || after.args.isEmpty then after
  else if after.args.length < f.args.length then formatAll format after
  else after
termination_by f.args.length

end Shell
end DeclarativeBuild
