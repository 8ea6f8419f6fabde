import DeclarativeBuild.Shell.Inputs

/-!
# Bytes of files

What `od` and `base64` show of the bytes of a text, and sums of them.
-/

namespace DeclarativeBuild
namespace Shell

/-- How the bytes of one item are shown. -/
structure DumpFormat where
  kind : Char
  size : Nat
deriving DecidableEq, Repr

namespace DumpFormat

/-- How many columns an item takes with the blank before it. -/
def width (f : DumpFormat) : Nat :=
  match f.kind with
  | 'a' | 'c' => 4
  | 'x' => 2 * f.size + 1
  | 'o' => (8 * f.size + 2) / 3 + 1
  | 'u' => (toString (Nat.pow 256 f.size - 1)).length + 1
  | _ => (toString (Nat.pow 256 f.size / 2)).length + 2

/-- Names of characters that cannot be seen. -/
def controlNames : List String :=
  ["nul", "soh", "stx", "etx", "eot", "enq", "ack", "bel", "bs", "ht", "nl", "vt", "ff", "cr", "so",
    "si", "dle", "dc1", "dc2", "dc3", "dc4", "nak", "syn", "etb", "can", "em", "sub", "esc", "fs",
    "gs", "rs", "us", "sp"]

def fill (width : Nat) (c : Char) (text : List Char) : List Char :=
  List.replicate (width - text.length) c ++ text

/-- A byte as a character, an escape or three octal digits. -/
def charText (n : Nat) : List Char :=
  match n with
  | 0 => ['\\', '0']
  | 7 => ['\\', 'a']
  | 8 => ['\\', 'b']
  | 9 => ['\\', 't']
  | 10 => ['\\', 'n']
  | 11 => ['\\', 'v']
  | 12 => ['\\', 'f']
  | 13 => ['\\', 'r']
  | n => if 32 ≤ n && n < 127 then [Char.ofNat n] else fill 3 '0' (Nat.toDigits 8 n)

/-- An item, whose bytes come with the lowest first. -/
def item (f : DumpFormat) (bytes : List UInt8) : List Char :=
  let n := bytes.foldr (fun b n => n * 256 + b.toNat) 0
  let top := Nat.pow 256 f.size
  match f.kind with
  | 'c' => charText n
  | 'a' =>
    let low := n % 128
    if low == 127 then "del".toList
    else ((controlNames[low]?).map String.toList).getD [Char.ofNat low]
  | 'x' => fill (f.width - 1) '0' (Nat.toDigits 16 n)
  | 'o' => fill (f.width - 1) '0' (Nat.toDigits 8 n)
  | 'u' => (toString n).toList
  | _ => (toString (if 2 * n < top then (n : Int) else (n : Int) - top)).toList

/-- The formats that a text asks for. -/
def parse : List Char → List DumpFormat
  | [] => []
  | kind :: rest =>
    let sizes : List (Char × Nat) := [('C', 1), ('S', 2), ('I', 4), ('L', 8), ('1', 1), ('2', 2),
      ('4', 4), ('8', 8)]
    if kind == 'a' || kind == 'c' then ⟨kind, 1⟩ :: parse rest
    else if !(['d', 'o', 'u', 'x'].contains kind) then parse rest
    else ⟨kind, (rest.head?.bind fun c => sizes.lookup c).getD 4⟩ :: parse rest

end DumpFormat

/-- What `od` is asked for. -/
structure Dump where
  formats : List DumpFormat := []
  radix : Char := 'o'
  skipped : Nat := 0
  most : Option Nat := none
  showsAll : Bool := false
  width : Nat := 16

namespace Dump

/-- Letters that stand for formats. -/
def shortFormats : List (Char × DumpFormat) :=
  [('a', ⟨'a', 1⟩), ('b', ⟨'o', 1⟩), ('c', ⟨'c', 1⟩), ('d', ⟨'u', 2⟩), ('i', ⟨'d', 4⟩),
    ('l', ⟨'d', 8⟩), ('o', ⟨'o', 2⟩), ('s', ⟨'d', 2⟩), ('x', ⟨'x', 2⟩)]

def ofOptions (options : List (Char × String)) : Dump :=
  let d := options.foldl (fun (d : Dump) (c, value) =>
    match c with
    | 'A' => { d with radix := value.toList.headD 'o' }
    | 't' => { d with formats := d.formats ++ DumpFormat.parse value.toList }
    | 'j' => { d with skipped := value.toNat?.getD 0 }
    | 'N' => { d with most := value.toNat? }
    | 'v' => { d with showsAll := true }
    | 'w' => { d with width := value.toNat?.getD 32 }
    | c => { d with formats := d.formats ++ (shortFormats.lookup c).toList }) {}
  if d.formats.isEmpty then { d with formats := [⟨'o', 2⟩] } else d

def address (d : Dump) (n : Nat) : List Char :=
  match d.radix with
  | 'n' => []
  | 'x' => DumpFormat.fill 6 '0' (Nat.toDigits 16 n)
  | 'd' => DumpFormat.fill 7 '0' (Nat.toDigits 10 n)
  | _ => DumpFormat.fill 7 '0' (Nat.toDigits 8 n)

/-- How many columns the items of a row take, for the format that needs most. -/
def rowWidth (d : Dump) : Nat :=
  d.formats.foldl (fun n f => max n (d.width / f.size * f.width)) 0

/-- The items of a row in one format; what the row has more than this format needs is put before
them. -/
def row (d : Dump) (f : DumpFormat) (bytes : List UInt8) : List Char :=
  let items := portionsOf f.size bytes bytes.length
  let columns := d.rowWidth / (d.width / f.size)
  items.flatMap fun own => DumpFormat.fill columns ' ' (f.item own)
where
  portionsOf (size : Nat) (bytes : List UInt8) : Nat → List (List UInt8)
    | 0 => []
    | n + 1 =>
      if bytes.isEmpty then [] else bytes.take size :: portionsOf size (bytes.drop size) n

/-- The rows of some bytes from an address on; equal rows are left out. -/
def rows (d : Dump) (n : Nat) (latest : Option (List UInt8)) (isCut : Bool) (bytes : List UInt8) :
    Nat → List Char
  | 0 => []
  | turns + 1 =>
    let own := bytes.take d.width
    if own.isEmpty then
      let last := d.address n
      if last.isEmpty then [] else last ++ ['\n']
    else
      let next (isCut : Bool) : List Char :=
        rows d (n + own.length) (some own) isCut (bytes.drop d.width) turns
      if latest == some own && !d.showsAll && own.length == d.width then
        (if isCut then [] else ['*', '\n']) ++ next true
      else
        let shown := (d.formats.zipIdx).flatMap fun (f, i) =>
          let start := d.address n
          (if i == 0 then start else List.replicate start.length ' ') ++ d.row f own ++ ['\n']
        shown ++ next false

/-- What is shown of the bytes of a text. -/
def textOf (d : Dump) (text : String) : String :=
  let bytes := text.toUTF8.toList.drop d.skipped
  let bytes := match d.most with
    | some n => bytes.take n
    | none => bytes
  String.ofList (d.rows d.skipped none false bytes (bytes.length + 1))

end Dump

def dump (s : State) (args : List String) : State :=
  let w := Words.ofArgs ['A', 't', 'j', 'N', 'w'] args
  let (s, found) := texts "od" id s w.operands
  if found.isEmpty then s
  else s.write ((Dump.ofOptions w.options).textOf (String.join (found.map Prod.snd)))

/-- The characters that stand for six bits each. -/
def sixBitChars : List Char :=
  "ABCDEFGHIJKLMNOPQRSTUVWXYZabcdefghijklmnopqrstuvwxyz0123456789+/".toList

/-- Bytes by characters for six bits each, three bytes at a time. -/
def encodeSixBits : List UInt8 → List Char
  | a :: b :: c :: rest =>
    let n := (a.toNat * 256 + b.toNat) * 256 + c.toNat
    charAt (n / 262144) :: charAt (n / 4096) :: charAt (n / 64) :: charAt n :: encodeSixBits rest
  | [a, b] =>
    let n := (a.toNat * 256 + b.toNat) * 4
    [charAt (n / 4096), charAt (n / 64), charAt n, '=']
  | [a] => [charAt (a.toNat / 4), charAt (a.toNat * 16), '=', '=']
  | [] => []
where
  charAt (n : Nat) : Char := (sixBitChars[n % 64]?).getD 'A'

/-- The bytes that characters stand for, and whether all of them could be read. -/
def decodeSixBits (cs : List Char) : List UInt8 × Bool :=
  let value? (c : Char) : Option Nat := sixBitChars.idxOf? c
  match cs with
  | [] => ([], true)
  | a :: b :: rest =>
    match value? a, value? b, rest with
    | some a, some b, ['=', '='] => ([UInt8.ofNat (a * 4 + b / 16)], true)
    | some a, some b, [] => ([UInt8.ofNat (a * 4 + b / 16)], false)
    | some a, some b, c :: rest =>
      match value? c, rest with
      | some c, ['='] | some c, [] =>
        let n := (a * 64 + b) * 64 + c
        ([UInt8.ofNat (n / 1024), UInt8.ofNat (n / 4)], !rest.isEmpty)
      | some c, d :: rest =>
        match value? d with
        | some d =>
          let n := ((a * 64 + b) * 64 + c) * 64 + d
          let (more, complete) := decodeSixBits rest
          (UInt8.ofNat (n / 65536) :: UInt8.ofNat (n / 256) :: UInt8.ofNat n :: more, complete)
        | none => ([], false)
      | none, _ => ([], false)
    | _, _, _ => ([], false)
  | _ => ([], false)

/-- A text in rows of some length; there is one row if the length is zero. -/
def inRows (width : Nat) (cs : List Char) : Nat → List Char
  | 0 => []
  | turns + 1 =>
    if cs.isEmpty then []
    else if width == 0 then cs
    else cs.take width ++ '\n' :: inRows width (cs.drop width) turns

def base64 (s : State) (args : List String) : State :=
  let w := Words.ofArgs ['w'] (args.map fun a => if a == "--decode" then "-d" else a)
  let (s, found) := texts "base64" id s (w.operands.take 1)
  match found with
  | [] => s
  | (_, text) :: _ =>
    if w.has 'd' then
      let (bytes, complete) := decodeSixBits (text.toList.filter (· != '\n'))
      let s := s.write ((String.fromUTF8? ⟨bytes.toArray⟩).getD "")
      if complete then s else (s.complain "base64: invalid input\n").withStatus 1
    else
      let width := ((w.value? 'w').bind String.toNat?).getD 76
      let shown := encodeSixBits text.toUTF8.toList
      s.write (String.ofList (inRows width shown (shown.length + 1)))

end Shell
end DeclarativeBuild
