import DeclarativeBuild.Shell.Inputs

/-!
# Digests of files

The numbers that stand for the content of a file: check sums and digests.
-/

namespace DeclarativeBuild
namespace Shell
namespace Digest

def rotateLeft (x : UInt32) (n : Nat) : UInt32 :=
  (x <<< UInt32.ofNat n) ||| (x >>> UInt32.ofNat (32 - n))

def rotateRight (x : UInt32) (n : Nat) : UInt32 :=
  rotateLeft x (32 - n)

/-- A number by its bytes, the highest first. -/
def bytesBig (count n : Nat) : List UInt8 :=
  (List.range count).map fun i => UInt8.ofNat (n / Nat.pow 256 (count - 1 - i))

/-- The number of some bytes, the highest first. -/
def wordBig (bytes : List UInt8) : UInt32 :=
  UInt32.ofNat (bytes.foldl (fun n b => n * 256 + b.toNat) 0)

def wordLittle (bytes : List UInt8) : UInt32 :=
  wordBig bytes.reverse

/-- A message with a mark, zeros and its length after it, so that its blocks are full. -/
def padded (big : Bool) (bytes : List UInt8) : List UInt8 :=
  let zeros := (119 - bytes.length % 64) % 64
  let size := bytesBig 8 (8 * bytes.length)
  bytes ++ 128 :: List.replicate zeros 0 ++ if big then size else size.reverse

/-- Pieces of one size. -/
def pieces (size : Nat) (bytes : List UInt8) : Nat → List (List UInt8)
  | 0 => []
  | n + 1 => if bytes.isEmpty then [] else bytes.take size :: pieces size (bytes.drop size) n

def blocks (bytes : List UInt8) : List (List UInt8) :=
  pieces 64 bytes bytes.length

def hex (bytes : List UInt8) : String :=
  String.ofList (bytes.flatMap fun b =>
    [Nat.digitChar (b.toNat / 16), Nat.digitChar (b.toNat % 16)])

def bigHex (words : List UInt32) : String :=
  hex (words.flatMap fun w => bytesBig 4 w.toNat)

/-- The whole part of the absolute sine of a number, times the 32nd power of two. -/
def sineTable : Array UInt32 :=
  ((List.range 64).map fun i =>
    UInt32.ofNat (Float.toUInt64 (4294967296.0 * (Float.sin (Float.ofNat (i + 1))).abs)).toNat).toArray

def md5Shifts : Array Nat :=
  ([[7, 12, 17, 22], [5, 9, 14, 20], [4, 11, 16, 23], [6, 10, 15, 21]].flatMap fun row =>
    row ++ row ++ row ++ row).toArray

/-- One block of the first kind of digest. -/
def md5Block (state : List UInt32) (block : List UInt8) : List UInt32 :=
  let words := ((pieces 4 block 16).map wordLittle).toArray
  let round (s : UInt32 × UInt32 × UInt32 × UInt32) (i : Nat) :=
    let (a, b, c, d) := s
    let (f, g) : UInt32 × Nat :=
      if i < 16 then ((b &&& c) ||| (~~~b &&& d), i)
      else if i < 32 then ((d &&& b) ||| (~~~d &&& c), (5 * i + 1) % 16)
      else if i < 48 then (b ^^^ c ^^^ d, (3 * i + 5) % 16)
      else (c ^^^ (b ||| ~~~d), 7 * i % 16)
    let f := f + a + (sineTable[i]?).getD 0 + (words[g]?).getD 0
    (d, b + rotateLeft f ((md5Shifts[i]?).getD 0), b, c)
  match state with
  | [a, b, c, d] =>
    let (a', b', c', d') := (List.range 64).foldl round (a, b, c, d)
    [a + a', b + b', c + c', d + d']
  | state => state

def md5 (bytes : List UInt8) : String :=
  let start : List UInt32 := [0x67452301, 0xefcdab89, 0x98badcfe, 0x10325476]
  let words := (blocks (padded false bytes)).foldl md5Block start
  hex (words.flatMap fun w => (bytesBig 4 w.toNat).reverse)

/-- More words after the sixteen of a block, each made from those before it. -/
def extended (count : Nat) (next : Array UInt32 → Nat → UInt32) (block : List UInt8) :
    Array UInt32 :=
  (List.range (count - 16)).foldl (fun (words : Array UInt32) i => words.push (next words (i + 16)))
    ((pieces 4 block 16).map wordBig).toArray

def wordAt (words : Array UInt32) (i : Nat) : UInt32 :=
  (words[i]?).getD 0

def sha1Block (state : List UInt32) (block : List UInt8) : List UInt32 :=
  let words := extended 80 (fun w i => rotateLeft
    (wordAt w (i - 3) ^^^ wordAt w (i - 8) ^^^ wordAt w (i - 14) ^^^ wordAt w (i - 16)) 1) block
  let round (s : UInt32 × UInt32 × UInt32 × UInt32 × UInt32) (i : Nat) :=
    let (a, b, c, d, e) := s
    let (f, k) : UInt32 × UInt32 :=
      if i < 20 then ((b &&& c) ||| (~~~b &&& d), 0x5a827999)
      else if i < 40 then (b ^^^ c ^^^ d, 0x6ed9eba1)
      else if i < 60 then ((b &&& c) ||| (b &&& d) ||| (c &&& d), 0x8f1bbcdc)
      else (b ^^^ c ^^^ d, 0xca62c1d6)
    (rotateLeft a 5 + f + e + k + wordAt words i, a, rotateLeft b 30, c, d)
  match state with
  | [a, b, c, d, e] =>
    let (a', b', c', d', e') := (List.range 80).foldl round (a, b, c, d, e)
    [a + a', b + b', c + c', d + d', e + e']
  | state => state

def sha1 (bytes : List UInt8) : String :=
  bigHex ((blocks (padded true bytes)).foldl sha1Block
    [0x67452301, 0xefcdab89, 0x98badcfe, 0x10325476, 0xc3d2e1f0])

def firstPrimes (count : Nat) : List Nat :=
  ((List.range 400).filter fun n =>
    2 ≤ n && (List.range n).all fun k => k < 2 || n % k != 0).take count

/-- The largest number whose power is not above a bound. -/
def rootBelow (power bound : Nat) : Nat :=
  (List.range 40).foldl (fun found i =>
    let next := found + Nat.pow 2 (39 - i)
    if Nat.pow next power ≤ bound then next else found) 0

/-- The first 32 bits behind the point of a root of a number. -/
def rootBits (power n : Nat) : UInt32 :=
  UInt32.ofNat (rootBelow power (n * Nat.pow 2 (32 * power)))

def sha256Table : Array UInt32 :=
  ((firstPrimes 64).map (rootBits 3)).toArray

def sha256Block (state : List UInt32) (block : List UInt8) : List UInt32 :=
  let words := extended 64 (fun w i =>
    let (x, y) := (wordAt w (i - 15), wordAt w (i - 2))
    wordAt w (i - 16) + (rotateRight x 7 ^^^ rotateRight x 18 ^^^ (x >>> 3)) + wordAt w (i - 7) +
      (rotateRight y 17 ^^^ rotateRight y 19 ^^^ (y >>> 10))) block
  let round (s : List UInt32) (i : Nat) : List UInt32 :=
    match s with
    | [a, b, c, d, e, f, g, h] =>
      let first := h + (rotateRight e 6 ^^^ rotateRight e 11 ^^^ rotateRight e 25) +
        ((e &&& f) ^^^ (~~~e &&& g)) + wordAt sha256Table i + wordAt words i
      let second := (rotateRight a 2 ^^^ rotateRight a 13 ^^^ rotateRight a 22) +
        ((a &&& b) ^^^ (a &&& c) ^^^ (b &&& c))
      [first + second, a, b, c, d + first, e, f, g]
    | s => s
  List.zipWith (· + ·) state ((List.range 64).foldl round state)

def sha256 (bytes : List UInt8) : String :=
  bigHex ((blocks (padded true bytes)).foldl sha256Block ((firstPrimes 8).map (rootBits 2)))

/-- The remainder of a byte that is put before a check sum. -/
def checkStep (sum : UInt32) (b : UInt8) : UInt32 :=
  (List.range 8).foldl (fun (sum : UInt32) i =>
    let bit := (b.toUInt32 >>> UInt32.ofNat (7 - i)) &&& 1
    let shifted := sum <<< 1
    if ((sum >>> 31) ^^^ bit) == 1 then shifted ^^^ 0x04c11db7 else shifted) sum

/-- The bytes of a length, the lowest first, without those that are zero. -/
def lengthBytes (n : Nat) : List UInt8 :=
  ((List.range 8).map fun i => UInt8.ofNat (n / Nat.pow 256 i)).take
    (((List.range 9).find? fun i => n < Nat.pow 256 i).getD 8)

def cksum (bytes : List UInt8) : String :=
  let sum := (bytes ++ lengthBytes bytes.length).foldl checkStep 0
  toString (~~~sum).toNat ++ " " ++ toString bytes.length

/-- The programs that write digests. -/
def programs : List (String × (List UInt8 → String)) :=
  [("md5sum", md5), ("sha1sum", sha1), ("sha256sum", sha256)]

end Digest

/-- Writes a digest for each file. -/
def digest (utility : String) (sum : List UInt8 → String) (s : State) (args : List String) : State :=
  let w := Words.ofArgs [] args
  let (s, found) := texts utility id s w.operands
  s.write (String.join (found.map fun (file, text) =>
    sum text.toUTF8.toList ++ "  " ++ file ++ "\n"))

def checkSum (s : State) (args : List String) : State :=
  let w := Words.ofArgs [] args
  let (s, found) := texts "cksum" id s w.operands
  s.write (String.join (found.map fun (file, text) =>
    Digest.cksum text.toUTF8.toList ++ (if w.operands.isEmpty then "" else " " ++ file) ++ "\n"))

end Shell
end DeclarativeBuild
