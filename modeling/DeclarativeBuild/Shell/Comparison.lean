import DeclarativeBuild.Shell.Inputs

/-!
# Comparing files

Whether two files are the same, and where and how they differ.
-/

namespace DeclarativeBuild
namespace Shell

/-- How many bytes two texts start with alike, and how many of these are line ends. -/
def commonStart (bytes lines : Nat) : List UInt8 → List UInt8 → Nat × Nat
  | a :: as, b :: bs =>
    if a == b then commonStart (bytes + 1) (if a == 10 then lines + 1 else lines) as bs
    else (bytes, lines)
  | _, _ => (bytes, lines)

/-- Compares two files byte by byte. -/
def cmp (s : State) (args : List String) : State :=
  let w := Words.ofArgs [] args
  match w.operands with
  | [] => (misused "cmp" "missing operand after 'cmp'" s).withStatus 2
  | a :: more =>
    let b := more.headD "-"
    let (s, found) := texts "cmp" id s [a, b]
    match found with
    | [(_, x), (_, y)] =>
      if x == y then s.withStatus 0
      else if w.has 's' then s.withStatus 1
      else
        let (xs, ys) := (x.toUTF8.toList, y.toUTF8.toList)
        let (bytes, lines) := commonStart 0 0 xs ys
        if bytes == xs.length || bytes == ys.length then
          let shorter := if bytes == xs.length then a else b
          let place := if bytes == 0 then " which is empty"
            else " after byte " ++ toString bytes ++
              (if (xs.take bytes).getLast? == some 10 then ", line " ++ toString lines
                else ", in line " ++ toString (lines + 1))
          (s.complain ("cmp: EOF on " ++ shorter ++ place ++ "\n")).withStatus 1
        else
          (s.write (a ++ " " ++ b ++ " differ: char " ++ toString (bytes + 1) ++ ", line " ++
            toString (lines + 1) ++ "\n")).withStatus 1
    | _ => s.withStatus 2

end Shell
end DeclarativeBuild
