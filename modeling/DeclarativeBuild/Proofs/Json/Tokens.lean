import DeclarativeBuild.Run.PlanText
import Mathlib.Data.List.Basic

/-!
# Tokens of a JSON document

The values of JSON and the characters they are written with (RFC 8259), read one after the other.
A token never goes on over the end of a line.
-/

namespace DeclarativeBuild

/-- A value of a JSON document.  Numbers keep their digits, and members their order. -/
inductive Json where
  | null
  | boolean (value : Bool)
  | number (digits : String)
  | text (s : String)
  | list (items : List Json)
  | object (members : List (String × Json))

namespace Json

inductive Token where
  | word (value : Json)
  | text (s : String)
  | openList
  | closeList
  | openObject
  | closeObject
  | comma
  | colon

def isBlank (c : Char) : Bool :=
  c = ' ' || c = '\t' || c = '\n' || c = '\r'

def punctuation? : Char → Option Token
  | '[' => some .openList
  | ']' => some .closeList
  | '\x7b' => some .openObject
  | '\x7d' => some .closeObject
  | ',' => some .comma
  | ':' => some .colon
  | _ => none

def isWordChar (c : Char) : Bool :=
  c.isAlphanum || c = '-' || c = '+' || c = '.'

/-- The rest after one digit or more. -/
def afterDigits? (cs : List Char) : Option (List Char) :=
  if cs.head?.any Char.isDigit then some (cs.dropWhile Char.isDigit) else none

def afterWhole? : List Char → Option (List Char)
  | '0' :: rest => some rest
  | cs => afterDigits? cs

def afterFraction? : List Char → Option (List Char)
  | '.' :: rest => afterDigits? rest
  | cs => some cs

def afterExponent? : List Char → Option (List Char)
  | e :: rest =>
    if e = 'e' || e = 'E' then
      match rest with
      | '+' :: digits | '-' :: digits => afterDigits? digits
      | digits => afterDigits? digits
    else some (e :: rest)
  | [] => some []

def isNumber (cs : List Char) : Bool :=
  let unsigned := if cs.head? = some '-' then cs.tail else cs
  (afterWhole? unsigned >>= afterFraction? >>= afterExponent?).any List.isEmpty

def word? (cs : List Char) : Option Json :=
  if cs = ['n', 'u', 'l', 'l'] then some .null
  else if cs = ['t', 'r', 'u', 'e'] then some (.boolean true)
  else if cs = ['f', 'a', 'l', 's', 'e'] then some (.boolean false)
  else if isNumber cs then some (.number (String.ofList cs))
  else none

/-- The character that a letter after a backslash stands for. -/
def unescaped? : Char → Option Char
  | '"' => some '"'
  | '\\' => some '\\'
  | '/' => some '/'
  | 'b' => some '\x08'
  | 'f' => some '\x0c'
  | 'n' => some '\n'
  | 'r' => some '\r'
  | 't' => some '\t'
  | _ => none

def hexValue? (c : Char) : Option Nat :=
  if c.isDigit then some (c.toNat - '0'.toNat)
  else if 'a' ≤ c && c ≤ 'f' then some (c.toNat - 'a'.toNat + 10)
  else if 'A' ≤ c && c ≤ 'F' then some (c.toNat - 'A'.toNat + 10)
  else none

/-- Where in a token a character stands.  What has been seen of the token stands last first. -/
inductive Lexing where
  | between
  | word (seen : List Char)
  | text (seen : List Char)
  | escape (seen : List Char)
  /-- Among the four digits of a code unit, which may be the second half of a character. -/
  | code (seen : List Char) (high? : Option Nat) (digits : List Nat)
  | afterHigh (seen : List Char) (high : Nat)
  | beforeLow (seen : List Char) (high : Nat)

namespace Lexing

/-- A character that stands between tokens or begins one. -/
def start (c : Char) : Option (List Token × Lexing) :=
  if isBlank c then some ([], .between)
  else if c = '"' then some ([], .text [])
  else if isWordChar c then some ([], .word [c])
  else (punctuation? c).map fun t => ([t], .between)

/-- What comes after a code unit.  Halves of a character only stand in pairs. -/
def afterUnit (seen : List Char) (high? : Option Nat) (unit : Nat) : Option Lexing :=
  match high? with
  | none =>
    if 0xd800 ≤ unit && unit < 0xdc00 then some (.afterHigh seen unit)
    else if 0xdc00 ≤ unit && unit < 0xe000 then none
    else some (.text (Char.ofNat unit :: seen))
  | some high =>
    if 0xdc00 ≤ unit && unit < 0xe000 then
      some (.text (Char.ofNat (0x10000 + (high - 0xd800) * 0x400 + (unit - 0xdc00)) :: seen))
    else none

/-- Reads one character.  Gives the tokens that end with it. -/
def next : Lexing → Char → Option (List Token × Lexing)
  | between, c => start c
  | word seen, c =>
    if isWordChar c then some ([], .word (c :: seen))
    else do
      let value ← word? seen.reverse
      let (tokens, l) ← start c
      return (.word value :: tokens, l)
  | text seen, c =>
    if c = '"' then some ([.text (String.ofList seen.reverse)], .between)
    else if c = '\\' then some ([], .escape seen)
    else if c.toNat < 0x20 then none
    else some ([], .text (c :: seen))
  | escape seen, c =>
    if c = 'u' then some ([], .code seen none [])
    else (unescaped? c).map fun d => ([], .text (d :: seen))
  | code seen high? digits, c => do
    let digits := digits ++ [← hexValue? c]
    if digits.length < 4 then return ([], .code seen high? digits)
    let l ← afterUnit seen high? (digits.foldl (fun n d => 16 * n + d) 0)
    return ([], l)
  | afterHigh seen high, c => if c = '\\' then some ([], .beforeLow seen high) else none
  | beforeLow seen high, c => if c = 'u' then some ([], .code seen (some high) []) else none

/-- No token goes on over the end of a line. -/
theorem next_lineEnd {l l' : Lexing} {tokens : List Token} (h : l.next '\n' = some (tokens, l')) :
    l' = .between := by
  have hstart : start '\n' = some ([], .between) := rfl
  cases l with
  | between => simp_all [next]
  | word seen =>
      have hword : isWordChar '\n' = false := by decide
      cases hw : word? seen.reverse <;> simp_all [next]
  | text seen => simp [next] at h
  | escape seen => simp [next, unescaped?] at h
  | code seen high? digits => simp [next, hexValue?] at h
  | afterHigh seen high => simp [next] at h
  | beforeLow seen high => simp [next] at h

theorem start_of_isBlank {c : Char} (h : isBlank c = true) : start c = some ([], .between) :=
  if_pos h

theorem start_ne_between {c : Char} (hc : isBlank c = false) {l : Lexing}
    (h : start c = some ([], l)) : l ≠ .between := by
  unfold start at h
  rw [if_neg (by simp [hc])] at h
  split at h
  · cases h
    simp
  · split at h
    · cases h
      simp
    · simp at h

theorem afterUnit_ne_between {seen : List Char} {high? : Option Nat} {unit : Nat} {l : Lexing}
    (h : afterUnit seen high? unit = some l) : l ≠ .between := by
  unfold afterUnit at h
  rintro rfl
  split at h
  · split at h
    · cases h
    · split at h <;> cases h
  · split at h <;> cases h

/-- A character that ends no token either stands between two or is part of one. -/
theorem next_ne_between {l l' : Lexing} {c : Char} (hl : l ≠ .between ∨ isBlank c = false)
    (h : l.next c = some ([], l')) : l' ≠ .between := by
  cases l with
  | between => exact start_ne_between (hl.resolve_left (· rfl)) h
  | word seen =>
      simp only [next] at h
      split at h
      · cases h
        simp
      · cases hw : word? seen.reverse <;> cases hs : start c <;> simp [hw, hs] at h
  | text seen =>
      simp only [next] at h
      split at h
      · simp at h
      · split at h
        · cases h
          simp
        · split at h <;> cases h
          simp
  | escape seen =>
      simp only [next] at h
      split at h
      · cases h
        simp
      · obtain ⟨d, -, hd⟩ := Option.map_eq_some_iff.mp h
        cases hd
        simp
  | code seen high? digits =>
      simp only [next] at h
      cases hd : hexValue? c with
      | none => simp [hd] at h
      | some d =>
          simp only [hd, Option.bind_eq_bind, Option.bind_some] at h
          split at h
          · cases h
            simp
          · obtain ⟨after, hafter, hl'⟩ := Option.bind_eq_some_iff.mp h
            cases hl'
            exact afterUnit_ne_between hafter
  | afterHigh seen high =>
      simp only [next] at h
      split at h <;> cases h
      simp
  | beforeLow seen high =>
      simp only [next] at h
      split at h <;> cases h
      simp

/-- Reads characters and gives the tokens that end among them. -/
def run : Lexing → List Char → Option (List Token × Lexing)
  | l, [] => some ([], l)
  | l, c :: rest => do
    let (tokens, l) ← l.next c
    let (more, l) ← run l rest
    return (tokens ++ more, l)

theorem run_cons_of {l l' : Lexing} {c : Char} {tokens : List Token}
    (h : l.next c = some (tokens, l')) (rest : List Char) :
    l.run (c :: rest) = (l'.run rest).map fun (more, l) => (tokens ++ more, l) := by
  simp only [run, h, Option.bind_eq_bind, Option.bind_some]
  cases l'.run rest <;> rfl

theorem run_cons_silent {l l' : Lexing} {c : Char} (h : l.next c = some ([], l'))
    (rest : List Char) : l.run (c :: rest) = l'.run rest := by
  rw [run_cons_of h]
  cases l'.run rest <;> rfl

theorem run_cons_eq_some {l l' : Lexing} {c : Char} {rest : List Char} {tokens : List Token}
    (h : l.run (c :: rest) = some (tokens, l')) :
    ∃ first after more, l.next c = some (first, after) ∧ after.run rest = some (more, l') ∧
      tokens = first ++ more := by
  cases hn : l.next c with
  | none => simp [run, hn] at h
  | some found =>
      obtain ⟨first, after⟩ := found
      rw [run_cons_of hn] at h
      obtain ⟨⟨more, last⟩, hrest, heq⟩ := Option.map_eq_some_iff.mp h
      cases heq
      exact ⟨first, after, more, rfl, hrest, rfl⟩

theorem run_append (l : Lexing) (cs ds : List Char) :
    l.run (cs ++ ds) = (l.run cs).bind fun (tokens, after) =>
      (after.run ds).map fun (more, last) => (tokens ++ more, last) := by
  induction cs generalizing l with
  | nil => cases h : l.run ds <;> simp [run, h]
  | cons c rest ih =>
      cases hn : l.next c with
      | none => simp [run, hn]
      | some found =>
          obtain ⟨tokens, after⟩ := found
          rw [List.cons_append, run_cons_of hn, run_cons_of hn, ih]
          cases after.run rest with
          | none => rfl
          | some found => cases hd : found.2.run ds <;> simp [hd, List.append_assoc]

theorem run_append_of {l l' : Lexing} {cs : List Char} {tokens : List Token}
    (h : l.run cs = some (tokens, l')) (ds : List Char) :
    l.run (cs ++ ds) = (l'.run ds).map fun (more, last) => (tokens ++ more, last) := by
  rw [run_append, h]
  rfl

theorem run_lineEnd {l l' : Lexing} {cs : List Char} {tokens : List Token}
    (h : l.run (cs ++ ['\n']) = some (tokens, l')) : l' = .between := by
  induction cs generalizing l tokens with
  | nil =>
      obtain ⟨first, after, more, hn, hrest, -⟩ := run_cons_eq_some h
      rw [run] at hrest
      cases hrest
      exact next_lineEnd hn
  | cons c rest ih =>
      obtain ⟨first, after, more, -, hrest, -⟩ := run_cons_eq_some h
      exact ih hrest

theorem run_ne_between {l l' : Lexing} {cs : List Char}
    (hl : l ≠ .between ∨ ∃ c ∈ cs, isBlank c = false) (h : l.run cs = some ([], l')) :
    l' ≠ .between := by
  -- Only giving out a token leads back between tokens, and none is given out.
  induction cs generalizing l with
  | nil =>
      cases h
      simpa using hl
  | cons c rest ih =>
      obtain ⟨first, after, more, hn, hrest, htokens⟩ := run_cons_eq_some h
      obtain ⟨rfl, rfl⟩ := List.append_eq_nil_iff.mp htokens.symm
      refine ih ?_ hrest
      rcases hl with hl | ⟨d, hd, hblank⟩
      · exact .inl (next_ne_between (.inl hl) hn)
      · rcases List.mem_cons.mp hd with rfl | hd
        · exact .inl (next_ne_between (.inr hblank) hn)
        · exact .inr ⟨d, hd, hblank⟩

end Lexing

/-- Characters that are read as tokens of their own, whatever comes next. -/
def Lexes (cs : List Char) (tokens : List Token) : Prop :=
  Lexing.run .between cs = some (tokens, .between)

namespace Lexes

variable {cs ds : List Char} {tokens more : List Token}

theorem append (hc : Lexes cs tokens) (hd : Lexes ds more) :
    Lexes (cs ++ ds) (tokens ++ more) := by
  rw [Lexes, Lexing.run_append_of hc, hd]
  rfl

theorem blanks (h : ∀ c ∈ cs, isBlank c = true) : Lexes cs [] := by
  induction cs with
  | nil => rfl
  | cons c rest ih =>
      have hn : Lexing.next .between c = some ([], .between) :=
        Lexing.start_of_isBlank (h c List.mem_cons_self)
      rw [Lexes, Lexing.run_cons_silent hn]
      exact ih fun d hd => h d (List.mem_cons_of_mem c hd)

/-- Lines have no tokens if and only if they are blank. -/
theorem blank_of_nil (h : Lexes cs []) : ∀ c ∈ cs, isBlank c = true := by
  intro c hc
  by_contra hblank
  exact Lexing.run_ne_between (.inr ⟨c, hc, Bool.eq_false_iff.mpr hblank⟩) h rfl

end Lexes

section Quoted

open JsonValue Lexing

theorem hexValue?_hexDigit (n : Nat) : hexValue? (Text.hexDigit n) = some (n % 16) := by
  have hall : ∀ k < 16, hexValue? (Nat.digitChar k) = some k := by decide
  exact hall (n % 16) (Nat.mod_lt n (by decide))

/-- The code of a control character is read as that character. -/
theorem run_code {c : Char} (hc : c.toNat < 0x20) (seen : List Char) :
    run (.text seen) ['\\', 'u', '0', '0', Text.hexDigit (c.toNat / 16), Text.hexDigit c.toNat] =
      some ([], .text (c :: seen)) := by
  have hvalue : [0, 0, c.toNat / 16 % 16, c.toNat % 16].foldl (fun n d => 16 * n + d) 0 =
      c.toNat := by
    simp only [List.foldl_cons, List.foldl_nil]
    omega
  have hunit : afterUnit seen none c.toNat = some (.text (c :: seen)) := by
    rw [afterUnit, if_neg (by simp; omega), if_neg (by simp; omega), Char.ofNat_toNat]
  have hescape : next (.text seen) '\\' = some ([], .escape seen) := rfl
  have hcode : next (.escape seen) 'u' = some ([], .code seen none []) := rfl
  have hfirst : next (.code seen none []) '0' = some ([], .code seen none [0]) := rfl
  have hsecond : next (.code seen none [0]) '0' = some ([], .code seen none [0, 0]) := rfl
  have hlast : next (.code seen none [0, 0, c.toNat / 16 % 16]) (Text.hexDigit c.toNat) =
      some ([], .text (c :: seen)) := by
    simp only [next, hexValue?_hexDigit, Option.bind_eq_bind, Option.bind_some]
    rw [if_neg (by simp)]
    simp only [List.cons_append, List.nil_append]
    rw [hvalue, hunit]
    rfl
  have hthird : next (.code seen none [0, 0]) (Text.hexDigit (c.toNat / 16)) =
      some ([], .code seen none [0, 0, c.toNat / 16 % 16]) := by
    simp [next, hexValue?_hexDigit]
  rw [run_cons_silent hescape, run_cons_silent hcode, run_cons_silent hfirst,
    run_cons_silent hsecond, run_cons_silent hthird, run_cons_silent hlast]
  rfl

theorem run_escapedChar (c : Char) (seen : List Char) :
    run (.text seen) (escapedChar c) = some ([], .text (c :: seen)) := by
  unfold escapedChar
  split
  any_goals rfl
  next hquote hbackslash _ _ _ _ _ =>
  split
  · next hc => exact run_code hc seen
  · next hc =>
    have hn : next (.text seen) c = some ([], .text (c :: seen)) := by
      rw [next, if_neg hquote, if_neg hbackslash, if_neg hc]
    rw [run_cons_silent hn]
    rfl

theorem run_escaped (cs seen : List Char) :
    run (.text seen) (cs.flatMap escapedChar) = some ([], .text (cs.reverse ++ seen)) := by
  induction cs generalizing seen with
  | nil => rfl
  | cons c rest ih =>
      rw [List.flatMap_cons, run_append_of (run_escapedChar c seen), ih]
      simp

/-- A quoted text is one token. -/
theorem lexes_quoted (s : String) : Lexes (quoted s).toList [.text s] := by
  have hend : next (.text (s.toList.reverse ++ [])) '"' = some ([.text s], .between) := by
    simp [next]
  have hopen : next .between '"' = some ([], .text []) := rfl
  rw [quoted, String.toList_ofList, Lexes, List.cons_append, run_cons_silent hopen,
    run_append_of (run_escaped s.toList []), run_cons_of hend]
  rfl

end Quoted

end Json

end DeclarativeBuild
