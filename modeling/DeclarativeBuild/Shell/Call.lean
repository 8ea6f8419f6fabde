import DeclarativeBuild.Shell.Builtin

/-!
# Calls

What the words mean that a shell, or a program that runs another one, is called with.
-/

namespace DeclarativeBuild
namespace Shell

/-- How a shell is called: its options, whether it is given a line, and its other words. -/
structure Call where
  options : Options := {}
  givenLine : Bool := false
  operands : List String := []

/-- Reads the words that a shell is called with. -/
def Call.ofArgs (call : Call) : List String → Call
  | [] => call
  | "--" :: rest | "-" :: rest => { call with operands := rest }
  | "-o" :: name :: rest =>
    let options := (call.options.switchNamed? true name).getD call.options
    ofArgs { call with options } rest
  | word :: rest =>
    match word.toList with
    | sign :: c :: cs =>
      if sign == '-' || sign == '+' then
        let letters := c :: cs
        let options := (letters.filter (· != 'c')).foldl (fun (o : Options) c =>
          (o.switch? (sign == '-') c).getD o) call.options
        ofArgs { call with options, givenLine := call.givenLine || letters.contains 'c' } rest
      else { call with operands := word :: rest }
    | _ => { call with operands := word :: rest }

/-- What `xargs` is asked for. -/
structure Repetition where
  replaced : Option String := none
  atMost : Option Nat := none
  lines : Option Nat := none
  /-- The character that items end with, which then have no quotes in them. -/
  separator : Option Char := none
  skipsEmpty : Bool := false
  tells : Bool := false
  command : List String := []

namespace Repetition

/-- The character that a word names, perhaps by an escape. -/
def namedChar (word : String) : Option Char :=
  match word.toList with
  | '\\' :: rest => (scanEscape rest).map Prod.fst
  | cs => cs.head?

def ofArgs (r : Repetition) : List String → Repetition
  | "-r" :: rest | "--no-run-if-empty" :: rest => ofArgs { r with skipsEmpty := true } rest
  | "-0" :: rest | "--null" :: rest => ofArgs { r with separator := some '\x00' } rest
  | "-t" :: rest | "--verbose" :: rest => ofArgs { r with tells := true } rest
  | "-i" :: rest => ofArgs { r with replaced := some "\x7b\x7d" } rest
  | "-n" :: n :: rest => ofArgs { r with atMost := n.toNat? } rest
  | "-L" :: n :: rest => ofArgs { r with lines := n.toNat? } rest
  | "-P" :: _ :: rest => ofArgs r rest
  | "-d" :: c :: rest => ofArgs { r with separator := namedChar c } rest
  | "-I" :: text :: rest => ofArgs { r with replaced := some text, atMost := none } rest
  | "--" :: rest => { r with command := rest }
  | word :: rest =>
    match word.toList with
    | '-' :: 'n' :: n => ofArgs { r with atMost := (String.ofList n).toNat? } rest
    | '-' :: 'L' :: n => ofArgs { r with lines := (String.ofList n).toNat? } rest
    | '-' :: 'P' :: _ => ofArgs r rest
    | '-' :: 'd' :: c => ofArgs { r with separator := namedChar (String.ofList c) } rest
    | '-' :: 'I' :: text => ofArgs { r with replaced := some (String.ofList text) } rest
    | '-' :: '-' :: name =>
      let value := String.ofList ((name.dropWhile (· != '=')).drop 1)
      if word.startsWith "--max-args=" then ofArgs { r with atMost := value.toNat? } rest
      else ofArgs r rest
    | _ => { r with command := word :: rest }
  | [] => r

end Repetition

/-- A list in parts of at most some length. -/
def portions (size : Nat) (items : List α) : List (List α) :=
  if 0 < size ∧ size < items.length then items.take size :: portions size (items.drop size)
  else [items]
termination_by items.length
decreasing_by grind

/-- One item of a line and what follows it: quotes and backslashes take the meaning of what they
hold, and blanks end the item if `ends` says so. -/
def scanItem (isEnd : Char → Bool) (cs : List Char) : Except String (List Char × List Char) :=
  match cs with
  | [] => .ok ([], [])
  | '\\' :: c :: rest => (scanItem isEnd rest).map fun (item, after) => (c :: item, after)
  | c :: rest =>
    if isEnd c then .ok ([], cs)
    else if c == '\'' || c == '"' then
      let quoted := rest.takeWhile (· != c)
      match rest.drop quoted.length with
      | d :: after =>
        if d == c && after.length ≤ rest.length then
          (scanItem isEnd after).map fun (item, after) => (quoted ++ item, after)
        else .ok ([], [])
      | [] =>
        let kind := if c == '"' then "double" else "single"
        .error ("unmatched " ++ kind ++
          " quote; by default quotes are special to xargs unless you use the -0 option")
    else (scanItem isEnd rest).map fun (item, after) => (c :: item, after)
termination_by cs.length
decreasing_by all_goals grind

/-- All items of a text. -/
def scanItems (isEnd : Char → Bool) (measure : Nat) (cs : List Char) :
    Except String (List String) :=
  match measure, cs.dropWhile fun c => c.isWhitespace with
  | 0, _ | _, [] => .ok []
  | measure + 1, cs => do
    let (item, after) ← scanItem isEnd cs
    return String.ofList item :: (← scanItems isEnd measure after)

namespace Repetition

/-- The items of an input, in the portions that commands are given. -/
def portionsOf (r : Repetition) (input : String) : Except String (List (List String)) :=
  match r.separator with
  | some c =>
    let pieces := Text.pieces c input.toList
    let pieces := if pieces.getLast? == some [] then pieces.dropLast else pieces
    let items := pieces.map String.ofList
    .ok (if items.isEmpty then [] else portions (r.atMost.getD items.length) items)
  | none =>
    let whole (text : List Char) := scanItems Char.isWhitespace (text.length + 1) text
    match r.lines with
    | some n => do
      let lines ← (linesOf input.toList).1.mapM whole
      return (portions n (lines.filter (!·.isEmpty))).map List.flatten
    | none => do
      let items ← whole input.toList
      return if items.isEmpty then [] else portions (r.atMost.getD items.length) items

/-- The commands that are run for an input. -/
def commands (r : Repetition) (input : String) : Except String (List (List String)) := do
  let command := if r.command.isEmpty then ["echo"] else r.command
  match r.replaced with
  | some mark =>
    let items ← match r.separator with
      | some _ => (r.portionsOf input).map List.flatten
      | none => scanItems (· == '\n') (input.length + 1) input.toList
    return items.map fun item => command.map fun w => w.replace mark item
  | none =>
    let found ← r.portionsOf input
    if found.isEmpty then return if r.skipsEmpty then [] else [command]
    else return found.map (command ++ ·)

end Repetition

/-- What `xargs` goes on with after a command that left a status: its own status, and whether it
stops. -/
def afterRepeated (before status : Nat) : Nat × Bool :=
  if 128 < status && status < 255 then (125, true)
  else if status == 0 then (before, false)
  else if status == 126 || status == 127 then (status, true)
  else if status == 255 then (124, true)
  else (123, false)

/-- What `env` makes of its words: the variables, and the command if there is one. -/
def environmentOf (e : Environment) : List String → Environment × List String
  | "-i" :: rest => environmentOf [] rest
  | "-u" :: name :: rest => environmentOf (e.filter (·.1 != name)) rest
  | "--" :: rest => (e, rest)
  | word :: rest =>
    match splitAssignment word with
    | (name, some value) => environmentOf (Environment.changed e [(name, value)]) rest
    | (_, none) => (e, word :: rest)
  | [] => (e, [])

end Shell
end DeclarativeBuild
