import DeclarativeBuild.Shell.Redirection

/-!
# Options

The options of the shell itself, and the reading of the options that a script is called with.
-/

namespace DeclarativeBuild
namespace Shell

/-- Options by letter and long name, with how to look at them.  Those that change nothing here are
always off. -/
def optionTable : List (Option Char × String × (Options → Bool)) :=
  let off (_ : Options) := false
  [(some 'e', "errexit", Options.stopsOnFailure), (some 'f', "noglob", Options.keepsWildcards),
    (some 'I', "ignoreeof", off), (some 'i', "interactive", off), (some 'm', "monitor", off),
    (some 'n', "noexec", Options.runsNothing), (some 's', "stdin", off),
    (some 'x', "xtrace", Options.shows), (some 'v', "verbose", off), (some 'V', "vi", off),
    (some 'E', "emacs", off), (some 'C', "noclobber", Options.keepsFiles),
    (some 'a', "allexport", Options.shares), (some 'b', "notify", off),
    (some 'u', "nounset", Options.needsValues), (some 'p', "privileged", off),
    (none, "nolog", off), (none, "debug", off)]

/-- Switches an option on or off by its letter. -/
def Options.switch? (o : Options) (on : Bool) (letter : Char) : Option Options :=
  match letter with
  | 'e' => some { o with stopsOnFailure := on }
  | 'u' => some { o with needsValues := on }
  | 'f' => some { o with keepsWildcards := on }
  | 'x' => some { o with shows := on }
  | 'C' => some { o with keepsFiles := on }
  | 'a' => some { o with shares := on }
  | 'n' => some { o with runsNothing := on }
  | c => if optionTable.any (·.1 == some c) then some o else none

/-- Switches an option on or off by its long name. -/
def Options.switchNamed? (o : Options) (on : Bool) (name : String) : Option Options :=
  match optionTable.find? (·.2.1 == name) with
  | some (some letter, _) => o.switch? on letter
  | some (none, _) => some o
  | none => none

/-- What `set` is asked for. -/
inductive OptionRequest where
  | switched (options : Options) (args : Option (List String))
  | listed (asCommands : Bool)
  | refused (option : String)

/-- Reads options up to the first other word, which starts the new arguments. -/
def readOptions (o : Options) : List String → OptionRequest
  | [] => .switched o none
  | ["-o"] => .listed false
  | ["+o"] => .listed true
  | "--" :: rest => .switched o (some rest)
  | "-" :: rest =>
    .switched { o with shows := false } (if rest.isEmpty then none else some rest)
  | "-o" :: name :: rest =>
    match o.switchNamed? true name with
    | some o => readOptions o rest
    | none => .refused ("-o " ++ name)
  | "+o" :: name :: rest =>
    match o.switchNamed? false name with
    | some o => readOptions o rest
    | none => .refused ("+o " ++ name)
  | word :: rest =>
    match word.toList with
    | sign :: c :: cs =>
      if sign == '-' || sign == '+' then
        let switched := (c :: cs).foldlM (fun (o : Options) c =>
          match o.switch? (sign == '-') c with
          | some o => Except.ok o
          | none => .error (String.ofList [sign, c])) o
        match switched with
        | .ok o => readOptions o rest
        | .error option => .refused option
      else .switched o (some (word :: rest))
    | _ => .switched o (some (word :: rest))

/-- The state of all options, in words or as commands that bring it about. -/
def optionList (o : Options) (asCommands : Bool) : String :=
  let rows := optionTable.map fun (_, name, isOn) =>
    if asCommands then "set " ++ (if isOn o then "-o " else "+o ") ++ name ++ "\n"
    else name ++ String.ofList (List.replicate (16 - name.length) ' ') ++
      (if isOn o then "on\n" else "off\n")
  (if asCommands then "" else "Current option settings\n") ++ String.join rows

/-- Reads the next option of some words, from a letter of the first word that is left. -/
structure OptionStep where
  /-- The letter that was found, or a sign for what was found instead. -/
  letter : Char
  value : Option String
  complaint : Option String := none
  /-- The number of the next word, and how many letters of the one before it have been read. -/
  place : Nat × Nat
  isEnd : Bool := false

/-- The letters that are left to read, and the number of the word after them. -/
def lettersLeft (words : List String) (place : Nat × Nat) : Option (List Char × Nat) :=
  let (next, offset) := place
  let inside := match words[next - 2]? with
    | some word => if 2 ≤ next && 0 < offset then word.toList.drop offset else []
    | none => []
  if !inside.isEmpty then some (inside, next)
  else
    match (words[next - 1]?).map String.toList with
    | some ('-' :: c :: cs) => if c :: cs == ['-'] then none else some (c :: cs, next + 1)
    | _ => none

def nextOption (asked : List Char) (words : List String) (place : Nat × Nat) : OptionStep :=
  let quiet := asked.head? == some ':'
  match lettersLeft words place with
  | none | some ([], _) =>
    let skipped := words[place.1 - 1]? == some "--" && place.2 == 0
    { letter := '?', value := none, isEnd := true
      place := (if skipped then place.1 + 1 else place.1, 0) }
  | some (c :: cs, next) =>
    let here : Nat × Nat := match words[next - 2]? with
      | some word => (next, if cs.isEmpty then 0 else word.length - cs.length)
      | none => (next, 0)
    let forms := asked.dropWhile (· != c)
    if forms.isEmpty || c == ':' then
      { letter := '?', value := if quiet then some (String.ofList [c]) else none, place := here
        complaint := if quiet then none else some ("Illegal option -" ++ String.ofList [c]) }
    else if forms[1]? != some ':' then { letter := c, value := some "", place := here }
    else if !cs.isEmpty then
      { letter := c, value := some (String.ofList cs), place := (next, 0) }
    else
      match words[next - 1]? with
      | some value => { letter := c, value := some value, place := (next + 1, 0) }
      | none =>
        { letter := if quiet then ':' else '?', place := (next, 0)
          value := if quiet then some (String.ofList [c]) else none
          complaint := if quiet then none
            else some ("No arg for -" ++ String.ofList [c] ++ " option") }

/-- Reads one option into a variable. -/
def getOption (s : State) (args : List String) : State :=
  match args with
  | asked :: name :: rest =>
    let words := if rest.isEmpty then s.args else rest
    let number := ((s.value? "OPTIND").bind String.toNat?).getD 1
    let place := if number == s.optionPlace.1 then s.optionPlace else (number, 0)
    let place := if words.length + 1 < place.1 then (1, 0) else place
    let step := nextOption asked.toList words place
    let s := match step.complaint with
      | some text => s.complain (text ++ "\n")
      | none => s
    let s := if step.isEnd then s
      else
        match step.value with
        | some value => s.setVariable "OPTARG" value
        | none => s.unbind "OPTARG"
    let s := (s.setVariable "OPTIND" (toString step.place.1)).setVariable name
      (String.ofList [step.letter])
    { s.withStatus (if step.isEnd then 1 else 0) with optionPlace := step.place }
  | _ => s.fail 2 "Usage: getopts optstring var [arg]"

end Shell
end DeclarativeBuild
