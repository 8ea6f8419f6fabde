import DeclarativeBuild.Text.Pieces

/-!
# Arguments

The words of a command line divided into options, with their values, and operands.  An option has a
long name after two dashes and may have a letter after one dash; letters can be joined, and the last
of them can have its value attached.  After a word of two dashes there are only operands.
-/

namespace DeclarativeBuild
namespace CommandLine

inductive OptionName where
  | file
  | verbose
  | quiet
  | property
  | noConfig
  | version
  | dryRun
  | plan
  | jobs
deriving DecidableEq, Repr

/-- How an option is written. -/
structure OptionForm where
  name : OptionName
  letter? : Option Char
  long : String
  takesValue : Bool
deriving DecidableEq, Repr

/-- The forms that are known before and after a command's name. -/
def sharedForms : List OptionForm :=
  [⟨.file, some 'f', "file", true⟩, ⟨.verbose, some 'v', "verbose", false⟩,
    ⟨.quiet, some 'q', "quiet", false⟩, ⟨.property, some 'p', "property", true⟩,
    ⟨.noConfig, none, "no-config", false⟩]

def mainForms : List OptionForm :=
  sharedForms ++ [⟨.version, some 'V', "version", false⟩]

def buildForms : List OptionForm :=
  sharedForms ++ [⟨.dryRun, none, "dry-run", false⟩, ⟨.plan, none, "plan", false⟩,
    ⟨.jobs, some 'j', "jobs", true⟩]

inductive Argument where
  | flag (name : OptionName)
  | valued (name : OptionName) (value : String)
  | operand (text : String)
  /-- An unknown option, a missing value or a value that no option takes. -/
  | misplaced
deriving DecidableEq, Repr

/-- A value must not look like an option. -/
def isValue (word : String) : Bool :=
  word == "-" || !word.startsWith "-"

/-- An option that takes the next word as its value, with the words after it. -/
def takeValue (name : OptionName) : List String → Argument × List String
  | word :: rest => if isValue word then (.valued name word, rest) else (.misplaced, [])
  | [] => (.misplaced, [])

/-- The options of joined letters, with the words after their value. -/
def scanLetters (forms : List OptionForm) (rest : List String) :
    List Char → List Argument × List String
  | [] => ([], rest)
  | c :: cs =>
    match forms.find? (·.letter? == some c) with
    | none => ([.misplaced], [])
    | some form =>
      if !form.takesValue then
        let (more, rest) := scanLetters forms rest cs
        (.flag form.name :: more, rest)
      else
        match cs with
        | [] => let (argument, rest) := takeValue form.name rest; ([argument], rest)
        | '=' :: value => ([.valued form.name (String.ofList value)], rest)
        | value => ([.valued form.name (String.ofList value)], rest)

/-- The option of a long name, with the words after its value. -/
def scanLong (forms : List OptionForm) (rest : List String) (cs : List Char) :
    Argument × List String :=
  let (name, value?) := match Text.cutFirst '=' cs with
    | some (name, value) => (name, some (String.ofList value))
    | none => (cs, none)
  match forms.find? (·.long == String.ofList name), value? with
  | none, _ => (.misplaced, [])
  | some form, some value => (if form.takesValue then .valued form.name value else .misplaced, rest)
  | some form, none => if form.takesValue then takeValue form.name rest else (.flag form.name, rest)

/-- The options in front of the first operand, and the words from it on.  After a word of two dashes
there is nothing but operands, which are given as arguments. -/
def scanOptions (forms : List OptionForm) (words : List String) :
    List Argument × List String :=
  match words with
  | [] => ([], [])
  | word :: rest =>
    match word.toList with
    | ['-', '-'] => (rest.map .operand, [])
    | '-' :: '-' :: name =>
      let (argument, after) := scanLong forms rest name
      if after.length ≤ rest.length then
        let (more, after) := scanOptions forms after
        (argument :: more, after)
      else ([], [])
    | '-' :: c :: cs =>
      let (arguments, after) := scanLetters forms rest (c :: cs)
      if after.length ≤ rest.length then
        let (more, after) := scanOptions forms after
        (arguments ++ more, after)
      else ([], [])
    | _ => ([], word :: rest)
termination_by words.length
decreasing_by all_goals grind

/-- All arguments, options and operands in any order. -/
def scanArguments (forms : List OptionForm) (words : List String) : List Argument :=
  match scanOptions forms words with
  | (arguments, []) => arguments
  | (arguments, word :: rest) =>
    if rest.length < words.length then arguments ++ .operand word :: scanArguments forms rest
    else arguments
termination_by words.length

end CommandLine
end DeclarativeBuild
