import DeclarativeBuild.Path
import DeclarativeBuild.Shell.Fault

/-!
# Shell commands

The command language that tasks are written in: words, redirections, and commands put together by
pipes, conditions, loops and functions.
-/

namespace DeclarativeBuild
namespace Shell

/-- What a parameter in braces gives instead of its plain value. -/
inductive Alteration where
  /-- The operand, if there is no value. -/
  | fallback
  /-- The operand, which becomes the value if there is none. -/
  | assigned
  /-- A complaint, if there is no value. -/
  | required
  /-- The operand, if there is a value. -/
  | replaced
  /-- The value without a start, or an end, that matches the operand. -/
  | trimmed (atStart longest : Bool)
deriving DecidableEq, Repr

mutual

/-- A part of a word.  What is quoted is neither split nor taken for a wildcard. -/
inductive Piece where
  | text (text : String) (quoted : Bool)
  | parameter (name : String) (quoted : Bool)
  | size (name : String) (quoted : Bool)
  /-- A parameter in braces of no known form, which fails once it is needed. -/
  | unknown (operand : List Piece)
  /-- A parameter in braces; `emptyCounts` makes an empty value as good as none. -/
  | altered (name : String) (how : Alteration) (emptyCounts : Bool) (operand : List Piece)
      (quoted : Bool)
  /-- What commands write.  In backquotes nothing needs to end their list. -/
  | output (commands : List Token) (backquoted quoted : Bool)
  | sum (expression : List Piece) (quoted : Bool)
  /-- Input that makes no word, such as a quote that is left open. -/
  | broken (fault : SyntaxFault)

/-- A word, an operator, a line end or the end of the input, with the line that the reader has
reached after it.  The text of a document follows the line that asks for it. -/
inductive Token where
  | word (pieces : List Piece) (line : Nat)
  | operator (text : String) (line : Nat)
  | redirect (descriptor : Nat) (operator : String) (line : Nat)
  | document (pieces : List Piece)
  | newline (line : Nat)
  | stop (line : Nat)

end

abbrev Word := List Piece

inductive RedirectKind where
  | input
  | output
  /-- Output to a file that may be there whatever the shell is set to. -/
  | forcedOutput
  | append
  | duplicate
  | document

/-- What a descriptor is connected to before a command runs. -/
structure Redirect where
  descriptor : Nat
  kind : RedirectKind
  target : Word

inductive Command where
  | simple (line : Nat) (assignments : List (String × Word)) (words : List Word)
      (redirects : List Redirect)
  | pipe (left right : Command)
  | both (left right : Command)
  | either (left right : Command)
  | sequence (first second : Command)
  | background (command : Command)
  | negated (command : Command)
  | conditional (condition body otherwise : Command)
  | loop (stopOn : Bool) (condition body : Command)
  | each (name : String) (words : Option (List Word)) (body : Command)
  | choose (subject : Word) (branches : List (List Word × Command))
  | subshell (command : Command)
  | redirected (command : Command) (redirects : List Redirect)
  | define (name : String) (body : Command)
  | nothing
deriving Inhabited

/-- Words with a meaning of their own where a command may start. -/
def keywords : List String :=
  ["!", "case", "do", "done", "elif", "else", "esac", "fi", "for", "if", "in", "then", "until",
    "while", "\x7b", "\x7d"]

/-- Builtins that keep the assignments in front of them, that end the shell when they fail and that
no function may be named for. -/
def specialBuiltins : List String :=
  [":", ".", "break", "continue", "eval", "exec", "exit", "export", "local", "readonly", "return",
    "set", "shift", "times", "trap", "unset"]

end Shell
end DeclarativeBuild
