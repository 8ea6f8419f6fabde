/-!
# Faults in shell commands

Why some input cannot be read as commands.
-/

namespace DeclarativeBuild
namespace Shell

/-- What is wrong with the input. -/
inductive FaultKind where
  | openQuote
  | openBrace
  | openSum
  | openBackquote
  | loopVariable
  | functionName
  | descriptor
  /-- Something stands where it cannot, perhaps where only one thing can. -/
  | unexpected (found : String) (expected : Option String)
deriving DecidableEq, Repr

/-- A fault and the line that the reader had reached when it found it. -/
structure SyntaxFault where
  kind : FaultKind
  line : Nat
deriving DecidableEq, Repr

def FaultKind.message : FaultKind → String
  | .openQuote => "Unterminated quoted string"
  | .openBrace => "Missing '\x7d'"
  | .openSum => "Missing '))'"
  | .openBackquote => "EOF in backquote substitution"
  | .loopVariable => "Bad for loop variable"
  | .functionName => "Bad function name"
  | .descriptor => "Bad fd number"
  | .unexpected found none => found ++ " unexpected"
  | .unexpected found (some expected) =>
    found ++ " unexpected (expecting " ++ expected ++ ")"

end Shell
end DeclarativeBuild
