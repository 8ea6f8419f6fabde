import DeclarativeBuild.Shell.Token

/-!
# Reading shell commands

A reader of command lists, which stops at the first thing that cannot stand where it does.  Every
level of it takes a measure that shrinks with each step; it is larger than any script needs.
-/

namespace DeclarativeBuild
namespace Shell

/-- What is read, or why it cannot be. -/
abbrev Parse := Except SyntaxFault

/-- Keywords and operators that end a list of commands. -/
def closers : List String :=
  ["do", "done", "elif", "else", "esac", "fi", "then", "\x7d"]

namespace Token

def keyword? (t : Token) : Option String :=
  t.plain?.filter keywords.contains

def isNewline : Token → Bool
  | .newline _ => true
  | _ => false

def isStop : Token → Bool
  | .stop _ => true
  | _ => false

/-- The line that the reader has reached after a token. -/
def line : Token → Nat
  | word _ line | operator _ line | redirect _ _ line | newline line | stop line => line
  | document _ => 0

/-- What a token is called in a complaint, where words may be read as keywords or not. -/
def title (readsKeywords : Bool) : Token → String
  | word w line =>
    match (word w line).keyword? with
    | some text => if readsKeywords then "\"" ++ text ++ "\"" else "word"
    | none => "word"
  | operator o _ => "\"" ++ o ++ "\""
  | redirect _ _ _ => "redirection"
  | newline _ => "newline"
  | document _ => "word"
  | stop _ => "end of file"

/-- A fault inside a word. -/
def fault? : Token → Option SyntaxFault
  | .word w _ => w.findSome? fun
    | .broken fault => some fault
    | _ => none
  | _ => none

end Token

def startsWith (keyword : String) (ts : List Token) : Bool :=
  match ts with
  | t :: _ => t.plain? == some keyword
  | [] => false

def startsWithOperator (text : String) (ts : List Token) : Bool :=
  match ts with
  | t :: _ => t.isOperator text
  | [] => false

def skipNewlines (ts : List Token) : List Token :=
  ts.dropWhile Token.isNewline

/-- The line that the reader has reached after the first token. -/
def lineOf (ts : List Token) : Nat :=
  (ts.head?.map Token.line).getD 0

/-- Refuses the first token, perhaps in favour of another one. -/
def unexpected (readsKeywords : Bool) (expected : Option String) (ts : List Token) :
    Parse α :=
  match ts with
  | [] => .error ⟨.unexpected "end of file" expected, 0⟩
  | t :: _ => .error (t.fault?.getD ⟨.unexpected (t.title readsKeywords) expected, t.line⟩)

/-- Passes over a keyword. -/
def expectKeyword (keyword : String) (ts : List Token) : Parse (List Token) :=
  if startsWith keyword ts then .ok (ts.drop 1)
  else unexpected true (some ("\"" ++ keyword ++ "\"")) ts

/-- Passes over an operator, where words are read as keywords or not. -/
def expectOperator (readsKeywords : Bool) (text : String) (ts : List Token) :
    Parse (List Token) :=
  if startsWithOperator text ts then .ok (ts.drop 1)
  else unexpected readsKeywords (some ("\"" ++ text ++ "\"")) ts

/-- Whether a list of commands ends here. -/
def endsList (ts : List Token) : Bool :=
  match ts with
  | [] => true
  | t :: _ => t.isStop || t.isOperator ")" || t.isOperator ";;" ||
      t.keyword?.any closers.contains

/-- An assignment in front of a command. -/
def assignment? (w : Word) : Option (String × Word) :=
  match w with
  | .text t false :: rest =>
    match t.toList.span (· != '=') with
    | (c :: name, _ :: value) =>
      if isNameStart c && name.all isNameChar then
        let first := if value.isEmpty then [] else [Piece.text (String.ofList value) false]
        some (String.ofList (c :: name), first ++ rest)
      else none
    | _ => none
  | _ => none

def splitAssignments : List Word → List (String × Word) × List Word
  | [] => ([], [])
  | w :: rest =>
    match assignment? w with
    | some a =>
      let (more, words) := splitAssignments rest
      (a :: more, words)
    | none => ([], w :: rest)

def redirectKind : String → RedirectKind
  | "<" | "<>" => .input
  | "<<" => .document
  | ">>" => .append
  | "<&" | ">&" => .duplicate
  | ">|" => .forcedOutput
  | _ => .output

mutual

/-- Looks for faults in the parts of a word and in the commands inside it. -/
def checkPieces (measure : Nat) : List Piece → Parse Unit
  | [] => .ok ()
  | p :: rest =>
    match measure with
    | 0 => .ok ()
    | measure + 1 => do
      checkPiece measure p
      checkPieces measure rest

def checkPiece (measure : Nat) (p : Piece) : Parse Unit :=
  match measure with
  | 0 => .ok ()
  | measure + 1 =>
    match p with
    | .broken fault => .error fault
    | .altered _ _ _ inner _ | .unknown inner | .sum inner _ => checkPieces measure inner
    | .output commands backquoted _ => do
      let (_, rest) ← parseList measure true commands
      if !backquoted then discard (expectOperator true ")" rest)
    | _ => .ok ()

/-- The word that a redirection is followed by. -/
def parseTarget (measure : Nat) (ts : List Token) : Parse (Word × List Token) :=
  match measure, ts with
  | measure + 1, .word w _ :: rest => do
    checkPieces measure w
    return (w, rest)
  | _, ts => unexpected false none ts

/-- The redirections at the front, if there are any. -/
def parseRedirects (measure : Nat) (ts : List Token) : Parse (List Redirect × List Token) :=
  match measure, ts with
  | measure + 1, .redirect n o _ :: rest => do
    let (target, rest) ← parseTarget measure rest
    let (more, rest) ← parseRedirects measure rest
    return (⟨n, redirectKind o, target⟩ :: more, rest)
  | _, ts => .ok ([], ts)

/-- The words and redirections of a simple command. -/
def parseWords (measure : Nat) (ts : List Token) :
    Parse ((List Word × List Redirect) × List Token) :=
  match measure, ts with
  | measure + 1, .word w _ :: rest => do
    checkPieces measure w
    let ((words, redirects), rest) ← parseWords measure rest
    return ((w :: words, redirects), rest)
  | measure + 1, .redirect n o _ :: rest => do
    let (target, rest) ← parseTarget measure rest
    let ((words, redirects), rest) ← parseWords measure rest
    return ((words, ⟨n, redirectKind o, target⟩ :: redirects), rest)
  | _, ts => .ok (([], []), ts)

/-- Commands up to something that ends them; the first one may be missing if that is allowed. -/
def parseList (measure : Nat) (mayBeEmpty : Bool) (ts : List Token) : Parse (Command × List Token) :=
  match measure with
  | 0 => unexpected true none ts
  | measure + 1 =>
    let ts := skipNewlines ts
    if (ts.head?.any Token.isStop) || (mayBeEmpty && endsList ts) then .ok (.nothing, ts)
    else do
      let (first, rest) ← parseAndOr measure ts
      match rest with
      | .newline _ :: after | .operator ";" _ :: after =>
        let (second, rest) ← parseList measure true after
        return (.sequence first second, rest)
      | .operator "&" _ :: after =>
        let (second, rest) ← parseList measure true after
        return (.sequence (.background first) second, rest)
      | rest => return (first, rest)

/-- Pipes with `&&` and `||` between them, which bind alike and to the left. -/
def parseAndOr (measure : Nat) (ts : List Token) : Parse (Command × List Token) :=
  match measure with
  | 0 => unexpected true none ts
  | measure + 1 => do
    let (left, rest) ← parsePipe measure ts
    parseAndOrRest measure left rest

def parseAndOrRest (measure : Nat) (left : Command) (ts : List Token) : Parse (Command × List Token) :=
  match measure, ts with
  | measure + 1, .operator "&&" _ :: rest => do
    let (right, rest) ← parsePipe measure (skipNewlines rest)
    parseAndOrRest measure (.both left right) rest
  | measure + 1, .operator "||" _ :: rest => do
    let (right, rest) ← parsePipe measure (skipNewlines rest)
    parseAndOrRest measure (.either left right) rest
  | _, ts => .ok (left, ts)

/-- A pipe, whose outcome a sign in front of it turns round. -/
def parsePipe (measure : Nat) (ts : List Token) : Parse (Command × List Token) :=
  match measure with
  | 0 => unexpected true none ts
  | measure + 1 =>
    if startsWith "!" ts then do
      let (c, rest) ← parseSteps measure (ts.drop 1)
      return (.negated c, rest)
    else parseSteps measure ts

def parseSteps (measure : Nat) (ts : List Token) : Parse (Command × List Token) :=
  match measure with
  | 0 => unexpected true none ts
  | measure + 1 => do
    let (left, rest) ← parseCommand measure ts
    if startsWithOperator "|" rest then
      let (right, rest) ← parseSteps measure (skipNewlines (rest.drop 1))
      return (.pipe left right, rest)
    else return (left, rest)

def parseCommand (measure : Nat) (ts : List Token) : Parse (Command × List Token) :=
  match measure with
  | 0 => unexpected true none ts
  | measure + 1 =>
    match ts with
    | .redirect _ _ _ :: _ => parseSimple measure ts
    | .word _ _ :: .operator "(" _ :: _ =>
      if (ts.head?.bind Token.keyword?).isSome then parseCompound measure ts
      else parseFunction measure ts
    | .word w line :: _ =>
      if (Token.word w line).keyword?.isSome then parseCompound measure ts
      else parseSimple measure ts
    | .operator "(" _ :: _ => parseCompound measure ts
    | ts => unexpected true none ts

def parseSimple (measure : Nat) (ts : List Token) : Parse (Command × List Token) :=
  match measure with
  | 0 => unexpected true none ts
  | measure + 1 => do
    let ((words, redirects), rest) ← parseWords measure ts
    let (assignments, words) := splitAssignments words
    return (.simple (lineOf ts) assignments words redirects, rest)

/-- A function, after whose name a parenthesis stands. -/
def parseFunction (measure : Nat) (ts : List Token) : Parse (Command × List Token) :=
  match measure, ts with
  | measure + 1, .word w _ :: rest => do
    checkPieces measure w
    if (assignment? w).isSome then unexpected false none rest
    else
      let after ← expectOperator false ")" (rest.drop 1)
      match ts.head?.bind Token.plain? with
      | some name =>
        if isName name && !specialBuiltins.contains name then
          let (body, rest) ← parseCommand measure (skipNewlines after)
          return (.define name body, rest)
        else throw ⟨.functionName, lineOf (rest.drop 1)⟩
      | none => throw ⟨.functionName, lineOf (rest.drop 1)⟩
  | _, ts => unexpected true none ts

/-- A command that starts with a keyword or a parenthesis, and the redirections after it. -/
def parseCompound (measure : Nat) (ts : List Token) : Parse (Command × List Token) :=
  match measure with
  | 0 => unexpected true none ts
  | measure + 1 => do
    let rest := ts.drop 1
    let (c, rest) ← match ts.head?.bind Token.keyword? with
      | none => do
        let (c, rest) ← parseList measure false rest
        pure (Command.subshell c, ← expectOperator true ")" rest)
      | some "\x7b" => do
        let (c, rest) ← parseList measure false rest
        pure (c, ← expectKeyword "\x7d" rest)
      | some "if" => parseIf measure rest
      | some "while" => parseLoop measure false rest
      | some "until" => parseLoop measure true rest
      | some "for" => parseFor measure rest
      | some "case" => parseCase measure rest
      | some _ => unexpected true none ts
    match ← parseRedirects measure rest with
    | ([], rest) => return (c, rest)
    | (redirects, rest) => return (.redirected c redirects, rest)

/-- A conditional after its first keyword. -/
def parseIf (measure : Nat) (ts : List Token) : Parse (Command × List Token) :=
  match measure with
  | 0 => unexpected true none ts
  | measure + 1 => do
    let (condition, rest) ← parseList measure false ts
    let (body, rest) ← parseList measure false (← expectKeyword "then" rest)
    if startsWith "elif" rest then
      let (otherwise, rest) ← parseIf measure (rest.drop 1)
      return (.conditional condition body otherwise, rest)
    else if startsWith "else" rest then
      let (otherwise, rest) ← parseList measure false (rest.drop 1)
      return (.conditional condition body otherwise, ← expectKeyword "fi" rest)
    else return (.conditional condition body .nothing, ← expectKeyword "fi" rest)

def parseLoop (measure : Nat) (stopOn : Bool) (ts : List Token) : Parse (Command × List Token) :=
  match measure with
  | 0 => unexpected true none ts
  | measure + 1 => do
    let (condition, rest) ← parseList measure false ts
    let (body, rest) ← parseList measure false (← expectKeyword "do" rest)
    return (.loop stopOn condition body, ← expectKeyword "done" rest)

def parseFor (measure : Nat) (ts : List Token) : Parse (Command × List Token) :=
  match measure, ts with
  | measure + 1, t :: rest => do
    let name := (t.plain?.filter isName).getD ""
    if let some fault := t.fault? then throw fault
    if name == "" then throw ⟨.loopVariable, t.line⟩
    let rest := skipNewlines rest
    let (words, rest) ← if startsWith "in" rest then parseValues measure (rest.drop 1)
      else pure (none, if startsWithOperator ";" rest then rest.drop 1 else rest)
    let (body, rest) ← parseList measure false (← expectKeyword "do" (skipNewlines rest))
    return (.each name words body, ← expectKeyword "done" rest)
  | _, ts => unexpected true none ts

/-- The values that a loop goes through, up to the end of their line or a semicolon. -/
def parseValues (measure : Nat) (ts : List Token) :
    Parse (Option (List Word) × List Token) :=
  match measure, ts with
  | measure + 1, .word w _ :: rest => do
    checkPieces measure w
    let (more, rest) ← parseValues measure rest
    return (some (w :: more.getD []), rest)
  | _, .newline _ :: rest | _, .operator ";" _ :: rest => .ok (some [], rest)
  | _, ts => unexpected false none ts

def parseCase (measure : Nat) (ts : List Token) : Parse (Command × List Token) :=
  match measure, ts with
  | measure + 1, .word subject _ :: rest => do
    checkPieces measure subject
    let rest ← expectKeyword "in" (skipNewlines rest)
    let (branches, rest) ← parseBranches measure rest
    return (.choose subject branches, rest)
  | _, ts => unexpected false (some "word") ts

def parseBranches (measure : Nat) (ts : List Token) :
    Parse (List (List Word × Command) × List Token) :=
  match measure with
  | 0 => unexpected true none ts
  | measure + 1 => do
    let ts := skipNewlines ts
    if startsWith "esac" ts then return ([], ts.drop 1)
    let (patterns, rest) ← parsePatterns measure
      (if startsWithOperator "(" ts then ts.drop 1 else ts)
    let (body, rest) ← parseList measure true rest
    let rest := skipNewlines rest
    if startsWith "esac" rest then return ([(patterns, body)], rest.drop 1)
    let (more, rest) ← parseBranches measure (← expectOperator true ";;" rest)
    return ((patterns, body) :: more, rest)

/-- The patterns of one branch up to the closing parenthesis. -/
def parsePatterns (measure : Nat) (ts : List Token) : Parse (List Word × List Token) :=
  match measure, ts with
  | measure + 1, .word w _ :: rest => do
    checkPieces measure w
    if startsWithOperator "|" rest then
      let (more, rest) ← parsePatterns measure (rest.drop 1)
      return (w :: more, rest)
    else return ([w], ← expectOperator false ")" rest)
  | _, t :: rest => if t.isStop then unexpected false (some "\")\"") [t]
    else unexpected false (some "\")\"") rest
  | _, [] => unexpected false (some "\")\"") []

end

/-- The commands of one line, or more lines if one alone is not complete, up to its end. -/
def parseLineWithin (measure : Nat) (ts : List Token) : Parse (Command × List Token) :=
  match measure with
  | 0 => unexpected true none ts
  | measure + 1 => do
    let (first, rest) ← parseAndOr measure ts
    let (first, rest, mayStop) := match rest with
      | .operator "&" _ :: rest => (Command.background first, rest, true)
      | .operator ";" _ :: rest => (first, rest, true)
      | rest => (first, rest, false)
    match rest with
    | [] | .newline _ :: _ | .stop _ :: _ => return (first, rest)
    | rest =>
      if mayStop then
        let (second, rest) ← parseLineWithin measure rest
        return (.sequence first second, rest)
      else unexpected true none rest

mutual

/-- How much there is to read in a part of a word. -/
def Piece.weight : Piece → Nat
  | .altered _ _ _ inner _ | .unknown inner | .sum inner _ => weightOfPieces inner + 1
  | .output commands _ _ => weightOfTokens commands + 1
  | _ => 1

def weightOfPieces : List Piece → Nat
  | [] => 1
  | p :: rest => p.weight + weightOfPieces rest

def Token.weight : Token → Nat
  | .word w _ | .document w => weightOfPieces w
  | _ => 1

def weightOfTokens : List Token → Nat
  | [] => 1
  | t :: rest => t.weight + weightOfTokens rest

end

/-- More steps than the reading of some tokens takes. -/
def enoughFor (ts : List Token) : Nat :=
  12 * weightOfTokens ts + 12

/-- The commands of the first line that is not empty, and the tokens from its end on. -/
def parseLine (ts : List Token) : Parse (Command × List Token) :=
  parseLineWithin (enoughFor ts) ts

/-- The commands inside a word. -/
def parseInner (ts : List Token) : Parse Command :=
  (parseList (enoughFor ts) true ts).map Prod.fst

end Shell
end DeclarativeBuild
