import DeclarativeBuild.Shell.Record.Token

/-!
# Reading rules

A reader of programs of rules.  Operators bind as in the C language; two expressions side by side
are joined, which binds less tightly than a sum and more tightly than a comparison.  Every level of
the reader takes a measure that shrinks with each step; it is larger than any program needs.
-/

namespace DeclarativeBuild
namespace Shell
namespace Record

/-- A reader of the tokens that are left. -/
abbrev Read := StateT (List Lexeme) (Except Fault)

/-- What a complaint calls a token. -/
def Token.title : Token → String
  | .number x => toString x
  | .text s => "\"" ++ s ++ "\""
  | .pattern source => "/" ++ String.ofList source ++ "/"
  | .name s _ | .keyword s | .builtin s | .operator s => s
  | .newline => "end of line"

/-- Escapes of a pattern as the characters they stand for; a backslash stays where it takes the
meaning of a sign away. -/
def plainPattern (inSet : Bool) (cs : List Char) : List Char :=
  match cs with
  | [] => []
  | '\\' :: c :: rest =>
    let digits := ((c :: rest).takeWhile isOctal).take 3
    let kept (d : Char) := if inSet || d.isAlphanum || d == '/' || d == '"' || d.toNat < 32 then [d]
      else ['\\', d]
    if !digits.isEmpty then
      kept (octalChar digits) ++ plainPattern inSet (rest.drop (digits.length - 1))
    else kept ((if c == 'e' then none else escapedChar? c).getD c) ++ plainPattern inSet rest
  | '[' :: '^' :: ']' :: rest =>
    if inSet then '[' :: '^' :: ']' :: plainPattern false rest
    else '[' :: '^' :: ']' :: plainPattern true rest
  | '[' :: ']' :: rest => '[' :: ']' :: plainPattern (!inSet) rest
  | c :: rest => c :: plainPattern (if inSet then c != ']' else c == '[') rest
termination_by cs.length
decreasing_by all_goals grind

/-- The expression that a pattern is written as. -/
def patternOf (source : List Char) : Option Regex :=
  Regex.parse true (plainPattern false source)

namespace Read

def peek? : Read (Option Token) :=
  return (← get).head?.map Prod.fst

def skip : Read Unit :=
  modify (List.drop 1)

/-- Refuses the next token. -/
def refuse : Read α := do
  match (← get) with
  | (t, line) :: _ => throw ⟨line, "syntax error at or near " ++ t.title⟩
  | [] => throw ⟨1, "syntax error at or near end of file"⟩

/-- Whether the next token is an operator. -/
def atOperator (o : String) : Read Bool := do
  match (← peek?) with
  | some (.operator s) => return s == o
  | _ => return false

def atKeyword (k : String) : Read Bool := do
  match (← peek?) with
  | some (.keyword s) => return s == k
  | _ => return false

/-- Passes over an operator if it stands here. -/
def passed (o : String) : Read Bool := do
  if ← atOperator o then skip; return true else return false

def expect (o : String) : Read Unit := do
  if ← passed o then return () else refuse

/-- Passes over the ends of lines. -/
def skipLines : Read Unit :=
  modify (List.dropWhile fun (t, _) => match t with | .newline => true | _ => false)

/-- Passes over the ends of lines and of statements. -/
def skipEnds : Read Unit :=
  modify (List.dropWhile fun (t, _) => match t with
    | .newline => true
    | .operator o => o == ";"
    | _ => false)

def expectName : Read String := do
  match (← peek?) with
  | some (.name s _) => skip; return s
  | _ => refuse

end Read

open Read

/-- Operators that assign, with the one that is worked out before. -/
def assignment? (o : String) : Option (Option String) :=
  match o with
  | "=" => some none
  | "+=" => some (some "+")
  | "-=" => some (some "-")
  | "*=" => some (some "*")
  | "/=" => some (some "/")
  | "%=" => some (some "%")
  | "^=" => some (some "^")
  | _ => none

/-- How tightly an operator between two operands binds. -/
def bindingOf? (o : String) : Option Nat :=
  match o with
  | "?" => some 2
  | "||" => some 3
  | "&&" => some 4
  | "~" | "!~" => some 6
  | "<" | "<=" | "==" | "!=" | ">" | ">=" => some 7
  | "+" | "-" => some 9
  | "*" | "/" | "%" => some 10
  | "|" => some 12
  | "^" => some 13
  | _ => none

/-- How tightly joining binds. -/
def joining : Nat := 8

/-- How tightly a sign in front binds. -/
def signBinding : Nat := 11

/-- Whether an operand may start with a token when it stands behind another one. -/
def Token.startsOperand : Token → Bool
  | .number _ | .text _ | .name _ _ | .builtin _ => true
  | .operator o => ["$", "!", "(", "++", "--"].contains o
  | _ => false

mutual

/-- An expression whose operators bind at least as tightly as `least`; where `>` starts a target it
is no comparison. -/
def readExpr (measure : Nat) (inPrint : Bool) (least : Nat) : Read Expr :=
  match measure with
  | 0 => refuse
  | measure + 1 => do readOperators measure inPrint least (← readOperand measure inPrint)
termination_by measure

/-- Goes on with the operators behind an operand. -/
def readOperators (measure : Nat) (inPrint : Bool) (least : Nat) (left : Expr) : Read Expr :=
  match measure with
  | 0 => refuse
  | measure + 1 => do
    match (← peek?) with
    | some (.keyword "in") =>
      if 5 < least then return left
      skip
      let table ← expectName
      let subscripts := match left with
        | .list es => es
        | e => [e]
      readOperators measure inPrint least (.member subscripts table)
    | some (.operator o) =>
      match bindingOf? o with
      | none =>
        if (Token.operator o).startsOperand && least ≤ joining then
          readJoined measure inPrint least left
        else return left
      | some binding =>
        if binding < least || (inPrint && o == ">") then return left
        else if o == "|" then
          match (← get) with
          | _ :: (.keyword "getline", _) :: _ =>
            skip; skip
            let target ← readTarget? measure
            readOperators measure inPrint least (.readCommand target left)
          | _ => return left
        else
          skip
          if ["||", "&&", "?"].contains o then skipLines
          match o with
          | "?" =>
            let yes ← readExpr measure inPrint 2
            skipLines
            expect ":"
            skipLines
            return .choice left yes (← readExpr measure inPrint 2)
          | "^" => readOperators measure inPrint least (.binary o left
              (← readExpr measure inPrint binding))
          | _ =>
            let right ← readExpr measure inPrint (binding + 1)
            let e := match o with
              | "||" => Expr.either left right
              | "&&" => .both left right
              | "~" => .matching false left right
              | "!~" => .matching true left right
              | o => .binary o left right
            readOperators measure inPrint least e
    | some t =>
      if t.startsOperand && least ≤ joining then readJoined measure inPrint least left
      else return left
    | none => return left
termination_by measure

/-- Joins an operand with the one that follows. -/
def readJoined (measure : Nat) (inPrint : Bool) (least : Nat) (left : Expr) : Read Expr :=
  match measure with
  | 0 => refuse
  | measure + 1 => do
    let right ← readExpr measure inPrint (joining + 1)
    readOperators measure inPrint least (.binary "" left right)
termination_by measure

/-- What operators stand between. -/
def readOperand (measure : Nat) (inPrint : Bool) : Read Expr :=
  match measure with
  | 0 => refuse
  | measure + 1 => do
    match (← peek?) with
    | some (.operator o) =>
      if o == "-" || o == "+" || o == "!" then
        skip
        return .unary o (← readExpr measure inPrint signBinding)
      else if o == "++" || o == "--" then
        skip
        match (← readPrimary measure) with
        | .place p => return .step p (o == "++") false
        | _ => refuse
      else readPlaced measure inPrint (← readPrimary measure)
    | some (.keyword "getline") =>
      skip
      let target ← readTarget? measure
      if ← passed "<" then
        return .readFile target (← readPrimary measure)
      else return .readMain target
    | _ => readPlaced measure inPrint (← readPrimary measure)
termination_by measure

/-- Goes on with an assignment or a step behind a place. -/
def readPlaced (measure : Nat) (inPrint : Bool) (e : Expr) : Read Expr :=
  match measure with
  | 0 => refuse
  | measure + 1 => do
    match e, (← peek?) with
    | .place p, some (.operator o) =>
      match assignment? o with
      | some worked =>
        skip
        skipLines
        return .assign p worked (← readExpr measure inPrint 1)
      | none =>
        if o == "++" || o == "--" then
          skip
          return .step p (o == "++") true
        else return e
    | _, _ => return e
termination_by measure

/-- The place that a record is read into, if there is one. -/
def readTarget? (measure : Nat) : Read (Option Place) :=
  match measure with
  | 0 => refuse
  | measure + 1 => do
    let readsPlace := match (← peek?) with
      | some (.name _ opens) => !opens
      | some (.operator "$") => true
      | _ => false
    if readsPlace then
      match (← readPrimary measure) with
      | .place p => return some p
      | _ => refuse
    else return none
termination_by measure

/-- An expression of no operators but those in front of fields and in parentheses. -/
def readPrimary (measure : Nat) : Read Expr :=
  match measure with
  | 0 => refuse
  | measure + 1 => do
    match (← peek?) with
    | some (.number x) => skip; return .number x
    | some (.text s) => skip; return .text s
    | some (.pattern source) =>
      match patternOf source with
      | some e => skip; return .pattern e
      | none => refuse
    | some (.operator "$") =>
      skip
      if ← passed "++" then
        match (← readPrimary measure) with
        | .place p => return .place (.field (.step p true false))
        | _ => refuse
      else if ← passed "--" then
        match (← readPrimary measure) with
        | .place p => return .place (.field (.step p false false))
        | _ => refuse
      else if ← passed "-" then
        return .place (.field (.unary "-" (← readPrimary measure)))
      else return .place (.field (← readPrimary measure))
    | some (.operator "(") =>
      skip
      skipLines
      let es ← readList measure false
      skipLines
      expect ")"
      return .list es
    | some (.name s opens) =>
      skip
      if opens then
        expect "("
        skipLines
        let args ← readArgs measure
        return .call s args
      else if ← passed "[" then
        let subscripts ← readList measure false
        expect "]"
        return .place (.element s subscripts)
      else return .place (.variable s)
    | some (.builtin s) =>
      skip
      if ← passed "(" then
        skipLines
        return .builtin s (← readArgs measure)
      else if s == "length" then return .builtin s []
      else refuse
    | _ => refuse
termination_by measure

/-- Arguments up to the closing parenthesis. -/
def readArgs (measure : Nat) : Read (List Expr) :=
  match measure with
  | 0 => refuse
  | measure + 1 => do
    if ← passed ")" then return []
    else
      let args ← readList measure false
      skipLines
      expect ")"
      return args
termination_by measure

/-- Expressions with commas between them. -/
def readList (measure : Nat) (inPrint : Bool) : Read (List Expr) :=
  match measure with
  | 0 => refuse
  | measure + 1 => do
    let e ← readExpr measure inPrint 1
    if ← passed "," then
      skipLines
      return e :: (← readList measure inPrint)
    else return [e]
termination_by measure

end

/-- Whether a statement ends here, with nothing more of it to come. -/
def endsHere : Read Bool := do
  match (← peek?) with
  | none | some .newline => return true
  | some (.operator o) => return o == ";" || o == "\x7d"
  | _ => return false

/-- Passes over the end of a simple statement, which a closing brace also ends. -/
def endStatement : Read Unit := do
  match (← peek?) with
  | none => return ()
  | some .newline => skip
  | some (.operator ";") => skip
  | some (.operator "\x7d") => return ()
  | _ => refuse

def readOptional (measure : Nat) : Read (Option Expr) := do
  if ← endsHere then return none else return some (← readExpr measure false 1)

/-- What `print` and `printf` write, and where to. -/
def readPrint (measure : Nat) (formatted : Bool) : Read Statement := do
  let startsTarget := match (← peek?) with
    | some (.operator o) => [">", ">>", "|"].contains o
    | _ => false
  let args ← if (← endsHere) || startsTarget then pure [] else readList measure true
  let args := match args with
    | [.list es] => es
    | args => args
  let kind? := match (← peek?) with
    | some (.operator ">") => some OutputKind.file
    | some (.operator ">>") => some .append
    | some (.operator "|") => some .command
    | _ => none
  match kind? with
  | none => return .print formatted args none
  | some kind =>
    skip
    return .print formatted args (some (kind, ← readExpr measure true 1))

/-- A statement that ends with its line. -/
def readSimple (measure : Nat) : Read Statement := do
  match (← peek?) with
  | some (.keyword "print") => skip; readPrint measure false
  | some (.keyword "printf") => skip; readPrint measure true
  | some (.keyword "next") => skip; return .nextRecord
  | some (.keyword "nextfile") => skip; return .nextFile
  | some (.keyword "break") => skip; return .leaveLoop
  | some (.keyword "continue") => skip; return .nextTurn
  | some (.keyword "exit") => skip; return .exit (← readOptional measure)
  | some (.keyword "return") => skip; return .giveBack (← readOptional measure)
  | some (.keyword "delete") =>
    skip
    let table ← expectName
    if ← passed "[" then
      let subscripts ← readList measure false
      expect "]"
      return .delete table subscripts
    else return .clear table
  | _ => return .expression (← readExpr measure false 1)

/-- The header of a loop over the keys of a table, if one starts here. -/
def readEach? : Read (Option (String × String)) := do
  match (← get) with
  | (.name key false, _) :: (.keyword "in", _) :: (.name table false, _) ::
      (.operator ")", _) :: rest =>
    set rest
    return some (key, table)
  | _ => return none

/-- An expression in parentheses, which a statement starts with. -/
def readCondition (measure : Nat) : Read Expr := do
  expect "("
  skipLines
  let e ← readExpr measure false 1
  skipLines
  expect ")"
  return e

mutual

def readStatement (measure : Nat) : Read Statement :=
  match measure with
  | 0 => refuse
  | measure + 1 => do
    match (← peek?) with
    | some (.operator ";") => skip; return .block []
    | some (.operator "\x7b") => readBlock measure
    | some (.keyword "if") =>
      skip
      let condition ← readCondition measure
      skipLines
      let yes ← readStatement measure
      let before ← get
      skipEnds
      if ← atKeyword "else" then
        skip
        skipLines
        return .conditional condition yes (← readStatement measure)
      else
        set before
        return .conditional condition yes (.block [])
    | some (.keyword "while") =>
      skip
      let condition ← readCondition measure
      if ← passed ";" then return .loop true (some condition) (.block []) (.block [])
      skipLines
      return .loop true (some condition) (.block []) (← readStatement measure)
    | some (.keyword "do") =>
      skip
      skipLines
      let body ← readStatement measure
      skipEnds
      if ← atKeyword "while" then
        skip
        let condition ← readCondition measure
        endStatement
        return .loop false (some condition) (.block []) body
      else refuse
    | some (.keyword "for") =>
      skip
      expect "("
      match (← readEach?) with
      | some (key, table) =>
        skipLines
        return .each key table (← readStatement measure)
      | none =>
        let start ← if ← atOperator ";" then pure (.block []) else readSimple measure
        expect ";"
        skipLines
        let condition ← if ← atOperator ";" then pure none
          else pure (some (← readExpr measure false 1))
        expect ";"
        skipLines
        let step ← if ← atOperator ")" then pure (.block []) else readSimple measure
        expect ")"
        if ← passed ";" then return .block [start, .loop true condition step (.block [])]
        skipLines
        return .block [start, .loop true condition step (← readStatement measure)]
    | _ =>
      let statement ← readSimple measure
      endStatement
      return statement
termination_by measure

/-- Statements in braces. -/
def readBlock (measure : Nat) : Read Statement :=
  match measure with
  | 0 => refuse
  | measure + 1 => do
    expect "\x7b"
    return .block (← readStatements measure)
termination_by measure

/-- Statements up to the closing brace. -/
def readStatements (measure : Nat) : Read (List Statement) :=
  match measure with
  | 0 => refuse
  | measure + 1 => do
    skipEnds
    if ← passed "\x7d" then return []
    else
      match (← get) with
      | [] => throw ⟨2, "missing \x7d near end of file"⟩
      | _ =>
        let statement ← readStatement measure
        return statement :: (← readStatements measure)
termination_by measure

end

/-- Names with commas between them. -/
def readNames (measure : Nat) : Read (List String) :=
  match measure with
  | 0 => refuse
  | measure + 1 => do
    let name ← expectName
    skipLines
    if ← passed "," then
      skipLines
      return name :: (← readNames measure)
    else return [name]

/-- A function after its keyword. -/
def readFunction (measure : Nat) : Read (String × Function) := do
  let name ← expectName
  expect "("
  let parameters ← if ← atOperator ")" then pure [] else readNames measure
  expect ")"
  skipLines
  return (name, ⟨parameters, ← readBlock measure⟩)

/-- A rule; without an action it prints the record. -/
def readRule (measure : Nat) : Read Rule := do
  match (← peek?) with
  | some (.keyword "BEGIN") => skip; return ⟨.start, ← readBlock measure⟩
  | some (.keyword "END") => skip; return ⟨.finish, ← readBlock measure⟩
  | some (.operator "\x7b") => return ⟨.always, ← readBlock measure⟩
  | _ =>
    let first ← readExpr measure false 1
    let pattern ← if ← passed "," then
        skipLines
        pure (Pattern.range first (← readExpr measure false 1))
      else pure (.condition first)
    let action ← if ← atOperator "\x7b" then readBlock measure
      else pure (.print false [] none)
    return ⟨pattern, action⟩

/-- Rules and functions up to the end. -/
def readProgram (measure : Nat) (p : Program) : Read Program :=
  match measure with
  | 0 => refuse
  | measure + 1 => do
    skipEnds
    match (← get) with
    | [] => return p
    | (.keyword "function", _) :: _ =>
      skip
      let f ← readFunction measure
      readProgram measure { p with functions := p.functions ++ [f] }
    | _ =>
      let r ← readRule measure
      readProgram measure { p with rules := p.rules ++ [r] }

/-- Reads the text of a program. -/
def Program.parse (source : String) : Except Fault Program := do
  let lexemes ← scan 1 false source.toList
  let (p, _) ← (readProgram (20 * lexemes.length + 50) {}).run lexemes
  return p

end Record
end Shell
end DeclarativeBuild
