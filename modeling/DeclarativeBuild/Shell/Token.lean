import DeclarativeBuild.Shell.Command
import DeclarativeBuild.Text.Pieces

/-!
# Shell tokens

Words with their quotes taken away, and the operators between them.  A word may hold commands whose
output it stands for, so words and token lists are read together; each step leaves less to read.
-/

namespace DeclarativeBuild
namespace Shell

def isBlankChar (c : Char) : Bool :=
  c == ' ' || c == '\t'

/-- Characters that end a word unless they are quoted. -/
def isMeta (c : Char) : Bool :=
  isBlankChar c || ['\n', ';', '&', '|', '<', '>', '(', ')'].contains c

def isNameStart (c : Char) : Bool :=
  c.isAlpha || c == '_'

def isNameChar (c : Char) : Bool :=
  c.isAlphanum || c == '_'

def isName (s : String) : Bool :=
  match s.toList with
  | c :: rest => isNameStart c && rest.all isNameChar
  | [] => false

def isSpecialParameter (c : Char) : Bool :=
  c.isDigit || ['@', '*', '#', '?', '$', '!', '-'].contains c

/-- A parameter's name at the front; outside braces a number has one digit. -/
def scanName (braces : Bool) (cs : List Char) : Option (String × List Char) :=
  match cs with
  | c :: rest =>
    if isNameStart c then
      let name := cs.takeWhile isNameChar
      some (String.ofList name, cs.drop name.length)
    else if braces && c.isDigit then
      let name := cs.takeWhile Char.isDigit
      some (String.ofList name, cs.drop name.length)
    else if isSpecialParameter c then some (String.ofList [c], rest)
    else none
  | [] => none

/-- How a parameter in braces goes on after its name. -/
inductive BraceForm where
  | plain
  | size
  | altered (how : Alteration) (emptyCounts : Bool)
  | unknown

/-- The form that an operator asks for.  A character that is no operator is passed over. -/
def scanForm : List Char → BraceForm × List Char
  | '\x7d' :: rest => (.plain, rest)
  | '%' :: '%' :: rest => (.altered (.trimmed false true) false, rest)
  | '%' :: rest => (.altered (.trimmed false false) false, rest)
  | '#' :: '#' :: rest => (.altered (.trimmed true true) false, rest)
  | '#' :: rest => (.altered (.trimmed true false) false, rest)
  | cs =>
    let (emptyCounts, cs) := match cs with
      | ':' :: rest => (true, rest)
      | cs => (false, cs)
    match cs with
    | '-' :: rest => (.altered .fallback emptyCounts, rest)
    | '=' :: rest => (.altered .assigned emptyCounts, rest)
    | '?' :: rest => (.altered .required emptyCounts, rest)
    | '+' :: rest => (.altered .replaced emptyCounts, rest)
    | _ :: rest => (.unknown, rest)
    | [] => (.unknown, [])

/-- A parameter in braces after the opening one, up to its operand or past the closing one. -/
def scanBraceHead (cs : List Char) : String × BraceForm × List Char :=
  let whole : String × BraceForm × List Char := match scanName true cs with
    | some (name, rest) => (name, scanForm rest)
    | none => ("", .unknown, if cs.head? == some '\x7d' then cs else cs.drop 1)
  match cs with
  | '#' :: rest =>
    match scanName true rest with
    | some (name, '\x7d' :: after) => (name, .size, after)
    | some (name, after) => if name.toList.all isNameChar then (name, .unknown, after) else whole
    | none => whole
  | _ => whole

/-- Adds a character to a word whose pieces stand last to first. -/
def pushChar (quoted : Bool) (c : Char) : Word → Word
  | .text t q :: rest =>
    if q = quoted then .text (t.push c) q :: rest
    else .text (String.ofList [c]) quoted :: .text t q :: rest
  | w => .text (String.ofList [c]) quoted :: w

/-- What surrounds the characters of a word. -/
inductive Context where
  | bare
  | quotes
  | braces (quoted inDocument : Bool)
  | document
  | sum (depth : Nat)

namespace Context

/-- Whether characters stand for themselves here, dollar signs and backquotes apart. -/
def isQuoted : Context → Bool
  | bare => false
  | braces quoted _ => quoted
  | _ => true

def isDocument : Context → Bool
  | document => true
  | braces _ inDocument => inDocument
  | _ => false

/-- Whether a backslash takes away the meaning of a character. -/
def escapes (ctx : Context) (c : Char) : Bool :=
  !ctx.isQuoted || ['$', '\x60', '\\'].contains c || match ctx with
    | quotes => c == '"'
    | braces _ _ => c == '"' || c == '\x7d'
    | _ => false

/-- What is wrong with input that ends here, if anything is. -/
def fault? : Context → Option FaultKind
  | bare | document => none
  | quotes => some .openQuote
  | braces quoted inDocument => some (if quoted && !inDocument then .openQuote else .openBrace)
  | sum _ => some .openSum

end Context

/-- The text between backquotes and what follows; a backslash keeps its meaning except before some
characters. -/
def scanBackquoted (quoted : Bool) : List Char → Option (List Char × List Char)
  | [] => none
  | '\x60' :: rest => some ([], rest)
  | '\\' :: c :: rest =>
    let kept := if ['$', '\x60', '\\'].contains c || (quoted && c == '"') then [c] else ['\\', c]
    (scanBackquoted quoted rest).map fun (text, after) => (kept ++ text, after)
  | c :: rest => (scanBackquoted quoted rest).map fun (text, after) => (c :: text, after)

/-- A document that a line has asked for: its last line, whether tabs in front of lines go, and
whether its text stands as it is. -/
structure Awaited where
  delimiter : List Char
  stripsTabs : Bool
  isPlain : Bool

/-- The text of a document and what follows its last line. -/
def takeDocument (doc : Awaited) (cs : List Char) : List Char × List Char :=
  match Text.cutFirst '\n' cs with
  | none =>
    let line := if doc.stripsTabs then cs.dropWhile (· == '\t') else cs
    if line = doc.delimiter then ([], []) else (line, [])
  | some (written, rest) =>
    let line := if doc.stripsTabs then written.dropWhile (· == '\t') else written
    if line = doc.delimiter then ([], rest)
    else
      if rest.length < cs.length then
        let (text, after) := takeDocument doc rest
        (line ++ '\n' :: text, after)
      else (line, rest)
termination_by cs.length

/-- Operators between commands, longer ones before those they start with. -/
def operators : List String :=
  ["&&", "||", ";;", ";", "&", "|", "(", ")"]

/-- Operators that redirect, likewise. -/
def redirectOperators : List String :=
  ["<<-", "<<", "<&", "<>", "<", ">>", ">&", ">|", ">"]

def scanOperator (among : List String) (cs : List Char) : Option (String × List Char) :=
  (among.find? fun o => o.toList.isPrefixOf cs).map fun o => (o, cs.drop o.length)

/-- A redirection's descriptor, which has one digit if it is given, and its operator. -/
def scanRedirect (cs : List Char) : Option (Nat × String × List Char) :=
  let (digit, cs) := match cs with
    | c :: rest => if c.isDigit then (some (c.toNat - '0'.toNat), rest) else (none, cs)
    | [] => (none, cs)
  (scanOperator redirectOperators cs).map fun (o, after) =>
    (digit.getD (if o.startsWith "<" then 0 else 1), o, after)

/-- The text of a word that is no more than unquoted characters, such as a keyword. -/
def Token.plain? : Token → Option String
  | .word [.text t false] _ => some t
  | _ => none

def Token.isOperator (text : String) : Token → Bool
  | .operator t _ => t == text
  | _ => false

/-- Whether a word has a part that could not be read. -/
def isBroken (w : Word) : Bool :=
  w.any fun
    | .broken _ => true
    | _ => false

/-- The characters of a word that are written in it, and whether any of them is quoted. -/
def writtenText (w : Word) : List Char × Bool :=
  (w.flatMap fun
    | .text t _ => t.toList
    | _ => [],
   w.any fun
    | .text _ quoted => quoted
    | _ => false)

/-- Words that a command follows. -/
def openingKeywords : List String :=
  ["if", "then", "elif", "else", "while", "until", "do", "\x7b", "!"]

/-- Where a reader of tokens stands.  `openers` has a mark for each parenthesis that is open and one
that differs for each `case`, whose patterns end with a parenthesis of their own. -/
structure Reading where
  /-- Whether a closing parenthesis without a partner ends the reading. -/
  nested : Bool
  line : Nat
  openers : List Bool := []
  /-- Whether a command may start here. -/
  fresh : Bool := true
  awaited : List Awaited := []

namespace Reading

/-- The reader after an operator. -/
def pastOperator (r : Reading) (o : String) : Reading :=
  let openers := if o == "(" then true :: r.openers
    else if o == ")" && r.openers.head? == some true then r.openers.drop 1
    else r.openers
  { r with openers, fresh := true }

/-- The reader after a word. -/
def pastWord (r : Reading) (t : Token) : Reading :=
  match r.fresh, t.plain? with
  | true, some "case" => { r with openers := false :: r.openers, fresh := false }
  | true, some "esac" =>
    { r with openers := if r.openers.head? == some false then r.openers.drop 1 else r.openers
             fresh := false }
  | true, some word => { r with fresh := openingKeywords.contains word }
  | _, some "in" => { r with fresh := r.openers.head? == some false }
  | _, _ => { r with fresh := false }

end Reading

/-- Puts the text of each document after the redirection that asks for it. -/
def placeDocuments : List Word → List Token → List Token
  | _, [] => []
  | docs, .document _ :: rest => placeDocuments docs rest
  | doc :: docs, .redirect n "<<" line :: rest =>
    .redirect n "<<" line :: .word doc line :: placeDocuments docs rest
  | docs, t :: rest => t :: placeDocuments docs rest

def withDocuments (ts : List Token) : List Token :=
  let docs := ts.filterMap fun
    | .document w => some w
    | _ => none
  placeDocuments docs ts

/-- How many lines end in what was read between two points. -/
def linesBetween (before after : List Char) : Nat :=
  (before.take (before.length - after.length)).count '\n'

/-- A word that ends in input that could not be read. -/
def breakOff (kind : FaultKind) (line : Nat) (unread : List Char) (word : Word) : Word :=
  .broken ⟨kind, line + unread.count '\n'⟩ :: word

mutual

/-- The rest of a word; the pieces stand last to first.  Nothing is left to read after a fault. -/
def scan (ctx : Context) (line : Nat) (word : Word) (cs : List Char) : Word × List Char :=
  match cs with
  | [] =>
    match ctx.fault? with
    | none => (word, [])
    | some kind => (breakOff kind line [] word, [])
  | '\\' :: [] => scan ctx line (pushChar true '\\' word) []
  | '\\' :: '\n' :: rest => scan ctx (line + 1) word rest
  | '\\' :: c :: rest =>
    let word := if ctx.escapes c then word else pushChar true '\\' word
    scan ctx line (pushChar true c word) rest
  | '\'' :: rest =>
    if ctx.isQuoted then scan ctx line (pushChar true '\'' word) rest
    else
      match Text.cutFirst '\'' rest with
      | none => (breakOff .openQuote line rest word, [])
      | some (text, after) =>
        if after.length ≤ rest.length then
          scan ctx (line + text.count '\n') (.text (String.ofList text) true :: word) after
        else (word, [])
  | '"' :: rest =>
    match ctx with
    | .quotes => (word, rest)
    | .document | .sum _ => scan ctx line (pushChar true '"' word) rest
    | .bare | .braces _ _ =>
      let (word, after) := scan .quotes line (.text "" true :: word) rest
      if after.length ≤ rest.length then scan ctx (line + linesBetween rest after) word after
      else (word, [])
  | '$' :: '(' :: '(' :: rest =>
    let (inner, after) := scan (.sum 0) line [] rest
    if after.length ≤ rest.length then
      scan ctx (line + linesBetween rest after) (.sum inner.reverse ctx.isQuoted :: word) after
    else (word, [])
  | '$' :: '(' :: rest =>
    let (ts, after) := tokensFrom { nested := true, line } rest
    if after.length ≤ rest.length then
      scan ctx (line + linesBetween rest after)
        (.output (withDocuments ts) false ctx.isQuoted :: word) after
    else (word, [])
  | '$' :: '\x7b' :: rest =>
    let (name, form, operand) := scanBraceHead rest
    if operand.length ≤ rest.length then
      match form with
      | .plain => scan ctx line (.parameter name ctx.isQuoted :: word) operand
      | .size => scan ctx line (.size name ctx.isQuoted :: word) operand
      | .unknown =>
        let (inner, after) := scan (.braces ctx.isQuoted ctx.isDocument) line [] operand
        if after.length ≤ rest.length then
          scan ctx (line + linesBetween operand after) (.unknown inner.reverse :: word) after
        else (word, [])
      | .altered how emptyCounts =>
        let quoted := ctx.isQuoted && !(how matches .trimmed _ _)
        let (inner, after) := scan (.braces quoted ctx.isDocument) line [] operand
        if after.length ≤ rest.length then
          scan ctx (line + linesBetween operand after)
            (.altered name how emptyCounts inner.reverse ctx.isQuoted :: word) after
        else (word, [])
    else (word, [])
  | '$' :: rest =>
    match scanName false rest with
    | none => scan ctx line (pushChar ctx.isQuoted '$' word) rest
    | some (name, after) =>
      if after.length ≤ rest.length then
        scan ctx line (.parameter name ctx.isQuoted :: word) after
      else (word, [])
  | '\x60' :: rest =>
    match scanBackquoted ctx.isQuoted rest with
    | none => (breakOff .openBackquote line rest word, [])
    | some (text, after) =>
      if text.length ≤ rest.length ∧ after.length ≤ rest.length then
        let (ts, _) := tokensFrom { nested := false, line := 1 } text
        scan ctx (line + linesBetween rest after)
          (.output (withDocuments ts) true ctx.isQuoted :: word) after
      else (word, [])
  | c :: rest =>
    match ctx with
    | .bare => if isMeta c then (word, cs) else scan ctx line (pushChar false c word) rest
    | .braces quoted _ =>
      if c == '\x7d' then (word, rest)
      else scan ctx (if c == '\n' then line + 1 else line) (pushChar quoted c word) rest
    | .sum depth =>
      if c == '(' then scan (.sum (depth + 1)) line (pushChar true c word) rest
      else if c == ')' && depth == 0 && rest.head? == some ')' then (word, rest.drop 1)
      else if c == ')' then scan (.sum (depth - 1)) line (pushChar true c word) rest
      else scan ctx (if c == '\n' then line + 1 else line) (pushChar true c word) rest
    | _ => scan ctx (if c == '\n' then line + 1 else line) (pushChar true c word) rest
termination_by 2 * cs.length
decreasing_by all_goals grind

/-- The tokens up to the end, or up to a closing parenthesis and with it if the reading is nested,
and what follows them. -/
def tokensFrom (r : Reading) (cs : List Char) : List Token × List Char :=
  match cs with
  | [] => (r.awaited.map (fun _ => .document []) ++ [.stop r.line], [])
  | '\n' :: rest =>
    match r.awaited with
    | [] =>
      let (ts, after) := tokensFrom { r with line := r.line + 1, fresh := true } rest
      (.newline (r.line + 1) :: ts, after)
    | doc :: docs =>
      let (text, below) := takeDocument doc rest
      if text.length ≤ rest.length ∧ below.length < rest.length then
        let body : Word := if doc.isPlain then [.text (String.ofList text) true]
          else (scan .document (r.line + 1) [] text).1.reverse
        let line := r.line + linesBetween rest below
        let (ts, after) := tokensFrom { r with line, awaited := docs } ('\n' :: below)
        (.document body :: ts, after)
      else
        (.document [.text (String.ofList text) true] :: docs.map (fun _ => .document []) ++
          [.newline (r.line + 1), .stop (r.line + 1)], [])
  | '\\' :: '\n' :: rest => tokensFrom { r with line := r.line + 1 } rest
  | '#' :: rest => tokensFrom r (rest.dropWhile (· != '\n'))
  | c :: rest =>
    if isBlankChar c then tokensFrom r rest
    else
      match scanRedirect (c :: rest) with
      | some (n, o, after) =>
        if after.length ≤ rest.length then
          let start := if o.startsWith "<<" then after.dropWhile isBlankChar else []
          let (mark, next) := if o.startsWith "<<" then scan .bare r.line [] start else ([], [])
          if mark.isEmpty || isBroken mark then
            let (ts, below) := tokensFrom { r with fresh := false } after
            (.redirect n (if o.startsWith "<<" then "<" else o) r.line :: ts, below)
          else if next.length ≤ rest.length then
            let (delimiter, isPlain) := writtenText mark.reverse
            let doc : Awaited := ⟨delimiter, o == "<<-", isPlain⟩
            let (ts, below) := tokensFrom
              { r with awaited := r.awaited ++ [doc], fresh := false } next
            (.redirect n "<<" r.line :: ts, below)
          else ([.stop r.line], [])
        else ([.stop r.line], [])
      | none =>
        match scanOperator operators (c :: rest) with
        | some (o, after) =>
          if r.nested && o == ")" && r.openers.isEmpty then
            (r.awaited.map (fun _ => .document []) ++ [.operator o r.line], after)
          else if after.length ≤ rest.length then
            let (ts, below) := tokensFrom (r.pastOperator o) after
            (.operator o r.line :: ts, below)
          else ([.stop r.line], [])
        | none =>
          let (word, after) := scan .bare r.line [] (c :: rest)
          if after.length ≤ rest.length then
            let line := r.line + linesBetween (c :: rest) after
            let t := Token.word word.reverse line
            let (ts, below) := tokensFrom { r.pastWord t with line } after
            (t :: ts, below)
          else ([.stop r.line], [])
termination_by 2 * cs.length + 1
decreasing_by all_goals grind [List.Sublist.length_le, List.dropWhile_sublist]

end

/-- The tokens of a line or script. -/
def tokens (source : String) : List Token :=
  withDocuments (tokensFrom { nested := false, line := 1 } source.toList).1

end Shell
end DeclarativeBuild
