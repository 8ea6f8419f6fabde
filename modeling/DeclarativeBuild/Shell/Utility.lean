import DeclarativeBuild.Shell.Difference
import DeclarativeBuild.Shell.Digest
import DeclarativeBuild.Shell.Dump
import DeclarativeBuild.Shell.FileSearch
import DeclarativeBuild.Shell.LineSearch
import DeclarativeBuild.Shell.System
import DeclarativeBuild.Shell.Tables

/-!
# Utilities

The small programs that shell commands are made of, as changes of the shell's state.
-/

namespace DeclarativeBuild
namespace Shell

/-- How much of a text is asked for: lines or bytes, from its start or from its end. -/
structure Amount where
  bytes : Bool := false
  sign : Option Char := none
  number : Nat := 10

def Amount.parse? (bytes : Bool) (text : String) : Option Amount :=
  let (sign, rest) := match text.toList with
    | '-' :: rest => (some '-', rest)
    | '+' :: rest => (some '+', rest)
    | rest => (none, rest)
  let digits := rest.takeWhile Char.isDigit
  match (String.ofList digits).toNat?, multiplier? (rest.drop digits.length) with
  | some n, some m => some ⟨bytes, sign, n * m⟩
  | _, _ => none

/-- A number in front of other words is one of lines. -/
def withPlainCount (isPlus : Bool) (args : List String) : List String :=
  match args with
  | word :: rest =>
    let ds := word.toList.drop 1
    let isCount := !ds.isEmpty && ds.all Char.isDigit
    if isCount && word.startsWith "-" then ("-n" ++ String.ofList ds) :: rest
    else if isCount && isPlus && word.startsWith "+" then ("-n" ++ word) :: rest
    else args
  | [] => []

/-- A utility that shows a part of each of its files, under their names if there are more. -/
def showParts (utility : String) (s : State) (args : List String)
    (part : Amount → List Char → List Char) : State :=
  let w := Words.ofArgs ['n', 'c'] args
  let asked := match w.value? 'c', w.value? 'n' with
    | some text, _ => (true, text)
    | none, some text => (false, text)
    | none, none => (false, "10")
  match Amount.parse? asked.1 asked.2 with
  | none =>
    let kind := if asked.1 then "bytes" else "lines"
    (s.complain (utility ++ ": invalid number of " ++ kind ++ ": " ++ quotedName asked.2 ++
      "\n")).withStatus 1
  | some amount =>
    let name (file : String) := "cannot open " ++ quotedName file ++ " for reading"
    let (s, found) := texts utility name s w.operands
    let shown := (found.zipIdx).map fun ((file, text), i) =>
      let gap := if i == 0 then "" else "\n"
      let name := if file == "-" then "standard input" else file
      let isNamed := w.has 'v' || (1 < w.operands.length && !w.has 'q')
      let header := if isNamed then gap ++ "==> " ++ name ++ " <==\n" else ""
      header ++ String.ofList (part amount text.toList)
    s.write (String.join shown)

def head (s : State) (args : List String) : State :=
  showParts "head" s (withPlainCount false args) fun amount text =>
    let isEnd := amount.sign == some '-'
    if amount.bytes then text.take (if isEnd then text.length - amount.number else amount.number)
    else headLines isEnd amount.number text

def tail (s : State) (args : List String) : State :=
  showParts "tail" s (withPlainCount true args) fun amount text =>
    let isStart := amount.sign == some '+'
    if amount.bytes then
      text.drop (if isStart then amount.number - 1 else text.length - amount.number)
    else tailLines isStart amount.number text

/-- What `wc` counts, in the order of its columns: letters that ask for it, and the number. -/
def counters : List (List Char × (List Char → Nat)) :=
  [(['l'], fun text => text.count '\n'), (['w'], wordCount),
    (['m', 'c'], fun text => (String.ofList text).utf8ByteSize), (['L'], longestLine)]

/-- The counts that are asked for, in columns. -/
def count (s : State) (args : List String) : State :=
  let w := Words.ofArgs [] (args.map fun a => if a == "--lines" then "-l" else a)
  let isAsked (letters : List Char) := letters.any w.has
  let asked := if counters.any fun (letters, _) => isAsked letters then
      counters.filter fun (letters, _) => isAsked letters
    else counters.filter fun (letters, _) => letters != ['L']
  let (s, found) := texts "wc" id s w.operands
  let counts := found.map fun (_, text) => asked.map fun (_, number) => number text.toList
  let totals := counts.foldl (fun sum row =>
    (sum.zip (row.zip asked)).map fun (total, n, letters, _) =>
      if letters == ['L'] then max total n else total + n) (asked.map fun _ => 0)
  let sizes := (found.map fun (_, text) => text.utf8ByteSize).foldl (· + ·) 0
  let single := w.operands.length ≤ 1 && asked.length == 1
  let isPlain := w.operands.all fun f => f != "-"
  let width := if single then 1 else if w.operands.isEmpty || !isPlain then 7
    else (toString sizes).length
  let row (numbers : List Nat) (name : String) :=
    String.ofList (Text.join [' '] (numbers.map (padLeft width))) ++
      (if name == "" then "" else " " ++ name) ++ "\n"
  let rows := (found.zip counts).map fun ((file, _), numbers) =>
    row numbers (if w.operands.isEmpty then "" else file)
  let last := if 1 < w.operands.length then [row totals "total"] else []
  s.write (String.join (rows ++ last))

/-- Edits some texts as one, and says with what status to end. -/
def editTexts (edits : List Editing.Edit) (quiet : Bool) (s : State) (texts : List String) :
    Nat × Editing.Progress :=
  let parts := (texts.filter (· != "")).map fun text => linesOf text.toList
  Editing.edit edits quiet (fun file => (s.world.readText ⟨file⟩).toOption)
    (parts.flatMap Prod.fst) ((parts.getLast?.map Prod.snd).getD true)

/-- Complains about what has kept an editor from going on. -/
def reportEditing (p : Editing.Progress) (s : State) : State :=
  match p.complaint with
  | some why => s.complain ("sed: -e expression #1, char 0: " ++ why ++ "\n")
  | none => s

/-- Keeps the files that a script writes, each of which is new. -/
def keepWritten (edits : List Editing.Edit) (s : State) (lines : List (String × Line)) : State :=
  let named := (edits.flatMap Editing.Edit.files).eraseDups
  named.foldl (fun s file =>
    let own := (lines.filter (·.1 == file)).map Prod.snd
    match writeFile s file (String.ofList (unlines own)) false with
    | .ok s => s
    | .error _ => s.withStatus 4) s

/-- Edits its input or files, which are kept changed if that is asked for. -/
def sed (s : State) (args : List String) : State :=
  let long (a : String) : String := match a with
    | "--quiet" | "--silent" => "-n"
    | "--regexp-extended" => "-E"
    | "--in-place" => "-i"
    | "--separate" => "-s"
    | a => if a.startsWith "--expression=" then "-e" ++ (a.drop "--expression=".length).toString
      else a
  let w := Words.ofArgs ['e', 'f'] (args.map long)
  let given := w.options.filterMap fun (o, value) =>
    if o == 'e' then some value
    else if o == 'f' then (s.world.readText ⟨value⟩).toOption
    else none
  let (scripts, files) := if given.isEmpty then (w.operands.take 1, w.operands.drop 1)
    else (given, w.operands)
  let quiet := w.has 'n' || (scripts.head?.any (·.startsWith "#n"))
  match scripts, Editing.parse (w.has 'E' || w.has 'r') ("\n".intercalate scripts) with
  | [], _ => s.withStatus 1
  | _, .error why => (s.complain ("sed: " ++ why ++ "\n")).withStatus 1
  | _, .ok edits =>
    let complaint (file : String) := "can't read " ++ file
    let (s, found) := texts "sed" complaint s files
    let failed := if s.status == 0 then 0 else 2
    if w.has 'i' then
      (found.foldl (fun s (file, text) =>
        let (code, p) := editTexts edits quiet s [text]
        let s := (reportEditing p (keepWritten edits s p.files)).withStatus (max s.status code)
        match writeFile s file (String.ofList p.text) false with
        | .ok s => s
        | .error _ => s.withStatus 4) (s.withStatus failed))
    else
      let groups := if w.has 's' then found.map fun (_, text) => [text]
        else [found.map Prod.snd]
      let (s, written) := groups.foldl (fun (s, written) group =>
        let (code, p) := editTexts edits quiet s group
        let gap := if written == "" || p.text.isEmpty || written.endsWith "\n" then "" else "\n"
        ((reportEditing p (keepWritten edits s p.files)).withStatus (if code == 0 then s.status else code),
          written ++ gap ++ String.ofList p.text)) (s.withStatus failed, "")
      s.write written

/-- The values of some variables, or all variables. -/
def showEnvironment (s : State) : List String → State
  | [] =>
    let shown := s.world.environment.map fun (n, v) => n ++ "=" ++ v ++ "\n"
    (s.write (String.join shown)).withStatus 0
  | names =>
    let found := names.flatMap fun n => (s.world.environment.filter (·.1 == n)).map Prod.snd
    let known := names.all fun n => (s.world.environment.lookup n).isSome
    (s.write (String.join (found.map (· ++ "\n")))).withStatus (if known then 0 else 1)

/-- Tests its words. -/
def test (s : State) (args : List String) : State :=
  match holds s.world false args with
  | .ok found => s.withStatus (if found then 0 else 1)
  | .error complaint => s.fail 2 complaint

def testInBrackets (s : State) (args : List String) : State :=
  if args.getLast? == some "]" then test s args.dropLast else s.fail 2 "missing ]"

def printf (s : State) (args : List String) : State :=
  let options := args.head? != some "--"
  let args := if options then args else args.drop 1
  match args with
  | f :: words =>
    let isOption := options && 1 < f.length && f.startsWith "-"
    if isOption then s.fail 2 ("Illegal option " ++ (f.take 2).toString)
    else
      let filled := formatAll f.toList { args := words }
      let s := filled.complaints.foldl (fun s why => s.fail 1 why) s
      (s.write (String.ofList filled.written)).withStatus filled.status
  | [] => s.fail 2 "usage: printf format [arg ...]"

/-- Utilities that are part of the shell. -/
def builtinUtility? (s : State) (name : String) (args : List String) : Option State :=
  match name with
  | "echo" => some ((s.write (echo args)).withStatus 0)
  | "printf" => some (printf s args)
  | "pwd" =>
    let shown := if args.contains "-P" then s.world.cwd.text
      else (s.value? "PWD").getD s.world.cwd.text
    some ((s.write (shown ++ "\n")).withStatus 0)
  | "test" => some (test s args)
  | "[" => some (testInBrackets s args)
  | "true" => some (s.withStatus 0)
  | "false" => some (s.withStatus 1)
  | _ => none

/-- Puts lines in order, or says where they are not. -/
def sort (s : State) (args : List String) : State :=
  let w := Words.ofArgs ['k', 't', 'o', 'S', 'T'] args
  let order := SortOrder.ofWords w
  let (s, found) := texts "sort" ("cannot read: " ++ ·) s w.operands
  let lines := (found.flatMap fun (_, text) => (linesOf text.toList).1)
  if s.status != 0 then s.withStatus 2
  else if w.has 'c' || w.has 'C' then
    match order.disorder? 2 lines with
    | none => s.withStatus 0
    | some (n, line) =>
      let place := w.operands.headD "-" ++ ":" ++ toString n ++ ": disorder: "
      let s := if w.has 'C' then s
        else s.complain ("sort: " ++ place ++ String.ofList line ++ "\n")
      s.withStatus 1
  else
    let text := String.ofList (unlines (order.sort lines))
    match w.value? 'o' with
    | none => s.write text
    | some file =>
      match writeFile s file text false with
      | .ok s => s
      | .error e =>
        (s.complain ("sort: open failed: " ++ file ++ ": " ++ reason e ++ "\n")).withStatus 2

/-- Writes the numbers from one to another. -/
def sequence (s : State) (args : List String) : State :=
  let isOption (a : String) := a.startsWith "-" && (scanDecimal a).isNone
  let joined := args.foldr (fun a (rest : List String) =>
    match rest with
    | value :: more => if a == "-s" || a == "-f" then (a ++ value) :: more else a :: rest
    | [] => [a]) []
  let w := Words.ofArgs ['s', 'f'] (joined.takeWhile isOption)
  let operands := (joined.dropWhile isOption).filter (· != "--")
  match sequenceLines w operands with
  | .error why => misused "seq" why s
  | .ok shown =>
    let glue := (w.value? 's').getD "\n"
    (s.write (if shown.isEmpty then "" else glue.intercalate shown ++ "\n")).withStatus 0

/-- The last names of some paths, perhaps without an ending. -/
def baseNames (s : State) (args : List String) : State :=
  let w := Words.ofArgs ['s'] args
  needingOperand "basename" w.operands s fun s =>
    let several := w.has 'a' || w.has 's'
    match several, w.operands with
    | false, _ :: _ :: extra :: _ => misused "basename" ("extra operand " ++ quotedName extra) s
    | _, operands =>
      let ending := if several then (w.value? 's').getD "" else (operands[1]?).getD ""
      let shown := (if several then operands else operands.take 1).map fun n =>
        let base := lastName n
        if ending != "" && base.endsWith ending && base != ending then
          String.ofList (base.toList.take (base.length - ending.length))
        else base
      let close := if w.has 'z' then "\x00" else "\n"
      (s.write (String.join (shown.map (· ++ close)))).withStatus 0

/-- Replaces or deletes characters of the input. -/
def translateInput (s : State) (args : List String) : State :=
  let w := Words.ofArgs [] args
  needingOperand "tr" w.operands s fun s =>
    match w.operands with
    | [one] =>
      if w.has 'd' || w.has 's' then filter "tr" s [] (translate w)
      else misused "tr" ("missing operand after " ++ quotedName one ++
        "\nTwo strings must be given when translating.") s
    | [source, target] =>
      let failed (why : String) := (s.complain ("tr: " ++ why ++ "\n")).withStatus 1
      if w.has 'd' && !w.has 's' then
        misused "tr" ("extra operand " ++ quotedName target ++
          "\nOnly one string may be given when deleting without squeezing repeats.") s
      else if target == "" && !w.has 't' && !w.has 'd' then
        failed "when not truncating set1, string2 must be non-empty"
      else
        match (reversedRange? source.toList).or (reversedRange? target.toList) with
        | some range =>
          failed ("range-endpoints of '" ++ range ++ "' are in reverse collating sequence order")
        | none => filter "tr" s [] (translate w)
    | _ => misused "tr" ("extra operand " ++ quotedName ((w.operands[2]?).getD "")) s

/-- Whether a word says how long to wait. -/
def isInterval (word : String) : Bool :=
  match scanDecimal word with
  | some (n, rest) => !n.negative &&
    (rest.isEmpty || rest == ['s'] || rest == ['m'] || rest == ['h'] || rest == ['d'])
  | none => false

/-- Utilities that write about their operands or their input. -/
def textUtility? (s : State) (name : String) (args : List String) : Option State :=
  match name with
  | "cat" =>
    let w := Words.ofArgs [] args
    let isPlain := w.options.all fun (c, _) => c == 'u'
    some (filter "cat" s w.operands (if isPlain then id else showText w))
  | "head" => some (head s args)
  | "tail" => some (tail s args)
  | "wc" => some (count s args)
  | "sort" => some (sort s args)
  | "uniq" =>
    let w := Words.ofArgs ['f', 's', 'w'] args
    let (s, found) := texts "uniq" id s (w.operands.take 1)
    let text := String.ofList (unlines (uniqueLines w
      (found.flatMap fun (_, text) => (linesOf text.toList).1)))
    some (match w.operands[1]? with
      | none => s.write text
      | some file => overFiles "uniq" id (fun s file =>
          (writeFile s file text false).mapError reason) s [file])
  | "cut" =>
    let w := Words.ofArgs ['c', 'b', 'f', 'd'] args
    some (match cutFault? w with
      | some why => misused "cut" why s
      | none => filterLines "cut" s w.operands (·.filterMap (cutLine w)))
  | "tr" => some (translateInput s args)
  | "rev" => some (filterLines "rev" s (Words.ofArgs [] args).operands (·.map List.reverse))
  | "tac" => some (filterLines "tac" s (Words.ofArgs [] args).operands List.reverse)
  | "nl" =>
    let w := Words.ofArgs ['b'] args
    some (filterLines "nl" s w.operands (numberLines (w.value? 'b' == some "a")))
  | "paste" =>
    let w := Words.ofArgs ['d'] args
    let delimiter := ((w.value? 'd').getD "\t").toList
    let (s, found) := texts "paste" id s w.operands
    let columns := found.map fun (_, text) => (linesOf text.toList).1
    let rows :=
      if w.has 's' then columns.map (Text.join delimiter) else pasteLines delimiter columns
    some (s.write (String.ofList (unlines rows)))
  | "tee" =>
    let w := Words.ofArgs [] args
    let text := s.input
    some (overFiles "tee" id (fun s file => (writeFile s file text (w.has 'a')).mapError reason)
      ((s.withInput "").write text) w.operands)
  | "grep" => some (grep false false s args)
  | "egrep" => some (grep true false s args)
  | "fgrep" => some (grep false true s args)
  | "sed" => some (sed s args)
  | "seq" => some (sequence s args)
  | "expr" =>
    some (match Expression.valueOf args with
      | some v => (s.write (v ++ "\n")).withStatus (if Expression.isNull v then 1 else 0)
      | none => (s.complain "expr: syntax error\n").withStatus 2)
  | "basename" => some (baseNames s args)
  | "dirname" =>
    let names := (Words.ofArgs [] args).operands
    some (needingOperand "dirname" names s fun s =>
      (s.write (String.join (names.map fun n => directoryName n ++ "\n"))).withStatus 0)
  | "comm" => some (comm s args)
  | "join" => some (join s args)
  | "fold" => some (fold s args)
  | "expand" => some (expand s args)
  | "split" => some (split s args)
  | "od" => some (dump s args)
  | "base64" => some (base64 s args)
  | "cksum" => some (checkSum s args)
  | "diff" => some (diff s args)
  | "printenv" => some (showEnvironment s (Words.ofArgs [] args).operands)
  | "echo" => some ((s.write (plainEcho args)).withStatus 0)
  | _ => none

/-- How much of a path options ask to be there. -/
def presenceOf (w : Words) : Presence :=
  if w.has 'm' then .nothing else if w.has 'e' then .all else .allButLast

/-- Utilities that deal with files. -/
def fileUtility? (s : State) (name : String) (args : List String) : Option State :=
  let w := Words.ofArgs [] args
  match name with
  | "ls" => some (list s args)
  | "touch" =>
    let w := Words.ofArgs ['t', 'd', 'r'] args
    if w.operands.isEmpty then some (misused "touch" "missing file operand" s)
    else
      some (overFiles "touch" (fun f => "cannot touch " ++ quotedName f)
        (fun s file => if w.has 'c' then .ok s else touch s file) s w.operands)
  | "mkdir" =>
    let w := Words.ofArgs ['m'] args
    let make := if w.has 'p' then makeDirectories (w.has 'v') else makeOne (w.has 'v')
    some (needingOperand "mkdir" w.operands s fun s => overOperands "mkdir" make s w.operands)
  | "rmdir" =>
    let above (file : String) : List String :=
      if w.has 'p' then (pathsTo file).reverse else [file]
    some (needingOperand "rmdir" w.operands s fun s =>
      overFiles "rmdir" (fun f => "failed to remove " ++ quotedName f)
        (fun s file => (above file).foldlM removeDirectory s) s w.operands)
  | "rm" =>
    let removal : Removal :=
      { deep := w.has 'r' || w.has 'R', force := w.has 'f', emptyToo := w.has 'd' }
    if w.operands.isEmpty && removal.force then some (s.withStatus 0)
    else
      some (needingOperand "rm" w.operands s fun s =>
        overOperands "rm" (remove removal) s w.operands)
  | "chmod" =>
    let isOption (a : String) := ["-R", "-v", "-f", "-c", "--", "--recursive"].contains a
    match args.filter (!isOption ·) with
    | [] => some (misused "chmod" "missing operand" s)
    | [mode] => some (misused "chmod" ("missing operand after " ++ quotedName mode) s)
    | mode :: files =>
      if (executableAfter? mode false).isNone then
        some (misused "chmod" ("invalid mode: " ++ quotedName mode) s)
      else
        let files := if args.contains "-R" || args.contains "--recursive" then
            searchedFiles s files
          else files
        some (overFiles "chmod" (fun f => "cannot access " ++ quotedName f) (changeMode mode) s
          files)
  | "readlink" =>
    let follows := w.has 'f' || w.has 'e' || w.has 'm'
    let target? (file : String) : Option String :=
      if follows then (realPath s (presenceOf w) file).toOption else linkTarget? s file
    let close := if w.has 'n' then "" else "\n"
    some (needingOperand "readlink" w.operands s fun s =>
      w.operands.foldl (fun s file =>
        match target? file with
        | some target => s.write (target ++ close)
        | none => s.withStatus 1) (s.withStatus 0))
  | "realpath" =>
    some (needingOperand "realpath" w.operands s fun s =>
      overFiles "realpath" id (fun s file =>
        ((realPath s (presenceOf w) file).map fun path => s.write (path ++ "\n")).mapError reason)
        s w.operands)
  | "which" =>
    some (w.operands.foldl (fun s program =>
      match s.world.findProgram ⟨program⟩ with
      | some p => s.write (p.text ++ "\n")
      | none => s.withStatus 1) (s.withStatus 0))
  | "cmp" => some (cmp s args)
  | "sleep" =>
    some (needingOperand "sleep" w.operands s fun s =>
      match w.operands.find? (!isInterval ·) with
      | some word => misused "sleep" ("invalid time interval " ++ quotedName word) s
      | none => s.withStatus 0)
  | _ => none

/-- Utilities that are programs of their own. -/
def programUtility? (s : State) (name : String) (args : List String) : Option State :=
  let digest? := (Digest.programs.lookup name).map fun sum => digest name sum s args
  ((textUtility? s name args).or (fileUtility? s name args)).or
    (((transferUtility? s name args).or (systemUtility? s name args)).or
      (digest?.or (builtinUtility? s name args)))

end Shell
end DeclarativeBuild
