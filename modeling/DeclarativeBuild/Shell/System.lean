import DeclarativeBuild.Shell.Transfer

/-!
# The system and its files

Utilities that tell about the system and about files, and that make files of some size or mode.
-/

namespace DeclarativeBuild
namespace Shell

/-- What `uname` knows, by the letter that asks for it. -/
def systemNames : List (Char × String) :=
  [('s', "Linux"), ('n', "localhost"), ('r', "6.1.0"), ('v', "#1 SMP"), ('m', "x86_64"),
    ('p', "unknown"), ('i', "unknown"), ('o', "GNU/Linux")]

def systemName (s : State) (args : List String) : State :=
  let w := Words.ofArgs [] args
  let isAsked (c : Char) : Bool :=
    w.has c || (w.has 'a' && c != 'p' && c != 'i') || (w.options.isEmpty && c == 's')
  let shown := (systemNames.filter fun (c, _) => isAsked c).map Prod.snd
  (s.write (" ".intercalate shown ++ "\n")).withStatus 0

/-- The size of what is at a location, its kind, and its mode. -/
def kindOf : Entry → Nat × String × String
  | .directory => (4096, "directory", "755")
  | .file content executable =>
    (content.size, if content.size == 0 then "regular empty file" else "regular file",
      if executable then "755" else "644")
  | .link target => (target.utf8ByteSize, "symbolic link", "777")

/-- A format with what it asks for about a file filled in. -/
def describeBy (file : String) (e : Entry) : List Char → List Char
  | '%' :: c :: rest =>
    let (size, kind, mode) := kindOf e
    let shown := match c with
      | 's' => toString size
      | 'n' => file
      | 'F' => kind
      | 'a' => mode
      | 'U' | 'G' => "root"
      | 'u' | 'g' => "0"
      | 'h' => "1"
      | '%' => "%"
      | _ => "?"
    shown.toList ++ describeBy file e rest
  | c :: rest => c :: describeBy file e rest
  | [] => []

/-- Tells about files in a format. -/
def stat (s : State) (args : List String) : State :=
  let w := Words.ofArgs ['c'] (args.map fun a =>
    if a.startsWith "--format=" then "-c" ++ (a.drop "--format=".length).toString else a)
  needingOperand "stat" w.operands s fun s =>
    overFiles "stat" (fun f => "cannot statx " ++ quotedName f) (fun s file =>
      match entryAt s (w.has 'L') file with
      | .error e => refused e
      | .ok e =>
        let format := ((w.value? 'c').getD "  File: %n").toList
        .ok (s.write (String.ofList (describeBy file e format) ++ "\n"))) s w.operands

/-- A size that a file is to have, which may be counted from the one it has. -/
def newSize? (text : String) (old : Nat) : Option Nat :=
  let (sign, rest) := match text.toList with
    | '+' :: rest => (some '+', rest)
    | '-' :: rest => (some '-', rest)
    | rest => (none, rest)
  let digits := rest.takeWhile Char.isDigit
  match (String.ofList digits).toNat?, multiplier? (rest.drop digits.length) with
  | some n, some m =>
    some (match sign with
      | some '+' => old + n * m
      | some _ => old - n * m
      | none => n * m)
  | _, _ => none

/-- Makes files shorter or longer; what they gain is zeros. -/
def truncate (s : State) (args : List String) : State :=
  let w := Words.ofArgs ['s'] (args.map fun a =>
    if a.startsWith "--size=" then "-s" ++ (a.drop "--size=".length).toString else a)
  match w.value? 's' with
  | none => misused "truncate" "you must specify either '--size' or '--reference'" s
  | some text =>
    if w.operands.isEmpty then misused "truncate" "missing file operand" s
    else
      overFiles "truncate" (fun f => "cannot open " ++ quotedName f ++ " for writing")
        (fun s file =>
          let old : ByteArray := match entryAt s true file with
            | .ok (.file content _) => content
            | _ => ByteArray.empty
          match newSize? text old.size with
          | none => .error "Invalid number"
          | some size =>
            let kept := old.extract 0 size
            let content := kept ++ ⟨Array.replicate (size - kept.size) 0⟩
            ((s.world.disk.write s.world.cwd ⟨file⟩ content false).map s.setDisk).mapError reason) s
        w.operands

/-- The value of a word such as `bs=1`. -/
def assigned? (args : List String) (name : String) : Option String :=
  (args.find? (·.startsWith (name ++ "="))).map fun a => (a.drop (name.length + 1)).toString

/-- Copies blocks of bytes. -/
def copyBlocks (s : State) (args : List String) : State :=
  let number (name : String) : Option Nat := (assigned? args name).bind fun text =>
    newSize? text 0
  let (s, found) := texts "dd" ("failed to open " ++ ·) s ((assigned? args "if").toList)
  match found with
  | [] => s
  | (_, text) :: _ =>
    let size := max ((number "bs").getD 512) 1
    let bytes := text.toUTF8
    let bytes := bytes.extract ((number "skip").getD 0 * size) bytes.size
    let bytes := match number "count" with
      | some n => bytes.extract 0 (n * size)
      | none => bytes
    let records := toString (bytes.size / size) ++ "+" ++
      (if bytes.size % size == 0 then "0" else "1") ++ " records "
    let report := records ++ "in\n" ++ records ++ "out\n" ++ toString bytes.size ++
      " bytes copied, 0 s, Infinity B/s\n"
    let told (s : State) : State :=
      if assigned? args "status" == some "none" then s else s.complain report
    match assigned? args "of" with
    | none => told (s.write ((String.fromUTF8? bytes).getD ""))
    | some file =>
      let old : ByteArray := match entryAt s true file with
        | .ok (.file content _) => content
        | _ => ByteArray.empty
      let start := (number "seek").getD 0 * size
      let keepsRest := (assigned? args "conv").any fun c => c.startsWith "notrunc"
      let rest := if keepsRest then old.extract (start + bytes.size) old.size else ByteArray.empty
      let gap : ByteArray := ⟨Array.replicate (start - old.size) 0⟩
      let content := old.extract 0 start ++ gap ++ bytes ++ rest
      match s.world.disk.write s.world.cwd ⟨file⟩ content false with
      | .ok d => told (s.setDisk d)
      | .error e =>
        (s.complain ("dd: failed to open " ++ quotedName file ++ ": " ++ reason e ++
          "\n")).withStatus 1

/-- A name whose last letters are free to be chosen, with the first choice that is not taken. -/
def freeName? (s : State) (template : String) : Option String :=
  let marks := (template.toList.reverse.takeWhile (· == 'X')).length
  let start := String.ofList (template.toList.take (template.length - marks))
  if marks < 3 then none
  else
    ((List.range 26).map fun i =>
      start ++ String.ofList (List.replicate marks (Char.ofNat (97 + i)))).find? fun name =>
        !(entryAt s false name).isOk

/-- Makes a file or a directory with a name that nothing has. -/
def makeTemporary (s : State) (args : List String) : State :=
  let w := Words.ofArgs ['p'] args
  let place := (s.world.environment.lookup "TMPDIR").getD "/tmp"
  let template := match w.operands with
    | [] => (Path.join ⟨(w.value? 'p').getD place⟩ ⟨"tmp.XXXXXXXXXX"⟩).text
    | name :: _ =>
      match w.value? 'p' with
      | some directory => (Path.join ⟨directory⟩ ⟨name⟩).text
      | none => if w.has 't' then (Path.join ⟨place⟩ ⟨name⟩).text else name
  match freeName? s template with
  | none =>
    (s.complain ("mktemp: too few X's in template " ++ quotedName template ++ "\n")).withStatus 1
  | some name =>
    let made := if w.has 'u' then .ok s
      else if w.has 'd' then makeDirectory s name
      else (writeFile s name "" false).mapError reason
    match made with
    | .ok s => (s.write (name ++ "\n")).withStatus 0
    | .error why =>
      (s.complain ("mktemp: failed to create file via template " ++ quotedName template ++ ": " ++
        why ++ "\n")).withStatus 1

/-- Copies files and sets their modes, or makes directories. -/
def install (s : State) (args : List String) : State :=
  let w := Words.ofArgs ['m', 'o', 'g', 't'] args
  let mode := (w.value? 'm').getD "755"
  if w.has 'd' then overOperands "install" (makeDirectories false) s w.operands
  else
    let t : Transfer := { plainTarget := w.has 'T' }
    let step (target : String) (s : State) (source : String) : State × Option String :=
      let s := match w.has 'D', makeDirectories false s (directoryName target) with
        | true, .ok made => made
        | _, _ => s
      let goal := t.goal s source target
      match t.copy target s source with
      | .error why => (s, some why)
      | .ok s =>
        match changeMode mode s goal with
        | .ok s => (s, none)
        | .error why => (s, some why)
    t.carry "install" step (w.value? 't') s w.operands

/-- The format of a moment, filled in for the start of the count of time. -/
def momentText : List Char → List Char
  | '%' :: c :: rest =>
    let shown := match c with
      | 'Y' => "1970"
      | 'm' | 'd' => "01"
      | 'H' | 'M' | 'S' => "00"
      | 's' => "0"
      | 'F' => "1970-01-01"
      | 'T' => "00:00:00"
      | 'y' => "70"
      | 'j' => "001"
      | 'e' => " 1"
      | 'a' => "Thu"
      | 'A' => "Thursday"
      | 'b' => "Jan"
      | 'B' => "January"
      | 'N' => "000000000"
      | 'Z' => "UTC"
      | 'z' => "+0000"
      | 'n' => "\n"
      | c => String.ofList [c]
    shown.toList ++ momentText rest
  | c :: rest => c :: momentText rest
  | [] => []

/-- Utilities that tell about the system and about files. -/
def systemUtility? (s : State) (name : String) (args : List String) : Option State :=
  let w := Words.ofArgs [] args
  let line (text : String) : Option State := some ((s.write (text ++ "\n")).withStatus 0)
  match name with
  | "uname" => some (systemName s args)
  | "arch" => line "x86_64"
  | "nproc" => line "1"
  | "hostname" => line "localhost"
  | "whoami" => line "root"
  | "groups" => line "root"
  | "id" =>
    line (if w.has 'n' then "root" else if w.has 'u' || w.has 'g' || w.has 'G' then "0"
      else "uid=0(root) gid=0(root) groups=0(root)")
  | "tty" =>
    some ((if w.has 's' then s else s.write "not a tty\n").withStatus 1)
  | "date" =>
    let format := ((args.find? (·.startsWith "+")).map fun a => a.toList.drop 1).getD
      "%a %b %e %T %Z %Y".toList
    line (String.ofList (momentText format))
  | "sync" => some (s.withStatus 0)
  | "chown" | "chgrp" =>
    match w.operands with
    | [] => some (misused name "missing operand" s)
    | [one] => some (misused name ("missing operand after " ++ quotedName one) s)
    | _ :: files =>
      some (overFiles name (fun f => "cannot access " ++ quotedName f) (fun s file =>
        match entryAt s true file with
        | .ok _ => .ok s
        | .error e => refused e) s files)
  | "yes" =>
    let text := (if args.isEmpty then "y" else " ".intercalate args) ++ "\n"
    some ((s.write (String.join (List.replicate 10000 text))).withStatus 0)
  | "stat" => some (stat s args)
  | "truncate" => some (truncate s args)
  | "dd" => some (copyBlocks s args)
  | "mktemp" => some (makeTemporary s args)
  | "install" => some (install s args)
  | "unlink" =>
    some (needingOperand "unlink" w.operands s fun s =>
      overFiles "unlink" (fun f => "cannot unlink " ++ quotedName f) (removeFile {}) s w.operands)
  | "link" =>
    match w.operands with
    | [source, target] =>
      some (overOperands "link" (fun s source =>
        ({ plainTarget := true } : Transfer).link target s source) s [source])
    | _ => some (misused "link" "missing operand" s)
  | _ => none

/-- The command that a utility runs for its words, if it is one that runs commands in some other
way. -/
def wrapped? (utility : String) (args : List String) : Option (List String) :=
  let isOption (a : String) : Bool := a.startsWith "-"
  match utility with
  | "timeout" =>
    let rec skip : List String → List String
      | "-s" :: _ :: rest | "-k" :: _ :: rest => skip rest
      | word :: rest => if isOption word then skip rest else word :: rest
      | [] => []
    some ((skip args).drop 1)
  | "nice" =>
    match args with
    | "-n" :: _ :: rest => some rest
    | args => some (args.dropWhile isOption)
  | "stdbuf" =>
    let rec skipModes : List String → List String
      | "-i" :: _ :: rest | "-o" :: _ :: rest | "-e" :: _ :: rest => skipModes rest
      | word :: rest => if isOption word then skipModes rest else word :: rest
      | [] => []
    some (skipModes args)
  | "nohup" | "setsid" => some (args.dropWhile isOption)
  | _ => none

end Shell
end DeclarativeBuild
