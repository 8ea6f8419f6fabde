import DeclarativeBuild.Shell.Inputs

/-!
# Copying, moving and linking

What `cp`, `mv` and `ln` do with their sources, and what they say about those they cannot take.
-/

namespace DeclarativeBuild
namespace Shell

/-- How sources go to their targets. -/
structure Transfer where
  deep : Bool := false
  force : Bool := false
  /-- Whether targets that are there stay as they are. -/
  keeps : Bool := false
  /-- Whether what is done is told. -/
  tells : Bool := false
  symbolic : Bool := false
  /-- Whether the target is never a directory to put sources in. -/
  plainTarget : Bool := false
  /-- Whether a link to a directory is not such a directory. -/
  linkIsFile : Bool := false

namespace Transfer

def ofWords (w : Words) : Transfer :=
  { deep := w.has 'r' || w.has 'R' || w.has 'a', force := w.has 'f', keeps := w.has 'n'
    tells := w.has 'v', symbolic := w.has 's', plainTarget := w.has 'T', linkIsFile := w.has 'n' }

/-- Whether a target is a directory to put sources in. -/
def isPlace (t : Transfer) (s : State) (target : String) : Bool :=
  !t.plainTarget && isDirectory s target

/-- The path that a source goes to. -/
def goal (t : Transfer) (s : State) (source target : String) : String :=
  if t.isPlace s target then (Path.join ⟨target⟩ ⟨lastName source⟩).text else target

def tell (t : Transfer) (s : State) (line : String) : State :=
  if t.tells then s.write (line ++ "\n") else s

/-- Whether two paths denote the same file. -/
def areSame (s : State) (a b : String) : Bool :=
  match locate s true a, locate s true b with
  | .ok x, .ok y => x == y && (s.world.disk.lookup x).isSome
  | _, _ => false

/-- The location of a path and of what is above it. -/
def isBelow (s : State) (source goal : String) : Bool :=
  match locate s true source, s.world.disk.slot s.world.cwd ⟨goal⟩ with
  | .ok loc, .ok (some slot) => loc.isPrefixOf slot.directory
  | _, _ => false

def arrow (source goal : String) : String :=
  quotedName source ++ " -> " ++ quotedName goal

/-- Copies the content of a file. -/
def copyContent (s : State) (content : ByteArray) (executable : Bool) (source goal : String) :
    Attempted :=
  let create (e : SystemError) : String :=
    let why := if e == .isADirectory then .notADirectory else e
    "cannot create regular file " ++ quotedName goal ++ ": " ++ reason why
  match entryAt s true goal with
  | .ok (.file _ _) =>
    ((s.world.disk.write s.world.cwd ⟨goal⟩ content false).map s.setDisk).mapError create
  | .ok _ => .error ("cannot overwrite directory " ++ quotedName goal ++ " with non-directory")
  | .error .notFound =>
    if (entryAt s false goal).isOk then
      .error ("not writing through dangling symlink " ++ quotedName goal)
    else (place s goal (.file content executable)).mapError create
  | .error e =>
    .error (if source == goal then create e
      else "failed to access " ++ quotedName goal ++ ": " ++ reason e)

/-- Copies what is in a directory. -/
def copyTree (s : State) (source goal : String) : Attempted :=
  let isThere := isDirectory s goal
  if !isThere && (entryAt s false goal).isOk then
    .error ("cannot overwrite non-directory " ++ quotedName goal ++ " with directory " ++
      quotedName source)
  else
    let cannot (why : String) : String :=
      "cannot create directory " ++ quotedName goal ++ ": " ++ why
    match if isThere then .ok s else makeDirectory s goal with
    | .error why => .error (cannot why)
    | .ok made =>
      match locate s true source, locate made true goal with
      | .ok loc, .ok into =>
        let copies := s.world.disk.entries.filter fun (l, _) => loc.isPrefixOf l && l != loc
        .ok (made.setDisk (copies.foldl (fun d (l, e) =>
          d.insert (into ++ l.drop loc.length) e) made.world.disk))
      | .error e, _ | _, .error e => .error (cannot (reason e))

/-- Copies a file, or a directory with all that is in it if that is asked for. -/
def copy (t : Transfer) (target : String) (s : State) (source : String) : Attempted :=
  let goal := t.goal s source target
  match entryAt s (!t.deep) source with
  | .error e => .error ("cannot stat " ++ quotedName source ++ ": " ++ reason e)
  | .ok .directory =>
    if !t.deep then .error ("-r not specified; omitting directory " ++ quotedName source)
    else copyTree (t.tell s (arrow source goal)) source goal
  | .ok e =>
    if areSame s source goal then
      .error (quotedName source ++ " and " ++ quotedName goal ++ " are the same file")
    else if t.keeps && (entryAt s false goal).isOk then .ok s
    else
      let copied := match e with
        | .file content executable => copyContent s content executable source goal
        | e =>
          if isDirectory s goal then
            .error ("cannot overwrite directory " ++ quotedName goal ++ " with non-directory")
          else (place s goal e).mapError fun e =>
            "cannot create symbolic link " ++ quotedName goal ++ ": " ++ reason e
      copied.map (t.tell · (arrow source goal))

/-- Copies a source, which may not hold its own copy. -/
def copyApart (t : Transfer) (target : String) (s : State) (source : String) :
    State × Option String :=
  let goal := t.goal s source target
  let isInside := t.deep && isDirectory s source && isBelow s source goal
  match t.copy target s source with
  | .error why => (s, some why)
  | .ok after =>
    (after, if isInside then
        some ("cannot copy a directory, " ++ quotedName source ++ ", into itself, " ++
          quotedName goal)
      else none)

def move (t : Transfer) (target : String) (s : State) (source : String) : Attempted :=
  let goal := t.goal s source target
  match entryAt s false source with
  | .error e => .error ("cannot stat " ++ quotedName source ++ ": " ++ reason e)
  | .ok e =>
    let old := (entryAt s false goal).toOption
    if t.keeps && old.isSome then .error ("not replacing " ++ quotedName goal)
    else if e.isDirectory && isBelow s source goal then
      .error ("cannot move " ++ quotedName source ++ " to a subdirectory of itself, " ++
        quotedName goal)
    else if old.isSome && areSame s source goal then
      .error (quotedName source ++ " and " ++ quotedName goal ++ " are the same file")
    else if e.isDirectory && old.any (!·.isDirectory) then
      .error ("cannot overwrite non-directory " ++ quotedName goal ++ " with directory " ++
        quotedName source)
    else if !e.isDirectory && old.any (·.isDirectory) then
      .error ("cannot overwrite directory " ++ quotedName goal ++ " with non-directory")
    else
      match s.world.disk.rename s.world.cwd ⟨source⟩ ⟨goal⟩ with
      | .ok d => .ok (t.tell (s.setDisk d) ("renamed " ++ arrow source goal))
      | .error .directoryNotEmpty =>
        .error ("cannot overwrite " ++ quotedName goal ++ ": " ++ reason .directoryNotEmpty)
      | .error e =>
        .error ("cannot move " ++ quotedName source ++ " to " ++ quotedName goal ++ ": " ++
          reason e)

/-- Makes a link, or a second file where links are not asked for. -/
def link (t : Transfer) (target : String) (s : State) (source : String) : Attempted :=
  let t := if t.linkIsFile && (entryAt s false target).toOption.any fun e => !e.isDirectory then
      { t with plainTarget := true }
    else t
  let goal := t.goal s source target
  let kind := if t.symbolic then "symbolic" else "hard"
  let failed (detail why : String) : String :=
    "failed to create " ++ kind ++ " link " ++ quotedName goal ++ detail ++ ": " ++ why
  let old := (entryAt s false goal).toOption
  let entry : Except String Entry :=
    if t.symbolic then .ok (.link source)
    else
      match entryAt s false source with
      | .error e => .error ("failed to access " ++ quotedName source ++ ": " ++ reason e)
      | .ok .directory => .error (source ++ ": hard link not allowed for directory")
      | .ok e => .ok e
  match entry with
  | .error why => .error why
  | .ok e =>
    if old.isSome && (!t.force || old.any (·.isDirectory)) then .error (failed "" "File exists")
    else
      match place s goal e with
      | .ok s => .ok (t.tell s (quotedName goal ++ (if t.symbolic then " -> " else " => ") ++
          quotedName source))
      | .error e =>
        .error (failed (if t.symbolic then "" else " => " ++ quotedName source) (reason e))

/-- Takes sources to a target, which must be a directory if there are more of them. -/
def carry (t : Transfer) (utility : String)
    (step : String → State → String → State × Option String) (into : Option String) (s : State)
    (operands : List String) : State :=
  let go (target : String) (sources : List String) : State :=
    sources.foldl (fun s source =>
      match step target s source with
      | (s, none) => s
      | (s, some why) => (s.complain (utility ++ ": " ++ why ++ "\n")).withStatus 1)
      (s.withStatus 0)
  match into, operands.reverse with
  | _, [] => misused utility "missing file operand" s
  | some target, _ => go target operands
  | none, [one] => misused utility ("missing destination file operand after " ++ quotedName one) s
  | none, target :: source :: more =>
    if more.isEmpty || t.isPlace s target then go target (source :: more).reverse
    else
      let why := match entryAt s true target with
        | .error e => reason e
        | .ok _ => reason .notADirectory
      let complaint := utility ++ ": target " ++ quotedName target ++ ": " ++ why ++ "\n"
      (s.complain complaint).withStatus 1

end Transfer

/-- The state after a step that may be refused, and the complaint about that. -/
def orComplaint (s : State) (outcome : Attempted) : State × Option String :=
  match outcome with
  | .ok s => (s, none)
  | .error why => (s, some why)

def transferUtility? (s : State) (name : String) (args : List String) : Option State :=
  let w := Words.ofArgs ['t', 'S'] args
  let t := Transfer.ofWords w
  let into := w.value? 't'
  match name with
  | "cp" => some (t.carry "cp" t.copyApart into s w.operands)
  | "mv" =>
    some (t.carry "mv" (fun target s source => orComplaint s (t.move target s source)) into s
      w.operands)
  | "ln" =>
    let into := if w.operands.length == 1 then some (into.getD ".") else into
    some (t.carry "ln" (fun target s source => orComplaint s (t.link target s source)) into s
      w.operands)
  | _ => none

end Shell
end DeclarativeBuild
