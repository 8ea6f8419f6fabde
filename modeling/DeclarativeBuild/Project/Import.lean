import DeclarativeBuild.Project.Basic

/-!
# Importing descriptions

A file's sections are read in a fixed order: imports, properties, presets, filesets, targets.  While
a file is read, three properties tell its path, its directory and its name.  What was declared
before a failure stays declared.
-/

namespace DeclarativeBuild

/-- Why a file was not imported: it failed, or files import each other too deeply. -/
inductive ImportFault where
  | failed (failure : Failure)
  | tooDeep (path : Path)
deriving DecidableEq, Repr

/-- A project in the making, and what there is to report about it. -/
structure Loading where
  project : Project
  journal : List LogLine := []

/-- Steps of an import; what they declare before a failure stays. -/
abbrev Import := ExceptT ImportFault (StateM Loading)

namespace Import

def check (r : Except Failure α) : Import α :=
  match r with
  | .ok x => pure x
  | .error failure => throw (.failed failure)

def note (level : LogLevel) (text : String) : Import Unit :=
  modify fun l => { l with journal := l.journal ++ [⟨level, text⟩] }

def project : Import Project := do
  return (← get).project

def update (change : Project → Project) : Import Unit :=
  modify fun l => { l with project := change l.project }

/-- Runs steps and then a change of the project, whether or not the steps fail. -/
def afterwards (steps : Import α) (change : Project → Project) : Import α :=
  ExceptT.mk do
    let result ← ExceptT.run steps
    modify fun l => { l with project := change l.project }
    return result

end Import

open Import

/-- The properties that tell about the file that is read. -/
def filePropertyNames : List String :=
  ["_file.path", "_file.dir", "_file.name"]

def Properties.setFile (p : Properties) (path directory : Path) : Properties :=
  ((p.set "_file.path" path.text).set "_file.dir" directory.text).set "_file.name"
    (path.fileName?.getD "")

/-- Gives the file properties the state they have in `old`. -/
def Properties.restoreFile (old p : Properties) : Properties :=
  filePropertyNames.foldl (fun p name => p.restore name (old.get? name)) p

namespace Project

def declareProperty (e : Element) : Import Unit := do
  let p ← Import.project
  let (result, props) := ((Properties.declareElement "" e).run).run p.props
  update fun p => { p with props }
  check result

def declarePreset (directory : Path) (e : Element) : Import Unit := do
  let p ← Import.project
  let preset ← check (Preset.ofElement p.props directory e)
  let (added, presets) := p.presets.declare preset
  update fun p => { p with presets }
  if !added then
    note .debug ("preset `" ++ preset.name ++ "` already declared, ignoring redefinition")
    note .debug ("preset `" ++ preset.name ++ "` already declared, keeping the first")

def declareFileset (directory : Path) (e : Element) : Import Unit := do
  let p ← Import.project
  let fileset ← check (Fileset.ofElement p.props directory e)
  update (·.putFileset fileset)

def declareTarget (w : World) (directory : Path) (e : Element) : Import Unit := do
  let p ← Import.project
  let scope : Scope :=
    { world := w, props := p.props, filesets := p.filesets, toolchain := p.toolchain,
      base := directory }
  let target ← check (Target.ofElement scope e)
  update (·.putTarget target)

/-- Reads the file that an import element names. -/
def followImport (importer : Path → Import Element) (directory : Path) (e : Element) :
    Import Unit := do
  let p ← Import.project
  let file ← check (e.require "file" >>= p.props.expand)
  discard (importer (directory.join ⟨file⟩))

/-- Reads the sections of a root element, whose imports are read by `importer`. -/
def importSections (w : World) (importer : Path → Import Element) (root : Element)
    (directory : Path) : Import Unit := do
  (root.childrenNamed "import").forM (followImport importer directory)
  (root.childrenNamed "property").forM declareProperty
  (root.childrenNamed "preset").forM (declarePreset directory)
  (root.childrenNamed "fileset").forM (declareFileset directory)
  (root.childrenNamed "target").forM (declareTarget w directory)

/-- The tag of the root element of every description. -/
def rootTag : String := "buildcc"

/-- Imports a file and gives its root element.  Imports may be nested `depth` deep. -/
def importFile (w : World) : Nat → Path → Import Element
  | 0, path => throw (.tooDeep path)
  | depth + 1, path => do
    let path ← check (w.absolute path)
    let root ← check (w.readDocument path)
    if root.tag != rootTag then throw (.failed (.foreignDocument path root.tag))
    note .debug ("importing `" ++ path.text ++ "`")
    let before := (← Import.project).props
    let directory := path.parent?.getD ⟨""⟩
    update fun p => { p with props := p.props.setFile path directory }
    afterwards (importSections w (importFile w depth) root directory) fun p =>
      { p with props := before.restoreFile p.props }
    return root

/-- Imports the main file, whose root names the project and its default target. -/
def importMain (w : World) (depth : Nat) (path : Path) : Import Unit := do
  let root ← importFile w depth path
  update fun p =>
    { p with name := root.attribute? "name", defaultTarget := root.attribute? "default" }

end Project

end DeclarativeBuild
