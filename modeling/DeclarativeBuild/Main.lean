import DeclarativeBuild.CommandLine.Run

/-!
# The program

Takes the files that a command line can depend on into a world, runs the command line on it, shows
what it wrote and keeps the files it changed.  Known are the tree below the working directory, the
files in the directories above, the user's settings and the programs on the search path.
-/

namespace DeclarativeBuild

/-- Variables that descriptions, settings and programs are looked up with. -/
def variableNames : List String :=
  ["HOME", "USER", "USERNAME", "PATH"]

def readEnvironment : IO Environment :=
  variableNames.filterMapM fun name => do
    return (← IO.getEnv name).map fun value => (name, value)

/-- A file that may be run is one that names its interpreter. -/
def isScript (content : ByteArray) : Bool :=
  content.toList.take 2 == "#!".toUTF8.toList

/-- Adds what stands at a path, except for directories if `deep` is not set.  What cannot be read
is left out. -/
partial def readInto (deep : Bool) (path : String) (d : Disk) : IO Disk := do
  let loc := Disk.location ⟨path⟩
  try
    let real ← IO.FS.realPath path
    if real.toString != path then return d.insertDeep loc (.link real.toString)
    else if ← real.isDir then
      if !deep then return d
      let entries ← real.readDir
      let d := d.insertDeep loc .directory
      entries.foldlM (fun d e => readInto deep (path ++ "/" ++ e.fileName) d) d
    else
      let content ← IO.FS.readBinFile path
      return d.insertDeep loc (.file content (isScript content))
  catch _ => return d

/-- Adds the files that stand directly in a directory. -/
def readFilesOf (directory : Path) (d : Disk) : IO Disk := do
  let root := if directory.text == "/" then "" else directory.text
  try
    let entries ← (← IO.FS.realPath directory.text).readDir
    entries.foldlM (fun d e => readInto false (root ++ "/" ++ e.fileName) d) d
  catch _ => return d

/-- The content of a program that is known by its name only, which is in no form that can be run. -/
def foreignProgram : ByteArray :=
  "\x7fELF".toUTF8

/-- Adds the names of the programs in a directory. -/
def readProgramsOf (directory : Path) (d : Disk) : IO Disk := do
  try
    let entries ← (← IO.FS.realPath directory.text).readDir
    return entries.foldl (fun d e =>
      let file := directory.join ⟨e.fileName⟩
      let content := if isStandard file then ByteArray.empty else foreignProgram
      d.insertDeep (Disk.location file) (.file content true)) d
  catch _ => return d

def readWorld : IO World := do
  let cwd : Path := ⟨(← IO.currentDir).toString⟩
  let environment ← readEnvironment
  let start : World := { disk := Disk.empty, cwd, environment }
  let programs ← start.searchPath.foldlM (fun d p => readProgramsOf p d) start.disk
  let above ← cwd.parents.foldlM (fun d p => readFilesOf p d) programs
  let settings ← match Settings.userPath? environment with
    | some p => readInto false p.text above
    | none => pure above
  return { start with disk := ← readInto true cwd.text settings }

/-- Carries the changes of a run over to the files themselves. -/
def keepChanges (before after : Disk) : IO Unit := do
  for (loc, content) in before.filesWritten after do
    IO.FS.createDirAll (Disk.pathOf loc.dropLast).text
    IO.FS.writeBinFile (Disk.pathOf loc).text content
  for loc in before.filesRemoved after do
    IO.FS.removeFile (Disk.pathOf loc).text

/-- How deep imports are followed before the process is taken to have run out of stack. -/
def stackDepth : Nat := 1000

/-- The exit code that a shell shows for a process. -/
def CommandLine.Ending.code : CommandLine.Ending → UInt32
  | .exited code => UInt32.ofNat (code % 256).toNat
  | .aborted => 134

/-- Runs the words after the program's own name and gives the exit code. -/
def runWords (words : List String) : IO UInt32 := do
  let world ← readWorld
  let (ending, machine) := CommandLine.run stackDepth words { world }
  IO.print machine.console.output
  IO.eprint machine.console.errors
  keepChanges world.disk machine.world.disk
  return ending.code

end DeclarativeBuild

def main (words : List String) : IO UInt32 :=
  DeclarativeBuild.runWords words
