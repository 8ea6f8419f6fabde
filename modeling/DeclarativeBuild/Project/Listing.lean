import DeclarativeBuild.Project.Basic
import DeclarativeBuild.Text.Quoted

/-!
# The listing of a project

Everything a project holds as text, one item a line.
-/

namespace DeclarativeBuild

def Params.listFlag : Option Bool → String
  | none => "None"
  | some true => "Some(true)"
  | some false => "Some(false)"

def Params.listTexts (texts : List String) : String :=
  "[" ++ ", ".intercalate (texts.map Text.quoted) ++ "]"

/-- Parameters as a record. -/
def Params.listing (p : Params) : String :=
  "CompileParams \x7b debug_symbols: " ++ listFlag p.debugSymbols? ++
    ", for_shlib: " ++ listFlag p.forShlib? ++ ", includes: " ++ listTexts p.includes ++
    ", defines: " ++ listTexts p.defines ++ ", opts: " ++ listTexts p.opts ++ " \x7d"

namespace Project

def targetLines (p : Project) : List String :=
  p.targets.flatMap fun t => ("\t" ++ t.name) :: t.tasks.map fun task => "\t\t" ++ task.display

def presetLine (p : Project) (name : String) : String :=
  "\t" ++ name ++ "\t= " ++ match (p.presets.resolve name).1 with
    | .ok params => params.listing
    | .error failure => "<" ++ failure.message ++ ">"

def filesetLines (w : World) (f : Fileset) : List String :=
  let files := match f.files w with
    | .ok files => files.map fun file => "\t\t" ++ file.text
    | .error failure => ["\t\t<" ++ failure.message ++ ">"]
  ("\t" ++ f.name ++ "\t= [") :: files ++ ["\t]"]

/-- Filesets stand by increasing names, all else in declaration order. -/
def listing (w : World) (p : Project) : String :=
  let filesets := p.filesets.mergeSort fun a b => decide (a.name ≤ b.name)
  let lines :=
    ["name:\t" ++ p.name.getD "(none)", "default:\t" ++ p.defaultTarget.getD "(none)",
      "targets:"] ++
    p.targetLines ++ ["presets:"] ++ p.presets.names.map p.presetLine ++ ["properties:"] ++
    p.props.toList.map (fun (n, v) => "\t" ++ n ++ "\t= " ++ v) ++ ["filesets:"] ++
    filesets.flatMap (filesetLines w)
  String.join (lines.map (· ++ "\n"))

end Project

end DeclarativeBuild
