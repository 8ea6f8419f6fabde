import DeclarativeBuild.Diagnostic
import DeclarativeBuild.Disk.Basic
import DeclarativeBuild.Wildcard.Pattern

/-!
# Failures

Everything that can go wrong between a description and a finished target, each with its cause.
`Failure.message` is the only place that puts failures into words.
-/

namespace DeclarativeBuild

/-- What is wrong with a description that is well-formed markup. -/
inductive DescriptionFault where
  | missingAttribute (tag name : String)
  | badFlag (tag name value : String)
  | unexpectedElement (tag parent : String)
  | badWildcard (pattern : String) (fault : Wildcard.Fault)
  | deprecatedAttribute (old replacement : String)
  | outputNeedsOneSource (found : Nat)
  | objectWithoutSource
  | unknownTask (tag : String)
  | noDefaultTarget
deriving DecidableEq, Repr

def DescriptionFault.message : DescriptionFault → String
  | .missingAttribute tag name =>
    "`<" ++ tag ++ ">` element is missing the `" ++ name ++ "` attribute"
  | .badFlag tag name value =>
    "`" ++ name ++ "` on `<" ++ tag ++ ">` must be `true` or `false`, found `" ++ value ++ "`"
  | .unexpectedElement tag parent => "unexpected `<" ++ tag ++ ">` inside `<" ++ parent ++ ">`"
  | .badWildcard pattern fault => "invalid wildcard `" ++ pattern ++ "`: " ++ fault.message
  | .deprecatedAttribute old replacement =>
    "`" ++ old ++ "` attribute is deprecated. Switch to `" ++ replacement ++ "`."
  | .outputNeedsOneSource found =>
    "`output` on `<object>` needs exactly one source, found " ++ toString found
  | .objectWithoutSource => "`<object>` needs a `src`, `src-set` or `file` attribute"
  | .unknownTask tag => "unknown task `<" ++ tag ++ ">`"
  | .noDefaultTarget => "no target given and the description has no `default` attribute"

/-- What a compiler was looked up by. -/
inductive CompilerQuery where
  | named (name : String)
  | forLanguage (tag : String)
  | unspecified
deriving DecidableEq, Repr

def CompilerQuery.describe : CompilerQuery → String
  | .named name => "name `" ++ name ++ "`"
  | .forLanguage tag => "language `" ++ tag ++ "`"
  | .unspecified => "a task without `compiler` or `lang`"

/-- Why a path has no name on the mounted drive. -/
inductive PathFault where
  | twoDots (segment : String)
  | outsideMount (mount : Path)
deriving DecidableEq, Repr

def PathFault.message : PathFault → String
  | .twoDots segment => "segment `" ++ segment ++ "` contains more than one `.`"
  | .outsideMount mount => "not reachable from the mounted directory `" ++ mount.text ++ "`"

/-- What was being done when the system refused. -/
inductive Attempt where
  | read (path : Path)
  | resolve (path : Path)
  | move (source target : Path)
  | expand (pattern : String) (directory : Path)
deriving DecidableEq, Repr

def Attempt.describe : Attempt → String
  | .read path => "failed to read `" ++ path.text ++ "`"
  | .resolve path => "failed to resolve `" ++ path.text ++ "`"
  | .move source target => "failed to move `" ++ source.text ++ "` to `" ++ target.text ++ "`"
  | .expand pattern directory =>
    "failed to expand wildcard `" ++ pattern ++ "` at `" ++ directory.text ++ "`"

inductive Failure where
  | undefinedProperty (name : String)
  | unknownPreset (name : String)
  | presetCycle (chain : List String)
  | unknownCompiler (query : CompilerQuery)
  | unknownTarget (name : String) (available : List String)
  | unknownFileset (name : String)
  | badDescription (fault : DescriptionFault)
  | foreignDocument (path : Path) (tag : String)
  | badMarkup (path : Path) (detail : String)
  | incompatiblePath (path : String) (fault : PathFault)
  | unsupported (compiler operation : String)
  | commandFailed (command : String) (code : Int)
  | missingOutput (path : Path)
  | notLaunched (program : Path) (cause : SystemError)
  | outputCollision (path : Path)
  | system (attempt : Attempt) (cause : SystemError)
deriving DecidableEq, Repr

namespace Failure

def missingAttribute (tag name : String) : Failure :=
  badDescription (.missingAttribute tag name)

def message : Failure → String
  | undefinedProperty name => "undefined property `" ++ name ++ "`"
  | unknownPreset name => "no preset named `" ++ name ++ "`"
  | presetCycle chain => "preset inheritance cycle: " ++ " -> ".intercalate chain
  | unknownCompiler query => "no compiler found for " ++ query.describe
  | unknownTarget name _ => "no target named `" ++ name ++ "`"
  | unknownFileset name => "no fileset named `" ++ name ++ "`"
  | badDescription fault => fault.message
  | foreignDocument path tag =>
    "file `" ++ path.text ++ "` is not a buildcc file (root tag is `" ++ tag ++ "`)"
  | badMarkup path detail => "failed to parse `" ++ path.text ++ "`: " ++ detail
  | incompatiblePath path fault =>
    "path `" ++ path ++ "` is incompatible with the legacy toolchain: " ++ fault.message
  | unsupported compiler operation => "the `" ++ compiler ++ "` compiler cannot " ++ operation
  | commandFailed command code =>
    "the following command exited with code " ++ toString code ++ ":\n\n" ++ command
  | missingOutput path => "expected output `" ++ path.text ++ "` was not produced"
  | notLaunched program _ => "failed to launch `" ++ program.text ++ "`"
  | outputCollision path =>
    "more than one object in this step writes to `" ++ path.text ++ "`"
  | system attempt _ => attempt.describe

/-- A stable name for the kind of failure. -/
def code : Failure → String
  | undefinedProperty _ => "buildcc::property::undefined"
  | unknownPreset _ => "buildcc::preset::unknown"
  | presetCycle _ => "buildcc::preset::cycle"
  | unknownCompiler _ => "buildcc::compiler::unknown"
  | unknownTarget _ _ => "buildcc::target::unknown"
  | unknownFileset _ => "buildcc::fileset::unknown"
  | badDescription _ => "buildcc::parse"
  | foreignDocument _ _ => "buildcc::parse::root"
  | badMarkup _ _ => "buildcc::parse::xml"
  | incompatiblePath _ _ => "buildcc::platform::path"
  | unsupported _ _ => "buildcc::platform::unsupported"
  | commandFailed _ _ => "buildcc::exec::failed"
  | missingOutput _ => "buildcc::exec::missing_output"
  | notLaunched _ _ => "buildcc::exec::spawn"
  | outputCollision _ => "buildcc::task::collision"
  | system _ _ => "buildcc::io"

/-- Whether the failure came from a command and not from the description. -/
def isProcessFailure : Failure → Bool
  | commandFailed _ _ | missingOutput _ | notLaunched _ _ => true
  | _ => false

/-- What the user is shown beside the message. -/
def diagnostic (f : Failure) : Diagnostic :=
  let plain : Diagnostic := { severity := .error, message := f.message }
  match f with
  | unknownTarget _ available =>
    let listed := if available.isEmpty then "(none)" else ", ".intercalate available
    { plain with
      context := ["available targets: " ++ listed]
      suggestions := ["help: Run `buildcc targets` to see available targets"] }
  | unknownPreset _ | presetCycle _ =>
    { plain with
      suggestions := ["help: Run `buildcc dump` to see the declared presets and their parents"] }
  | unknownCompiler _ =>
    { plain with
      suggestions := ["help: Known compilers are clang, clang++, gcc, g++ and watcom; " ++
        "languages are c and cpp"] }
  | undefinedProperty name =>
    { plain with
      suggestions := ["Declare `" ++ name ++ "` in the description or pass `-p " ++ name ++
        "=<value>`"] }
  | commandFailed _ _ | missingOutput _ =>
    { plain with suggestions := ["help: Run `buildcc -v build` to see every command"] }
  | notLaunched _ cause | system _ cause => { plain with context := [cause.message] }
  | _ => plain

end Failure

end DeclarativeBuild
