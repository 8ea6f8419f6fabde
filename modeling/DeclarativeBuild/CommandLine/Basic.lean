import DeclarativeBuild.Path

/-!
# Command lines

What a user can ask for: one command, with options that hold for all commands.
-/

namespace DeclarativeBuild
namespace CommandLine

/-- How a build is carried out. -/
inductive BuildMode where
  | run
  /-- The steps are shown as command lines. -/
  | showSteps
  /-- The steps are shown as a document. -/
  | showPlan
deriving DecidableEq, Repr

inductive Command where
  | build (target? : Option String) (mode : BuildMode) (jobs? : Option Nat)
  | targets
  | dump
  | objectTags (directory : Path)
deriving DecidableEq, Repr

/-- The description that is read if none is named. -/
def defaultFile : Path := ⟨"build.xml"⟩

/-- Options that may stand before or after the command's name. -/
structure Options where
  file? : Option Path := none
  /-- How often more output was asked for. -/
  verbose : Nat := 0
  quiet : Bool := false
  /-- Names with values, in the order in which they were given. -/
  properties : List (String × String) := []
  /-- Whether the descriptions in the directories above are left out. -/
  noConfig : Bool := false
deriving DecidableEq, Repr

/-- Options given before a command's name under those given after it. -/
def Options.override (before after : Options) : Options where
  file? := after.file?.or before.file?
  verbose := if after.verbose = 0 then before.verbose else after.verbose
  quiet := before.quiet || after.quiet
  properties := if after.properties.isEmpty then before.properties else after.properties
  noConfig := before.noConfig || after.noConfig

structure Request where
  options : Options
  command : Command
deriving DecidableEq, Repr

/-- What a command line comes to. -/
inductive Reading where
  | request (r : Request)
  | version
  | misuse
deriving DecidableEq, Repr

end CommandLine
end DeclarativeBuild
