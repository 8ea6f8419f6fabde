import DeclarativeBuild.Compiler.Watcom

/-!
# Compilers

The kinds of compilers there are, and what compiling and linking with each of them does.
-/

namespace DeclarativeBuild

inductive Compiler where
  | gnu (driver : GnuDriver)
  | watcom (driver : WatcomDriver)
deriving DecidableEq, Repr

namespace Compiler

/-- The name that descriptions choose the compiler by. -/
def name : Compiler → String
  | gnu d => d.name
  | watcom _ => "watcom"

def language : Compiler → Language
  | gnu d => d.language
  | watcom _ => .c

/-- The program that is launched on the host. -/
def program : Compiler → Path
  | gnu d => d.program
  | watcom d => d.emulator

/-- Whether several objects may be compiled at once.  All runs of the emulator write one file. -/
def runsParallel : Compiler → Bool
  | gnu _ => true
  | watcom _ => false

/-- The object of a source that does not say where it goes. -/
def defaultObject : Compiler → Path → Path
  | gnu _, source => ⟨source.text ++ ".o"⟩
  | watcom _, source => source.withExtension "obj"

def compileActions (c : Compiler) (output source : Path) (p : Params) : List Action :=
  match c with
  | gnu d => [.run (d.objectCommand output source p)]
  | watcom d => d.runLine WatcomDriver.objectOutput output (d.objectLine source p)

def linkActions (c : Compiler) (mode : LinkMode) (output : Path) (objects libraries : List Path)
    (p : Params) : List Action :=
  match c, mode with
  | gnu d, mode => [.run (d.linkCommand mode output objects libraries p)]
  | watcom d, .executable =>
    d.runLine WatcomDriver.executableOutput output (d.executableLine objects libraries p)
  | watcom _, .sharedLibrary => [.fail (.unsupported c.name "create shared libraries")]

end Compiler

end DeclarativeBuild
