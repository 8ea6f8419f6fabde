import DeclarativeBuild.Compiler.Basic
import DeclarativeBuild.Program

/-!
# The toolchain

The compilers that descriptions can choose from, in the order in which they are looked up.
-/

namespace DeclarativeBuild

/-- Where the programs are; what is not set goes by its usual name. -/
structure ProgramSettings where
  clang : Option Path := none
  clangxx : Option Path := none
  gcc : Option Path := none
  gxx : Option Path := none
  dosbox : Option Path := none
  dosboxArgs : List String := []
  wcl : Option String := none
deriving DecidableEq, Inhabited, Repr

/-- Settings that prevail over others where they are set. -/
def ProgramSettings.override (base top : ProgramSettings) : ProgramSettings where
  clang := top.clang.or base.clang
  clangxx := top.clangxx.or base.clangxx
  gcc := top.gcc.or base.gcc
  gxx := top.gxx.or base.gxx
  dosbox := top.dosbox.or base.dosbox
  dosboxArgs := if top.dosboxArgs.isEmpty then base.dosboxArgs else top.dosboxArgs
  wcl := top.wcl.or base.wcl

structure Toolchain where
  compilers : List Compiler := []

namespace Toolchain

def empty : Toolchain := {}

/-- Adds a compiler at the end of the lookup order. -/
def add (t : Toolchain) (c : Compiler) : Toolchain :=
  ⟨t.compilers ++ [c]⟩

/-- The compilers that are always there, of which the last works on `mount`. -/
def builtin (s : ProgramSettings) (mount : Path) : Toolchain :=
  ⟨[.gnu ⟨"clang++", .cxx, .clang, s.clangxx.getD ⟨"clang++"⟩⟩,
    .gnu ⟨"clang", .c, .clang, s.clang.getD ⟨"clang"⟩⟩,
    .gnu ⟨"g++", .cxx, .gcc, s.gxx.getD ⟨"g++"⟩⟩,
    .gnu ⟨"gcc", .c, .gcc, s.gcc.getD ⟨"gcc"⟩⟩,
    .watcom ⟨s.dosbox.getD ⟨"dosbox"⟩, s.dosboxArgs, s.wcl.getD "wcl", mount⟩]⟩

def orUnknown (query : CompilerQuery) : Option Compiler → Except Failure Compiler
  | some c => .ok c
  | none => .error (.unknownCompiler query)

/-- The first compiler of a name or, without a name, of a language. -/
def find (t : Toolchain) (name? tag? : Option String) : Except Failure Compiler :=
  match name?, tag? with
  | some name, _ => orUnknown (.named name) (t.compilers.find? (·.name == name))
  | none, some tag =>
    orUnknown (.forLanguage tag) <| (Language.ofTag? tag).bind fun language =>
      t.compilers.find? (·.language == language)
  | none, none => .error (.unknownCompiler .unspecified)

end Toolchain

/-- Every compiler's name with the file of its program. -/
def Toolchain.availability (t : Toolchain) (w : World) : List (String × Option Path) :=
  t.compilers.map fun c => (c.name, w.findProgram c.program)

end DeclarativeBuild
