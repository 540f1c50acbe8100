import BindingSuite.Compiler.External
import BindingSuite.Compiler.Reference

/-! # Choosing a compiler

`CompilerChoice.ofName` finds a compiler by its name; `CompilerChoice.compiler` makes it. -/

namespace BindingSuite

/-- The compilers that can be chosen. -/
inductive CompilerChoice where
  /-- The reference compiler. -/
  | reference
  /-- The external compiler with an executable. -/
  | external (executable : String)
  deriving DecidableEq

/-- A name that no compiler has. -/
structure UnknownCompiler where
  /-- The name given. -/
  name : String
  deriving DecidableEq

namespace CompilerChoice

/-- The names of the compilers. -/
def names : List String := ["reference", "naga"]

/-- The executable of the external compiler where no other is given. -/
def defaultExecutable : String := "naga"

/-- The executable that a path gives, of which an empty one gives none. -/
def executableOf (path : Option String) : String :=
  match path with
  | some path => if path = "" then defaultExecutable else path
  | none => defaultExecutable

/-- The compiler of a given name. -/
def ofName (name : String) (path : Option String) :
    Except UnknownCompiler CompilerChoice :=
  if name = "reference" then return reference
  else if name = "naga" then return external (executableOf path)
  else throw ⟨name⟩

/-- The name of a compiler. -/
def name : CompilerChoice → String
  | reference => "reference"
  | external _ => "naga"

/-- The chosen compiler, with the tools of a toolbox. -/
def compiler {m : Type → Type} [Monad m] (choice : CompilerChoice) (toolbox : Toolbox) :
    Compiler m :=
  match choice with
  | reference => .reference
  | external executable => .external toolbox executable

/-- Whether a compiler can be run with the tools of a toolbox. -/
def isAvailable (choice : CompilerChoice) (toolbox : Toolbox) : Bool :=
  match choice with
  | reference => true
  | external executable => (toolbox executable).isOk

end CompilerChoice

/-- What is said of an unknown compiler. -/
def UnknownCompiler.message (unknown : UnknownCompiler) : String :=
  "Unknown compiler '" ++ unknown.name ++ "' (expected one of "
    ++ ", ".intercalate CompilerChoice.names ++ ")"

end BindingSuite
