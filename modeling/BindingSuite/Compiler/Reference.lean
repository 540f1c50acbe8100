import BindingSuite.Compiler.Basic
import BindingSuite.Wgsl.Rules

/-! # The reference compiler

A compiler for the declaration subset, built from the reader and the rules of modules. A text is
accepted when it declares a module that breaks no rule; a rejection has one diagnostic. -/

namespace BindingSuite.Wgsl

/-- The answer on a module: its first breach is the diagnostic. -/
def Module.answer (module : Module) : Answer :=
  match module.breaches with
  | [] => ⟨true, []⟩
  | breach :: _ => ⟨false, [breach.message]⟩

/-- The answer on a source text. A numeral that has too many digits leaves it without one. -/
def answer (source : String) : Except Numeral Answer :=
  match Module.ofSource source with
  | .error (.syntaxError position) => .ok ⟨false, [syntaxErrorMessage source position]⟩
  | .error (.oversized numeral) => .error numeral
  | .ok module => .ok module.answer

end BindingSuite.Wgsl

namespace BindingSuite

/-- The reference compiler. -/
def Compiler.reference {m : Type → Type} [Monad m] : Compiler m where
  name := "reference"
  compile source := ExceptT.mk (pure ((Wgsl.answer source).mapError .gaveUp))

end BindingSuite
