import BindingSuite.Compiler.Toolbox
import BindingSuite.Wgsl.Reading

/-! # Compilers

What the suite needs of a compiler: its answer on a source text. Compilers may have effects of any
monad, so that a caller can see how often and on what they are run.

* `Answer` is an answer, `CompilerError` the want of one;
* `Compiler` is a compiler with its name. -/

namespace BindingSuite

/-- What a compiler says of a source text. -/
structure Answer where
  /-- Whether it accepts the text. -/
  accepted : Bool
  /-- Its diagnostics. -/
  diagnostics : List String := []
  deriving DecidableEq

/-- The reasons for which a compiler gives no answer. -/
inductive CompilerError where
  /-- It could not be run at all. -/
  | notRun (message : String)
  /-- Its executable is there in some way but cannot be started. -/
  | notStarted (executable : String) (obstacle : Obstacle)
  /-- It gave up on a numeral with too many digits. -/
  | gaveUp (numeral : Wgsl.Numeral)
  deriving DecidableEq

/-- A compiler. -/
structure Compiler (m : Type → Type) where
  /-- Its name. -/
  name : String
  /-- Its answer on a source text, the same whenever it is asked. -/
  compile : String → ExceptT CompilerError m Answer

end BindingSuite
