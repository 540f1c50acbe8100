import BindingSuite.Parameter.Space
import BindingSuite.Program.Builder

/-! # Scenarios

A scenario is a family of programs: a parameter space and a way to build the program of each
combination.

* `Scenario` is such a family;
* `BuildError` says why a combination has no program;
* `Combination.require` and the readings after it take parameters from a combination. -/

namespace BindingSuite

/-- The reasons for which a combination has no program. -/
inductive BuildError where
  /-- A parameter is not set. -/
  | missingParameter (name : String)
  /-- A parameter names no usage. -/
  | unknownUsage (unknown : UnknownUsage)
  /-- A parameter is no kind of resource. -/
  | unknownKind (value : Value)
  deriving DecidableEq

/-- What is said of a combination without a program. -/
def BuildError.message : BuildError → String
  | missingParameter name => name
  | unknownUsage unknown => unknown.message
  | unknownKind value => "Unknown resource kind: " ++ value.quoted

/-- A family of programs. -/
structure Scenario where
  /-- The scenario's name. -/
  name : String
  /-- What its programs are about, in one sentence. -/
  description : String
  /-- Its parameters. -/
  space : ParameterSpace := .empty
  /-- The program of a combination. -/
  build : Combination → Except BuildError Program

/-- The number of a scenario's programs. -/
def Scenario.size (scenario : Scenario) : Nat :=
  scenario.space.size

/-! ## Reading parameters -/

namespace Combination

/-- The value of a parameter that has to be set. -/
def require (combination : Combination) (name : String) : Except BuildError Value :=
  match combination.value? name with
  | some value => return value
  | none => throw (.missingParameter name)

end Combination

namespace Value

/-- A value as a kind of resource. -/
def toKind : Value → Except BuildError ResourceKind
  | kind value => return value
  | value => throw (.unknownKind value)

end Value

/-- Adds an entry point whose stage and usage are given as values. -/
def Program.withEntryPointOf (program : Program) (name : String) (stage : Value)
    (resources : List String) (usage : Value) : Except BuildError Program :=
  (program.withEntryPoint name stage.plain resources usage.plain).mapError .unknownUsage

end BindingSuite
