import BindingSuite.Random.Shuffle
import BindingSuite.Suite.Case

/-! # Runs

All cases of some scenarios, and a run of a compiler over them.

* `Scenario.cases` and `casesOf` list cases in the order of the scenarios and their combinations;
* `inOrder` is the order of a run: the order of the list, or the one that a seed gives it;
* `runCases` asks a compiler about every case, one after another. A failing case stops no other. -/

namespace BindingSuite

/-- The cases of a scenario, in the order of its combinations. -/
def Scenario.cases (scenario : Scenario) : List Case :=
  scenario.space.combinations.map fun combination => ⟨scenario, combination⟩

/-- The cases of some scenarios, scenario by scenario. -/
def casesOf (scenarios : List Scenario) : List Case :=
  scenarios.flatMap Scenario.cases

/-- The order in which cases are run. -/
def inOrder {α : Type} (seed : Option Int) (cases : List α) : List α :=
  match seed with
  | none => cases
  | some seed => shuffle seed cases

/-- The order of a run only rearranges its cases. -/
theorem inOrder_perm {α : Type} (seed : Option Int) (cases : List α) :
    (inOrder seed cases).Perm cases := by
  cases seed with
  | none => exact .refl _
  | some seed => exact shuffle_perm seed cases

/-- Asks a compiler about all cases of some scenarios. -/
def runCases {m : Type → Type} [Monad m] (scenarios : List Scenario) (compiler : Compiler m)
    (seed : Option Int) : ExceptT CaseError m (List CaseReport) :=
  (inOrder seed (casesOf scenarios)).mapM fun case => case.run compiler

end BindingSuite
