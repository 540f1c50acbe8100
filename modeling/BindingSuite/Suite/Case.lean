import BindingSuite.Program.Render
import BindingSuite.Program.Verdict
import BindingSuite.Scenario.Basic
import BindingSuite.Suite.Expectation

/-! # Cases

A case is one combination of a scenario: a source text and the verdict expected on it.

* `Case` is a scenario with a combination, `Case.synthesize` makes its text and verdict;
* `Case.run` asks a compiler about it, and `CaseReport` is what comes of that. -/

namespace BindingSuite

/-- A combination of a scenario. -/
structure Case where
  /-- The scenario. -/
  scenario : Scenario
  /-- The combination. -/
  combination : Combination

/-- The reasons for which a case has no report. -/
inductive CaseError where
  /-- Its combination has no program. -/
  | build (error : BuildError)
  /-- Its program has no text. -/
  | render (error : RenderError)
  /-- The compiler's executable cannot be started. -/
  | notStarted (executable : String) (obstacle : Obstacle)
  /-- The compiler gave up on its text. -/
  | gaveUp (numeral : Wgsl.Numeral)
  deriving DecidableEq

/-- What is said of a case without a report. -/
def CaseError.message : CaseError → String
  | build error => error.message
  | render error => error.message
  | notStarted executable obstacle => obstacle.message executable
  | gaveUp numeral => numeral.oversizedMessage

/-- What came of a case. -/
structure CaseReport where
  /-- The scenario's name. -/
  scenario : String
  /-- The combination. -/
  combination : Combination
  /-- The source text. -/
  source : String
  /-- Whether the text should be accepted. -/
  expected : Bool
  /-- Whether the compiler accepted it, when it gave an answer. -/
  actual : Option Bool
  /-- What went wrong, if anything did. -/
  error : Option String := none
  deriving DecidableEq

/-- The name of a combination within the suite. -/
def caseId (scenario : String) (combination : Combination) : String :=
  scenario ++ ":" ++ combination.id

namespace CaseReport

/-- A case passes when nothing went wrong. -/
def passed (report : CaseReport) : Bool :=
  report.error.isNone

/-- The name of the case. -/
def id (report : CaseReport) : String :=
  caseId report.scenario report.combination

end CaseReport

namespace Case

/-- The name of a case. -/
def id (case : Case) : String :=
  caseId case.scenario.name case.combination

/-- The source text of a case and the verdict expected on it. -/
def synthesize (case : Case) : Except CaseError (String × Verdict) := do
  let program ← (case.scenario.build case.combination).mapError .build
  let source ← program.text.mapError .render
  return (source, program.verdict)

/-- The report on a case, from its text, the expectation and what a compiler named `compilerName`
made of it. -/
def report (case : Case) (source : String) (expected : Bool) (compilerName : String) :
    Except ExpectationError Answer → Except CaseError CaseReport
  | .ok answer =>
    return ⟨case.scenario.name, case.combination, source, expected, some answer.accepted, none⟩
  | .error (.mismatch mismatch) =>
    return ⟨case.scenario.name, case.combination, source, expected,
      some mismatch.answer.accepted, some mismatch.message⟩
  | .error (.noAnswer (.notRun message)) =>
    return ⟨case.scenario.name, case.combination, source, expected, none,
      some (compilerName ++ " failed: " ++ message)⟩
  | .error (.noAnswer (.notStarted executable obstacle)) =>
    throw (.notStarted executable obstacle)
  | .error (.noAnswer (.gaveUp numeral)) => throw (.gaveUp numeral)

/-- Asks a compiler about a case. -/
def run {m : Type → Type} [Monad m] (case : Case) (compiler : Compiler m) :
    ExceptT CaseError m CaseReport := do
  let (source, verdict) ← ExceptT.mk (pure case.synthesize)
  let outcome ← ExceptT.lift (compiler.expect verdict.accepted source).run
  ExceptT.mk (pure (case.report source verdict.accepted compiler.name outcome))

end Case

end BindingSuite
