import BindingSuite.Compiler.Basic
import BindingSuite.Text.Lines

/-! # Expectations

Running a compiler once and comparing its answer with what is expected: `Compiler.expect` returns
the answer, or a `Mismatch` that shows both. -/

namespace BindingSuite

/-- An answer that is not what was expected. -/
structure Mismatch where
  /-- The text that was compiled. -/
  source : String
  /-- Whether it should have been accepted. -/
  expected : Bool
  /-- The compiler's answer. -/
  answer : Answer
  deriving DecidableEq

/-- What is expected of a compilation. -/
def expectedOutcome (accepted : Bool) : String :=
  if accepted then "succeed" else "fail"

/-- What has become of a compilation. -/
def actualOutcome (accepted : Bool) : String :=
  if accepted then "was accepted" else "was rejected"

/-- The diagnostics of an answer, one a line. -/
def Answer.diagnosticsText (answer : Answer) : String :=
  let lines := "\n".intercalate answer.diagnostics
  if lines = "" then "(no diagnostics)" else lines

/-- What is said of a mismatch, with the diagnostics and the numbered source. -/
def Mismatch.message (mismatch : Mismatch) : String :=
  "expected compilation to " ++ expectedOutcome mismatch.expected ++ ", but it "
    ++ actualOutcome mismatch.answer.accepted ++ "\nDiagnostics:\n"
    ++ mismatch.answer.diagnosticsText ++ "\n\nSource:\n" ++ Text.numbered mismatch.source

/-- The reasons for which an expectation is not met. -/
inductive ExpectationError where
  /-- The answer is another one. -/
  | mismatch (mismatch : Mismatch)
  /-- There is no answer. -/
  | noAnswer (error : CompilerError)
  deriving DecidableEq

/-- Asks a compiler once, and returns its answer if it is the expected one. -/
def Compiler.expect {m : Type → Type} [Monad m] (compiler : Compiler m) (expected : Bool)
    (source : String) : ExceptT ExpectationError m Answer := do
  let answer ← (compiler.compile source).adapt .noAnswer
  if answer.accepted = expected then return answer
  else throw (.mismatch ⟨source, expected, answer⟩)

end BindingSuite
