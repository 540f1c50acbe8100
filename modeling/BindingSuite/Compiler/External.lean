import BindingSuite.Compiler.Basic
import BindingSuite.Text.Lines

/-! # External compilers

A command-line validator as a compiler: it is run on a file with the source text, accepts by its
exit code, and says its diagnostics on its two outputs. `Compiler.external` is the compiler that a
toolbox gives. -/

namespace BindingSuite

/-- The answer that a tool's report amounts to. -/
def ToolReport.answer (report : ToolReport) : Answer :=
  ⟨report.exitCode = 0, Text.nonblankLines (report.errors ++ "\n" ++ report.output)⟩

/-- Why an executable gives no answer. Only one that is missing is a compiler that is not there; any
other obstacle is a failure in its own right. -/
def Obstacle.compilerError (executable : String) : Obstacle → CompilerError
  | missing => .notRun ("naga executable not found: " ++ executable)
  | obstacle => .notStarted executable obstacle

/-- The compiler that runs an executable of a toolbox. -/
def Compiler.external {m : Type → Type} [Monad m] (toolbox : Toolbox) (executable : String) :
    Compiler m where
  name := "naga"
  compile source := ExceptT.mk <| pure <|
    match toolbox executable with
    | .ok tool => .ok (tool source).answer
    | .error obstacle => .error (obstacle.compilerError executable)

end BindingSuite
