import BindingSuite.CommandLine.Options
import BindingSuite.Scenario.Catalogue
import BindingSuite.Suite.Emission

/-! # The command line

What a command line does, as a function of its words: it lists the scenarios, writes their cases
to files, or runs a compiler over them and reports.

* `Outcome` is what it leaves behind: the exit code, the two outputs and the files;
* `Failure` says why there is no outcome, though the options were understood;
* `CommandLine.run` gives one or the other. -/

namespace BindingSuite.CommandLine

/-- What a command line leaves behind. -/
structure Outcome where
  /-- The exit code. -/
  exitCode : Nat := 0
  /-- The text on the standard output. -/
  output : String := ""
  /-- The text on the error output. -/
  errors : String := ""
  /-- The files written, with their texts, in the order of writing. -/
  files : List (String × String) := []
  deriving DecidableEq

/-- The files under a directory in the end, by their paths from there, each with what was last
written to it. -/
def Outcome.filesUnder (outcome : Outcome) (directory : String) : List (String × String) :=
  let written := outcome.files.filterMap fun (path, text) =>
    (Path.within? directory path).map fun place => (place, text)
  (written.map (·.1)).eraseDups.map fun place => (place, (written.reverse.lookup place).getD "")

/-- The reasons for which options that were understood have no outcome. -/
inductive Failure where
  /-- No compiler has the name. -/
  | unknownCompiler (unknown : UnknownCompiler)
  /-- The order is to be shuffled, but without a seed. -/
  | noSeed
  /-- A directory cannot be made, or a file cannot be written. -/
  | noPlace (error : PathError)
  /-- A case has no report. -/
  | noReport (error : CaseError)
  deriving DecidableEq

/-- What is said of options without an outcome. -/
def Failure.message : Failure → String
  | unknownCompiler unknown => unknown.message
  | noSeed => "The seed is missing"
  | noPlace error => error.message
  | noReport error => error.message

/-- The program's name. -/
def programName : String := "bindconf"

/-- The program's version. -/
def version : String := "0.1.0"

/-- The lines of the help. -/
def helpLines : List String :=
  ["usage: " ++ programName ++ " [options]",
    "",
    "Generate and run WGSL @group/@binding conformance cases",
    "",
    "options:",
    "  -h, --help           show this help message and exit",
    "  --list               List scenarios and their case counts",
    "  -s, --scenario NAME  Run only the named scenario (repeatable)",
    "  --compiler NAME      Compiler to validate generated shaders with (default: reference)",
    "  --naga PATH          Path to the naga executable (default: naga on PATH)",
    "  --emit-dir DIR       Write generated .wgsl cases and a manifest instead of compiling",
    "  --seed SEED          Shuffle case execution order with this seed",
    "  -v, --verbose        Print every case result",
    "  --version            show the program's version and exit"]

/-- The outcome of a complaint that ends the program. -/
def complain (exitCode : Nat) (complaint : String) : Outcome :=
  { exitCode, errors := complaint ++ "\n" }

/-- The outcome where reading the command line stops. -/
def Stop.outcome : Stop → Outcome
  | help => { output := String.join (helpLines.map fun line => line ++ "\n") }
  | version => { output := programName ++ " " ++ CommandLine.version ++ "\n" }
  | usage error => complain 2 (programName ++ ": error: " ++ error.message)

/-- The scenarios of the given names, all scenarios if there is none. -/
def selectScenarios (names : List String) : Except UnknownScenario (List Scenario) :=
  if names.isEmpty then return Scenario.catalogue else names.mapM Scenario.ofName

/-- The line of a scenario in the list: its name, its number of cases and its description. -/
def scenarioLine (scenario : Scenario) : String :=
  Text.padRight 24 scenario.name ++ " " ++ Text.padLeft 5 ' ' scenario.size.repr ++ "  "
    ++ scenario.description ++ "\n"

/-- Lists scenarios. -/
def listScenarios (scenarios : List Scenario) : Outcome :=
  { output := String.join (scenarios.map scenarioLine) }

/-- Makes the directory of a scenario's cases, under the directory of the emission, and sees that
their files can be written there. -/
def makeRoom (directory : String) (host : Host) (scenario : Scenario) : Except PathError Host := do
  let host ← host.makeDirectories (Path.join directory scenario.name)
  (List.range scenario.size).forM fun number =>
    host.checkWritable (Path.join directory (caseFile scenario.name number))
  return host

/-- Sees that the cases of some scenarios can be written to a directory. -/
def checkRoom (host : Host) (directory : String) (scenarios : List Scenario) :
    Except PathError Unit := do
  let host ← scenarios.foldlM (makeRoom directory) host
  host.checkWritable (Path.join directory Emission.manifestFile)

/-- Writes the cases of some scenarios to a directory. -/
def emitTo (host : Host) (directory : String) (scenarios : List Scenario) :
    Except Failure Outcome := do
  (checkRoom host directory scenarios).mapError .noPlace
  let emission ← (emit scenarios).mapError .noReport
  return {
    output := "Wrote " ++ emission.entries.length.repr ++ " cases to " ++ directory ++ "\n"
    files := emission.writes.map fun (file, text) => (Path.join directory file, text) }

/-- The report on the results of a run. -/
def report (verbose : Bool) (compilerName : String) (results : List CaseReport) : Outcome :=
  let failed := results.filter fun result => !result.passed
  let passed := results.filter fun result => result.passed
  let passLines := if verbose then passed.map fun result => "pass " ++ result.id ++ "\n" else []
  { exitCode := if failed.isEmpty then 0 else 1
    output := String.join passLines ++ passed.length.repr ++ " passed, " ++ failed.length.repr
      ++ " failed (" ++ compilerName ++ ")\n"
    errors := String.join (failed.map fun result =>
      "FAIL " ++ result.id ++ "\n" ++ result.error.getD "" ++ "\n\n") }

/-- The seed of the order, if there is to be one. -/
def SeedSetting.seed? : SeedSetting → Except Failure (Option Int)
  | unset => return none
  | withoutSeed => throw .noSeed
  | seed value => return some value

/-- Runs the chosen compiler over the cases of some scenarios. -/
def runOn (host : Host) (options : Options) (scenarios : List Scenario) :
    Except Failure Outcome := do
  let choice ← (CompilerChoice.ofName options.compiler options.executable).mapError .unknownCompiler
  let compiler : Compiler Id := choice.compiler host.toolbox
  let seed ← options.seed.seed?
  let results ← (runCases scenarios compiler seed).run.mapError .noReport
  return report options.verbose compiler.name results

/-- What options ask for on a host. -/
def perform (host : Host) (options : Options) : Except Failure Outcome :=
  match selectScenarios options.scenarios with
  | .error unknown => return complain 1 ("Error: " ++ unknown.message)
  | .ok scenarios =>
    if options.list then return listScenarios scenarios
    else
      match options.emitDirectory with
      | some directory => emitTo host directory scenarios
      | none => runOn host options scenarios

/-- What the words of a command line do on a host. -/
def run (host : Host) (words : List String) : Except Failure Outcome :=
  match readOptions words with
  | .error stop => return stop.outcome
  | .ok options => perform host options

end BindingSuite.CommandLine
