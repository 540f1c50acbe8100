import BindingSuite.Suite.Run
import BindingSuite.Text.Json
import BindingSuite.Text.Lines

/-! # Emission

The cases of some scenarios as files: one for each source text, in a directory for each scenario,
and a manifest that says what is expected of each.

* `ManifestEntry` is a case's entry in the manifest;
* `Emission` is all that is written: the entries and, in the order of writing, the files;
* `emit` makes it, with paths relative to the directory of the emission. -/

namespace BindingSuite

/-- What the manifest says of a case. -/
structure ManifestEntry where
  /-- The scenario's name. -/
  scenario : String
  /-- The file with the source text. -/
  file : String
  /-- The combination. -/
  combination : Combination
  /-- The expected verdict. -/
  verdict : Verdict
  deriving DecidableEq

/-- A value in the manifest: kinds, and the absence of a value, by their text. -/
def Value.json : Value → Text.Json
  | bool value => .bool value
  | integer value => .number value
  | value => .string value.plain

/-- An entry in the manifest. -/
def ManifestEntry.json (entry : ManifestEntry) : Text.Json :=
  .object [
    ("scenario", .string entry.scenario),
    ("file", .string entry.file),
    ("params", .object (entry.combination.map fun (name, value) => (name, value.json))),
    ("expect", .bool entry.verdict.accepted),
    ("reasons", .array (entry.verdict.reasons.map fun reason => .string reason.message))]

/-- Everything that is written. -/
structure Emission where
  /-- The entries of the manifest. -/
  entries : List ManifestEntry
  /-- The source texts with their files, in the order of writing. -/
  sources : List (String × String)
  deriving DecidableEq

namespace Emission

/-- The file of the manifest. -/
def manifestFile : String := "manifest.json"

/-- The text of the manifest. -/
def manifestText (emission : Emission) : String :=
  (Text.Json.array (emission.entries.map ManifestEntry.json)).text ++ "\n"

/-- Everything that is written, in order, the manifest last. -/
def writes (emission : Emission) : List (String × String) :=
  emission.sources ++ [(manifestFile, emission.manifestText)]

/-- What a file holds in the end: what was last written to it. -/
def content? (emission : Emission) (file : String) : Option String :=
  emission.writes.reverse.lookup file

/-- The files that there are in the end, each once. -/
def files (emission : Emission) : List String :=
  (emission.writes.map (·.1)).eraseDups

end Emission

/-- The file of the case of a given number of a scenario. -/
def caseFile (scenario : String) (number : Nat) : String :=
  scenario ++ "/" ++ Text.padLeft 4 '0' number.repr ++ ".wgsl"

/-- The entry and the source text of the case of a given number. -/
def emitCase (case : Case) (number : Nat) : Except CaseError (ManifestEntry × String) := do
  let (source, verdict) ← case.synthesize
  let file := caseFile case.scenario.name number
  return (⟨case.scenario.name, file, case.combination, verdict⟩, source)

/-- The entries and source texts of a scenario. -/
def emitScenario (scenario : Scenario) : Except CaseError (List (ManifestEntry × String)) :=
  scenario.cases.zipIdx.mapM fun (case, number) => emitCase case number

/-- The emission of some scenarios. -/
def emit (scenarios : List Scenario) : Except CaseError Emission := do
  let emitted := (← scenarios.mapM emitScenario).flatten
  return ⟨emitted.map (·.1), emitted.map fun (entry, source) => (entry.file, source)⟩

end BindingSuite
