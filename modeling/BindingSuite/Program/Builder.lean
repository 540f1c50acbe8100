import BindingSuite.Program.Basic

/-! # Adding entry points to a program

An entry point can use its resources in two ways: `Usage.direct` uses each in its own body,
`Usage.transitive` calls a helper for each, and the helper uses it.

* `entryPointFor` makes the entry point and the helpers it needs;
* `Program.withHelpers` adds those helpers that the program has not yet;
* `Program.withEntryPoint` does both, and fails only for a usage of another name. -/

namespace BindingSuite

/-- The ways in which an entry point uses its resources. -/
inductive Usage where
  /-- In its own body. -/
  | direct
  /-- In helpers that it calls. -/
  | transitive
  deriving DecidableEq

/-- A name that no usage has. -/
structure UnknownUsage where
  /-- The name given. -/
  name : String
  deriving DecidableEq

namespace Usage

/-- Every usage, in the order in which the scenarios go through them. -/
def all : List Usage := [direct, transitive]

/-- The name of a usage. -/
def name : Usage → String
  | direct => "direct"
  | transitive => "transitive"

/-- The usage of a given name. -/
def ofName (name : String) : Except UnknownUsage Usage :=
  match all.find? fun usage => usage.name = name with
  | some usage => .ok usage
  | none => .error ⟨name⟩

/-- A usage is found by its name. -/
@[simp] theorem ofName_name (usage : Usage) : ofName usage.name = .ok usage := by
  cases usage <;> rfl

end Usage

/-- What is said of an unknown usage. -/
def UnknownUsage.message (unknown : UnknownUsage) : String :=
  "Unknown usage '" ++ unknown.name ++ "' (expected one of "
    ++ ", ".intercalate (Usage.all.map Usage.name) ++ ")"

/-- The name of the helper that uses a resource. -/
def helperNameOf (resource : String) : String :=
  "use_" ++ resource

/-- The helper that uses a resource. -/
def helperFor (resource : String) : Function :=
  ⟨helperNameOf resource, [.use resource]⟩

/-- An entry point that uses the given resources, and the helpers that it relies on. -/
def entryPointFor (usage : Usage) (name stage : String) (resources : List String) :
    EntryPoint × List Function :=
  match usage with
  | .direct => ({ name, body := resources.map Statement.use, stage }, [])
  | .transitive =>
    let helpers := resources.map helperFor
    ({ name, body := helpers.map fun helper => .call helper.name, stage }, helpers)

namespace Program

/-- Adds the helpers whose names the program's helpers do not have yet. -/
def withHelpers (program : Program) : List Function → Program
  | [] => program
  | helper :: rest =>
    if helper.name ∈ program.helpers.map (·.name) then program.withHelpers rest
    else { program with helpers := program.helpers ++ [helper] }.withHelpers rest

/-- Adds an entry point that uses the given resources in the way `usage`. -/
def withEntryPointUsing (program : Program) (usage : Usage) (name stage : String)
    (resources : List String) : Program :=
  let (entryPoint, helpers) := entryPointFor usage name stage resources
  let program := program.withHelpers helpers
  { program with entryPoints := program.entryPoints ++ [entryPoint] }

/-- Adds an entry point that uses the given resources in the way of the name `usage`. -/
def withEntryPoint (program : Program) (name stage : String) (resources : List String)
    (usage : String) : Except UnknownUsage Program := do
  let usage ← Usage.ofName usage
  return program.withEntryPointUsing usage name stage resources

end Program

end BindingSuite
