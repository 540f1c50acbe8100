import BindingSuite.Scenario.Basic

/-! # The catalogue of scenarios

The scenarios for the rules on binding attributes, each with its parameters and its programs.
`Scenario.catalogue` lists them in order, and `Scenario.ofName` finds one.

A builder reads its parameters in the order in which they enter the program, and looks at what
kinds the resources are of last of all. -/

namespace BindingSuite

/-- The values of index parameters: equal and unequal pairs with few combinations. -/
def indexValues : List Value := [.integer 0, .integer 3]

/-- The kinds of the first resource of a pair. -/
def firstKinds : List ResourceKind :=
  [.uniform, .texture2D, .textureCube, .textureDepth2D, .sampler]

/-- The kinds of the second resource of a pair. -/
def secondKinds : List ResourceKind :=
  [.storage, .texture3D, .textureMultisampled2D, .textureDepthCubeArray, .samplerComparison]

/-- Kinds as values of a parameter. -/
def kindValues (kinds : List ResourceKind) : List Value := kinds.map .kind

/-- The stages as values of a parameter. -/
def stageValues : List Value := Stage.all.map fun stage => .text stage.name

/-- The usages as values of a parameter. -/
def usageValues : List Value := Usage.all.map fun usage => .text usage.name

/-- Both truth values, as values of a parameter. -/
def boolValues : List Value := [.bool true, .bool false]

/-- Reads a parameter that says whether an index, zero, is declared. -/
def readIndexFlag (combination : Combination) (name : String) :
    Except BuildError (Option Index) := do
  return if (← combination.require name).isTrue then some 0 else none

namespace Scenario

/-! ## Attributes -/

/-- One resource with or without each attribute. -/
def bindingAttributes : Scenario where
  name := "binding_attributes"
  description := "Both @group and @binding must be declared on a resource."
  space := ⟨[⟨"stage", stageValues⟩, ⟨"has_group", boolValues⟩, ⟨"has_binding", boolValues⟩,
    ⟨"resource", kindValues ResourceKind.all⟩]⟩
  build combination := do
    let resource ← combination.require "resource"
    let group ← readIndexFlag combination "has_group"
    let binding ← readIndexFlag combination "has_binding"
    let stage ← combination.require "stage"
    let kind ← resource.toKind
    ({ resources := [⟨"R", kind, group, binding⟩] } : Program).withEntryPointOf "main" stage ["R"]
      (.text Usage.direct.name)

/-! ## Scopes -/

/-- A program of one compute entry point with one local variable. -/
def localProgram (declared : LocalVariable) : Program :=
  { entryPoints := [{ name := "main", body := [.declare declared] }] }

/-- A plain variable of a module with attributes. -/
def privateModuleScope : Scenario where
  name := "private_module_scope"
  description := "@group/@binding on a module-scope var<private> is rejected."
  build _ := return {
    globals := [⟨"a", "private", "i32", some 1, some 1⟩]
    entryPoints := [{ name := "main", body := [.use "a"] }] }

/-- A local variable in a module's address space, with attributes. -/
def privateFunctionScope : Scenario where
  name := "private_function_scope"
  description := "@group/@binding on a function-scope var<private> is rejected."
  build _ := return localProgram ⟨"a", "i32", some "private", some 1, some 1⟩

/-- A local variable with attributes. -/
def functionScope : Scenario where
  name := "function_scope"
  description := "@group/@binding on a function-scope variable is rejected."
  build _ := return localProgram ⟨"a", "i32", none, some 1, some 1⟩

/-- A local texture with attributes. -/
def functionScopeTexture : Scenario where
  name := "function_scope_texture"
  description := "@group/@binding on a function-scope texture variable is rejected."
  build _ := return localProgram ⟨"a", "texture_2d<f32>", none, some 1, some 1⟩

/-! ## Collisions -/

/-- Two resources at the same place. -/
def resourcePair (first second : Value) : Except BuildError (List Resource) := do
  return [⟨"resource_a", ← first.toKind, some 0, some 0⟩,
    ⟨"resource_b", ← second.toKind, some 0, some 0⟩]

/-- Two resources used by one entry point. -/
def singleEntryPoint : Scenario where
  name := "single_entry_point"
  description := "Two resources used by one entry point must not share a (group, binding) pair."
  space := ⟨[⟨"stage", stageValues⟩, ⟨"a_kind", kindValues firstKinds⟩,
    ⟨"b_kind", kindValues secondKinds⟩, ⟨"a_group", indexValues⟩, ⟨"b_group", indexValues⟩,
    ⟨"a_binding", indexValues⟩, ⟨"b_binding", indexValues⟩, ⟨"usage", usageValues⟩]⟩
  build combination := do
    let firstKind ← combination.require "a_kind"
    let firstGroup ← combination.require "a_group"
    let firstBinding ← combination.require "a_binding"
    let secondKind ← combination.require "b_kind"
    let secondGroup ← combination.require "b_group"
    let secondBinding ← combination.require "b_binding"
    let stage ← combination.require "stage"
    let usage ← combination.require "usage"
    let program ← ({} : Program).withEntryPointOf "main" stage ["resource_a", "resource_b"] usage
    return { program with resources :=
      [⟨"resource_a", ← firstKind.toKind, firstGroup.toIndex?, firstBinding.toIndex?⟩,
        ⟨"resource_b", ← secondKind.toKind, secondGroup.toIndex?, secondBinding.toIndex?⟩] }

/-- Two resources at one place, each used by an entry point of its own. -/
def differentEntryPoints : Scenario where
  name := "different_entry_points"
  description := "Resources used exclusively by different entry points may share a binding."
  space := ⟨[⟨"a_stage", stageValues⟩, ⟨"b_stage", stageValues⟩, ⟨"a_kind", kindValues firstKinds⟩,
    ⟨"b_kind", kindValues secondKinds⟩, ⟨"usage", usageValues⟩]⟩
  build combination := do
    let firstKind ← combination.require "a_kind"
    let secondKind ← combination.require "b_kind"
    let firstStage ← combination.require "a_stage"
    let usage ← combination.require "usage"
    let program ← ({} : Program).withEntryPointOf "main_a" firstStage ["resource_a"] usage
    let secondStage ← combination.require "b_stage"
    let program ← program.withEntryPointOf "main_b" secondStage ["resource_b"] usage
    return { program with resources := ← resourcePair firstKind secondKind }

/-- Two resources at one place, of which only the first is used. -/
def unreferencedResource : Scenario where
  name := "unreferenced_resource"
  description := "A resource no entry point references cannot collide with a used one."
  space := ⟨[⟨"stage", stageValues⟩, ⟨"a_kind", kindValues firstKinds⟩,
    ⟨"b_kind", kindValues secondKinds⟩, ⟨"usage", usageValues⟩]⟩
  build combination := do
    let firstKind ← combination.require "a_kind"
    let secondKind ← combination.require "b_kind"
    let stage ← combination.require "stage"
    let usage ← combination.require "usage"
    let program ← ({} : Program).withEntryPointOf "main" stage ["resource_a"] usage
    return { program with resources := ← resourcePair firstKind secondKind }

/-! ## The catalogue -/

/-- All scenarios, in order. -/
def catalogue : List Scenario :=
  [bindingAttributes, privateModuleScope, privateFunctionScope, functionScope,
    functionScopeTexture, singleEntryPoint, differentEntryPoints, unreferencedResource]

end Scenario

/-- A name that no scenario has. -/
structure UnknownScenario where
  /-- The name given. -/
  name : String
  deriving DecidableEq

/-- What is said of an unknown scenario. -/
def UnknownScenario.message (unknown : UnknownScenario) : String :=
  "Unknown scenario '" ++ unknown.name ++ "'"

/-- The scenario of a given name. -/
def Scenario.ofName (name : String) : Except UnknownScenario Scenario :=
  match catalogue.find? fun scenario => scenario.name = name with
  | some scenario => return scenario
  | none => throw ⟨name⟩

/-! ## Closed rules -/

/-- Whether a resource used by an entry point is accepted, from which attributes it declares. -/
def attributesSuffice (hasGroup hasBinding : Bool) : Bool :=
  hasGroup && hasBinding

/-- Whether two resources used by one entry point are accepted, from their places. -/
def placesDiffer (first second : BindingPoint) : Bool :=
  first.normal ≠ second.normal

/-- Whether two resources, each used by an entry point of its own, are accepted. -/
def separateEntryPointsSuffice : Bool :=
  true

end BindingSuite
