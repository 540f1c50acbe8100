import BindingSuite.Proofs.Placement
import BindingSuite.Wgsl.Rules

/-! # Breaches, positions aside

Where the words of a module stand has no say in which rules it breaks.

* `Breach.unplaced` forgets the position of a breach's word;
* `Module.breaches_unplaced` says that a module without its positions has the breaches of the
  module, without theirs. -/

namespace BindingSuite.Wgsl

/-- A breach without the position of its word. -/
def Breach.unplaced : Breach → Breach
  | redeclaration name => redeclaration name.unplaced
  | malformedIndex name => malformedIndex name.unplaced
  | missingGroup name => missingGroup name.unplaced
  | missingBinding name => missingBinding name.unplaced
  | attributesOnVariable name addressSpace => attributesOnVariable name.unplaced addressSpace
  | missingAddressSpace name => missingAddressSpace name.unplaced
  | unknownAddressSpace name addressSpace => unknownAddressSpace name.unplaced addressSpace
  | attributesOnLocal name => attributesOnLocal name.unplaced
  | localAddressSpace name addressSpace => localAddressSpace name.unplaced addressSpace
  | localHandle name typeName => localHandle name.unplaced typeName
  | unresolvedCall callee function => unresolvedCall callee function
  | entryPointCall callee function => entryPointCall callee function
  | unresolvedReference name => unresolvedReference name.unplaced
  | recursive name => recursive name.unplaced
  | missingWorkgroupSize name => missingWorkgroupSize name.unplaced
  | missingPosition name => missingPosition name.unplaced
  | sharedPlace name owner entryPoint group binding =>
    sharedPlace name.unplaced owner entryPoint group binding

/-! ## Names -/

/-- Positions are no part of the repetitions among names. -/
theorem nameBreaches_unplaced (seen : List String) (names : List Word) :
    nameBreaches seen (names.map Word.unplaced) =
      (nameBreaches seen names).map Breach.unplaced := by
  induction names generalizing seen with
  | nil => rfl
  | cons name rest ih =>
    rw [List.map_cons, nameBreaches, nameBreaches, Word.text_unplaced, ih, ih]
    split <;> rfl

/-! ## Variables -/

/-- Positions are no part of the search for an attribute. -/
@[simp] theorem findAttribute?_unplaced (attributes : List Attribute) (name : String) :
    findAttribute? (attributes.map Attribute.unplaced) name =
      (findAttribute? attributes name).map Attribute.unplaced :=
  List.find?_map ..

/-- Positions are no part of the presence of an attribute. -/
@[simp] theorem hasAttribute_unplaced (attributes : List Attribute) (name : String) :
    hasAttribute (attributes.map Attribute.unplaced) name = hasAttribute attributes name := by
  simp [hasAttribute]

/-- Positions are no part of the index of an attribute. -/
@[simp] theorem index?_unplaced (attributes : List Attribute) (name : String) :
    index? (attributes.map Attribute.unplaced) name = index? attributes name := by
  rw [index?, index?, findAttribute?_unplaced, Option.bind_map]
  rfl

/-- Positions are no part of the breaches by an attribute. -/
theorem indexBreaches_unplaced (attributes : List Attribute) (name : String) :
    indexBreaches (attributes.map Attribute.unplaced) name =
      (indexBreaches attributes name).map Breach.unplaced := by
  rw [indexBreaches, indexBreaches, findAttribute?_unplaced]
  cases findAttribute? attributes name with
  | none => rfl
  | some given =>
    change (if given.index?.isNone then [Breach.malformedIndex given.name.unplaced] else []) = _
    split <;> simp [*, Breach.unplaced]

namespace Variable

@[simp] theorem name_unplaced (declared : Variable) :
    declared.unplaced.name = declared.name.unplaced := rfl

@[simp] theorem attributes_unplaced (declared : Variable) :
    declared.unplaced.attributes = declared.attributes.map Attribute.unplaced := rfl

@[simp] theorem typeName_unplaced (declared : Variable) :
    declared.unplaced.typeName = declared.typeName := rfl

@[simp] theorem addressSpace?_unplaced (declared : Variable) :
    declared.unplaced.addressSpace? = declared.addressSpace? := rfl

@[simp] theorem isResource_unplaced (declared : Variable) :
    declared.unplaced.isResource = declared.isResource := rfl

/-- Positions are no part of the breaches by a variable of the module. -/
theorem globalBreaches_unplaced (declared : Variable) :
    globalBreaches declared.unplaced = (globalBreaches declared).map Breach.unplaced := by
  have resource :
      resourceBreaches declared.unplaced = (resourceBreaches declared).map Breach.unplaced := by
    simp only [resourceBreaches, attributes_unplaced, hasAttribute_unplaced, name_unplaced,
      List.map_append]
    split <;> split <;> rfl
  have plain : plainBreaches declared.unplaced = (plainBreaches declared).map Breach.unplaced := by
    simp only [plainBreaches, attributes_unplaced, hasAttribute_unplaced, name_unplaced,
      addressSpace?_unplaced, List.map_append]
    congr 1
    · split <;> rfl
    · split
      · rfl
      · split <;> rfl
  simp only [globalBreaches, attributes_unplaced, isResource_unplaced, indexBreaches_unplaced,
    resource, plain, List.map_append]
  split <;> rfl

/-- Positions are no part of the breaches by a variable of a function. -/
theorem localBreaches_unplaced (declared : Variable) :
    localBreaches declared.unplaced = (localBreaches declared).map Breach.unplaced := by
  simp only [localBreaches, attributes_unplaced, hasAttribute_unplaced, name_unplaced,
    addressSpace?_unplaced, typeName_unplaced, List.map_append]
  congr 1
  · congr 1
    · split <;> rfl
    · split
      · rfl
      · split <;> rfl
  · by_cases handle : isHandleType declared.typeName = true <;> simp [handle, Breach.unplaced]

end Variable

/-! ## Functions -/

namespace Statement

/-- Positions are no part of what a statement calls. -/
theorem callee?_unplaced (statement : Statement) :
    statement.unplaced.callee? = statement.callee? := by
  rcases statement with (_ | _ | _) | _ | _ | (_ | (_ | _ | _)) <;> rfl

/-- Positions are no part of what a statement reads. -/
theorem usedName?_unplaced (statement : Statement) :
    statement.unplaced.usedName? = statement.usedName? := by
  rcases statement with (_ | _ | _) | _ | _ | (_ | (_ | _ | _)) <;> rfl

/-- Positions are no part of what a statement declares. -/
theorem declaredNames_unplaced (statement : Statement) :
    statement.unplaced.declaredNames = statement.declaredNames := by
  cases statement <;> rfl

/-- Positions are no part of what statements use. -/
theorem usedNames_unplaced (locals : List String) (body : List Statement) :
    usedNames locals (body.map unplaced) = usedNames locals body := by
  induction body generalizing locals with
  | nil => rfl
  | cons statement rest ih =>
    rw [List.map_cons, usedNames, usedNames, usedName?_unplaced, declaredNames_unplaced, ih]

end Statement

namespace Function

/-- Positions are no part of the stage of a function. -/
@[simp] theorem stage?_unplaced (function : Function) :
    function.unplaced.stage? = function.stage? :=
  List.findSome?_map ..

/-- Positions are no part of a function in the call graph. -/
theorem node_unplaced (function : Function) : function.unplaced.node = function.node := by
  simp only [node, calls, uses, unplaced, Statement.usedNames_unplaced, List.filterMap_map,
    Function.comp_def, Statement.callee?_unplaced, Word.text_unplaced]

end Function

namespace Module

/-- Positions are no part of the call graph of a module. -/
@[simp] theorem callGraph_unplaced (module : Module) :
    module.unplaced.callGraph = module.callGraph := by
  simp only [callGraph, unplaced, List.map_map, Function.comp_def, Function.node_unplaced]

/-- Positions are no part of the search for a function. -/
@[simp] theorem function?_unplaced (module : Module) (name : String) :
    module.unplaced.function? name = (module.function? name).map Function.unplaced :=
  List.find?_map ..

/-- Positions are no part of the breaches by a call. -/
theorem callBreaches_unplaced (module : Module) (function callee : String) :
    module.unplaced.callBreaches function callee =
      (module.callBreaches function callee).map Breach.unplaced := by
  rw [callBreaches, callBreaches, function?_unplaced]
  cases module.function? callee with
  | none => rfl
  | some declared =>
    change (if declared.unplaced.stage?.isSome then _ else _) = _
    rw [Function.stage?_unplaced]
    split <;> simp [*, Breach.unplaced]

/-- Positions are no part of the breaches by an expression. -/
theorem expressionBreaches_unplaced (module : Module) (function : String) (locals : List String)
    (value : Expression) :
    module.unplaced.expressionBreaches function locals value.unplaced =
      (module.expressionBreaches function locals value).map Breach.unplaced := by
  have globals : module.unplaced.globals.map (·.name.text) = module.globals.map (·.name.text) := by
    simp [unplaced, Function.comp_def]
  cases value with
  | call name =>
    rw [Expression.unplaced, expressionBreaches, expressionBreaches, Word.text_unplaced,
      callBreaches_unplaced]
    split <;> rfl
  | reference name =>
    rw [Expression.unplaced, expressionBreaches, expressionBreaches, Word.text_unplaced, globals]
    split <;> rfl
  | number value => rfl

/-- Positions are no part of the breaches by a body. -/
theorem bodyBreaches_unplaced (module : Module) (function : String) (locals : List String)
    (body : List Statement) :
    module.unplaced.bodyBreaches function locals (body.map Statement.unplaced) =
      (module.bodyBreaches function locals body).map Breach.unplaced := by
  induction body generalizing locals with
  | nil => rfl
  | cons statement rest ih =>
    have first : module.unplaced.statementBreaches function locals statement.unplaced =
        (module.statementBreaches function locals statement).map Breach.unplaced := by
      cases statement with
      | drop value => exact module.expressionBreaches_unplaced function locals value
      | call name => exact module.callBreaches_unplaced function name.text
      | declare declared => exact declared.localBreaches_unplaced
      | leave value =>
        cases value with
        | none => rfl
        | some value => exact module.expressionBreaches_unplaced function locals value
    rw [List.map_cons, bodyBreaches, bodyBreaches, List.map_append, first,
      Statement.declaredNames_unplaced, ih]

/-- Positions are no part of the breaches by a function. -/
theorem functionBreaches_unplaced (module : Module) (function : Function) :
    module.unplaced.functionBreaches function.unplaced =
      (module.functionBreaches function).map Breach.unplaced := by
  rw [functionBreaches, functionBreaches, List.map_append, callGraph_unplaced]
  congr 1
  · exact module.bodyBreaches_unplaced function.name.text [] function.body
  · change (if module.callGraph.isRecursive function.name.text then _ else _) = _
    split <;> rfl

/-! ## Entry points -/

/-- Positions are no part of the breaches by what a stage asks for. -/
theorem stageBreaches_unplaced (entryPoint : Function) :
    stageBreaches entryPoint.unplaced = (stageBreaches entryPoint).map Breach.unplaced := by
  have result :
      hasAttribute ((entryPoint.unplaced.result.map Result.attributes).getD []) "builtin" =
        hasAttribute ((entryPoint.result.map Result.attributes).getD []) "builtin" := by
    change hasAttribute (((entryPoint.result.map Result.unplaced).map _).getD []) _ = _
    cases entryPoint.result with
    | none => rfl
    | some result => exact hasAttribute_unplaced result.attributes "builtin"
  have attributes : hasAttribute entryPoint.unplaced.attributes "workgroup_size" =
      hasAttribute entryPoint.attributes "workgroup_size" :=
    hasAttribute_unplaced entryPoint.attributes "workgroup_size"
  rw [stageBreaches, stageBreaches, Function.stage?_unplaced, result, attributes]
  split
  · split <;> rfl
  · split <;> rfl
  · rfl

/-- Positions only show in the words of an interface. -/
theorem interfaceOf_unplaced (module : Module) (entryPoint : String) :
    module.unplaced.interfaceOf entryPoint =
      (module.interfaceOf entryPoint).map fun entry => (entry.1.unplaced, entry.2) := by
  rw [interfaceOf, interfaceOf, callGraph_unplaced]
  change (module.globals.map Variable.unplaced).filterMap _ = _
  rw [List.filterMap_map, List.map_filterMap]
  refine List.filterMap_congr fun declared _ => ?_
  simp only [Function.comp_apply, Variable.name_unplaced, Word.text_unplaced,
    Variable.isResource_unplaced, Variable.attributes_unplaced, index?_unplaced, Bool.and_eq_true,
    decide_eq_true_eq]
  by_cases inside : declared.name.text ∈ module.callGraph.reachableVariables entryPoint ∧
      declared.isResource = true
  · simp only [inside, and_self, if_true]
    split <;> rfl
  · simp only [inside, if_false, Option.map_none]

/-- Positions are no part of the breaches by shared places. -/
theorem placeBreaches_unplaced (entryPoint : String) (owners : List ((Nat × Nat) × String))
    (interface : List (Word × Nat × Nat)) :
    placeBreaches entryPoint owners (interface.map fun entry => (entry.1.unplaced, entry.2)) =
      (placeBreaches entryPoint owners interface).map Breach.unplaced := by
  induction interface generalizing owners with
  | nil => rfl
  | cons entry rest ih =>
    rw [List.map_cons, placeBreaches, placeBreaches]
    split <;> simp only [*, Word.text_unplaced, List.map_cons, Breach.unplaced]

/-! ## Modules -/

/-- A module without its positions breaks the same rules in the same order as the module, and its
breaches are those of the module without their positions. -/
theorem breaches_unplaced (module : Module) :
    module.unplaced.breaches = module.breaches.map Breach.unplaced := by
  have names : module.unplaced.declaredNames = module.declaredNames.map Word.unplaced := by
    simp [declaredNames, unplaced, Function.comp_def, Function.unplaced]
  have globals : module.unplaced.globals.flatMap globalBreaches =
      (module.globals.flatMap globalBreaches).map Breach.unplaced := by
    simp [unplaced, List.flatMap_map, List.map_flatMap, Variable.globalBreaches_unplaced]
  have functions : module.unplaced.functions.flatMap module.unplaced.functionBreaches =
      (module.functions.flatMap module.functionBreaches).map Breach.unplaced := by
    change (module.functions.map Function.unplaced).flatMap _ = _
    simp [List.flatMap_map, List.map_flatMap, functionBreaches_unplaced]
  have entryPoints : module.unplaced.entryPoints.flatMap module.unplaced.entryPointBreaches =
      (module.entryPoints.flatMap module.entryPointBreaches).map Breach.unplaced := by
    have starts : module.unplaced.entryPoints = module.entryPoints.map Function.unplaced := by
      simp [entryPoints, unplaced, List.filter_map, Function.comp_def]
    have each (entryPoint : Function) :
        module.unplaced.entryPointBreaches entryPoint.unplaced =
          (module.entryPointBreaches entryPoint).map Breach.unplaced := by
      rw [entryPointBreaches, entryPointBreaches, List.map_append, stageBreaches_unplaced]
      congr 1
      rw [← placeBreaches_unplaced, ← interfaceOf_unplaced]
      rfl
    simp [starts, List.flatMap_map, List.map_flatMap, each]
  rw [breaches, breaches, names, nameBreaches_unplaced, globals, functions, entryPoints]
  simp only [List.map_append]

end Module

end BindingSuite.Wgsl
