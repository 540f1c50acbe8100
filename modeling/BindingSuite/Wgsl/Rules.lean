import BindingSuite.Wgsl.Module

/-! # Rules of modules

The rules on bindings that a module has to keep, and what breaks them:

* names are declared once;
* resources carry both binding attributes and other variables none, and every variable of the
  module has an address space that suits it;
* bodies declare plain locals, call functions that are no entry points, read what is declared, and
  never lead back to their own function;
* entry points carry what their stage asks for, and no two resources that one of them uses share a
  place.

`Module.breaches` lists the breaches of a module in a fixed order, of which a compiler reports the
first. What stands behind the first breach may be a consequence of it. -/

namespace BindingSuite.Wgsl

/-- A breach of the rules. -/
inductive Breach where
  /-- A name is declared again. -/
  | redeclaration (name : Word)
  /-- A binding attribute has other arguments than one number. -/
  | malformedIndex (name : Word)
  /-- A resource has no group. -/
  | missingGroup (name : Word)
  /-- A resource has no binding number. -/
  | missingBinding (name : Word)
  /-- A plain variable has a binding attribute. -/
  | attributesOnVariable (name : Word) (addressSpace : Option String)
  /-- A plain variable has no address space. -/
  | missingAddressSpace (name : Word)
  /-- A variable's address space does not exist. -/
  | unknownAddressSpace (name : Word) (addressSpace : String)
  /-- A local variable has a binding attribute. -/
  | attributesOnLocal (name : Word)
  /-- A local variable is in another address space than the function's. -/
  | localAddressSpace (name : Word) (addressSpace : String)
  /-- A local variable has the type of a texture or sampler. -/
  | localHandle (name : Word) (typeName : String)
  /-- A function calls something that is not declared. -/
  | unresolvedCall (callee function : String)
  /-- A function calls an entry point. -/
  | entryPointCall (callee function : String)
  /-- A body reads something that is not declared. -/
  | unresolvedReference (name : Word)
  /-- A function can reach itself by calls. -/
  | recursive (name : Word)
  /-- A compute entry point has no workgroup size. -/
  | missingWorkgroupSize (name : Word)
  /-- A vertex entry point returns no position. -/
  | missingPosition (name : Word)
  /-- An entry point uses two resources that are bound at one place. -/
  | sharedPlace (name : Word) (owner entryPoint : String) (group binding : Nat)
  deriving DecidableEq

/-- The text of a breach. Calls are not located. -/
def Breach.message : Breach → String
  | redeclaration name => name.position.text ++ ": redeclaration of '" ++ name.text ++ "'"
  | malformedIndex name =>
    name.position.text ++ ": @" ++ name.text ++ " requires a single non-negative integer"
  | missingGroup name =>
    name.position.text ++ ": resource variable '" ++ name.text ++ "' requires @group"
  | missingBinding name =>
    name.position.text ++ ": resource variable '" ++ name.text ++ "' requires @binding"
  | attributesOnVariable name addressSpace =>
    name.position.text ++ ": @group/@binding may only be applied to resource variables, not '"
      ++ name.text ++ "' in address space '" ++ addressSpace.getD "None" ++ "'"
  | missingAddressSpace name =>
    name.position.text ++ ": module-scope variable '" ++ name.text ++ "' requires an address space"
  | unknownAddressSpace name addressSpace =>
    name.position.text ++ ": unknown address space '" ++ addressSpace ++ "'"
  | attributesOnLocal name =>
    name.position.text ++ ": @group/@binding are not valid on function-scope variable '"
      ++ name.text ++ "'"
  | localAddressSpace name addressSpace =>
    name.position.text ++ ": function-scope variable '" ++ name.text
      ++ "' cannot be in address space '" ++ addressSpace ++ "'"
  | localHandle name typeName =>
    name.position.text ++ ": function-scope variable '" ++ name.text ++ "' cannot have type '"
      ++ typeName ++ "'"
  | unresolvedCall callee function =>
    "unresolved call target '" ++ callee ++ "' in '" ++ function ++ "'"
  | entryPointCall callee function =>
    "entry point '" ++ callee ++ "' cannot be called from '" ++ function ++ "'"
  | unresolvedReference name =>
    name.position.text ++ ": unresolved identifier '" ++ name.text ++ "'"
  | recursive name => name.position.text ++ ": function '" ++ name.text ++ "' is recursive"
  | missingWorkgroupSize name =>
    name.position.text ++ ": compute entry point '" ++ name.text ++ "' requires @workgroup_size"
  | missingPosition name =>
    name.position.text ++ ": vertex entry point '" ++ name.text
      ++ "' must return @builtin(position)"
  | sharedPlace name owner entryPoint group binding =>
    name.position.text ++ ": '" ++ name.text ++ "' and '" ++ owner ++ "' used by entry point '"
      ++ entryPoint ++ "' share @group(" ++ group.repr ++ ") @binding(" ++ binding.repr ++ ")"

/-! ## Names -/

/-- The breaches by names that occur in `seen` or earlier in the list. -/
def nameBreaches (seen : List String) : List Word → List Breach
  | [] => []
  | name :: rest =>
    if name.text ∈ seen then .redeclaration name :: nameBreaches seen rest
    else nameBreaches (name.text :: seen) rest

/-! ## Variables of the module -/

/-- The number that an attribute gives, if its only argument is one. -/
def Attribute.index? (given : Attribute) : Option Nat :=
  match given.arguments with
  | [.number value] => some value
  | _ => none

/-- The number that the first attribute of a given name gives. -/
def index? (attributes : List Attribute) (name : String) : Option Nat :=
  (findAttribute? attributes name).bind Attribute.index?

/-- The breach by the first attribute of a given name, if it gives no number. -/
def indexBreaches (attributes : List Attribute) (name : String) : List Breach :=
  match findAttribute? attributes name with
  | some given => if given.index?.isNone then [.malformedIndex given.name] else []
  | none => []

/-- The breaches by the attributes that a resource lacks. -/
def resourceBreaches (declared : Variable) : List Breach :=
  (if hasAttribute declared.attributes "group" then [] else [.missingGroup declared.name])
    ++ if hasAttribute declared.attributes "binding" then [] else [.missingBinding declared.name]

/-- The breaches by the attributes and the address space of a plain variable. -/
def plainBreaches (declared : Variable) : List Breach :=
  (if hasAttribute declared.attributes "group" || hasAttribute declared.attributes "binding" then
      [.attributesOnVariable declared.name declared.addressSpace?]
    else [])
  ++ match declared.addressSpace? with
    | none => [.missingAddressSpace declared.name]
    | some addressSpace =>
      if addressSpace = "private" || addressSpace = "workgroup" then []
      else [.unknownAddressSpace declared.name addressSpace]

/-- The breaches by a variable of the module. -/
def globalBreaches (declared : Variable) : List Breach :=
  indexBreaches declared.attributes "group" ++ indexBreaches declared.attributes "binding"
    ++ if declared.isResource then resourceBreaches declared else plainBreaches declared

/-! ## Bodies -/

/-- The breaches by a local variable. -/
def localBreaches (declared : Variable) : List Breach :=
  (if hasAttribute declared.attributes "group" || hasAttribute declared.attributes "binding" then
      [.attributesOnLocal declared.name]
    else [])
  ++ (match declared.addressSpace? with
    | none => []
    | some addressSpace =>
      if addressSpace = "function" then []
      else [.localAddressSpace declared.name addressSpace])
  ++ if isHandleType declared.typeName then [.localHandle declared.name declared.typeName] else []

/-- The constructors of vectors, which an expression may call without declaring them. -/
def vectorConstructors : List String := ["vec4f", "vec4i", "vec4u", "vec4h", "vec4"]

namespace Module

/-- The function of a given name. -/
def function? (module : Module) (name : String) : Option Function :=
  module.functions.find? fun declared => declared.name.text = name

/-- The breaches by a call of `callee` in `function`. -/
def callBreaches (module : Module) (function callee : String) : List Breach :=
  match module.function? callee with
  | none => [.unresolvedCall callee function]
  | some declared => if declared.stage?.isSome then [.entryPointCall callee function] else []

/-- The breaches by an expression in the body of `function`, below the names of earlier locals. -/
def expressionBreaches (module : Module) (function : String) (locals : List String) :
    Expression → List Breach
  | .reference name =>
    if name.text ∈ locals || name.text ∈ module.globals.map (·.name.text) then []
    else [.unresolvedReference name]
  | .call name =>
    if name.text ∈ vectorConstructors then [] else module.callBreaches function name.text
  | .number _ => []

/-- The breaches by one statement in the body of `function`, below the names of earlier locals. -/
def statementBreaches (module : Module) (function : String) (locals : List String) :
    Statement → List Breach
  | .declare declared => localBreaches declared
  | .call name => module.callBreaches function name.text
  | .drop value => module.expressionBreaches function locals value
  | .leave value => (value.map (module.expressionBreaches function locals)).getD []

/-- The breaches by the statements of the body of `function`, below the names of earlier locals. -/
def bodyBreaches (module : Module) (function : String) (locals : List String) :
    List Statement → List Breach
  | [] => []
  | statement :: rest =>
    module.statementBreaches function locals statement
      ++ module.bodyBreaches function (statement.declaredNames ++ locals) rest

/-- The breaches by a function. -/
def functionBreaches (module : Module) (function : Function) : List Breach :=
  module.bodyBreaches function.name.text [] function.body
    ++ if module.callGraph.isRecursive function.name.text then [.recursive function.name] else []

/-! ## Entry points -/

/-- The breaches by an entry point that lacks what its stage asks for. -/
def stageBreaches (entryPoint : Function) : List Breach :=
  match entryPoint.stage? with
  | some .compute =>
    if hasAttribute entryPoint.attributes "workgroup_size" then []
    else [.missingWorkgroupSize entryPoint.name]
  | some .vertex =>
    if hasAttribute ((entryPoint.result.map Result.attributes).getD []) "builtin" then []
    else [.missingPosition entryPoint.name]
  | _ => []

/-- The resources that an entry point uses: the name and the place of each that has one, in the
order of their declarations. -/
def interfaceOf (module : Module) (entryPoint : String) : List (Word × Nat × Nat) :=
  let used := module.callGraph.reachableVariables entryPoint
  module.globals.filterMap fun declared =>
    if declared.name.text ∈ used && declared.isResource then
      match index? declared.attributes "group", index? declared.attributes "binding" with
      | some group, some binding => some (declared.name, group, binding)
      | _, _ => none
    else none

/-- The breaches by shared places in an interface, given who already holds which place. -/
def placeBreaches (entryPoint : String) (owners : List ((Nat × Nat) × String)) :
    List (Word × Nat × Nat) → List Breach
  | [] => []
  | (name, place) :: rest =>
    match owners.lookup place with
    | some owner =>
      .sharedPlace name owner entryPoint place.1 place.2 :: placeBreaches entryPoint owners rest
    | none => placeBreaches entryPoint ((place, name.text) :: owners) rest

/-- The breaches by an entry point. -/
def entryPointBreaches (module : Module) (entryPoint : Function) : List Breach :=
  stageBreaches entryPoint
    ++ placeBreaches entryPoint.name.text [] (module.interfaceOf entryPoint.name.text)

/-! ## Modules -/

/-- The names that a module declares: its variables', then its functions'. -/
def declaredNames (module : Module) : List Word :=
  module.globals.map (·.name) ++ module.functions.map (·.name)

/-- The breaches of a module, in the order in which they are looked for. -/
def breaches (module : Module) : List Breach :=
  nameBreaches [] module.declaredNames
    ++ module.globals.flatMap globalBreaches
    ++ module.functions.flatMap module.functionBreaches
    ++ module.entryPoints.flatMap module.entryPointBreaches

end Module

end BindingSuite.Wgsl
