import BindingSuite.Program.Basic
import BindingSuite.Text.Names

/-! # Expected verdicts

Whether a conforming compiler must accept a program, and if not, every reason why.

* every resource carries both binding attributes, and no other variable carries one;
* local variables live in the function's own address space and hold no handles;
* names are declared once and before they are used, and no function is recursive;
* two resources that one entry point uses, directly or through any chain of calls, are bound at
  different places. Resources that no entry point uses together cannot collide.

`Program.verdict` lists the reasons for a rejection; `Verdict.accepted` says that there are none. -/

namespace BindingSuite

/-- A reason to reject a program. -/
inductive Reason where
  /-- A name is declared again. -/
  | duplicateDeclaration (name : String)
  /-- A function uses a variable that is not declared. -/
  | undeclaredVariable (function variableName : String)
  /-- A function calls something that is no helper. -/
  | unknownFunction (function callee : String)
  /-- A function can reach itself by calls. -/
  | recursive (function : String)
  /-- A resource has no group. -/
  | missingGroup (resource : String)
  /-- A resource has no binding number. -/
  | missingBinding (resource : String)
  /-- A plain variable has a binding attribute. -/
  | attributesOnVariable (variableName addressSpace : String)
  /-- A local variable has a binding attribute. -/
  | attributesOnLocal (localName function : String)
  /-- A local variable is in another address space than the function's. -/
  | localAddressSpace (localName function addressSpace : String)
  /-- A local variable has the type of a texture or sampler. -/
  | localHandle (localName function typeName : String)
  /-- An entry point uses two resources that are bound at one place. -/
  | collision (entryPoint owner other : String) (point : BindingPoint)
  deriving DecidableEq

/-- The text of a reason. -/
def Reason.message : Reason → String
  | duplicateDeclaration name => "'" ++ name ++ "' is declared more than once"
  | undeclaredVariable function variableName =>
    "'" ++ function ++ "' references undeclared variable '" ++ variableName ++ "'"
  | unknownFunction function callee =>
    "'" ++ function ++ "' calls unknown function '" ++ callee ++ "'"
  | recursive function => "'" ++ function ++ "' is recursive"
  | missingGroup resource => "resource '" ++ resource ++ "' is missing @group"
  | missingBinding resource => "resource '" ++ resource ++ "' is missing @binding"
  | attributesOnVariable variableName addressSpace =>
    "module variable '" ++ variableName ++ "' in address space '" ++ addressSpace
      ++ "' cannot have @group/@binding"
  | attributesOnLocal localName function =>
    "function-scope variable '" ++ localName ++ "' in '" ++ function
      ++ "' cannot have @group/@binding"
  | localAddressSpace localName function addressSpace =>
    "function-scope variable '" ++ localName ++ "' in '" ++ function
      ++ "' cannot be in address space '" ++ addressSpace ++ "'"
  | localHandle localName function typeName =>
    "function-scope variable '" ++ localName ++ "' in '" ++ function ++ "' cannot have type '"
      ++ typeName ++ "'"
  | collision entryPoint owner other point =>
    "entry point '" ++ entryPoint ++ "' uses '" ++ owner ++ "' and '" ++ other
      ++ "' at the same binding " ++ point.text

/-- What is expected of a compiler: the reasons to reject a program, if there are any. -/
structure Verdict where
  /-- The reasons for a rejection. -/
  reasons : List Reason
  deriving DecidableEq

/-- A program is to be accepted when nothing speaks against it. -/
def Verdict.accepted (verdict : Verdict) : Bool :=
  verdict.reasons.isEmpty

/-- A verdict accepts when it has no reasons. -/
@[simp] theorem Verdict.accepted_iff {verdict : Verdict} :
    verdict.accepted = true ↔ verdict.reasons = [] :=
  List.isEmpty_iff

/-! ## Declarations -/

/-- The names of a list that occur in `seen` or earlier in the list, once for each repetition. -/
def repeatedNames (seen : List String) : List String → List String
  | [] => []
  | name :: rest =>
    if name ∈ seen then name :: repeatedNames seen rest else repeatedNames (name :: seen) rest

namespace Program

/-- The reasons that a function's references give. -/
def referenceReasons (program : Program) (function : Function) : List Reason :=
  let undeclared := function.uses.filter fun name => name ∉ program.variableNames
  let unknown := function.calls.filter fun name => name ∉ program.helpers.map (·.name)
  (Text.sortedNames undeclared).map (Reason.undeclaredVariable function.name)
    ++ (Text.sortedNames unknown).map (Reason.unknownFunction function.name)

/-- The reasons that repeated declarations, unresolved references and recursion give. -/
def declarationReasons (program : Program) : List Reason :=
  (repeatedNames [] program.declaredNames).map Reason.duplicateDeclaration
    ++ program.functions.flatMap program.referenceReasons
    ++ (program.functions.filter fun function =>
        program.callGraph.isRecursive function.name).map fun function =>
          Reason.recursive function.name

/-! ## Attributes and scopes -/

/-- The reasons that missing attributes give. -/
def attributeReasons (program : Program) : List Reason :=
  program.resources.flatMap fun resource =>
    (if resource.group.isNone then [Reason.missingGroup resource.name] else [])
      ++ if resource.binding.isNone then [Reason.missingBinding resource.name] else []

/-- The reasons that one local variable gives. -/
def localReasons (function : Function) (declared : LocalVariable) : List Reason :=
  (if declared.group.isSome || declared.binding.isSome then
      [Reason.attributesOnLocal declared.name function.name]
    else [])
  ++ (match declared.addressSpace with
    | some addressSpace =>
      if addressSpace = "function" then []
      else [Reason.localAddressSpace declared.name function.name addressSpace]
    | none => [])
  ++ if isHandleType declared.typeName then
      [Reason.localHandle declared.name function.name declared.typeName]
    else []

/-- The reasons that plain variables and local variables give. -/
def scopeReasons (program : Program) : List Reason :=
  (program.globals.filter fun declared =>
      declared.group.isSome || declared.binding.isSome).map (fun declared =>
        Reason.attributesOnVariable declared.name declared.addressSpace)
    ++ program.functions.flatMap fun function => function.locals.flatMap (localReasons function)

/-! ## Collisions -/

/-- The bound resources that an entry point uses: their names and places, in the order of their
declarations. -/
def interfaceOf (program : Program) (entryPoint : String) : List (String × BindingPoint) :=
  let used := program.callGraph.reachableVariables entryPoint
  program.resources.filterMap fun resource =>
    if resource.name ∈ used then resource.point?.map fun point => (resource.name, point) else none

/-- The collisions in an interface, given who already holds which place, in normal form. The first
resource at a place holds it. -/
def collisions (entryPoint : String) (owners : List (BindingPoint × String)) :
    List (String × BindingPoint) → List Reason
  | [] => []
  | (name, point) :: rest =>
    match owners.lookup point.normal with
    | none => collisions entryPoint ((point.normal, name) :: owners) rest
    | some owner =>
      if owner = name then collisions entryPoint owners rest
      else .collision entryPoint owner name point :: collisions entryPoint owners rest

/-- The reasons that collisions give, entry point by entry point. -/
def collisionReasons (program : Program) : List Reason :=
  program.entryPoints.flatMap fun entryPoint =>
    collisions entryPoint.name [] (program.interfaceOf entryPoint.name)

/-- The expected verdict on a program. -/
def verdict (program : Program) : Verdict :=
  ⟨program.declarationReasons ++ program.attributeReasons ++ program.scopeReasons
    ++ program.collisionReasons⟩

end Program

end BindingSuite
