import BindingSuite.CallGraph.Reachability
import BindingSuite.Resource

/-! # Programs

The shader programs that the scenarios generate, before they are written out as text.

* `Resource`, `ModuleVariable` and `LocalVariable` are the variables of a program;
* `Function` and `EntryPoint` have bodies of `Statement`s;
* `Program` holds the declarations, and `Program.callGraph` is what calls what.

Names, types and address spaces are arbitrary texts: whether they make sense is for a compiler to
say. -/

namespace BindingSuite

/-! ## Variables -/

/-- A resource that a program binds. -/
structure Resource where
  /-- The variable's name. -/
  name : String
  /-- What is bound. -/
  kind : ResourceKind
  /-- The group, when it is declared. -/
  group : Option Index := none
  /-- The binding number, when it is declared. -/
  binding : Option Index := none
  deriving DecidableEq

/-- The place of a resource, when both its attributes are declared. -/
def Resource.point? (resource : Resource) : Option BindingPoint :=
  match resource.group, resource.binding with
  | some group, some binding => some ⟨group, binding⟩
  | _, _ => none

/-- A plain data variable of a module. -/
structure ModuleVariable where
  /-- The variable's name. -/
  name : String
  /-- Its address space. -/
  addressSpace : String
  /-- The text of its type. -/
  typeName : String
  /-- The group, when one is declared. -/
  group : Option Index := none
  /-- The binding number, when one is declared. -/
  binding : Option Index := none
  deriving DecidableEq

/-- A variable declared in the body of a function. -/
structure LocalVariable where
  /-- The variable's name. -/
  name : String
  /-- The text of its type. -/
  typeName : String
  /-- Its address space, when one is declared. -/
  addressSpace : Option String := none
  /-- The group, when one is declared. -/
  group : Option Index := none
  /-- The binding number, when one is declared. -/
  binding : Option Index := none
  deriving DecidableEq

/-! ## Functions -/

/-- A statement of a body. -/
inductive Statement where
  /-- Reads a variable and drops its value. -/
  | use (name : String)
  /-- Calls a function. -/
  | call (name : String)
  /-- Declares a local variable, which hides a module's variable of its name from here on. -/
  | declare (localVariable : LocalVariable)
  /-- A statement outside the language of programs, which has no written form. -/
  | unknown
  deriving DecidableEq

namespace Statement

/-- The function that a statement calls. -/
def callee? : Statement → Option String
  | call name => some name
  | _ => none

/-- The local variable that a statement declares. -/
def localVariable? : Statement → Option LocalVariable
  | declare localVariable => some localVariable
  | _ => none

/-- The name that a statement declares, as a list of at most one. -/
def declaredNames (statement : Statement) : List String :=
  (statement.localVariable?.map LocalVariable.name).toList

/-- The name whose value a statement reads. -/
def usedName? : Statement → Option String
  | use name => some name
  | _ => none

/-- The names outside a body that its statements use, below the names of earlier locals. -/
def usedNames (locals : List String) : List Statement → List String
  | [] => []
  | statement :: rest =>
    statement.usedName?.toList.filter (· ∉ locals)
      ++ usedNames (statement.declaredNames ++ locals) rest

end Statement

/-- A function without parameters. -/
structure Function where
  /-- The function's name. -/
  name : String
  /-- Its statements. -/
  body : List Statement := []
  deriving DecidableEq

namespace Function

/-- The functions that a body calls. -/
def calls (function : Function) : List String :=
  function.body.filterMap Statement.callee?

/-- The variables of the module that a body uses. -/
def uses (function : Function) : List String :=
  Statement.usedNames [] function.body

/-- The local variables of a body. -/
def locals (function : Function) : List LocalVariable :=
  function.body.filterMap Statement.localVariable?

/-- A function as it enters the call graph. -/
def node (function : Function) : CallGraph.Node :=
  ⟨function.name, function.calls, function.uses⟩

end Function

/-- A function at which a pipeline stage starts. -/
structure EntryPoint extends Function where
  /-- The name of the stage. -/
  stage : String := Stage.compute.name
  deriving DecidableEq

/-! ## Programs -/

/-- A program: its declarations, each sort in the order of their text. -/
structure Program where
  /-- The resources. -/
  resources : List Resource := []
  /-- The plain variables. -/
  globals : List ModuleVariable := []
  /-- The functions that are no entry points. -/
  helpers : List Function := []
  /-- The entry points. -/
  entryPoints : List EntryPoint := []
  deriving DecidableEq

namespace Program

/-- All functions of a program: its helpers, then its entry points. -/
def functions (program : Program) : List Function :=
  program.helpers ++ program.entryPoints.map EntryPoint.toFunction

/-- The names of a program's resources and plain variables. -/
def variableNames (program : Program) : List String :=
  program.resources.map (·.name) ++ program.globals.map (·.name)

/-- Every name that a program declares at module scope, in the order of the declarations. -/
def declaredNames (program : Program) : List String :=
  program.variableNames ++ program.functions.map (·.name)

/-- The call graph of a program's functions. -/
def callGraph (program : Program) : CallGraph :=
  .ofNodes (program.functions.map Function.node)

end Program

end BindingSuite
