import BindingSuite.CallGraph.Reachability
import BindingSuite.Resource
import BindingSuite.Wgsl.Tree

/-! # Modules

What a source text means: the variables and functions that it declares. Types are texts here, and
numerals are numbers.

* `Module` and its parts;
* `Function.calls` and `Function.uses` are the references of a body, `Module.callGraph` what calls
  what;
* `Variable.isResource` tells resources from plain variables. -/

namespace BindingSuite.Wgsl

/-! ## Attributes -/

/-- An argument of an attribute. -/
inductive Argument where
  /-- A number. -/
  | number (value : Nat)
  /-- A word. -/
  | word (text : String)
  deriving DecidableEq

/-- An attribute. -/
structure Attribute where
  /-- Its name. -/
  name : Word
  /-- Its arguments. -/
  arguments : List Argument := []
  deriving DecidableEq

/-- The first attribute of a given name. -/
def findAttribute? (attributes : List Attribute) (name : String) : Option Attribute :=
  attributes.find? fun given => given.name.text = name

/-- Whether there is an attribute of a given name. -/
def hasAttribute (attributes : List Attribute) (name : String) : Bool :=
  (findAttribute? attributes name).isSome

/-! ## Variables -/

/-- A variable of a module or of a function. -/
structure Variable where
  /-- Its attributes. -/
  attributes : List Attribute := []
  /-- Its template: an address space and an access, or fewer. -/
  template : List String := []
  /-- Its name. -/
  name : Word
  /-- The text of its type. -/
  typeName : String
  deriving DecidableEq

/-- The address space of a variable, if its template gives one. -/
def Variable.addressSpace? (declared : Variable) : Option String :=
  declared.template.head?

/-- A variable of a module is a resource when its address space is one of resources, or when it
has none and holds a handle. -/
def Variable.isResource (declared : Variable) : Bool :=
  match declared.addressSpace? with
  | none => isHandleType declared.typeName
  | some addressSpace => addressSpace = "uniform" || addressSpace = "storage"

/-! ## Functions -/

/-- An expression. -/
inductive Expression where
  /-- A call without arguments. -/
  | call (name : Word)
  /-- The value of a variable. -/
  | reference (name : Word)
  /-- A number. -/
  | number (value : Nat)
  deriving DecidableEq

/-- A statement. -/
inductive Statement where
  /-- Computes a value and drops it. -/
  | drop (value : Expression)
  /-- Calls a function. -/
  | call (name : Word)
  /-- Declares a local variable, which hides a variable of the module from here on. -/
  | declare (declared : Variable)
  /-- Leaves the function, with a value or without. -/
  | leave (value : Option Expression)
  deriving DecidableEq

namespace Statement

/-- The value that a statement computes. -/
def value? : Statement → Option Expression
  | drop value => some value
  | leave value => value
  | _ => none

/-- The function that a statement calls, by itself or for its value. -/
def callee? (statement : Statement) : Option String :=
  match statement with
  | call name => some name.text
  | statement =>
    match statement.value? with
    | some (.call name) => some name.text
    | _ => none

/-- The name that a statement declares, as a list of at most one. -/
def declaredNames : Statement → List String
  | declare declared => [declared.name.text]
  | _ => []

/-- The variable whose value a statement reads. -/
def usedName? (statement : Statement) : Option String :=
  match statement.value? with
  | some (.reference name) => some name.text
  | _ => none

/-- The names outside a body that its statements read, below the names of earlier locals. -/
def usedNames (locals : List String) : List Statement → List String
  | [] => []
  | statement :: rest =>
    statement.usedName?.toList.filter (· ∉ locals)
      ++ usedNames (statement.declaredNames ++ locals) rest

end Statement

/-- What a function returns. -/
structure Result where
  /-- The attributes of the value. -/
  attributes : List Attribute := []
  /-- The text of its type. -/
  typeName : String
  deriving DecidableEq

/-- A function. -/
structure Function where
  /-- Its attributes. -/
  attributes : List Attribute := []
  /-- Its name. -/
  name : Word
  /-- What it returns, if anything. -/
  result : Option Result := none
  /-- Its statements. -/
  body : List Statement := []
  deriving DecidableEq

namespace Function

/-- The stage at which a function starts: that of the first attribute that names one. -/
def stage? (function : Function) : Option Stage :=
  function.attributes.findSome? fun given => Stage.ofName? given.name.text

/-- The functions that a body calls. -/
def calls (function : Function) : List String :=
  function.body.filterMap Statement.callee?

/-- The variables of the module that a body reads. -/
def uses (function : Function) : List String :=
  Statement.usedNames [] function.body

/-- A function as it enters the call graph. -/
def node (function : Function) : CallGraph.Node :=
  ⟨function.name.text, function.calls, function.uses⟩

end Function

/-! ## Modules -/

/-- A module: its variables and its functions, each sort in the order of the text. -/
structure Module where
  /-- The variables. -/
  globals : List Variable := []
  /-- The functions. -/
  functions : List Function := []
  deriving DecidableEq

namespace Module

/-- The functions at which a stage starts. -/
def entryPoints (module : Module) : List Function :=
  module.functions.filter fun function => function.stage?.isSome

/-- The call graph of a module's functions. -/
def callGraph (module : Module) : CallGraph :=
  .ofNodes (module.functions.map Function.node)

end Module

end BindingSuite.Wgsl
