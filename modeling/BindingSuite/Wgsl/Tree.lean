import BindingSuite.Wgsl.Token

/-! # Syntax trees

The derivations of the grammar of modules, one type for each of its symbols. A tree keeps
everything that its tokens say, so that `yield` gives them back: a module's tree is a derivation of
the tokens that it yields.

* `Declaration` is a variable or a function, and a module is a list of declarations;
* the names that messages point at are kept as `Word`s, with their positions. -/

namespace BindingSuite.Wgsl

/-- A word of a source text and where it stands. -/
structure Word where
  /-- The word. -/
  text : String
  /-- Where it starts. -/
  position : Position
  deriving DecidableEq

namespace Tree

/-! ## Attributes -/

/-- An argument of an attribute. -/
inductive Argument where
  /-- A numeral, as it is spelled. -/
  | numeral (text : String)
  /-- A word. -/
  | word (text : String)
  deriving DecidableEq

/-- The token of an argument. -/
def Argument.token : Argument → Token
  | numeral text => .numeral text
  | word text => .name text

/-- An attribute. -/
structure Attribute where
  /-- Its name. -/
  name : Word
  /-- Its arguments; without any, it has no parentheses. -/
  arguments : List Argument := []
  /-- Whether a comma follows the last argument. -/
  trailingComma : Bool := false
  deriving DecidableEq

/-- The tokens of a list, with commas between them. -/
def separated : List (List Token) → List Token
  | [] => []
  | [item] => item
  | item :: rest => item ++ .comma :: separated rest

/-- The tokens of an attribute. -/
def Attribute.yield (given : Attribute) : List Token :=
  .at :: .name given.name.text ::
    if given.arguments.isEmpty then []
    else .openParenthesis :: separated (given.arguments.map fun argument => [argument.token])
      ++ (if given.trailingComma then [.comma] else []) ++ [.closeParenthesis]

/-! ## Types -/

/-- A parameter of a type. -/
inductive Parameter where
  /-- A numeral, as it is spelled. -/
  | numeral (text : String)
  /-- A type: its name and its own parameters. -/
  | type (name : String) (parameters : List Parameter)

/-- A type. -/
structure TypeName where
  /-- The name in front. -/
  name : String
  /-- The parameters; without any, there are no brackets. -/
  parameters : List Parameter := []

mutual

/-- The tokens of a parameter. -/
def Parameter.yield : Parameter → List Token
  | .numeral text => [.numeral text]
  | .type name parameters => .name name :: bracketYield parameters

/-- The tokens of a bracket of parameters, none if it is empty. -/
def bracketYield : List Parameter → List Token
  | [] => []
  | first :: rest => .less :: first.yield ++ restYield rest ++ [.greater]

/-- The tokens of the parameters behind the first. -/
def restYield : List Parameter → List Token
  | [] => []
  | next :: rest => .comma :: next.yield ++ restYield rest

end

/-- The tokens of a type. -/
def TypeName.yield (type : TypeName) : List Token :=
  .name type.name :: bracketYield type.parameters

/-! ## Variables -/

/-- The declaration of a variable. -/
structure Variable where
  /-- Its attributes. -/
  attributes : List Attribute := []
  /-- The words between angle brackets: an address space and an access, or fewer. -/
  template : List String := []
  /-- Its name. -/
  name : Word
  /-- Its type. -/
  type : TypeName

/-- The tokens of a template. -/
def templateYield (template : List String) : List Token :=
  if template.isEmpty then []
  else .less :: separated (template.map fun word => [.name word]) ++ [.greater]

/-- The tokens of a variable. -/
def Variable.yield (declared : Variable) : List Token :=
  declared.attributes.flatMap Attribute.yield ++ .keyword .var :: templateYield declared.template
    ++ .name declared.name.text :: .colon :: declared.type.yield ++ [.semicolon]

/-! ## Functions -/

/-- An expression. -/
inductive Expression where
  /-- A call without arguments. -/
  | call (name : Word)
  /-- The value of a variable. -/
  | reference (name : Word)
  /-- A numeral, as it is spelled. -/
  | numeral (text : String)
  deriving DecidableEq

/-- The tokens of an expression. -/
def Expression.yield : Expression → List Token
  | call name => [.name name.text, .openParenthesis, .closeParenthesis]
  | reference name => [.name name.text]
  | numeral text => [.numeral text]

/-- A statement. -/
inductive Statement where
  /-- Computes a value and drops it. -/
  | drop (value : Expression)
  /-- Calls a function. -/
  | call (name : Word)
  /-- Declares a local variable. -/
  | declare (declared : Variable)
  /-- Leaves the function, with a value or without. -/
  | leave (value : Option Expression)

/-- The tokens of a statement. -/
def Statement.yield : Statement → List Token
  | drop value => .keyword .underscore :: .equals :: value.yield ++ [.semicolon]
  | call name => [.name name.text, .openParenthesis, .closeParenthesis, .semicolon]
  | declare declared => declared.yield
  | leave value => .keyword .returns :: (value.map Expression.yield).getD [] ++ [.semicolon]

/-- What a function returns. -/
structure Result where
  /-- The attributes of the value. -/
  attributes : List Attribute := []
  /-- Its type. -/
  type : TypeName

/-- The tokens of a result. -/
def Result.yield (result : Result) : List Token :=
  .arrow :: result.attributes.flatMap Attribute.yield ++ result.type.yield

/-- The declaration of a function. -/
structure Function where
  /-- Its attributes. -/
  attributes : List Attribute := []
  /-- Its name. -/
  name : Word
  /-- What it returns, if anything. -/
  result : Option Result := none
  /-- Its statements. -/
  body : List Statement := []

/-- The tokens of a function. -/
def Function.yield (declared : Function) : List Token :=
  declared.attributes.flatMap Attribute.yield
    ++ .keyword .fn :: .name declared.name.text :: .openParenthesis :: .closeParenthesis ::
      (declared.result.map Result.yield).getD []
    ++ .openBrace :: declared.body.flatMap Statement.yield ++ [.closeBrace]

/-! ## Modules -/

/-- A declaration of a module. -/
inductive Declaration where
  /-- A variable. -/
  | ofVariable (declared : Variable)
  /-- A function. -/
  | ofFunction (declared : Function)

/-- The tokens of a declaration. -/
def Declaration.yield : Declaration → List Token
  | ofVariable declared => declared.yield
  | ofFunction declared => declared.yield

end Tree

/-- The tree of a module: its declarations. -/
abbrev Tree := List Tree.Declaration

/-- The tokens of a module. -/
def Tree.yield (tree : Tree) : List Token :=
  tree.flatMap Declaration.yield

end BindingSuite.Wgsl
