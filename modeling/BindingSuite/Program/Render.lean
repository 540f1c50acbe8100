import BindingSuite.Program.Basic

/-! # The text of a program

* `declarationText` writes a variable with its attributes;
* `Statement.text`, `Function.text` and `EntryPoint.text` write code;
* `Program.text` writes a whole program: variables, helpers and entry points, in sections that an
  empty line separates.

Writing fails only for an entry point of an unknown stage and for a statement without a written
form. -/

namespace BindingSuite

/-- The reasons for which a program has no text. -/
inductive RenderError where
  /-- No stage has this name. -/
  | unknownStage (name : String)
  /-- A statement is outside the language. -/
  | unknownStatement
  deriving DecidableEq

/-- What is said of a program without a text. -/
def RenderError.message : RenderError → String
  | unknownStage name => "Unknown shader stage '" ++ name ++ "'"
  | unknownStatement => "Unknown statement type"

/-! ## Variables -/

/-- The binding attributes of a declaration, each followed by a space. -/
def attributesText (group binding : Option Index) : String :=
  (match group with
    | some group => "@group(" ++ group.text ++ ") "
    | none => "")
  ++ (match binding with
    | some binding => "@binding(" ++ binding.text ++ ") "
    | none => "")

/-- The keyword of a variable with its address space; an empty address space counts as none. -/
def variableKeyword (addressSpace : Option String) : String :=
  match addressSpace with
  | some addressSpace => if addressSpace = "" then "var" else "var<" ++ addressSpace ++ ">"
  | none => "var"

/-- The declaration of a variable. -/
def declarationText (name typeName : String) (addressSpace : Option String)
    (group binding : Option Index) : String :=
  attributesText group binding ++ variableKeyword addressSpace ++ " " ++ name ++ " : " ++ typeName
    ++ ";"

/-- The declaration of a resource. -/
def Resource.text (resource : Resource) : String :=
  declarationText resource.name resource.kind.storeType resource.kind.addressSpace? resource.group
    resource.binding

/-- The declaration of a plain variable. -/
def ModuleVariable.text (declared : ModuleVariable) : String :=
  declarationText declared.name declared.typeName (some declared.addressSpace) declared.group
    declared.binding

/-- Breaks the line before the first `var` that follows a closing parenthesis and a space. -/
def breakBeforeVariable : List Char → List Char
  | ')' :: ' ' :: 'v' :: 'a' :: 'r' :: rest =>
    ')' :: '\n' :: ' ' :: ' ' :: 'v' :: 'a' :: 'r' :: rest
  | character :: rest => character :: breakBeforeVariable rest
  | [] => []

/-- The declaration of a local variable, with its attributes on a line of their own. -/
def LocalVariable.text (declared : LocalVariable) : String :=
  String.ofList <| breakBeforeVariable <| String.toList <|
    declarationText declared.name declared.typeName declared.addressSpace declared.group
      declared.binding

/-! ## Functions -/

/-- A statement. -/
def Statement.text : Statement → Except RenderError String
  | use name => .ok ("_ = " ++ name ++ ";")
  | call name => .ok (name ++ "();")
  | declare localVariable => .ok localVariable.text
  | unknown => .error .unknownStatement

/-- The statements of a body, one a line, without the indentation of the first. -/
def bodyText (body : List Statement) : Except RenderError String := do
  return "\n  ".intercalate (← body.mapM Statement.text)

/-- A function that is no entry point: on one line unless it has several statements. -/
def Function.text (function : Function) : Except RenderError String := do
  let body ← bodyText function.body
  if function.body.length > 1 then
    return "fn " ++ function.name ++ "() \x7b\n  " ++ body ++ "\n\x7d"
  else
    return "fn " ++ function.name ++ "() \x7b " ++ body ++ " \x7d"

/-- The declaration of an entry point of a stage, around the text of its body. A vertex entry
point returns a position, and a compute entry point has a workgroup of one. -/
def Stage.entryPointText (stage : Stage) (name body : String) : String :=
  match stage with
  | vertex =>
    "@vertex\nfn " ++ name ++ "() -> @builtin(position) vec4f \x7b\n  " ++ body
      ++ "\n  return vec4f();\n\x7d"
  | fragment => "@fragment\nfn " ++ name ++ "() \x7b\n  " ++ body ++ "\n\x7d"
  | compute => "@compute @workgroup_size(1)\nfn " ++ name ++ "() \x7b\n  " ++ body ++ "\n\x7d"

/-- The declaration of an entry point of the stage of a given name. -/
def entryPointText (name stage body : String) : Except RenderError String :=
  match Stage.ofName? stage with
  | some stage => .ok (stage.entryPointText name body)
  | none => .error (.unknownStage stage)

/-- An entry point. -/
def EntryPoint.text (entryPoint : EntryPoint) : Except RenderError String := do
  entryPointText entryPoint.name entryPoint.stage (← bodyText entryPoint.body)

/-! ## Programs -/

/-- A section of declarations, one a line; there is none without declarations. -/
def sectionText (declarations : List String) : List String :=
  if declarations.isEmpty then [] else ["\n".intercalate declarations]

/-- The text of a program. -/
def Program.text (program : Program) : Except RenderError String := do
  let globals := program.resources.map Resource.text ++ program.globals.map ModuleVariable.text
  let helpers ← program.helpers.mapM Function.text
  let entryPoints ← program.entryPoints.mapM EntryPoint.text
  return "\n\n".intercalate (sectionText globals ++ sectionText helpers ++ entryPoints) ++ "\n"

end BindingSuite
