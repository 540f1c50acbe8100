import Mathlib
import BindingSuite.Wgsl.Reading

/-! # Positions aside

Two layouts of the same tokens give modules that differ only in the positions of their words.

* `unplaced` puts every word of a tree or of a module at the start of the text: what is equal then
  is equal positions aside;
* `Tree.toModule_unplaced` says that a tree without its positions stands for the module without
  its positions. -/

namespace BindingSuite.Wgsl

/-- A word without its position. -/
def Word.unplaced (word : Word) : Word :=
  ⟨word.text, .start⟩

@[simp] theorem Word.text_unplaced (word : Word) : word.unplaced.text = word.text := rfl

/-! ## Trees -/

namespace Tree

/-- An attribute without its position. -/
def Attribute.unplaced (given : Attribute) : Attribute :=
  { given with name := given.name.unplaced }

/-- A variable without its positions. -/
def Variable.unplaced (declared : Variable) : Variable :=
  { declared with
    attributes := declared.attributes.map Attribute.unplaced
    name := declared.name.unplaced }

/-- An expression without its position. -/
def Expression.unplaced : Expression → Expression
  | call name => call name.unplaced
  | reference name => reference name.unplaced
  | numeral text => numeral text

/-- A statement without its positions. -/
def Statement.unplaced : Statement → Statement
  | drop value => drop value.unplaced
  | call name => call name.unplaced
  | declare declared => declare declared.unplaced
  | leave value => leave (value.map Expression.unplaced)

/-- A result without its positions. -/
def Result.unplaced (result : Result) : Result :=
  { result with attributes := result.attributes.map Attribute.unplaced }

/-- A function without its positions. -/
def Function.unplaced (declared : Function) : Function :=
  { attributes := declared.attributes.map Attribute.unplaced
    name := declared.name.unplaced
    result := declared.result.map Result.unplaced
    body := declared.body.map Statement.unplaced }

/-- A declaration without its positions. -/
def Declaration.unplaced : Declaration → Declaration
  | ofVariable declared => ofVariable declared.unplaced
  | ofFunction declared => ofFunction declared.unplaced

/-- A tree without its positions. -/
def unplaced (tree : Tree) : Tree :=
  tree.map Declaration.unplaced

end Tree

/-! ## Modules -/

/-- An attribute without its position. -/
def Attribute.unplaced (given : Attribute) : Attribute :=
  { given with name := given.name.unplaced }

/-- A variable without its positions. -/
def Variable.unplaced (declared : Variable) : Variable :=
  { declared with
    attributes := declared.attributes.map Attribute.unplaced
    name := declared.name.unplaced }

/-- An expression without its position. -/
def Expression.unplaced : Expression → Expression
  | call name => call name.unplaced
  | reference name => reference name.unplaced
  | number value => number value

/-- A statement without its positions. -/
def Statement.unplaced : Statement → Statement
  | drop value => drop value.unplaced
  | call name => call name.unplaced
  | declare declared => declare declared.unplaced
  | leave value => leave (value.map Expression.unplaced)

/-- A result without its positions. -/
def Result.unplaced (result : Result) : Result :=
  { result with attributes := result.attributes.map Attribute.unplaced }

/-- A function without its positions. -/
def Function.unplaced (function : Function) : Function :=
  { attributes := function.attributes.map Attribute.unplaced
    name := function.name.unplaced
    result := function.result.map Result.unplaced
    body := function.body.map Statement.unplaced }

/-- A module without its positions. -/
def Module.unplaced (module : Module) : Module :=
  ⟨module.globals.map Variable.unplaced, module.functions.map Function.unplaced⟩

/-! ## Meanings of trees -/

namespace Tree

/-- An attribute without its position stands for the attribute without its position. -/
theorem Attribute.toAttribute_unplaced (given : Attribute) :
    given.unplaced.toAttribute = given.toAttribute.unplaced := rfl

/-- A variable without its positions stands for the variable without its positions. -/
theorem Variable.toVariable_unplaced (declared : Variable) :
    declared.unplaced.toVariable = declared.toVariable.unplaced := by
  simp [unplaced, toVariable, Wgsl.Variable.unplaced, Attribute.toAttribute_unplaced]

/-- An expression without its position stands for the expression without its position. -/
theorem Expression.toExpression_unplaced (value : Expression) :
    value.unplaced.toExpression = value.toExpression.unplaced := by
  cases value <;> rfl

/-- A statement without its positions stands for the statement without its positions. -/
theorem Statement.toStatement_unplaced (statement : Statement) :
    statement.unplaced.toStatement = statement.toStatement.unplaced := by
  cases statement with
  | drop value =>
    simp [unplaced, toStatement, Wgsl.Statement.unplaced, Expression.toExpression_unplaced]
  | call name => rfl
  | declare declared =>
    simp [unplaced, toStatement, Wgsl.Statement.unplaced, Variable.toVariable_unplaced]
  | leave value =>
    cases value <;>
      simp [unplaced, toStatement, Wgsl.Statement.unplaced, Expression.toExpression_unplaced]

/-- A result without its positions stands for the result without its positions. -/
theorem Result.toResult_unplaced (result : Result) :
    result.unplaced.toResult = result.toResult.unplaced := by
  simp [unplaced, toResult, Wgsl.Result.unplaced, Attribute.toAttribute_unplaced]

/-- A function without its positions stands for the function without its positions. -/
theorem Function.toFunction_unplaced (declared : Function) :
    declared.unplaced.toFunction = declared.toFunction.unplaced := by
  simp [unplaced, toFunction, Wgsl.Function.unplaced, Attribute.toAttribute_unplaced,
    Result.toResult_unplaced, Statement.toStatement_unplaced, Function.comp_def]

/-- A tree without its positions stands for the module without its positions. -/
theorem toModule_unplaced (tree : Tree) : tree.unplaced.toModule = tree.toModule.unplaced := by
  have globals (declaration : Declaration) :
      declaration.unplaced.variable? = declaration.variable?.map Wgsl.Variable.unplaced := by
    cases declaration with
    | ofVariable declared => exact congrArg some declared.toVariable_unplaced
    | ofFunction declared => rfl
  have functions (declaration : Declaration) :
      declaration.unplaced.function? = declaration.function?.map Wgsl.Function.unplaced := by
    cases declaration with
    | ofVariable declared => rfl
    | ofFunction declared => exact congrArg some declared.toFunction_unplaced
  simp [unplaced, toModule, Module.unplaced, List.filterMap_map, List.map_filterMap, globals,
    functions]

/-! ## Numerals -/

/-- Positions are no part of the numerals of attributes. -/
theorem numerals_attributes_unplaced (attributes : List Attribute) :
    (attributes.map Attribute.unplaced).flatMap Attribute.numerals =
      attributes.flatMap Attribute.numerals :=
  List.flatMap_map ..

/-- Positions are no part of the numerals of a variable. -/
theorem Variable.numerals_unplaced (declared : Variable) :
    declared.unplaced.numerals = declared.numerals :=
  numerals_attributes_unplaced declared.attributes

/-- Positions are no part of the numerals of a statement. -/
theorem Statement.numerals_unplaced (statement : Statement) :
    statement.unplaced.numerals = statement.numerals := by
  have expression (value : Expression) : value.unplaced.numerals = value.numerals := by
    cases value <;> rfl
  cases statement with
  | drop value => exact expression value
  | call name => rfl
  | declare declared => exact declared.numerals_unplaced
  | leave value =>
    cases value with
    | none => rfl
    | some value => exact expression value

/-- Positions are no part of the numerals of a function. -/
theorem Function.numerals_unplaced (declared : Function) :
    declared.unplaced.numerals = declared.numerals := by
  have result : (declared.result.map Result.unplaced).map Result.numerals =
      declared.result.map Result.numerals := by
    cases declared.result with
    | none => rfl
    | some result => exact congrArg some (numerals_attributes_unplaced result.attributes)
  have body : (declared.body.map Statement.unplaced).flatMap Statement.numerals =
      declared.body.flatMap Statement.numerals := by
    simp only [List.flatMap_map, Statement.numerals_unplaced]
  simp only [numerals, unplaced, numerals_attributes_unplaced, result, body]

/-- Positions are no part of the numerals of a tree. -/
theorem numerals_unplaced (tree : Tree) : tree.unplaced.numerals = tree.numerals := by
  have declaration (declaration : Declaration) :
      declaration.unplaced.numerals = declaration.numerals := by
    cases declaration with
    | ofVariable declared => exact declared.numerals_unplaced
    | ofFunction declared => exact declared.numerals_unplaced
  simp [numerals, unplaced, List.flatMap_map, declaration]

end Tree

end BindingSuite.Wgsl
