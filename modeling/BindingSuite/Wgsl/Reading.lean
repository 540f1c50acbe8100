import BindingSuite.Text.Excerpt
import BindingSuite.Text.Integer
import BindingSuite.Wgsl.Module
import BindingSuite.Wgsl.Parser
import BindingSuite.Wgsl.Scan

/-! # Reading modules

From a source text to the module that it declares: scanning, parsing, and giving types their text
and numerals their numbers.

* `Tree.Parameter.text` and `Tree.TypeName.text` write types in one way, whatever their layout was;
* `Numeral.value` is the number of a numeral, `Numeral.isOversized` bounds its digits;
* `Tree.numerals` lists the numerals of a tree that count as numbers, and `Tree.toModule` is the
  module that a tree stands for;
* `Module.ofSource` reads a whole text. A syntax error anywhere is found before any numeral counts
  as too long. -/

namespace BindingSuite.Wgsl

/-! ## Types -/

namespace Tree

mutual

/-- The text of a parameter: numerals keep their spelling. -/
def Parameter.text : Parameter → String
  | .numeral text => text
  | .type name parameters => name ++ bracketText parameters

/-- The text of a bracket of parameters, none if it is empty. -/
def bracketText : List Parameter → String
  | [] => ""
  | first :: rest => "<" ++ first.text ++ restText rest ++ ">"

/-- The text of the parameters behind the first. -/
def restText : List Parameter → String
  | [] => ""
  | next :: rest => ", " ++ next.text ++ restText rest

end

/-- The text of a type. -/
def TypeName.text (type : TypeName) : String :=
  type.name ++ bracketText type.parameters

end Tree

/-! ## Numerals -/

/-- Where a numeral stands that counts as a number. -/
inductive NumeralRole where
  /-- As the argument of an attribute. -/
  | argument
  /-- As an expression. -/
  | expression
  deriving DecidableEq

/-- The grammar's name of a role. -/
def NumeralRole.rule : NumeralRole → String
  | argument => "attr_arg"
  | expression => "int_lit"

/-- A numeral that counts as a number. -/
structure Numeral where
  /-- Where it stands. -/
  role : NumeralRole
  /-- Its spelling. -/
  text : String
  deriving DecidableEq

/-- The digits of a spelling, without the suffix. -/
def numeralDigits (text : String) : List Char :=
  text.toList.takeWhile isDigit

/-- The number of a spelling; leading zeros and the suffix mean nothing. -/
def numeralValue (text : String) : Nat :=
  Nat.ofDigitChars 10 (numeralDigits text) 0

/-- Whether a numeral has more digits than the limit. -/
def Numeral.isOversized (numeral : Numeral) : Bool :=
  Text.digitLimit < (numeralDigits numeral.text).length

/-- What is said of an oversized numeral. -/
def Numeral.oversizedMessage (numeral : Numeral) : String :=
  "Error trying to process rule \"" ++ numeral.role.rule
    ++ "\":\n\n" ++ Text.digitLimitMessage (numeralDigits numeral.text).length

namespace Tree

/-- The numeral of an argument, if it is one. -/
def Argument.numeral? : Argument → Option Numeral
  | numeral text => some ⟨.argument, text⟩
  | word _ => none

/-- The numerals of an attribute. -/
def Attribute.numerals (given : Attribute) : List Numeral :=
  given.arguments.filterMap Argument.numeral?

/-- The numerals of a variable. Those in its type are no numbers. -/
def Variable.numerals (declared : Variable) : List Numeral :=
  declared.attributes.flatMap Attribute.numerals

/-- The numerals of an expression. -/
def Expression.numerals : Expression → List Numeral
  | call _ => []
  | reference _ => []
  | numeral text => [⟨.expression, text⟩]

/-- The numerals of a statement. -/
def Statement.numerals : Statement → List Numeral
  | drop value => value.numerals
  | call _ => []
  | declare declared => declared.numerals
  | leave value => (value.map Expression.numerals).getD []

/-- The numerals of a result. -/
def Result.numerals (result : Result) : List Numeral :=
  result.attributes.flatMap Attribute.numerals

/-- The numerals of a function. -/
def Function.numerals (declared : Function) : List Numeral :=
  declared.attributes.flatMap Attribute.numerals
    ++ (declared.result.map Result.numerals).getD []
    ++ declared.body.flatMap Statement.numerals

/-- The numerals of a declaration. -/
def Declaration.numerals : Declaration → List Numeral
  | ofVariable declared => declared.numerals
  | ofFunction declared => declared.numerals

/-- The numerals of a tree that count as numbers, in the order of the text. -/
def numerals (tree : Tree) : List Numeral :=
  tree.flatMap Declaration.numerals

/-! ## Meanings of trees -/

/-- The argument that a tree stands for. -/
def Argument.toArgument : Argument → Wgsl.Argument
  | numeral text => .number (numeralValue text)
  | word text => .word text

/-- The attribute that a tree stands for. -/
def Attribute.toAttribute (given : Attribute) : Wgsl.Attribute :=
  ⟨given.name, given.arguments.map Argument.toArgument⟩

/-- The variable that a tree stands for. -/
def Variable.toVariable (declared : Variable) : Wgsl.Variable :=
  ⟨declared.attributes.map Attribute.toAttribute, declared.template, declared.name,
    declared.type.text⟩

/-- The expression that a tree stands for. -/
def Expression.toExpression : Expression → Wgsl.Expression
  | call name => .call name
  | reference name => .reference name
  | numeral text => .number (numeralValue text)

/-- The statement that a tree stands for. -/
def Statement.toStatement : Statement → Wgsl.Statement
  | drop value => .drop value.toExpression
  | call name => .call name
  | declare declared => .declare declared.toVariable
  | leave value => .leave (value.map Expression.toExpression)

/-- The result that a tree stands for. -/
def Result.toResult (result : Result) : Wgsl.Result :=
  ⟨result.attributes.map Attribute.toAttribute, result.type.text⟩

/-- The function that a tree stands for. -/
def Function.toFunction (declared : Function) : Wgsl.Function :=
  ⟨declared.attributes.map Attribute.toAttribute, declared.name,
    declared.result.map Result.toResult, declared.body.map Statement.toStatement⟩

/-- The variable that a declaration stands for, if it is one. -/
def Declaration.variable? : Declaration → Option Wgsl.Variable
  | ofVariable declared => some declared.toVariable
  | ofFunction _ => none

/-- The function that a declaration stands for, if it is one. -/
def Declaration.function? : Declaration → Option Wgsl.Function
  | ofVariable _ => none
  | ofFunction declared => some declared.toFunction

/-- The module that a tree stands for. -/
def toModule (tree : Tree) : Module :=
  ⟨tree.filterMap Declaration.variable?, tree.filterMap Declaration.function?⟩

end Tree

/-! ## Sources -/

/-- The reasons for which a source text has no module. -/
inductive ReadError where
  /-- The text is not of the grammar; it fails at this position. -/
  | syntaxError (position : Position)
  /-- A numeral has too many digits. -/
  | oversized (numeral : Numeral)
  deriving DecidableEq

/-- What is said of a syntax error in a text, with an excerpt. -/
def syntaxErrorMessage (source : String) (position : Position) : String :=
  position.text ++ ": syntax error\n" ++ Text.excerpt source.toList position.offset

/-- Where a scanned text fails for want of further tokens: at the character that starts no token,
or else at the last token. -/
def Scan.endPosition (scan : Scan) : Position :=
  match scan.stray with
  | some position => position
  | none => (scan.tokens.getLast?.map LocatedToken.position).getD .start

/-- The tree of a scanned text. -/
def Scan.toTree (scan : Scan) : Except Position Tree :=
  match Tree.ofTokens scan.tokens with
  | .error (.token position) => .error position
  | .error .endOfTokens => .error scan.endPosition
  | .ok tree =>
    match scan.stray with
    | some position => .error position
    | none => .ok tree

/-- The module that a source text declares. Of several numerals with too many digits the first
counts. -/
def Module.ofSource (source : String) : Except ReadError Module :=
  match (scan source.toList).toTree with
  | .error position => .error (.syntaxError position)
  | .ok tree =>
    match tree.numerals.find? Numeral.isOversized with
    | some numeral => .error (.oversized numeral)
    | none => .ok tree.toModule

end BindingSuite.Wgsl
