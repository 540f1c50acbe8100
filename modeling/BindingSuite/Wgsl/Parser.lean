import BindingSuite.Wgsl.Tree

/-! # Parsing

How a list of tokens becomes the tree that derives it. The grammar needs one token of look-ahead,
so a `Parser` takes tokens from the front and never gives one back; when it fails, it fails at the
first token that cannot continue any module.

* `Parser`, `expect`, `word` and `many` are the means;
* the parsers below them follow the grammar, symbol by symbol;
* `Tree.ofTokens` parses a whole module. -/

namespace BindingSuite.Wgsl

/-! ## Parsers -/

/-- Why a list of tokens cannot be continued to a module. -/
inductive Unexpected where
  /-- A token at this position stands where it cannot. -/
  | token (position : Position)
  /-- The tokens end too early. -/
  | endOfTokens
  deriving DecidableEq

/-- A parser takes what it reads from the front of the remaining tokens. -/
abbrev Parser := StateT (List LocatedToken) (Except Unexpected)

namespace Parser

/-- Fails at the next token. -/
def fail {α : Type} : Parser α := fun tokens =>
  match tokens with
  | [] => .error .endOfTokens
  | next :: _ => .error (.token next.position)

/-- The next token, which stays. -/
def peek : Parser (Option Token) := fun tokens =>
  .ok (tokens.head?.map LocatedToken.token, tokens)

/-- Takes the given token. -/
def expect (token : Token) : Parser Unit := fun tokens =>
  match tokens with
  | [] => .error .endOfTokens
  | next :: rest => if next.token = token then .ok ((), rest) else .error (.token next.position)

/-- Takes the given token if it is next, and says whether it was. -/
def accept (token : Token) : Parser Bool := do
  if (← peek) = some token then
    expect token
    return true
  else
    return false

/-- Takes a word. -/
def word : Parser Word := fun tokens =>
  match tokens with
  | [] => .error .endOfTokens
  | next :: rest =>
    match next.token with
    | .name text => .ok (⟨text, next.position⟩, rest)
    | _ => .error (.token next.position)

/-- Takes items as long as the next token can start one, at most `fuel` of them. -/
def manyUpTo {α : Type} (starts : Token → Bool) (item : Parser α) : Nat → Parser (List α)
  | 0 => return []
  | fuel + 1 => do
    match ← peek with
    | none => return []
    | some token =>
      if starts token then
        let first ← item
        let rest ← manyUpTo starts item fuel
        return first :: rest
      else return []

/-- Takes items as long as the next token can start one. Every item takes a token, so their number
is bounded by that of the tokens. -/
def many {α : Type} (starts : Token → Bool) (item : Parser α) : Parser (List α) := do
  manyUpTo starts item (← get).length

/-! ## Attributes -/

/-- Takes an argument of an attribute. -/
def argument : Parser Tree.Argument := fun tokens =>
  match tokens with
  | [] => .error .endOfTokens
  | next :: rest =>
    match next.token with
    | .name text => .ok (.word text, rest)
    | .numeral text => .ok (.numeral text, rest)
    | _ => .error (.token next.position)

/-- Takes the arguments behind the first, at most `fuel` of them, and the closing parenthesis. Says
also whether a comma stood before that. -/
def moreArguments : Nat → Parser (List Tree.Argument × Bool)
  | 0 => fail
  | fuel + 1 => do
    if ← accept .comma then
      if ← accept .closeParenthesis then return ([], true)
      else
        let next ← argument
        let (rest, trailingComma) ← moreArguments fuel
        return (next :: rest, trailingComma)
    else
      expect .closeParenthesis
      return ([], false)

/-- Takes one attribute. -/
def singleAttribute : Parser Tree.Attribute := do
  expect .at
  let name ← word
  if ← accept .openParenthesis then
    let first ← argument
    let (rest, trailingComma) ← moreArguments ((← get).length + 1)
    return { name, arguments := first :: rest, trailingComma }
  else
    return { name }

/-- Takes the attributes that come next. -/
def attributes : Parser (List Tree.Attribute) :=
  many (· = .at) singleAttribute

/-! ## Types -/

mutual

/-- Takes a parameter of a type, in at most `fuel` steps. -/
def parameter : Nat → Parser Tree.Parameter
  | 0 => fail
  | fuel + 1 => do
    match ← peek with
    | some (.numeral text) =>
      expect (.numeral text)
      return .numeral text
    | _ =>
      let name ← word
      return .type name.text (← parameters fuel)

/-- Takes a bracket of parameters, if there is one. -/
def parameters : Nat → Parser (List Tree.Parameter)
  | 0 => fail
  | fuel + 1 => do
    if ← accept .less then
      let first ← parameter fuel
      return first :: (← moreParameters fuel)
    else return []

/-- Takes the parameters behind the first and the closing bracket. -/
def moreParameters : Nat → Parser (List Tree.Parameter)
  | 0 => fail
  | fuel + 1 => do
    if ← accept .comma then
      let next ← parameter fuel
      return next :: (← moreParameters fuel)
    else
      expect .greater
      return []

end

/-- Takes a type. Every second step at least takes a token. -/
def typeName : Parser Tree.TypeName := do
  let name ← word
  return { name := name.text, parameters := ← parameters (2 * (← get).length + 2) }

/-! ## Variables -/

/-- Takes the template of a variable, if there is one: a word, or two with a comma between. -/
def template : Parser (List String) := do
  if ← accept .less then
    let first ← word
    if ← accept .comma then
      let second ← word
      expect .greater
      return [first.text, second.text]
    else
      expect .greater
      return [first.text]
  else return []

/-- Takes a variable behind its attributes. -/
def variableWith (attributes : List Tree.Attribute) : Parser Tree.Variable := do
  expect (.keyword .var)
  let template ← template
  let name ← word
  expect .colon
  let type ← typeName
  expect .semicolon
  return { attributes, template, name, type }

/-! ## Functions -/

/-- Takes an expression. -/
def expression : Parser Tree.Expression := do
  match ← peek with
  | some (.numeral text) =>
    expect (.numeral text)
    return .numeral text
  | _ =>
    let name ← word
    if ← accept .openParenthesis then
      expect .closeParenthesis
      return .call name
    else return .reference name

/-- Takes a statement. -/
def statement : Parser Tree.Statement := do
  match ← peek with
  | some (.keyword .underscore) =>
    expect (.keyword .underscore)
    expect .equals
    let value ← expression
    expect .semicolon
    return .drop value
  | some (.keyword .returns) =>
    expect (.keyword .returns)
    if ← accept .semicolon then return .leave none
    else
      let value ← expression
      expect .semicolon
      return .leave (some value)
  | some (.name _) =>
    let name ← word
    expect .openParenthesis
    expect .closeParenthesis
    expect .semicolon
    return .call name
  | _ => return .declare (← variableWith (← attributes))

/-- Takes the result of a function, if there is one. -/
def result : Parser (Option Tree.Result) := do
  if ← accept .arrow then
    let attributes ← attributes
    return some { attributes, type := ← typeName }
  else return none

/-- Takes a function behind its attributes. -/
def functionWith (attributes : List Tree.Attribute) : Parser Tree.Function := do
  expect (.keyword .fn)
  let name ← word
  expect .openParenthesis
  expect .closeParenthesis
  let result ← result
  expect .openBrace
  let body ← many (· ≠ .closeBrace) statement
  expect .closeBrace
  return { attributes, name, result, body }

/-! ## Modules -/

/-- Takes a declaration. -/
def declaration : Parser Tree.Declaration := do
  let attributes ← attributes
  if (← peek) = some (.keyword .fn) then return .ofFunction (← functionWith attributes)
  else return .ofVariable (← variableWith attributes)

/-- Takes declarations to the end of the tokens. -/
def declarations : Parser Tree :=
  many (fun _ => true) declaration

end Parser

/-- The tree of a module's tokens. -/
def Tree.ofTokens (tokens : List LocatedToken) : Except Unexpected Tree :=
  (Parser.declarations.run tokens).map Prod.fst

end BindingSuite.Wgsl
