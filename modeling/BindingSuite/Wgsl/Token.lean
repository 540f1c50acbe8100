/-! # Tokens

The terminals of the shader language's declaration subset, and where they stand in a text.

* `Position` is a place in a text; lines and columns count from one, and only a line feed ends a
  line;
* `Token` is a terminal together with its spelling, and `Token.text` is that spelling;
* `LocatedToken` is a token with the position of its first character. -/

namespace BindingSuite.Wgsl

/-! ## Positions -/

/-- A place in a source text. -/
structure Position where
  /-- How many characters come before. -/
  offset : Nat
  /-- The line, from one. -/
  line : Nat
  /-- The column in its line, from one. -/
  column : Nat
  deriving DecidableEq

namespace Position

/-- The start of a text. -/
def start : Position := ⟨0, 1, 1⟩

/-- The position after one more character. -/
def advance (position : Position) (character : Char) : Position :=
  if character = '\n' then ⟨position.offset + 1, position.line + 1, 1⟩
  else ⟨position.offset + 1, position.line, position.column + 1⟩

/-- The position after some more text. -/
def advanceOver (position : Position) (text : List Char) : Position :=
  text.foldl advance position

/-- Line and column, as messages give them. -/
def text (position : Position) : String :=
  position.line.repr ++ ":" ++ position.column.repr

@[simp] theorem advanceOver_nil (position : Position) : position.advanceOver [] = position := rfl

@[simp] theorem advanceOver_cons (position : Position) (character : Char) (rest : List Char) :
    position.advanceOver (character :: rest) = (position.advance character).advanceOver rest := rfl

/-- Advancing over a text is advancing over its parts in turn. -/
theorem advanceOver_append (position : Position) (first second : List Char) :
    position.advanceOver (first ++ second) = (position.advanceOver first).advanceOver second := by
  simp [advanceOver]

end Position

/-! ## Terminals -/

/-- The words that have a meaning of their own in some places. -/
inductive Keyword where
  /-- Starts a function. -/
  | fn
  /-- Starts a variable. -/
  | var
  /-- Starts a return. -/
  | returns
  /-- Stands in place of a variable that drops its value. -/
  | underscore
  deriving DecidableEq

/-- The spelling of a keyword. -/
def Keyword.text : Keyword → String
  | fn => "fn"
  | var => "var"
  | returns => "return"
  | underscore => "_"

/-- The terminals. -/
inductive Token where
  | at
  | openParenthesis
  | closeParenthesis
  | comma
  | colon
  | semicolon
  | less
  | greater
  | openBrace
  | closeBrace
  | equals
  | arrow
  /-- A keyword. -/
  | keyword (word : Keyword)
  /-- A word that is no keyword where it stands. -/
  | name (text : String)
  /-- Digits with an optional suffix. -/
  | numeral (text : String)
  deriving DecidableEq

/-- The spelling of a token. -/
def Token.text : Token → String
  | .at => "@"
  | openParenthesis => "("
  | closeParenthesis => ")"
  | comma => ","
  | colon => ":"
  | semicolon => ";"
  | less => "<"
  | greater => ">"
  | openBrace => "\x7b"
  | closeBrace => "\x7d"
  | equals => "="
  | arrow => "->"
  | keyword word => word.text
  | name text => text
  | numeral text => text

/-- A token and the position where it starts. -/
structure LocatedToken where
  /-- The token. -/
  token : Token
  /-- Where it starts. -/
  position : Position
  deriving DecidableEq

end BindingSuite.Wgsl
