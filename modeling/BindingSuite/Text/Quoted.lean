import BindingSuite.Text.Unprintable

/-! # Quoted literals

The form in which messages show a text that may hold anything: between quotes, on one line, with
every character visible.

* `delimiter` chooses the quote: a single one, unless the text holds single quotes and no double
  quote;
* `escape` writes one character;
* `quoted` writes the whole literal. -/

namespace BindingSuite.Text

/-- A number in lower-case hexadecimal digits, padded with zeros to at least `width` digits. -/
def hexadecimal (width number : Nat) : List Char :=
  (Nat.toDigits 16 number).leftpad width '0'

/-- The shortest numeric escape of a character that its code point fits. -/
def numericEscape (character : Char) : List Char :=
  let code := character.toNat
  if code < 0x100 then '\\' :: 'x' :: hexadecimal 2 code
  else if code < 0x10000 then '\\' :: 'u' :: hexadecimal 4 code
  else '\\' :: 'U' :: hexadecimal 8 code

/-- The quote that encloses a text: double when that alone avoids escaping single quotes. -/
def delimiter (text : List Char) : Char :=
  if text.contains '\'' && !text.contains '"' then '"' else '\''

/-- One character inside a literal that `quote` encloses. -/
def escape (quote character : Char) : List Char :=
  if character = quote || character = '\\' then ['\\', character]
  else if character = '\t' then ['\\', 't']
  else if character = '\n' then ['\\', 'n']
  else if character = '\r' then ['\\', 'r']
  else if isUnprintable character then numericEscape character
  else [character]

/-- The quoted literal of a text. -/
def quoted (text : String) : String :=
  let characters := text.toList
  let quote := delimiter characters
  String.ofList (quote :: characters.flatMap (escape quote) ++ [quote])

end BindingSuite.Text
