/-! # Lines of text

* `isLineBoundary` and `splitLines` divide a tool's output at every line boundary, of which a
  carriage return followed by a line feed counts as one;
* `isBlank` and `isBlankLine` recognise lines with nothing to read on them;
* `nonblankLines` is what remains of an output for a reader;
* `numbered` shows a text with its lines numbered from one. Only line feeds count there. -/

namespace BindingSuite.Text

/-- The characters that end a line of a tool's output. -/
def isLineBoundary (character : Char) : Bool :=
  (0x0a ≤ character.toNat && character.toNat ≤ 0x0d)
    || (0x1c ≤ character.toNat && character.toNat ≤ 0x1e)
    || character.toNat = 0x85 || character.toNat = 0x2028 || character.toNat = 0x2029

/-- Unicode white space, to which the separators from `U+001C` to `U+001F` belong here. -/
def isBlank (character : Char) : Bool :=
  let code := character.toNat
  (0x09 ≤ code && code ≤ 0x0d) || (0x1c ≤ code && code ≤ 0x20) || code = 0x85 || code = 0xa0
    || code = 0x1680 || (0x2000 ≤ code && code ≤ 0x200a) || code = 0x2028 || code = 0x2029
    || code = 0x202f || code = 0x205f || code = 0x3000

/-- The lines of a text that continues a line holding `current`, which is kept in reverse order.
A boundary at the very end opens no further line. -/
def splitLinesFrom (current : List Char) : List Char → List (List Char)
  | [] => if current.isEmpty then [] else [current.reverse]
  | '\r' :: '\n' :: rest => current.reverse :: splitLinesFrom [] rest
  | character :: rest =>
    if isLineBoundary character then current.reverse :: splitLinesFrom [] rest
    else splitLinesFrom (character :: current) rest

/-- The lines of a text, without their boundaries. -/
def splitLines (text : String) : List String :=
  (splitLinesFrom [] text.toList).map String.ofList

/-- A line is blank when it holds white space only. -/
def isBlankLine (line : String) : Bool :=
  line.toList.all isBlank

/-- The lines of a text on which there is something to read. -/
def nonblankLines (text : String) : List String :=
  (splitLines text).filter fun line => !isBlankLine line

/-- A text padded on the left to at least `width` characters. -/
def padLeft (width : Nat) (fill : Char) (text : String) : String :=
  String.ofList (text.toList.leftpad width fill)

/-- A text padded with spaces on the right to at least `width` characters. -/
def padRight (width : Nat) (text : String) : String :=
  String.ofList (text.toList.rightpad width ' ')

/-- A text with every line preceded by its number, in a column of at least four places. -/
def numbered (text : String) : String :=
  "\n".intercalate <| (text.toList.splitOn '\n').zipIdx.map fun (line, index) =>
    padLeft 4 ' ' (index + 1).repr ++ ": " ++ String.ofList line

end BindingSuite.Text
