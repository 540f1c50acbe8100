/-! # Excerpts

The lines that follow a complaint about a source text: the part of the offending line near the
complaint's offset, and below it a caret.

* `excerptBefore` and `excerptAfter` cut the line, at most `excerptSpan` characters to each side;
* `displayWidth` is the width of a text on a terminal with a tab stop every eight columns;
* `excerpt` puts them together. -/

namespace BindingSuite.Text

/-- How many characters an excerpt shows on each side of its offset at most. -/
def excerptSpan : Nat := 40

/-- The part of the line before an offset. -/
def excerptBefore (text : List Char) (offset : Nat) : List Char :=
  ((text.take offset).drop (offset - excerptSpan)).reverse.takeWhile (· ≠ '\n') |>.reverse

/-- The part of the line from an offset on. -/
def excerptAfter (text : List Char) (offset : Nat) : List Char :=
  ((text.drop offset).take excerptSpan).takeWhile (· ≠ '\n')

/-- The width that a text adds to a line already `column` wide. A tab reaches the next multiple of
eight; a carriage return has a width of its own and starts the count of columns again. -/
def displayWidthFrom (column : Nat) : List Char → Nat
  | [] => 0
  | '\t' :: rest => 8 - column % 8 + displayWidthFrom (column + (8 - column % 8)) rest
  | '\r' :: rest => 1 + displayWidthFrom 0 rest
  | _ :: rest => 1 + displayWidthFrom (column + 1) rest

/-- The width of a text that starts a line. -/
def displayWidth (text : List Char) : Nat :=
  displayWidthFrom 0 text

/-- The line around an offset of a text, and a caret below the character at the offset. -/
def excerpt (text : List Char) (offset : Nat) : String :=
  let before := excerptBefore text offset
  let caret := List.replicate (displayWidth before) ' ' ++ ['^', '\n']
  String.ofList (before ++ excerptAfter text offset ++ '\n' :: caret)

end BindingSuite.Text
