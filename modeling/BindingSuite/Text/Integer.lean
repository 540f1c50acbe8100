import BindingSuite.Text.Lines

/-! # Integers in text

How a numeral of a source text and an integer argument on a command line are read.

* `digitLimit` bounds the digits of any numeral that is read;
* `digitValue?` knows the decimal digits of every script;
* `decimalDigits?` reads digits with single underscores between them;
* `readInteger?` reads an optional sign and digits, with white space around them. -/

namespace BindingSuite.Text

/-- The most digits, leading zeros included, that a numeral may have. -/
def digitLimit : Nat := 4300

/-- What is said of a numeral with more digits than that. -/
def digitLimitMessage (digits : Nat) : String :=
  "Exceeds the limit (" ++ digitLimit.repr
    ++ " digits) for integer string conversion: value has " ++ digits.repr
    ++ " digits; use sys.set_int_max_str_digits() to increase the limit"

/-- The code points of the zeros of all decimal digit sets; nine digits follow each of them. -/
def zeroDigits : List Nat :=
  [48, 1632, 1776, 1984, 2406, 2534, 2662, 2790, 2918, 3046, 3174, 3302, 3430, 3558, 3664, 3792,
    3872, 4160, 4240, 6112, 6160, 6470, 6608, 6784, 6800, 6992, 7088, 7232, 7248, 42528, 43216,
    43264, 43472, 43504, 43600, 44016, 65296, 66720, 68912, 69734, 69872, 69942, 70096, 70384,
    70736, 70864, 71248, 71360, 71472, 71904, 72016, 72784, 73040, 73120, 92768, 92864, 93008,
    120782, 120792, 120802, 120812, 120822, 123200, 123632, 125264, 130032]

/-- The value of a decimal digit of any script. -/
def digitValue? (character : Char) : Option Nat :=
  (zeroDigits.find? fun base => base ≤ character.toNat && character.toNat < base + 10).map
    fun base => character.toNat - base

/-- The values of a nonempty run of digits in which single underscores may separate digits. -/
def decimalDigits? : List Char → Option (List Nat)
  | [] => none
  | [character] => (digitValue? character).map ([·])
  | character :: '_' :: rest => do
    let first ← digitValue? character
    let others ← decimalDigits? rest
    return first :: others
  | character :: rest => do
    let first ← digitValue? character
    let others ← decimalDigits? rest
    return first :: others

/-- The number that a list of digits denotes, most significant digit first. -/
def ofDigits (digits : List Nat) : Nat :=
  digits.foldl (fun value digit => 10 * value + digit) 0

/-- The number that a run of digits denotes, when it keeps to the digit limit. -/
def readNatural? (text : List Char) : Option Nat := do
  let digits ← decimalDigits? text
  guard (digits.length ≤ digitLimit)
  return ofDigits digits

/-- The white space that may surround a numeral: all but the separators below `U+0020`. -/
def isMargin (character : Char) : Bool :=
  isBlank character && !(0x1c ≤ character.toNat && character.toNat ≤ 0x1f)

/-- A text without the white space at both ends. -/
def trimMargins (text : List Char) : List Char :=
  ((text.dropWhile isMargin).reverse.dropWhile isMargin).reverse

/-- The integer that a text denotes: white space, an optional sign, digits and white space. -/
def readInteger? (text : String) : Option Int :=
  match trimMargins text.toList with
  | '+' :: digits => (readNatural? digits).map Int.ofNat
  | '-' :: digits => (readNatural? digits).map fun magnitude => -Int.ofNat magnitude
  | digits => (readNatural? digits).map Int.ofNat

end BindingSuite.Text
