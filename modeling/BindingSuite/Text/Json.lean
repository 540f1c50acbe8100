import BindingSuite.Text.Quoted

/-! # JSON documents

The values that a manifest is made of, and their text: objects and arrays one entry a line,
indented by two spaces a level, in plain ASCII.

* `Json` is a document;
* `Json.text` is its text. -/

namespace BindingSuite.Text

/-- A JSON document without fractions and without null. -/
inductive Json where
  /-- A truth value. -/
  | bool (value : Bool)
  /-- An integer. -/
  | number (value : Int)
  /-- A string. -/
  | string (value : String)
  /-- An array. -/
  | array (items : List Json)
  /-- An object, with its members in the order in which they are written. -/
  | object (members : List (String × Json))

namespace Json

/-- The escape of a sixteen-bit unit. -/
def unitEscape (unit : Nat) : List Char :=
  '\\' :: 'u' :: hexadecimal 4 unit

/-- One character of a string: everything outside visible ASCII is escaped, above `U+FFFF` as a
pair of surrogates. -/
def escape (character : Char) : List Char :=
  let code := character.toNat
  if character = '"' || character = '\\' then ['\\', character]
  else if character = '\n' then ['\\', 'n']
  else if character = '\r' then ['\\', 'r']
  else if character = '\t' then ['\\', 't']
  else if code = 0x0c then ['\\', 'f']
  else if code = 0x08 then ['\\', 'b']
  else if 0x20 ≤ code && code ≤ 0x7e then [character]
  else if code < 0x10000 then unitEscape code
  else
    unitEscape (0xd800 + (code - 0x10000) / 0x400) ++
      unitEscape (0xdc00 + (code - 0x10000) % 0x400)

/-- The text of a string, with its quotes. -/
def stringText (value : String) : String :=
  String.ofList ('"' :: value.toList.flatMap escape ++ ['"'])

/-- The entries of an array or object between brackets, each on a line of its own. -/
def block (opening closing : String) (depth : Nat) (entries : List String) : String :=
  let indent (depth : Nat) := String.ofList ('\n' :: List.replicate (2 * depth) ' ')
  if entries.isEmpty then opening ++ closing
  else opening ++ indent (depth + 1) ++ ("," ++ indent (depth + 1)).intercalate entries
    ++ indent depth ++ closing

mutual

/-- The text of a document that stands `depth` levels deep. -/
def textAt (depth : Nat) : Json → String
  | bool value => if value then "true" else "false"
  | number value => value.repr
  | string value => stringText value
  | array items => block "[" "]" depth (itemTexts (depth + 1) items)
  | object members => block "\x7b" "\x7d" depth (memberTexts (depth + 1) members)

/-- The texts of an array's items. -/
def itemTexts (depth : Nat) : List Json → List String
  | [] => []
  | item :: rest => textAt depth item :: itemTexts depth rest

/-- The texts of an object's members. -/
def memberTexts (depth : Nat) : List (String × Json) → List String
  | [] => []
  | (key, value) :: rest => (stringText key ++ ": " ++ textAt depth value) :: memberTexts depth rest

end

/-- The text of a document. -/
def text (document : Json) : String :=
  textAt 0 document

end Json

end BindingSuite.Text
