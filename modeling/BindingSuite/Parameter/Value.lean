import BindingSuite.Resource

/-! # Parameter values

The values that a scenario's parameters take, and their two texts: `Value.plain` as it stands in
the id of a case, and `Value.quoted` as it stands in listings, where texts are quoted and kinds
are labelled. -/

namespace BindingSuite

/-- A value of a parameter. -/
inductive Value where
  /-- No value. -/
  | absent
  /-- A truth value. -/
  | bool (value : Bool)
  /-- An integer. -/
  | integer (value : Int)
  /-- A text. -/
  | text (value : String)
  /-- A kind of resource. -/
  | kind (value : ResourceKind)
  deriving DecidableEq

namespace Value

/-- The plain text of a value. -/
def plain : Value → String
  | absent => "None"
  | bool value => truthText value
  | integer value => value.repr
  | text value => value
  | kind value => value.name

/-- The text of a value in a listing. -/
def quoted : Value → String
  | absent => "None"
  | bool value => truthText value
  | integer value => value.repr
  | text value => Text.quoted value
  | kind value => value.label

/-- Whether a value counts as true: everything but `absent`, `false`, zero and the empty text. -/
def isTrue : Value → Bool
  | absent => false
  | bool value => value
  | integer value => value ≠ 0
  | text value => value ≠ ""
  | kind _ => true

/-- A value as what a binding attribute holds; an absent value is no attribute. -/
def toIndex? : Value → Option Index
  | absent => none
  | bool value => some (.truth value)
  | integer value => some (.number value)
  | text value => some (.word value)
  | kind value => some (.kind value)

end Value

end BindingSuite
