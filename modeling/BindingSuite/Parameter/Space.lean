import BindingSuite.Parameter.Value

/-! # Parameter spaces

The named parameters of a scenario with the values of each, and all combinations of those values.

* `ParameterSpace.addAxis` adds a parameter;
* `ParameterSpace.combinations` lists the combinations. The last parameter varies fastest;
* `ParameterSpace.combination?` computes the combination of a given number from the digits of that
  number in the mixed radix that the domains make up, without listing those before it;
* `Combination.id` is the text that names a combination. -/

namespace BindingSuite

/-! ## Combinations -/

/-- A choice of one value for each of some parameters, in order. -/
abbrev Combination := List (String × Value)

namespace Combination

/-- The value of a parameter. -/
def value? (combination : Combination) (name : String) : Option Value :=
  combination.lookup name

/-- The combination with one parameter set, in its old place if it has one. -/
def set (combination : Combination) (name : String) (value : Value) : Combination :=
  if combination.any fun entry => entry.1 = name then
    combination.map fun entry => if entry.1 = name then (name, value) else entry
  else combination ++ [(name, value)]

/-- The combination that a list of settings makes, of which the last one of each parameter
counts. -/
def ofSettings (settings : List (String × Value)) : Combination :=
  settings.foldl (fun combination entry => combination.set entry.1 entry.2) []

/-- The text that names a combination. -/
def id (combination : Combination) : String :=
  if combination.isEmpty then "-"
  else ";".intercalate (combination.map fun entry => entry.1 ++ "=" ++ entry.2.plain)

end Combination

/-! ## Spaces -/

/-- A parameter and the values that it takes. -/
structure Axis where
  /-- The parameter's name. -/
  name : String
  /-- Its values, of which some may be equal. -/
  values : List Value
  deriving DecidableEq

/-- A space of parameters. -/
structure ParameterSpace where
  /-- The parameters, in the order in which they were combined. -/
  axes : List Axis := []
  deriving DecidableEq

/-- What cannot be done with a parameter space. -/
inductive SpaceError where
  /-- A parameter needs at least one value. -/
  | noValues (name : String)
  /-- A parameter of this name is there already. -/
  | duplicateParameter (name : String)
  /-- There is no parameter of this name. -/
  | unknownParameter (name : String)
  /-- There are more combinations than can be counted. -/
  | sizeOverflow
  deriving DecidableEq

/-- What is said of an error with a parameter space. -/
def SpaceError.message : SpaceError → String
  | noValues name => "Parameter '" ++ name ++ "' has no values"
  | duplicateParameter name => "Duplicate parameter '" ++ name ++ "'"
  | unknownParameter name => name
  | sizeOverflow => "cannot fit 'int' into an index-sized integer"

namespace ParameterSpace

/-- The space without parameters, which has one empty combination. -/
def empty : ParameterSpace := {}

/-- The names of the parameters. -/
def names (space : ParameterSpace) : List String :=
  space.axes.map Axis.name

/-- The space with one more parameter, which varies fastest. -/
def addAxis (space : ParameterSpace) (name : String) (values : List Value) :
    Except SpaceError ParameterSpace :=
  if values.isEmpty then throw (.noValues name)
  else if name ∈ space.names then throw (.duplicateParameter name)
  else return ⟨space.axes ++ [⟨name, values⟩]⟩

/-- The values of a parameter. -/
def valuesOf (space : ParameterSpace) (name : String) : Except SpaceError (List Value) :=
  match space.axes.find? fun axis => axis.name = name with
  | some axis => return axis.values
  | none => throw (.unknownParameter name)

/-- The number of combinations that some axes make. -/
def sizeOf : List Axis → Nat
  | [] => 1
  | axis :: rest => axis.values.length * sizeOf rest

/-- The number of combinations. -/
def size (space : ParameterSpace) : Nat :=
  sizeOf space.axes

/-- The largest number of combinations that can be counted. -/
def sizeLimit : Nat := 0x7fffffffffffffff

/-- The number of combinations, if it can be counted. -/
def countedSize (space : ParameterSpace) : Except SpaceError Nat :=
  if space.size ≤ sizeLimit then return space.size else throw .sizeOverflow

/-- The combinations that some axes make: all that start with the first value of the first axis,
then all that start with its second value, and so on. -/
def combinationsOf : List Axis → List Combination
  | [] => [[]]
  | axis :: rest =>
    axis.values.flatMap fun value => (combinationsOf rest).map fun others =>
      (axis.name, value) :: others

/-- All combinations. -/
def combinations (space : ParameterSpace) : List Combination :=
  combinationsOf space.axes

/-- The combination of a given number that some axes make. -/
def combinationAt? : List Axis → Nat → Option Combination
  | [], number => if number = 0 then some [] else none
  | axis :: rest, number => do
    let value ← axis.values[number / sizeOf rest]?
    let others ← combinationAt? rest (number % sizeOf rest)
    return (axis.name, value) :: others

/-- The combination of a given number, counted from zero. -/
def combination? (space : ParameterSpace) (number : Nat) : Option Combination :=
  combinationAt? space.axes number

/-- There are as many combinations as the size says. -/
@[simp] theorem length_combinationsOf (axes : List Axis) :
    (combinationsOf axes).length = sizeOf axes := by
  induction axes with
  | nil => rfl
  | cons axis rest ih =>
    simp [combinationsOf, sizeOf, List.length_flatMap, ih, List.map_const']

/-- A combination sets the parameters in the order of their axes. -/
theorem names_of_mem_combinationsOf {axes : List Axis} {combination : Combination}
    (member : combination ∈ combinationsOf axes) :
    combination.map Prod.fst = axes.map Axis.name := by
  induction axes generalizing combination with
  | nil => simp_all [combinationsOf]
  | cons axis rest ih =>
    simp only [combinationsOf, List.mem_flatMap, List.mem_map] at member
    obtain ⟨_, _, others, isOther, rfl⟩ := member
    simp [ih isOther]

/-- The first combinations, at most `count` of them. -/
def take (space : ParameterSpace) (count : Nat) : List Combination :=
  (List.range (min count space.size)).filterMap space.combination?

/-- The text of a list of values. -/
def valuesText (values : List Value) : String :=
  "[" ++ ", ".intercalate (values.map Value.quoted) ++ "]"

/-- The listing of a space. -/
def listing (space : ParameterSpace) : String :=
  "ParamSpace(" ++ ", ".intercalate (space.axes.map fun axis =>
    axis.name ++ "=" ++ valuesText axis.values) ++ ")"

end ParameterSpace

end BindingSuite
