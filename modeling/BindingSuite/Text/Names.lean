/-! # Sets of names

A set of names is kept as a list in which order and repetition mean nothing. `sortedNames` is the
form in which such a set is shown: every name once, by code points. -/

namespace BindingSuite.Text

/-- The names of a list, each once and in the order of their code points. -/
def sortedNames (names : List String) : List String :=
  names.eraseDups.mergeSort fun first second => decide (first ≤ second)

/-- Sorting keeps the set of names. -/
@[simp] theorem mem_sortedNames {names : List String} {name : String} :
    name ∈ sortedNames names ↔ name ∈ names := by
  simp [sortedNames]

end BindingSuite.Text
