import Mathlib
import BindingSuite.Parameter.Space

/-! # Mixed radix

A parameter space is the product of its axes, listed in mixed radix: the number of a combination,
counted from zero, has one digit for each axis, and that digit is the place of the axis's value.

* `digit` is a digit of a number and `digits` lists them all, the most significant first;
  `existsUnique_digits` says that below the product of the radices every tuple of digits belongs to
  exactly one number;
* `getElem?_flatMap_of_length` finds an element of lists of one length in a row, and
  `getElem?_combinationsOf` finds a combination by its number;
* `ofAxes` adds axes one after another, and `ofAxes_eq_ok_iff` says when that succeeds;
* `IsProductOf` is what a space is of its axes, and `isProductOf_of_ofAxes` says that every space
  made of axes is that. -/

namespace BindingSuite

/-! ## Digits -/

/-- The digit of a number at a place, when the places have the given radices. The last place counts
ones. -/
def digit (radices : List Nat) (number place : Nat) : Nat :=
  number / (radices.drop (place + 1)).prod % radices.getD place 1

/-- The digits of a number, one for each radix. -/
def digits (radices : List Nat) (number : Nat) : List Nat :=
  (List.range radices.length).map (digit radices number)

section Digits

variable {radices : List Nat} {radix number place : Nat}

/-- The most significant digit counts how often the product of the other radices fits. -/
theorem digit_cons_zero :
    digit (radix :: radices) number 0 = number / radices.prod % radix := rfl

/-- The other digits do not depend on the first radix. -/
theorem digit_cons_succ :
    digit (radix :: radices) number (place + 1) = digit radices number place := rfl

/-- A place with its radix and all places behind it divide the whole product. -/
theorem getD_mul_prod_drop_dvd (inside : place < radices.length) :
    radices.getD place 1 * (radices.drop (place + 1)).prod ∣ radices.prod := by
  have split : radices.drop place = radices.getD place 1 :: radices.drop (place + 1) := by
    rw [List.drop_eq_getElem_cons inside, List.getD_eq_getElem _ _ inside]
  rw [← List.prod_cons, ← split, ← List.prod_take_mul_prod_drop radices place]
  exact Nat.dvd_mul_left _ _

/-- What a number has in multiples of the whole product shows in no digit. -/
theorem digit_mod (inside : place < radices.length) :
    digit radices (number % radices.prod) place = digit radices number place := by
  rw [digit, digit, ← Nat.mod_mul_left_div_self, ← Nat.mod_mul_left_div_self number,
    Nat.mod_mod_of_dvd _ (getD_mul_prod_drop_dvd inside)]

/-- The digits of a number are its first one and those of what is left. -/
theorem digits_cons :
    digits (radix :: radices) number =
      number / radices.prod % radix :: digits radices (number % radices.prod) := by
  have others : ∀ place ∈ List.range radices.length,
      digit (radix :: radices) number (place + 1) =
        digit radices (number % radices.prod) place := by
    intro place member
    rw [digit_cons_succ, digit_mod (List.mem_range.mp member)]
  rw [digits, List.length_cons, List.range_succ_eq_map, List.map_cons, List.map_map,
    digit_cons_zero]
  exact congrArg (_ :: ·) (List.map_congr_left others)

/-- Below the product of the radices, every tuple of digits belongs to exactly one number. -/
theorem existsUnique_digits {tuple : List Nat} (below : List.Forall₂ (· < ·) tuple radices) :
    ∃! number, number < radices.prod ∧ digits radices number = tuple := by
  induction below with
  | nil => exact ⟨0, ⟨Nat.one_pos, rfl⟩, fun other isOther => Nat.lt_one_iff.mp isOther.1⟩
  | @cons first radix others radices firstBelow _ ih =>
    obtain ⟨rest, ⟨restBelow, restDigits⟩, unique⟩ := ih
    have some : 0 < radices.prod := Nat.zero_lt_of_lt restBelow
    refine ⟨first * radices.prod + rest, ⟨?_, ?_⟩, ?_⟩
    · calc first * radices.prod + rest
          < first * radices.prod + radices.prod := Nat.add_lt_add_left restBelow _
        _ = (first + 1) * radices.prod := (Nat.succ_mul _ _).symm
        _ ≤ (radix :: radices).prod := Nat.mul_le_mul_right _ firstBelow
    · rw [digits_cons, Nat.mul_comm, Nat.mul_add_div some, Nat.div_eq_of_lt restBelow, Nat.add_zero,
        Nat.mod_eq_of_lt firstBelow, Nat.mul_add_mod, Nat.mod_eq_of_lt restBelow, restDigits]
    · rintro number ⟨numberBelow, numberDigits⟩
      rw [List.prod_cons] at numberBelow
      rw [digits_cons, List.cons.injEq,
        Nat.mod_eq_of_lt ((Nat.div_lt_iff_lt_mul some).mpr numberBelow)] at numberDigits
      have left : number % radices.prod = rest :=
        unique _ ⟨Nat.mod_lt _ some, numberDigits.2⟩
      rw [← Nat.div_add_mod number radices.prod, numberDigits.1, left, Nat.mul_comm]

end Digits

/-! ## Combinations by number -/

/-- Of lists of one length in a row, the list is found by division and the place in it by the
remainder. -/
theorem getElem?_flatMap_of_length {α β : Type} {lists : α → List β} {length : Nat}
    (same : ∀ key, (lists key).length = length) (keys : List α) (place : Nat) :
    (keys.flatMap lists)[place]? =
      keys[place / length]?.bind fun key => (lists key)[place % length]? := by
  rcases Nat.eq_zero_or_pos length with rfl | some
  · -- All lists are empty, and so is their row.
    have empty (key : α) : lists key = [] := List.length_eq_zero_iff.mp (same key)
    have none : keys.flatMap lists = [] := List.flatMap_eq_nil_iff.mpr fun key _ => empty key
    simp [none, empty]
  · induction keys generalizing place with
    | nil => simp
    | cons key keys ih =>
      rw [List.flatMap_cons]
      by_cases inFirst : place < length
      · rw [List.getElem?_append_left (by rw [same]; exact inFirst), Nat.div_eq_of_lt inFirst,
          Nat.mod_eq_of_lt inFirst]
        rfl
      · have behind : place / length = (place - length) / length + 1 := by
          rw [Nat.div_eq place, if_pos ⟨some, Nat.not_lt.mp inFirst⟩]
        rw [List.getElem?_append_right (by rw [same]; omega), same, ih, behind,
          ← Nat.mod_eq_sub_mod (Nat.not_lt.mp inFirst)]
        rfl

namespace ParameterSpace

/-- The numbers of values that some axes have. -/
def radices (axes : List Axis) : List Nat :=
  axes.map fun axis => axis.values.length

/-- The size of axes is the product of their numbers of values. -/
theorem sizeOf_eq_prod (axes : List Axis) : sizeOf axes = (radices axes).prod := by
  induction axes with
  | nil => rfl
  | cons axis rest ih => rw [sizeOf, ih, radices, radices, List.map_cons, List.prod_cons]

/-- A combination is found by its number. -/
theorem getElem?_combinationsOf (axes : List Axis) (number : Nat) :
    (combinationsOf axes)[number]? = combinationAt? axes number := by
  induction axes generalizing number with
  | nil =>
    rw [combinationsOf, combinationAt?]
    cases number <;> rfl
  | cons axis rest ih =>
    have same (value : Value) :
        ((combinationsOf rest).map fun others => (axis.name, value) :: others).length =
          sizeOf rest := by
      rw [List.length_map, length_combinationsOf]
    rw [combinationsOf, combinationAt?, getElem?_flatMap_of_length same]
    refine congrArg _ (funext fun value => ?_)
    rw [List.getElem?_map, ih]
    cases combinationAt? rest (number % sizeOf rest) <;> rfl

/-- A combination by its number gives each axis the value at the digit of that axis. -/
theorem value?_of_combinationAt? {axes : List Axis} {number : Nat} {combination : Combination}
    (found : combinationAt? axes number = some combination)
    (apart : (axes.map Axis.name).Nodup) {place : Nat} {axis : Axis}
    (isAxis : axes[place]? = some axis) :
    ∃ value, axis.values[digit (radices axes) number place]? = some value ∧
      combination.value? axis.name = some value := by
  induction axes generalizing number combination place with
  | nil => cases isAxis
  | cons first rest ih =>
    obtain ⟨value, isValue, others, isOthers, rfl⟩ :
        ∃ value, first.values[number / sizeOf rest]? = some value ∧
          ∃ others, combinationAt? rest (number % sizeOf rest) = some others ∧
            (first.name, value) :: others = combination := by
      simpa [combinationAt?, Option.bind_eq_some_iff] using found
    rw [sizeOf_eq_prod] at isValue isOthers
    obtain ⟨firstApart, restApart⟩ := List.nodup_cons.mp apart
    cases place with
    | zero =>
      obtain rfl : first = axis := Option.some.inj isAxis
      obtain ⟨below, -⟩ := List.getElem?_eq_some_iff.mp isValue
      refine ⟨value, ?_, List.lookup_cons_self⟩
      show first.values[number / (radices rest).prod % first.values.length]? = some value
      rw [Nat.mod_eq_of_lt below]
      exact isValue
    | succ place =>
      replace isAxis : rest[place]? = some axis := isAxis
      obtain ⟨chosen, isChosen, isLooked⟩ := ih isOthers restApart isAxis
      have inside : place < (radices rest).length := by
        rw [radices, List.length_map]
        exact (List.getElem?_eq_some_iff.mp isAxis).1
      have different : axis.name ≠ first.name := by
        intro same
        exact firstApart (same ▸ List.mem_map_of_mem (List.mem_of_getElem? isAxis))
      refine ⟨chosen, ?_, ?_⟩
      · rw [digit_mod inside] at isChosen
        exact isChosen
      · rw [Combination.value?, List.lookup_cons, beq_false_of_ne different]
        exact isLooked

/-! ## Spaces of axes -/

/-- The space of some axes, added one after another. -/
def ofAxes (axes : List Axis) : Except SpaceError ParameterSpace :=
  axes.foldlM (fun space axis => space.addAxis axis.name axis.values) .empty

/-- One more axis is added to the space of those before it. -/
theorem ofAxes_concat (axes : List Axis) (axis : Axis) :
    ofAxes (axes ++ [axis]) =
      (ofAxes axes).bind fun space => space.addAxis axis.name axis.values := by
  rw [ofAxes, List.foldlM_append, ← ofAxes]
  refine congrArg _ (funext fun space => ?_)
  exact bind_pure _

/-- An axis is added exactly if it has values and a name of its own. -/
theorem addAxis_eq_ok_iff {space extended : ParameterSpace} {name : String} {values : List Value} :
    space.addAxis name values = .ok extended ↔
      values ≠ [] ∧ name ∉ space.names ∧ extended = ⟨space.axes ++ [⟨name, values⟩]⟩ := by
  rw [addAxis]
  by_cases none : values = []
  · rw [if_pos (List.isEmpty_iff.mpr none)]
    exact iff_of_false nofun fun added => added.1 none
  · rw [if_neg (mt List.isEmpty_iff.mp none)]
    by_cases taken : name ∈ space.names
    · rw [if_pos taken]
      exact iff_of_false nofun fun added => added.2.1 taken
    · rw [if_neg taken]
      show Except.ok _ = Except.ok _ ↔ _
      rw [Except.ok.injEq]
      exact ⟨fun same => ⟨none, taken, same.symm⟩, fun added => added.2.2.symm⟩

/-- An axis cannot be added exactly if it has no values or its name is taken. -/
theorem exists_addAxis_eq_error_iff {space : ParameterSpace} {name : String}
    {values : List Value} :
    (∃ error, space.addAxis name values = .error error) ↔ values = [] ∨ name ∈ space.names := by
  cases added : space.addAxis name values with
  | ok extended =>
    obtain ⟨some, isNew, -⟩ := addAxis_eq_ok_iff.mp added
    exact iff_of_false nofun fun either => either.elim some isNew
  | error error =>
    refine iff_of_true ⟨error, rfl⟩ ?_
    by_contra neither
    rw [not_or] at neither
    rw [addAxis_eq_ok_iff.mpr ⟨neither.1, neither.2, rfl⟩] at added
    cases added

/-- The error with an axis that cannot be added is one of two. -/
theorem eq_of_addAxis_eq_error {space : ParameterSpace} {name : String} {values : List Value}
    {error : SpaceError} (failed : space.addAxis name values = .error error) :
    error = .noValues name ∨ error = .duplicateParameter name := by
  rw [addAxis] at failed
  split at failed
  · cases failed
    exact .inl rfl
  · split at failed
    · cases failed
      exact .inr rfl
    · cases failed

/-- Axes make a space exactly if their names differ and each has values. -/
theorem ofAxes_eq_ok_iff {axes : List Axis} {space : ParameterSpace} :
    ofAxes axes = .ok space ↔
      space = ⟨axes⟩ ∧ (axes.map Axis.name).Nodup ∧ ∀ axis ∈ axes, axis.values ≠ [] := by
  induction axes using List.reverseRecOn generalizing space with
  | nil =>
    have empty : ofAxes [] = .ok .empty := rfl
    rw [empty, Except.ok.injEq]
    exact ⟨fun same => ⟨same.symm, List.nodup_nil, nofun⟩, fun made => made.1.symm⟩
  | append_singleton axes axis ih =>
    rw [ofAxes_concat, List.map_append, List.map_singleton, List.nodup_append,
      List.forall_mem_append, List.forall_mem_singleton]
    constructor
    · intro made
      cases isMade : ofAxes axes with
      | error error => rw [isMade] at made; cases made
      | ok before =>
        rw [isMade] at made
        obtain ⟨rfl, apart, some⟩ := ih.mp isMade
        obtain ⟨values, isNew, rfl⟩ := addAxis_eq_ok_iff.mp made
        refine ⟨rfl, ⟨apart, List.nodup_singleton _, ?_⟩, some, values⟩
        rintro name isName _ (isLast : _ ∈ [axis.name]) rfl
        rw [List.mem_singleton] at isLast
        exact isNew (isLast ▸ isName)
    · rintro ⟨rfl, ⟨apart, -, different⟩, some, values⟩
      rw [ih.mpr ⟨rfl, apart, some⟩]
      refine addAxis_eq_ok_iff.mpr ⟨values, fun taken => ?_, rfl⟩
      exact different _ taken _ List.mem_cons_self rfl

/-- An axis is found by its name when no other axis has that name. -/
theorem find?_name_eq_some {axes : List Axis} (apart : (axes.map Axis.name).Nodup) {axis : Axis}
    (isAxis : axis ∈ axes) : axes.find? (fun other => other.name = axis.name) = some axis := by
  cases found : axes.find? fun other => other.name = axis.name with
  | none => exact absurd (decide_eq_true rfl) (List.find?_eq_none.mp found axis isAxis)
  | some other =>
    have same : other.name = axis.name := by simpa using List.find?_some found
    rw [List.inj_on_of_nodup_map apart (List.mem_of_find?_eq_some found) isAxis same]

/-! ## Products -/

/-- What a space is of its axes: their product in mixed radix. -/
structure IsProductOf (space : ParameterSpace) (axes : List Axis) : Prop where
  /-- There are as many combinations as the numbers of values multiply to. -/
  length_combinations : space.combinations.length = (radices axes).prod
  /-- The names of the axes differ. -/
  nodup_names : (axes.map Axis.name).Nodup
  /-- Every combination sets the axes in order. -/
  names_of_mem : ∀ combination ∈ space.combinations,
    combination.map Prod.fst = axes.map Axis.name
  /-- The combination of a number gives each axis the value at the digit of that axis. -/
  value?_at : ∀ number combination, space.combinations[number]? = some combination →
    ∀ place axis, axes[place]? = some axis →
      ∃ value, axis.values[digit (radices axes) number place]? = some value ∧
        combination.value? axis.name = some value
  /-- Every tuple of digits belongs to exactly one number of a combination. -/
  existsUnique_number : ∀ tuple, List.Forall₂ (· < ·) tuple (radices axes) →
    ∃! number, number < space.combinations.length ∧ digits (radices axes) number = tuple
  /-- The size can be counted exactly up to the limit. -/
  countedSize_eq : space.countedSize =
    if (radices axes).prod ≤ 2 ^ 63 - 1 then .ok (radices axes).prod else .error .sizeOverflow
  /-- The values of each axis are found by its name. -/
  valuesOf_eq : ∀ axis ∈ axes, space.valuesOf axis.name = .ok axis.values
  /-- A further axis cannot be added exactly if it has no values or a name that is taken. -/
  addAxis_fails_iff : ∀ name values,
    (∃ error, space.addAxis name values = .error error) ↔
      values = [] ∨ name ∈ axes.map Axis.name
  /-- There is no other reason than these two. -/
  error_of_addAxis : ∀ name values error, space.addAxis name values = .error error →
    error = .noValues name ∨ error = .duplicateParameter name

/-- Every space that is made of axes is their product. -/
theorem isProductOf_of_ofAxes {axes : List Axis} {space : ParameterSpace}
    (made : ofAxes axes = .ok space) : space.IsProductOf axes := by
  obtain ⟨rfl, apart, -⟩ := ofAxes_eq_ok_iff.mp made
  have length : (combinations ⟨axes⟩).length = (radices axes).prod := by
    rw [combinations, length_combinationsOf, sizeOf_eq_prod]
  refine {
    length_combinations := length
    nodup_names := apart
    names_of_mem := fun combination member => names_of_mem_combinationsOf member
    value?_at := ?_
    existsUnique_number := ?_
    countedSize_eq := ?_
    valuesOf_eq := ?_
    addAxis_fails_iff := ?_
    error_of_addAxis := ?_ }
  · intro number combination isCombination place axis isAxis
    rw [combinations, getElem?_combinationsOf] at isCombination
    exact value?_of_combinationAt? isCombination apart isAxis
  · intro tuple below
    rw [length]
    exact existsUnique_digits below
  · rw [countedSize, size, sizeOf_eq_prod]
    rfl
  · intro axis isAxis
    have found : axes.find? (fun other => other.name = axis.name) = some axis :=
      find?_name_eq_some apart isAxis
    rw [valuesOf, found]
    rfl
  · intro name values
    exact exists_addAxis_eq_error_iff
  · intro name values error failed
    exact eq_of_addAxis_eq_error failed

/-- Two stages and three indices, two of them equal, make six combinations; the digits of four are
one and one. -/
theorem isProductOf_of_ofAxes_indices :
    ∃ space, ofAxes [⟨"stage", [.text "vertex", .text "compute"]⟩,
        ⟨"index", [.integer 0, .integer 3, .integer 0]⟩] = .ok space ∧
      space.IsProductOf [⟨"stage", [.text "vertex", .text "compute"]⟩,
        ⟨"index", [.integer 0, .integer 3, .integer 0]⟩] ∧
      digits [2, 3] 4 = [1, 1] ∧ space.combinations[4]? =
        some [("stage", .text "compute"), ("index", .integer 3)] :=
  ⟨_, rfl, isProductOf_of_ofAxes rfl, rfl, rfl⟩

end ParameterSpace

end BindingSuite
