import BindingSuite.Proofs.Recurrence
import BindingSuite.Suite.Run

/-! # Shuffling

The order that a seed gives to a list, without the limit on draws that makes the shuffle a function.

* `Twister.Draws` draws numbers until one is below a bound, and `draws_below` says that this is what
  the generator does;
* `Shuffles` swaps the item at each place, from the last one down, with one drawn from those up to
  it; `shuffles_shuffle` says so of a shuffle, and `Shuffles.unique` that there is no other result;
* `shuffle_map` and `forall₂_inOrder` say that an order does not depend on the items. -/

namespace BindingSuite

namespace Twister

/-! ## Draws below a bound -/

/-- Drawing a number below a bound: numbers of as many bits as the bound are drawn until one of them
is below it. -/
inductive Draws (bound : Nat) : Twister → Nat → Twister → Prop where
  /-- The number is below the bound. -/
  | accept {state : Twister} (isBelow : (state.draw (bound.log2 + 1)).1 < bound) :
    Draws bound state (state.draw (bound.log2 + 1)).1 (state.draw (bound.log2 + 1)).2
  /-- The number is not below the bound, and another one is drawn. -/
  | reject {state after : Twister} {number : Nat}
    (notBelow : bound ≤ (state.draw (bound.log2 + 1)).1)
    (later : Draws bound (state.draw (bound.log2 + 1)).2 number after) :
    Draws bound state number after

section Draws

variable {bound number other : Nat} {state after otherAfter : Twister}

/-- The number is below the bound. -/
theorem Draws.lt (draws : Draws bound state number after) : number < bound := by
  induction draws with
  | accept isBelow => exact isBelow
  | reject _ _ ih => exact ih

/-- A state leads to one number and one state after it. -/
theorem Draws.unique (draws : Draws bound state number after)
    (others : Draws bound state other otherAfter) : number = other ∧ after = otherAfter := by
  induction draws with
  | accept isBelow =>
    cases others with
    | accept => exact ⟨rfl, rfl⟩
    | reject notBelow => exact absurd isBelow (Nat.not_lt.mpr notBelow)
  | reject notBelow _ ih =>
    cases others with
    | accept isBelow => exact absurd isBelow (Nat.not_lt.mpr notBelow)
    | reject _ later => exact ih later

/-- As long as some draw within the limit is below the bound, the limit does not matter. -/
theorem draws_drawBelow {fuel : Nat}
    (accepted : ∃ count < fuel,
      ((state.afterDraws (bound.log2 + 1) count).draw (bound.log2 + 1)).1 < bound) :
    Draws bound state (drawBelow bound (bound.log2 + 1) fuel state).1
      (drawBelow bound (bound.log2 + 1) fuel state).2 := by
  induction fuel generalizing state with
  | zero =>
    obtain ⟨count, early, -⟩ := accepted
    exact absurd early (Nat.not_lt_zero count)
  | succ fuel ih =>
    rw [drawBelow]
    by_cases isBelow : (state.draw (bound.log2 + 1)).1 < bound
    · simp only [isBelow, if_true]
      exact .accept isBelow
    · simp only [isBelow, if_false]
      refine .reject (Nat.not_lt.mp isBelow) (ih ?_)
      obtain ⟨count, early, isAccepted⟩ := accepted
      cases count with
      | zero => exact absurd isAccepted isBelow
      | succ count => exact ⟨count, Nat.lt_of_succ_lt_succ early, isAccepted⟩

/-- A generator draws below any bound of up to 64 bits. -/
theorem draws_below (positive : 0 < bound) (bounded : bound < 2 ^ 64) (state : Twister) :
    Draws bound state (state.below bound).1 (state.below bound).2 :=
  draws_drawBelow (exists_draw_lt positive bounded state)

end Draws

end Twister

/-! ## Swaps -/

section Swaps

variable {α β : Type}

/-- Shuffling the places up to `last`: the item there is swapped with one drawn from all of them,
and those below are shuffled. -/
inductive Shuffles : (last : Nat) → Twister → (items shuffled : Array α) → Prop where
  /-- The first place alone is in order. -/
  | done {state : Twister} {items : Array α} : Shuffles 0 state items items
  /-- The item at the last place is swapped. -/
  | swap {last place : Nat} {state after : Twister} {items shuffled : Array α}
    (draws : state.Draws (last + 2) place after) (inside : last + 1 < items.size)
    (rest : Shuffles last after
      (items.swap (last + 1) place inside (Nat.lt_of_lt_of_le draws.lt inside)) shuffled) :
    Shuffles (last + 1) state items shuffled

/-- Shuffling leads to one result. -/
theorem Shuffles.unique {last : Nat} {state : Twister} {items shuffled other : Array α}
    (shuffles : Shuffles last state items shuffled) (others : Shuffles last state items other) :
    shuffled = other := by
  induction shuffles with
  | done =>
    cases others
    rfl
  | swap draws inside _ ih =>
    cases others with
    | swap otherDraws _ rest =>
      obtain ⟨rfl, rfl⟩ := draws.unique otherDraws
      exact ih rest

/-- The places of an array of up to 64 bits are shuffled. -/
theorem shuffles_shufflePlaces {last : Nat} {items : Array α} (inside : last ≤ items.size - 1)
    (bounded : items.size < 2 ^ 64) (state : Twister) :
    Shuffles last state items (shufflePlaces last state items) := by
  induction last generalizing state items with
  | zero => exact .done
  | succ last ih =>
    have isInside : last + 1 < items.size := by omega
    have draws := state.draws_below (Nat.succ_pos (last + 1)) (by omega : last + 2 < 2 ^ 64)
    have swapped : items.swapIfInBounds (last + 1) (state.below (last + 2)).1 =
        items.swap (last + 1) (state.below (last + 2)).1 isInside
          (Nat.lt_of_lt_of_le draws.lt isInside) := by
      rw [Array.swapIfInBounds, dif_pos isInside, dif_pos (Nat.lt_of_lt_of_le draws.lt isInside)]
    refine .swap draws isInside ?_
    rw [← swapped]
    exact ih (by rw [Array.size_swapIfInBounds]; omega) (by rwa [Array.size_swapIfInBounds]) _

/-- A seed puts a list of up to 64 bits of length in order by such swaps, from its last place on. -/
theorem shuffles_shuffle (seed : Int) {items : List α} (bounded : items.length < 2 ^ 64) :
    Shuffles (items.length - 1) (.ofSeed seed) items.toArray (shuffle seed items).toArray :=
  shuffles_shufflePlaces le_rfl bounded _

/-! ## Items -/

/-- Swapping does not look at the items. -/
theorem swapIfInBounds_map (change : α → β) (items : Array α) (first second : Nat) :
    (items.map change).swapIfInBounds first second =
      (items.swapIfInBounds first second).map change := by
  unfold Array.swapIfInBounds
  simp only [Array.size_map]
  split
  · split
    · simp only [Array.swap, Array.getElem_map, Array.map_set]
    · rfl
  · rfl

/-- Shuffling places does not look at the items. -/
theorem shufflePlaces_map (change : α → β) (last : Nat) (state : Twister) (items : Array α) :
    shufflePlaces last state (items.map change) = (shufflePlaces last state items).map change := by
  induction last generalizing state items with
  | zero => rfl
  | succ last ih =>
    rw [shufflePlaces, shufflePlaces]
    split
    rw [swapIfInBounds_map, ih]

/-- Shuffling does not look at the items. -/
theorem shuffle_map (seed : Int) (change : α → β) (items : List α) :
    shuffle seed (items.map change) = (shuffle seed items).map change := by
  rw [shuffle, shuffle, List.length_map, ← List.map_toArray, shufflePlaces_map, Array.toList_map]

/-- No order of a run looks at the items. -/
theorem inOrder_map (seed : Option Int) (change : α → β) (items : List α) :
    inOrder seed (items.map change) = (inOrder seed items).map change := by
  cases seed with
  | none => rfl
  | some seed => exact shuffle_map seed change items

/-- Lists whose items are related one by one still are in any order of a run. -/
theorem forall₂_inOrder {relation : α → β → Prop} {firsts : List α} {seconds : List β}
    (related : List.Forall₂ relation firsts seconds) (seed : Option Int) :
    List.Forall₂ relation (inOrder seed firsts) (inOrder seed seconds) := by
  obtain ⟨sameLength, pairs⟩ := List.forall₂_iff_zip.mp related
  have left : inOrder seed firsts = (inOrder seed (firsts.zip seconds)).map Prod.fst := by
    rw [← inOrder_map, List.map_fst_zip sameLength.le]
  have right : inOrder seed seconds = (inOrder seed (firsts.zip seconds)).map Prod.snd := by
    rw [← inOrder_map, List.map_snd_zip sameLength.ge]
  rw [left, right, List.forall₂_map_left_iff, List.forall₂_map_right_iff, List.forall₂_same]
  exact fun pair member => pairs ((inOrder_perm seed _).mem_iff.mp member)

end Swaps

end BindingSuite
