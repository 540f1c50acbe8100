import BindingSuite.Random.Twister

/-! # Shuffling

A seed puts a list in an order of its own: from the last place down, the item at each place changes
places with one drawn from those up to it. -/

namespace BindingSuite

/-- Shuffles the places up to `last`. -/
def shufflePlaces {α : Type} : (last : Nat) → Twister → Array α → Array α
  | 0, _, items => items
  | last + 1, state, items =>
    let (place, state) := state.below (last + 2)
    shufflePlaces last state (items.swapIfInBounds (last + 1) place)

/-- Shuffling rearranges the items. -/
theorem shufflePlaces_perm {α : Type} (last : Nat) (state : Twister) (items : Array α) :
    (shufflePlaces last state items).Perm items := by
  induction last generalizing state items with
  | zero => exact .refl _
  | succ last ih =>
    rw [shufflePlaces]
    split
    refine (ih _ _).trans ?_
    unfold Array.swapIfInBounds
    split
    · split
      · exact Array.swap_perm _ _
      · exact .refl _
    · exact .refl _

/-- The order that a seed gives to a list. -/
def shuffle {α : Type} (seed : Int) (items : List α) : List α :=
  (shufflePlaces (items.length - 1) (.ofSeed seed) items.toArray).toList

/-- A seed only changes the order of a list. -/
theorem shuffle_perm {α : Type} (seed : Int) (items : List α) : (shuffle seed items).Perm items :=
  (shufflePlaces_perm _ _ _).toList

end BindingSuite
