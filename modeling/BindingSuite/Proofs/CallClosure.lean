import Mathlib
import BindingSuite.CallGraph.Reachability

/-! # Closures of calls

What a search in a call graph decides, in terms of closures of the relation `CallGraph.Calls`.

* `reaches_iff_reflTransGen` and `isRecursive_iff_transGen` turn reachability and recursion into the
  reflexive-transitive and the transitive closure;
* `reflTransGen_iff_of_leaf` and `transGen_iff_of_leaf` compare two relations of which one has
  further steps to leaves, which lead nowhere: they do not change what else is reached;
* `reaches_iff_of_leaf` and `isRecursive_eq_of_leaf` say the same of two graphs;
* `reflTransGen_iff_of_fresh` says that a fresh source, to which nothing leads, changes nothing
  about the others. -/

namespace BindingSuite.CallGraph

/-- One name calls another. -/
def Calls (graph : CallGraph) (caller callee : String) : Prop :=
  (caller, callee) ∈ graph.calls

instance (graph : CallGraph) (caller callee : String) : Decidable (graph.Calls caller callee) :=
  inferInstanceAs (Decidable (_ ∈ _))

/-- A name reaches another when any number of calls leads there. -/
theorem reaches_iff_reflTransGen {graph : CallGraph} {source target : String} :
    graph.Reaches source target ↔ Relation.ReflTransGen graph.Calls source target := by
  constructor
  · intro reaches
    induction reaches with
    | refl => exact .refl
    | tail _ call closure => exact closure.tail call
  · intro closure
    induction closure with
    | refl => exact .refl
    | tail _ call reaches => exact reaches.tail call

/-- A name is recursive when one or more calls lead from it back to it. -/
theorem isRecursive_iff_transGen {graph : CallGraph} {name : String} :
    graph.isRecursive name = true ↔ Relation.TransGen graph.Calls name name := by
  rw [isRecursive_iff, Relation.TransGen.head'_iff]
  simp only [reaches_iff_reflTransGen, Calls]

/-! ## Leaves -/

section Leaf

variable {α : Type} {small large : α → α → Prop} {isLeaf : α → Prop}
  (nowhere : ∀ leaf, isLeaf leaf → ∀ target, ¬large leaf target)

include nowhere

/-- Leading nowhere, a leaf reaches itself only. -/
theorem eq_of_reflTransGen_of_leaf {leaf target : α} (atLeaf : isLeaf leaf)
    (closure : Relation.ReflTransGen large leaf target) : target = leaf := by
  rcases closure.cases_head with same | ⟨next, step, -⟩
  · exact same.symm
  · exact absurd step (nowhere leaf atLeaf next)

variable (same : ∀ source target, ¬isLeaf target → (large source target ↔ small source target))
  {source target : α} (notLeaf : ¬isLeaf target)

include same notLeaf

/-- Steps to leaves do not change what else is reached. -/
theorem reflTransGen_iff_of_leaf :
    Relation.ReflTransGen large source target ↔ Relation.ReflTransGen small source target := by
  constructor
  · intro closure
    induction closure with
    | refl => exact .refl
    | @tail middle target _ step ih =>
      -- The middle leads somewhere, so it is no leaf and the induction hypothesis applies.
      have middleNot : ¬isLeaf middle := fun atLeaf => nowhere middle atLeaf _ step
      exact (ih middleNot).tail ((same _ _ notLeaf).mp step)
  · intro closure
    induction closure with
    | refl => exact .refl
    | @tail middle target _ step ih =>
      have step := (same _ _ notLeaf).mpr step
      have middleNot : ¬isLeaf middle := fun atLeaf => nowhere middle atLeaf _ step
      exact (ih middleNot).tail step

/-- Steps to leaves do not change what else is reached over one step or more. -/
theorem transGen_iff_of_leaf :
    Relation.TransGen large source target ↔ Relation.TransGen small source target := by
  rw [Relation.TransGen.tail'_iff, Relation.TransGen.tail'_iff]
  constructor
  · rintro ⟨middle, closure, step⟩
    have middleNot : ¬isLeaf middle := fun atLeaf => nowhere middle atLeaf _ step
    exact ⟨middle, (reflTransGen_iff_of_leaf nowhere same middleNot).mp closure,
      (same _ _ notLeaf).mp step⟩
  · rintro ⟨middle, closure, step⟩
    have step := (same _ _ notLeaf).mpr step
    have middleNot : ¬isLeaf middle := fun atLeaf => nowhere middle atLeaf _ step
    exact ⟨middle, (reflTransGen_iff_of_leaf nowhere same middleNot).mpr closure, step⟩

end Leaf

section LeafCalls

variable {small large : CallGraph} {isLeaf : String → Prop}
  (nowhere : ∀ leaf, isLeaf leaf → ∀ callee, (leaf, callee) ∉ large.calls)
  (same : ∀ caller callee, ¬isLeaf callee →
    ((caller, callee) ∈ large.calls ↔ (caller, callee) ∈ small.calls))

include nowhere same

/-- Calls of leaves do not change which other names are reached. -/
theorem reaches_iff_of_leaf {source target : String} (notLeaf : ¬isLeaf target) :
    large.Reaches source target ↔ small.Reaches source target := by
  rw [reaches_iff_reflTransGen, reaches_iff_reflTransGen]
  exact reflTransGen_iff_of_leaf nowhere same notLeaf

/-- Calls of leaves do not change which other names are recursive. -/
theorem isRecursive_eq_of_leaf {name : String} (notLeaf : ¬isLeaf name) :
    large.isRecursive name = small.isRecursive name := by
  rw [Bool.eq_iff_iff, isRecursive_iff_transGen, isRecursive_iff_transGen]
  exact transGen_iff_of_leaf nowhere same notLeaf

end LeafCalls

/-! ## Fresh sources -/

section Fresh

variable {α : Type} {old new : α → α → Prop} {fresh : α} (apart : ∀ source, ¬old source fresh)

include apart

/-- Nothing fresh is reached from elsewhere. -/
theorem ne_of_reflTransGen_of_fresh {source target : α} (notFresh : source ≠ fresh)
    (closure : Relation.ReflTransGen old source target) : target ≠ fresh := by
  rintro rfl
  rcases closure.cases_tail with same | ⟨middle, -, step⟩
  · exact notFresh same.symm
  · exact apart middle step

variable (same : ∀ source target, source ≠ fresh → (new source target ↔ old source target))

include same

/-- Steps from something fresh, to which nothing leads, do not change what is reached from
elsewhere. -/
theorem reflTransGen_iff_of_fresh {source target : α} (notFresh : source ≠ fresh) :
    Relation.ReflTransGen new source target ↔ Relation.ReflTransGen old source target := by
  constructor
  · intro closure
    induction closure with
    | refl => exact .refl
    | tail _ step ih =>
      have middleNot := ne_of_reflTransGen_of_fresh apart notFresh ih
      exact ih.tail ((same _ _ middleNot).mp step)
  · intro closure
    induction closure with
    | refl => exact .refl
    | tail closure step ih =>
      have middleNot := ne_of_reflTransGen_of_fresh apart notFresh closure
      exact ih.tail ((same _ _ middleNot).mpr step)

end Fresh

end BindingSuite.CallGraph
