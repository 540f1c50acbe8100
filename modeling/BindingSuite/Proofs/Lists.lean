import Mathlib

/-! # Lists in step

Lists whose elements are related one by one, in order, and lists that a separator divides.

* `map_eq_map_of_forall₂` says when such lists have the same keys;
* `forall₂_and_key_eq` adds to the relation that keys are the same;
* `forall₂_filter_filterMap` relates the results of a partial function to where they come from;
* `append_cons_inj` finds the parts of a list on both sides of its first separator, and
  `splitOn_append_of_notMem` puts a list without separators in front of the first part. -/

namespace BindingSuite

section InStep

variable {α β γ : Type} {relation : α → β → Prop} {firsts : List α} {seconds : List β}

/-- Where related elements have equal keys, lists related all along have equal lists of keys. -/
theorem map_eq_map_of_forall₂ {key : α → γ} {otherKey : β → γ}
    (same : ∀ first second, relation first second → key first = otherKey second)
    (related : List.Forall₂ relation firsts seconds) :
    firsts.map key = seconds.map otherKey := by
  induction related with
  | nil => rfl
  | cons pair _ ih => rw [List.map_cons, List.map_cons, same _ _ pair, ih]

/-- Lists related all along with equal lists of keys are related with equal keys. -/
theorem forall₂_and_key_eq {key : α → γ} {otherKey : β → γ}
    (related : List.Forall₂ relation firsts seconds)
    (same : firsts.map key = seconds.map otherKey) :
    List.Forall₂ (fun first second => relation first second ∧ key first = otherKey second)
      firsts seconds := by
  induction related with
  | nil => exact .nil
  | cons pair _ ih =>
    rw [List.map_cons, List.map_cons, List.cons.injEq] at same
    exact .cons ⟨pair, same.1⟩ (ih same.2)

/-- The results of a partial function on a list belong, in order, to those elements that have
one. -/
theorem forall₂_filter_filterMap (search : α → Option β) (list : List α) :
    List.Forall₂ (fun element result => element ∈ list ∧ search element = some result)
      (list.filter fun element => (search element).isSome) (list.filterMap search) := by
  induction list with
  | nil => exact .nil
  | cons element rest ih =>
    have later := ih.imp fun _ _ pair =>
      And.intro (List.mem_cons_of_mem element pair.1) pair.2
    cases found : search element with
    | none => simpa [found] using later
    | some result => simpa [found] using later

end InStep

/-- Lists are equal only if they are so up to the first separator and behind it. -/
theorem append_cons_inj {α : Type} [DecidableEq α] {separator : α} {first second : List α}
    (firstFree : separator ∉ first) (secondFree : separator ∉ second) {behind after : List α} :
    first ++ separator :: behind = second ++ separator :: after ↔
      first = second ∧ behind = after := by
  constructor
  · intro same
    have parts := congrArg (List.splitOn separator) same
    rw [List.splitOn_append_cons_self_of_not_mem firstFree,
      List.splitOn_append_cons_self_of_not_mem secondFree] at parts
    obtain rfl : first = second := (List.cons.inj parts).1
    exact ⟨rfl, (List.cons.inj (List.append_cancel_left same)).2⟩
  · rintro ⟨rfl, rfl⟩
    rfl

/-- A list without separators is put in front of the first part of the list that follows. -/
theorem splitOn_append_of_notMem {α : Type} [DecidableEq α] {separator : α} {front : List α}
    (free : separator ∉ front) (rest : List α) :
    (front ++ rest).splitOn separator = (rest.splitOn separator).modifyHead (front ++ ·) := by
  induction front with
  | nil => exact (congrFun List.modifyHead_id _).symm
  | cons first others ih =>
    rw [List.mem_cons, not_or] at free
    rw [List.cons_append, List.splitOn_cons_eq_if_modifyHead,
      if_neg (by simpa using Ne.symm free.1), ih free.2, List.modifyHead_modifyHead]
    rfl

end BindingSuite
