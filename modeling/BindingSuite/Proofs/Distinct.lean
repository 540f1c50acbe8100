import Mathlib

/-! # Distinct elements

How a walk along a list finds out that no element occurs twice.

* `Fresh` says that elements differ from each other and from those seen on the way, and `fresh_cons`
  is the step of the walk;
* `eraseDups_concat` is the step of the walk that keeps first occurrences, and `nodup_eraseDups`
  says that these are distinct;
* `pairwise_iff_of_nodup_map` turns a relation between the elements of such a list into one between
  any two of them with different keys. -/

namespace BindingSuite

/-- The elements of a list differ from each other and from those seen. -/
def Fresh {α : Type} (seen list : List α) : Prop :=
  list.Nodup ∧ ∀ element ∈ list, element ∉ seen

section Fresh

variable {α : Type} {seen list rest : List α} {element : α}

/-- No elements are fresh. -/
@[simp] theorem fresh_nil : Fresh seen [] :=
  ⟨List.nodup_nil, List.forall_mem_nil _⟩

/-- Elements are fresh when the first is new and the rest are fresh once it has been seen. -/
@[simp] theorem fresh_cons :
    Fresh seen (element :: rest) ↔ element ∉ seen ∧ Fresh (element :: seen) rest := by
  rw [Fresh, Fresh, List.nodup_cons, List.forall_mem_cons]
  simp only [List.mem_cons, not_or]
  constructor
  · rintro ⟨⟨apart, distinct⟩, isNew, unseen⟩
    refine ⟨isNew, distinct, fun other member => ⟨?_, unseen other member⟩⟩
    rintro rfl
    exact apart member
  · rintro ⟨isNew, distinct, apart⟩
    exact ⟨⟨fun member => (apart element member).1 rfl, distinct⟩, isNew,
      fun other member => (apart other member).2⟩

/-- When nothing has been seen, elements are fresh when they are distinct. -/
@[simp] theorem fresh_nil_iff : Fresh [] list ↔ list.Nodup :=
  and_iff_left fun _ _ => List.not_mem_nil

end Fresh

section FirstOccurrences

variable {α : Type} [DecidableEq α]

/-- One more element has its first occurrence at the end of a list unless it has occurred. -/
theorem eraseDups_concat (list : List α) (element : α) :
    (list ++ [element]).eraseDups =
      if element ∈ list then list.eraseDups else list.eraseDups ++ [element] := by
  have last : [element].removeAll list = if element ∈ list then [] else [element] := by
    by_cases occurred : element ∈ list <;> simp [List.removeAll, occurred]
  rw [List.eraseDups_append, last]
  split
  · exact List.append_nil _
  · rfl

/-- First occurrences are distinct. -/
theorem nodup_eraseDups (list : List α) : list.eraseDups.Nodup := by
  induction list using List.reverseRecOn with
  | nil => exact List.nodup_nil
  | append_singleton list element ih =>
    rw [eraseDups_concat]
    split
    · exact ih
    · rename_i isNew
      rw [← List.concat_eq_append]
      exact ih.concat (mt List.mem_eraseDups.mp isNew)

end FirstOccurrences

/-- Over a list whose elements differ by `key`, a symmetric relation holds pairwise when it holds
between any two elements with different keys. -/
theorem pairwise_iff_of_nodup_map {α β : Type} {relation : α → α → Prop} [Std.Symm relation]
    {key : α → β} {list : List α} (distinct : (list.map key).Nodup) :
    list.Pairwise relation ↔
      ∀ first ∈ list, ∀ second ∈ list, key first ≠ key second → relation first second := by
  constructor
  · intro pairwise first isFirst second isSecond different
    exact pairwise.forall isFirst isSecond fun same => different (congrArg key same)
  · intro related
    refine distinct.of_map.pairwise_of_forall_ne fun first isFirst second isSecond different => ?_
    exact related first isFirst second isSecond fun same =>
      different (List.inj_on_of_nodup_map distinct isFirst isSecond same)

end BindingSuite
