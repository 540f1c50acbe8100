import BindingSuite.Proofs.Lists
import BindingSuite.Proofs.MixedRadix

/-! # Ids of combinations

When the id of a combination identifies it within its space. The names of the axes may hold any
characters: two combinations of one space have them in common. Only the texts of the values differ,
and a text without semicolons ends where the next semicolon stands.

* `texts_eq_of_id_eq` reads the texts of the values off an id, given the names;
* `eq_of_texts_eq` finds the combination of a space that has given texts, and
  `nodup_combinationsOf` says that no combination occurs twice;
* `id_injective_of_texts` concludes that the ids of a space are distinct. -/

namespace BindingSuite

namespace Combination

/-- The texts of the values that a combination sets. -/
def texts (combination : Combination) : List String :=
  combination.map fun entry => entry.2.plain

/-- Rows of settings of the same names are the same text only if the texts of the values are the
same, provided that these hold no semicolon. -/
theorem texts_eq_of_intercalate_eq {first second : Combination}
    (names : first.map Prod.fst = second.map Prod.fst)
    (firstFree : ∀ entry ∈ first, ';' ∉ entry.2.plain.toList)
    (secondFree : ∀ entry ∈ second, ';' ∉ entry.2.plain.toList)
    (same : ";".intercalate (first.map fun entry => entry.1 ++ "=" ++ entry.2.plain) =
      ";".intercalate (second.map fun entry => entry.1 ++ "=" ++ entry.2.plain)) :
    first.texts = second.texts := by
  induction first generalizing second with
  | nil =>
    obtain rfl : second = [] := List.map_eq_nil_iff.mp names.symm
    rfl
  | cons entry others ih =>
    obtain ⟨other, rest, rfl, sameName, otherNames⟩ := List.map_eq_cons_iff.mp names.symm
    obtain ⟨entryFree, othersFree⟩ := List.forall_mem_cons.mp firstFree
    obtain ⟨otherFree, restFree⟩ := List.forall_mem_cons.mp secondFree
    cases others with
    | nil =>
      obtain rfl : rest = [] := List.map_eq_nil_iff.mp otherNames
      rw [List.map_singleton, List.map_singleton, String.intercalate_singleton,
        String.intercalate_singleton, sameName, String.append_right_inj] at same
      rw [texts, texts, List.map_singleton, List.map_singleton, same]
    | cons second others =>
      obtain ⟨third, rest, rfl, -, -⟩ := List.map_eq_cons_iff.mp otherNames
      -- Behind the common name, the text of the value ends at the first semicolon.
      have split : entry.2.plain.toList ++ ';' :: (";".intercalate ((second :: others).map
            fun entry => entry.1 ++ "=" ++ entry.2.plain)).toList =
          other.2.plain.toList ++ ';' :: (";".intercalate ((third :: rest).map
            fun entry => entry.1 ++ "=" ++ entry.2.plain)).toList := by
        have spelled := congrArg String.toList same
        simp only [List.map_cons, String.intercalate_cons_cons, String.toList_append, sameName,
          List.append_assoc, List.append_cancel_left_eq] at spelled
        exact spelled
      obtain ⟨sameValue, sameOthers⟩ := (append_cons_inj entryFree otherFree).mp split
      have later := ih otherNames.symm othersFree restFree (String.toList_injective sameOthers)
      have sameText : entry.2.plain = other.2.plain := String.toList_injective sameValue
      exact congrArg₂ List.cons sameText later

/-- Combinations of the same names have the same id only if the texts of their values are the same,
provided that these hold no semicolon. -/
theorem texts_eq_of_id_eq {first second : Combination}
    (names : first.map Prod.fst = second.map Prod.fst)
    (firstFree : ∀ entry ∈ first, ';' ∉ entry.2.plain.toList)
    (secondFree : ∀ entry ∈ second, ';' ∉ entry.2.plain.toList) (same : first.id = second.id) :
    first.texts = second.texts := by
  cases first with
  | nil =>
    obtain rfl : second = [] := List.map_eq_nil_iff.mp names.symm
    rfl
  | cons entry others =>
    obtain ⟨other, rest, rfl, -, -⟩ := List.map_eq_cons_iff.mp names.symm
    exact texts_eq_of_intercalate_eq names firstFree secondFree same

end Combination

namespace ParameterSpace

variable {axes : List Axis}

/-- What a combination sets is an axis with one of its values. -/
theorem exists_axis_of_mem {combination : Combination} (member : combination ∈ combinationsOf axes)
    {entry : String × Value} (isEntry : entry ∈ combination) :
    ∃ axis ∈ axes, entry.1 = axis.name ∧ entry.2 ∈ axis.values := by
  induction axes generalizing combination with
  | nil =>
    obtain rfl := List.mem_singleton.mp member
    cases isEntry
  | cons axis rest ih =>
    simp only [combinationsOf, List.mem_flatMap, List.mem_map] at member
    obtain ⟨value, isValue, others, isOther, rfl⟩ := member
    rcases List.mem_cons.mp isEntry with rfl | isEntry
    · exact ⟨axis, List.mem_cons_self, rfl, isValue⟩
    · obtain ⟨other, isAxis, setting⟩ := ih isOther isEntry
      exact ⟨other, List.mem_cons_of_mem _ isAxis, setting⟩

/-- Combinations with the same texts are the same when the values of each axis have different
texts. -/
theorem eq_of_texts_eq (distinct : ∀ axis ∈ axes, (axis.values.map Value.plain).Nodup)
    {first second : Combination} (isFirst : first ∈ combinationsOf axes)
    (isSecond : second ∈ combinationsOf axes) (same : first.texts = second.texts) :
    first = second := by
  induction axes generalizing first second with
  | nil => rw [List.mem_singleton.mp isFirst, List.mem_singleton.mp isSecond]
  | cons axis rest ih =>
    obtain ⟨axisDistinct, restDistinct⟩ := List.forall_mem_cons.mp distinct
    simp only [combinationsOf, List.mem_flatMap, List.mem_map] at isFirst isSecond
    obtain ⟨value, isValue, others, isOthers, rfl⟩ := isFirst
    obtain ⟨value', isValue', others', isOthers', rfl⟩ := isSecond
    obtain ⟨sameText, sameTexts⟩ := List.cons.inj same
    rw [List.inj_on_of_nodup_map axisDistinct isValue isValue' sameText,
      ih restDistinct isOthers isOthers' sameTexts]

/-- No combination occurs twice when no axis has a value twice. -/
theorem nodup_combinationsOf (distinct : ∀ axis ∈ axes, axis.values.Nodup) :
    (combinationsOf axes).Nodup := by
  induction axes with
  | nil => exact List.nodup_singleton _
  | cons axis rest ih =>
    obtain ⟨axisDistinct, restDistinct⟩ := List.forall_mem_cons.mp distinct
    rw [combinationsOf, List.nodup_flatMap]
    refine ⟨fun value _ => ?_, axisDistinct.imp fun different => ?_⟩
    · exact (ih restDistinct).map fun _ _ same => (List.cons.inj same).2
    · intro combination isFirst isSecond
      obtain ⟨others, -, rfl⟩ := List.mem_map.mp isFirst
      obtain ⟨others', -, same⟩ := List.mem_map.mp isSecond
      exact different (congrArg Prod.snd (List.cons.inj same).1).symm

/-- In a space whose axes have values of different texts without semicolons, combinations with the
same id are the same, and the ids that are listed are distinct. -/
theorem id_injective_of_texts {space : ParameterSpace} (made : ofAxes axes = .ok space)
    (distinct : ∀ axis ∈ axes, (axis.values.map Value.plain).Nodup)
    (free : ∀ axis ∈ axes, ∀ value ∈ axis.values, ';' ∉ value.plain.toList) :
    (∀ first ∈ space.combinations, ∀ second ∈ space.combinations,
      first.id = second.id → first = second) ∧ (space.combinations.map Combination.id).Nodup := by
  obtain ⟨rfl, -, -⟩ := ofAxes_eq_ok_iff.mp made
  have entriesFree : ∀ combination ∈ combinationsOf axes, ∀ entry ∈ combination,
      ';' ∉ entry.2.plain.toList := by
    intro combination member entry isEntry
    obtain ⟨axis, isAxis, -, isValue⟩ := exists_axis_of_mem member isEntry
    exact free axis isAxis entry.2 isValue
  have injective : ∀ first ∈ combinationsOf axes, ∀ second ∈ combinationsOf axes,
      first.id = second.id → first = second := by
    intro first isFirst second isSecond same
    refine eq_of_texts_eq distinct isFirst isSecond ?_
    refine Combination.texts_eq_of_id_eq ?_ (entriesFree _ isFirst) (entriesFree _ isSecond) same
    rw [names_of_mem_combinationsOf isFirst, names_of_mem_combinationsOf isSecond]
  have listed : (combinationsOf axes).Nodup :=
    nodup_combinationsOf fun axis isAxis => (distinct axis isAxis).of_map
  exact ⟨injective, listed.map_on injective⟩

/-- The names of the axes may look like settings, and values may look like names. -/
theorem id_injective_of_texts_settings :
    ∃ space, ofAxes [⟨"a=0;b", [.text "", .text "=", .text "b"]⟩, ⟨"b", [.absent, .bool true]⟩] =
        .ok space ∧ (space.combinations.map Combination.id).Nodup ∧
      space.combinations.map Combination.id =
        ["a=0;b=;b=None", "a=0;b=;b=True", "a=0;b==;b=None", "a=0;b==;b=True", "a=0;b=b;b=None",
          "a=0;b=b;b=True"] := by
  have made : ofAxes [⟨"a=0;b", [.text "", .text "=", .text "b"]⟩,
      ⟨"b", [.absent, .bool true]⟩] = .ok _ := rfl
  exact ⟨_, made, (id_injective_of_texts made (by decide) (by decide)).2, by decide⟩

end ParameterSpace

end BindingSuite
