import Mathlib
import BindingSuite.Path

/-! # Paths under a directory

Where the path of a file in a directory leads: to where the directory is, and on from there.

* `IsPlainName` says of a text that it names something in every directory;
* `components_join` and `isAbsolute_join` take the path of a file in a directory apart;
* `within?_join` finds the way from the directory to the file again. -/

namespace BindingSuite.Path

/-- A text names something in every directory: it leads nowhere else, and not further down. -/
def IsPlainName (name : String) : Prop :=
  name ∉ ["", ".", ".."] ∧ '/' ∉ name.toList

instance : DecidablePred IsPlainName :=
  fun name => inferInstanceAs (Decidable (name ∉ ["", ".", ".."] ∧ '/' ∉ name.toList))

section PlainNames

variable {name directory file : String}

/-- A plain name is not empty. -/
theorem IsPlainName.ne_empty (plain : IsPlainName name) : name ≠ "" := by
  rintro rfl
  exact plain.1 (by simp)

/-- A plain name is not the directory itself. -/
theorem IsPlainName.ne_dot (plain : IsPlainName name) : name ≠ "." := by
  rintro rfl
  exact plain.1 (by simp)

/-- A plain name is not the directory above. -/
theorem IsPlainName.ne_dots (plain : IsPlainName name) : name ≠ ".." := by
  rintro rfl
  exact plain.1 (by simp)

/-- A slash between two paths divides their parts. -/
theorem parts_append_slash (first second : String) :
    parts (first ++ "/" ++ second) = parts first ++ parts second := by
  have spelled : (first ++ "/" ++ second).toList = first.toList ++ '/' :: second.toList := by
    simp
  rw [parts, spelled, List.splitOn_append_cons_self, List.map_append]
  rfl

/-- A slash between two paths divides their components. -/
theorem components_append_slash (first second : String) :
    components (first ++ "/" ++ second) = components first ++ components second := by
  rw [components, parts_append_slash, List.filter_append]
  rfl

/-- A plain name has one component. -/
theorem components_of_isPlainName (plain : IsPlainName name) : components name = [name] := by
  have single : parts name = [name] := by
    rw [parts, List.splitOn_eq_singleton plain.2, List.map_singleton, String.ofList_toList]
  rw [components, single, List.filter_singleton]
  simp [plain.ne_empty, plain.ne_dot]

/-- A plain name is no path from the root. -/
theorem isAbsolute_of_isPlainName (plain : IsPlainName name) : isAbsolute name = false := by
  refine decide_eq_false fun first => plain.2 ?_
  exact List.mem_of_mem_head? first

/-- Nor is a path that starts with a plain name. -/
theorem isAbsolute_slash_of_isPlainName (plain : IsPlainName name) :
    isAbsolute (name ++ "/" ++ file) = false := by
  obtain ⟨first, rest, spelled⟩ : ∃ first rest, name.toList = first :: rest :=
    List.exists_cons_of_ne_nil (mt String.toList_eq_nil_iff.mp plain.ne_empty)
  refine decide_eq_false fun slash => plain.2 ?_
  have same : first = '/' := by simpa [spelled] using slash
  rw [spelled, same]
  exact List.mem_cons_self

/-- The components of a file in a directory are those of the directory, then those of the file. -/
theorem components_join (directory file : String) :
    components (join directory file) = components directory ++ components file := by
  unfold join
  by_cases here : directory = "."
  · rw [if_pos here, here]
    rfl
  · rw [if_neg here]
    by_cases atRoot : directory = "/" ∨ directory = "//"
    · rw [if_pos (by simpa using atRoot)]
      have slash : components ("" ++ "/" ++ file) = components file :=
        components_append_slash "" file
      have slashes : components ("/" ++ "/" ++ file) = components file :=
        components_append_slash "/" file
      rcases atRoot with rfl | rfl
      · exact slash
      · exact slashes
    · rw [if_neg (by simpa using atRoot)]
      exact components_append_slash directory file

/-- A file in a directory has a path from the root exactly if the directory has one. -/
theorem isAbsolute_join (some : directory ≠ "") (relative : isAbsolute file = false) :
    isAbsolute (join directory file) = isAbsolute directory := by
  unfold join
  by_cases here : directory = "."
  · rw [if_pos here, here, relative]
    rfl
  · rw [if_neg here]
    obtain ⟨first, rest, spelled⟩ : ∃ first rest, directory.toList = first :: rest :=
      List.exists_cons_of_ne_nil (mt String.toList_eq_nil_iff.mp some)
    split <;> simp [isAbsolute, spelled]

/-- Components that do not lead back are added to a place. -/
theorem foldl_follow {here : List String} {components : List String}
    (onward : ".." ∉ components) : components.foldl follow here = here ++ components := by
  induction components generalizing here with
  | nil => rw [List.foldl_nil, List.append_nil]
  | cons component rest ih =>
    rw [List.mem_cons, not_or] at onward
    rw [List.foldl_cons, follow, if_neg (Ne.symm onward.1), ih onward.2, List.append_assoc]
    rfl

/-- A file in a directory with a path from the root lies where the directory does, and under it. -/
theorem within?_join (absolute : isAbsolute directory = true) (relative : isAbsolute file = false)
    (onward : ".." ∉ components file) :
    within? directory (join directory file) = some ("/".intercalate (components file)) := by
  have some : directory ≠ "" := by
    rintro rfl
    cases absolute
  have below : place (join directory file) = place directory ++ components file := by
    rw [place, components_join, List.foldl_append, foldl_follow onward]
    rfl
  rw [within?, isAbsolute_join some relative, below, absolute,
    List.isPrefixOf_iff_prefix.mpr (List.prefix_append _ _), List.drop_left]
  rfl

end PlainNames

end BindingSuite.Path
