import BindingSuite.FileTree
import BindingSuite.Proofs.Paths

/-! # Fresh directories

What can be done in a directory with nothing under it: directories can be made in it, and files can
be written in it and in these.

* `FileTree.IsFresh` says that a path leads to such a directory;
* `FileTree.Fits` says that a path is within the limits of what can be a path;
* `FileTree.withDirectories` makes directories in a directory, and `IsFresh.walk_withDirectories`
  says that the ways that were there before stay as they are;
* `IsFresh.makeDirectories_join`, `IsFresh.checkWritable_join` and
  `IsFresh.checkWritable_join_slash` make directories in a fresh one, and files in it and in
  these. -/

namespace BindingSuite.FileTree

variable {α : Type} {tree : FileTree α} {place : Place} {directory name file : String}
  {names : List String}

/-! ## Walking -/

/-- Parts that lead nowhere do not matter to where a path leads, unless it leads to a file. -/
theorem walk_filter_iff {parts : List String} {outcome : Except Obstacle (Found α)}
    (noFile : ∀ content, outcome ≠ .ok (.file content)) (noEnd : outcome ≠ .error .notADirectory) :
    tree.walk place (parts.filter fun part => part ≠ "" && part ≠ ".") = outcome ↔
      tree.walk place parts = outcome := by
  induction parts generalizing place with
  | nil => rfl
  | cons part rest ih =>
    by_cases idle : part = "" ∨ part = "."
    · have stays : tree.step place part = .ok (.directory place) := by
        rw [step, if_pos (by simpa using idle)]
        rfl
      rw [List.filter_cons_of_neg (by simpa [Decidable.or_iff_not_imp_left] using idle), ih, walk,
        stays]
      rfl
    · rw [not_or] at idle
      rw [List.filter_cons_of_pos (by simpa using idle), walk, walk]
      cases tree.step place part with
      | error obstacle => rfl
      | ok found =>
        cases found with
        | directory next => exact ih
        | file content =>
          -- Behind a file every path fails in one way, and the file itself is no outcome.
          refine iff_of_false (fun ended => ?_) (fun ended => ?_)
          all_goals
            subst ended
            revert noFile noEnd
            dsimp only [bind, Except.bind]
            split
            · exact fun noFile _ => noFile content rfl
            · exact fun _ noEnd => noEnd rfl

/-- Parts that lead to a directory do so by way of a directory that the first leads to. -/
theorem exists_step_of_walk_cons {part : String} {rest : List String} {next : Place}
    (leads : tree.walk place (part :: rest) = .ok (.directory next)) :
    ∃ middle, tree.step place part = .ok (.directory middle) ∧
      tree.walk middle rest = .ok (.directory next) := by
  rw [walk] at leads
  cases found : tree.step place part with
  | error obstacle => rw [found] at leads; cases leads
  | ok target =>
    rw [found] at leads
    cases target with
    | directory middle => exact ⟨middle, rfl, leads⟩
    | file content =>
      dsimp only [bind, Except.bind] at leads
      split at leads <;> cases leads

/-- Where parts lead to a directory, further parts go on from there. -/
theorem walk_append {next : Place} {front rest : List String}
    (leads : tree.walk place front = .ok (.directory next)) :
    tree.walk place (front ++ rest) = tree.walk next rest := by
  induction front generalizing place with
  | nil =>
    obtain rfl : place = next := by
      cases leads
      rfl
    rfl
  | cons part front ih =>
    obtain ⟨middle, toMiddle, onward⟩ := exists_step_of_walk_cons leads
    rw [List.cons_append, walk, toMiddle]
    exact ih onward

/-- A name leads nowhere where nothing stands under it. -/
theorem step_of_lookup?_eq_none (plain : Path.IsPlainName name)
    (short : Path.isOverlong name = false) (absent : tree.lookup? (place ++ [name]) = none) :
    tree.step place name = .error .missing := by
  rw [step, if_neg (by simp [plain.ne_empty, plain.ne_dot]), if_neg plain.ne_dots,
    if_neg (by simp [short]), absent]
  rfl

/-- A name leads to the directory that stands under it. -/
theorem step_of_lookup?_eq_directory (plain : Path.IsPlainName name)
    (short : Path.isOverlong name = false)
    (there : tree.lookup? (place ++ [name]) = some .directory) :
    tree.step place name = .ok (.directory (place ++ [name])) := by
  rw [step, if_neg (by simp [plain.ne_empty, plain.ne_dot]), if_neg plain.ne_dots,
    if_neg (by simp [short]), there]
  rfl

/-- Where a tree leads along a part, a tree in which all that is there still stands does too. -/
theorem step_mono {other : FileTree α}
    (stands : ∀ place entry, tree.lookup? place = some entry → other.lookup? place = some entry)
    {part : String} {found : Found α} (leads : tree.step place part = .ok found) :
    other.step place part = .ok found := by
  by_cases idle : part = "" || part = "."
  · rwa [step, if_pos idle] at leads ⊢
  by_cases back : part = ".."
  · rwa [step, if_neg idle, if_pos back] at leads ⊢
  by_cases long : Path.isOverlong part
  · rw [step, if_neg idle, if_neg back, if_pos long] at leads
    cases leads
  · rw [step, if_neg idle, if_neg back, if_neg long] at leads ⊢
    cases isEntry : tree.lookup? (place ++ [part]) with
    | none => rw [isEntry] at leads; cases leads
    | some entry =>
      rw [stands _ _ isEntry]
      rwa [isEntry] at leads

/-- Where a tree leads, a tree in which all that is there still stands does too. -/
theorem walk_mono {other : FileTree α}
    (stands : ∀ place entry, tree.lookup? place = some entry → other.lookup? place = some entry)
    {parts : List String} {found : Found α} (leads : tree.walk place parts = .ok found) :
    other.walk place parts = .ok found := by
  induction parts generalizing place with
  | nil => exact leads
  | cons part rest ih =>
    rw [walk] at leads ⊢
    cases isFound : tree.step place part with
    | error obstacle => rw [isFound] at leads; cases leads
    | ok target =>
      rw [isFound] at leads
      rw [step_mono stands isFound]
      cases target with
      | directory next => exact ih leads
      | file content => exact leads

/-- Where components lead to a directory, a directory behind them is made from there. -/
theorem exists_makeBehind_append {whole path : String} {next : Place} {front rest : List String}
    (leads : tree.walk place front = .ok (.directory next)) :
    ∃ reached, tree.makeBehind whole path place (front ++ rest) =
      tree.makeBehind whole reached next rest := by
  induction front generalizing place path with
  | nil =>
    obtain rfl : place = next := by
      cases leads
      rfl
    exact ⟨path, rfl⟩
  | cons part front ih =>
    obtain ⟨middle, toMiddle, onward⟩ := exists_step_of_walk_cons leads
    rw [List.cons_append, makeBehind, toMiddle]
    exact ih onward

/-! ## Directories in a directory -/

/-- The tree with directories of some names made at a place. -/
def withDirectories (tree : FileTree α) (place : Place) (names : List String) : FileTree α :=
  names.foldr (fun name made => made.insert (place ++ [name]) .directory) tree

@[simp] theorem withDirectories_nil : tree.withDirectories place [] = tree := rfl

@[simp] theorem withDirectories_cons :
    tree.withDirectories place (name :: names) =
      (tree.withDirectories place names).insert (place ++ [name]) .directory := rfl

/-- Relative paths start where they did. -/
@[simp] theorem here_withDirectories : (tree.withDirectories place names).here = tree.here := by
  induction names with
  | nil => rfl
  | cons name names ih => exact ih

/-- The directories that are made are there. -/
theorem lookup?_withDirectories_of_mem (made : name ∈ names) :
    (tree.withDirectories place names).lookup? (place ++ [name]) = some .directory := by
  induction names with
  | nil => cases made
  | cons first names ih =>
    rw [withDirectories_cons]
    by_cases same : name = first
    · rw [same, lookup?_insert_self _ _ _ (by simp)]
    · rw [lookup?_insert_of_ne _ _ _ _ (by simpa using same)]
      exact ih ((List.mem_cons.mp made).resolve_left same)

/-- Nothing else changes when directories are made. -/
theorem lookup?_withDirectories_of_ne {other : Place}
    (apart : ∀ name ∈ names, other ≠ place ++ [name]) :
    (tree.withDirectories place names).lookup? other = tree.lookup? other := by
  induction names with
  | nil => rfl
  | cons first names ih =>
    obtain ⟨different, others⟩ := List.forall_mem_cons.mp apart
    rw [withDirectories_cons, lookup?_insert_of_ne _ _ _ _ different, ih others]

/-! ## Fresh directories -/

/-- A path leads to a directory with nothing under it, in which something can be made. -/
structure IsFresh (tree : FileTree α) (directory : String) (place : Place) : Prop where
  /-- The path is not empty. -/
  ne_empty : directory ≠ ""
  /-- It leads to a directory at a place. -/
  found : tree.find directory = .ok (.directory place)
  /-- Something can be made there. -/
  isOpen : ∀ obstacle, tree.lookup? place ≠ some (.closed obstacle)
  /-- Nothing stands under it. -/
  nothing : ∀ name rest, tree.lookup? (place ++ name :: rest) = none

/-- A path is within the limits of what can be a path. -/
def Fits (path : String) : Prop :=
  ownObstacle? path = none ∧
    ∀ component ∈ Path.components path, Path.isOverlong component = false

instance : DecidablePred Fits := fun path =>
  inferInstanceAs (Decidable (ownObstacle? path = none ∧
    ∀ component ∈ Path.components path, Path.isOverlong component = false))

/-- Of a path within the limits, the components of the file are not too long. -/
theorem Fits.short (fits : Fits (Path.join directory file)) {component : String}
    (member : component ∈ Path.components file) : Path.isOverlong component = false := by
  refine fits.2 component ?_
  rw [Path.components_join]
  exact List.mem_append_right _ member

namespace IsFresh

variable (fresh : tree.IsFresh directory place)

include fresh

/-- What stood in the tree before directories are made in a fresh one still stands. -/
theorem stands {other : Place} {entry : Entry α} (isEntry : tree.lookup? other = some entry) :
    (tree.withDirectories place names).lookup? other = some entry := by
  rw [lookup?_withDirectories_of_ne, isEntry]
  rintro name - rfl
  rw [fresh.nothing name []] at isEntry
  cases isEntry

/-- Where nothing has been made in a fresh directory, nothing stands. -/
theorem lookup?_of_notMem (isNew : name ∉ names) :
    (tree.withDirectories place names).lookup? (place ++ [name]) = none := by
  rw [lookup?_withDirectories_of_ne, fresh.nothing name []]
  intro other made same
  obtain rfl : name = other := by simpa using same
  exact isNew made

/-- Nothing stands in the directories that are made in a fresh one. -/
theorem lookup?_below (name file : String) :
    (tree.withDirectories place names).lookup? (place ++ [name] ++ [file]) = none := by
  rw [List.append_assoc, lookup?_withDirectories_of_ne]
  · exact fresh.nothing name [file]
  · intro other made same
    simp at same

/-- The components of a fresh directory's path still lead to it when directories are made in it. -/
theorem walk_components :
    (tree.withDirectories place names).walk (tree.start directory) (Path.components directory) =
      .ok (.directory place) := by
  have leads : tree.walk (tree.start directory) (Path.parts directory) =
      .ok (.directory place) := by
    have found := fresh.found
    rw [find] at found
    cases isOwn : ownObstacle? directory with
    | none => rwa [isOwn] at found
    | some obstacle => rw [isOwn] at found; cases found
  exact walk_mono (fun _ _ isEntry => fresh.stands isEntry)
    ((walk_filter_iff (by simp) (by simp)).mpr leads)

/-- The path of a file in a fresh directory starts where that of the directory does. -/
theorem start_join (relative : Path.isAbsolute file = false) :
    (tree.withDirectories place names).start (Path.join directory file) = tree.start directory := by
  rw [start, start, Path.isAbsolute_join fresh.ne_empty relative, here_withDirectories]

/-- What the path of a file in a fresh directory leads to is what the file's components lead to from
there. -/
theorem find_join (fits : Fits (Path.join directory file))
    (relative : Path.isAbsolute file = false) {outcome : Except Obstacle (Found α)}
    (noFile : ∀ content, outcome ≠ .ok (.file content)) (noEnd : outcome ≠ .error .notADirectory)
    (leads : (tree.withDirectories place names).walk place (Path.components file) = outcome) :
    (tree.withDirectories place names).find (Path.join directory file) = outcome := by
  rw [find, fits.1]
  refine (walk_filter_iff noFile noEnd).mp ?_
  show walk _ _ (Path.components (Path.join directory file)) = outcome
  rw [Path.components_join, fresh.start_join relative, walk_append fresh.walk_components, leads]

/-- A file can be written where its components lead to nothing yet. -/
theorem checkWritable_of_missing (fits : Fits (Path.join directory file))
    (relative : Path.isAbsolute file = false)
    (leads : (tree.withDirectories place names).walk place (Path.components file) =
      .error .missing) :
    (tree.withDirectories place names).checkWritable (Path.join directory file) = .ok () := by
  rw [checkWritable, fresh.find_join fits relative (by simp) (by simp) leads]
  rfl

/-- A file can be written in a fresh directory under a name that no directory has. -/
theorem checkWritable_join (plain : Path.IsPlainName file)
    (fits : Fits (Path.join directory file)) (isNew : file ∉ names) :
    (tree.withDirectories place names).checkWritable (Path.join directory file) = .ok () := by
  have single : Path.components file = [file] := Path.components_of_isPlainName plain
  have short : Path.isOverlong file = false := fits.short (single ▸ List.mem_singleton_self file)
  refine fresh.checkWritable_of_missing fits (Path.isAbsolute_of_isPlainName plain) ?_
  rw [single, walk, step_of_lookup?_eq_none plain short (fresh.lookup?_of_notMem isNew)]
  rfl

/-- A directory is made in a fresh one, unless it has been made before. -/
theorem makeDirectories_join (plain : Path.IsPlainName name)
    (fits : Fits (Path.join directory name)) :
    (tree.withDirectories place names).makeDirectories (Path.join directory name) =
      .ok (tree.withDirectories place (names.insert name)) := by
  have single : Path.components name = [name] := Path.components_of_isPlainName plain
  have short : Path.isOverlong name = false := fits.short (single ▸ List.mem_singleton_self name)
  have leads : (tree.withDirectories place names).walk (tree.start directory)
      (Path.components directory) = .ok (.directory place) := fresh.walk_components
  obtain ⟨reached, behind⟩ := exists_makeBehind_append leads
  rw [makeDirectories, fits.1]
  show makeBehind _ _ _ _ _ = _
  rw [Path.components_join, fresh.start_join (Path.isAbsolute_of_isPlainName plain), behind, single,
    makeBehind]
  by_cases made : name ∈ names
  · have there : (tree.withDirectories place names).step place name =
        .ok (.directory (place ++ [name])) :=
      step_of_lookup?_eq_directory plain short (lookup?_withDirectories_of_mem made)
    rw [there, List.insert_of_mem made]
    rfl
  · have absent : (tree.withDirectories place names).step place name = .error .missing :=
      step_of_lookup?_eq_none plain short (fresh.lookup?_of_notMem made)
    have same : (tree.withDirectories place names).lookup? place = tree.lookup? place :=
      lookup?_withDirectories_of_ne fun other _ => by simp
    rw [absent, List.insert_of_not_mem made]
    show makeFrom _ _ _ _ = _
    rw [makeFrom, enter, absent, same]
    cases isEntry : tree.lookup? place with
    | none => rfl
    | some entry =>
      cases entry with
      | closed obstacle => exact absurd isEntry (fresh.isOpen obstacle)
      | _ => rfl

/-- A file can be written in a directory that was made in a fresh one. -/
theorem checkWritable_join_slash (plain : Path.IsPlainName name) (plainFile : Path.IsPlainName file)
    (fits : Fits (Path.join directory (name ++ "/" ++ file))) (made : name ∈ names) :
    (tree.withDirectories place names).checkWritable (Path.join directory (name ++ "/" ++ file)) =
      .ok () := by
  have both : Path.components (name ++ "/" ++ file) = [name, file] := by
    rw [Path.components_append_slash, Path.components_of_isPlainName plain,
      Path.components_of_isPlainName plainFile]
    rfl
  have relative : Path.isAbsolute (name ++ "/" ++ file) = false :=
    Path.isAbsolute_slash_of_isPlainName plain
  refine fresh.checkWritable_of_missing fits relative ?_
  have toDirectory : (tree.withDirectories place names).step place name =
      .ok (.directory (place ++ [name])) :=
    step_of_lookup?_eq_directory plain (fits.short (by simp [both]))
      (lookup?_withDirectories_of_mem made)
  have toFile : (tree.withDirectories place names).step (place ++ [name]) file =
      .error .missing :=
    step_of_lookup?_eq_none plainFile (fits.short (by simp [both])) (fresh.lookup?_below name file)
  rw [both, walk, toDirectory]
  show walk _ _ [file] = _
  rw [walk, toFile]
  rfl

end IsFresh

end BindingSuite.FileTree
