import BindingSuite.Proofs.Validity

/-! # Thinning

Uses, calls and entry points can be left out of an accepted program.

* `Statement.Thins` deletes statements other than declarations from a body, and
  `Program.IsThinningOf` does so in all bodies of a program of which it also deletes entry points;
* what a thinned body calls and reads the whole body does (`Thins.sublist`,
  `usedNames_sublist_of_thins`), so that calls and uses become fewer (`calls_le`, `uses_le`);
* `accepted_verdict_of_thinning` concludes that the verdict still accepts. -/

namespace BindingSuite

/-! ## Parts of lists -/

section SublistForall₂

variable {α β γ : Type} {relation : α → β → Prop} {firsts others : List α} {seconds rest : List β}

/-- Every element of one list is related to one of the other. -/
theorem exists_of_mem_sublistForall₂ (related : List.SublistForall₂ relation firsts seconds)
    {first : α} (member : first ∈ firsts) : ∃ second ∈ seconds, relation first second := by
  induction related with
  | nil => cases member
  | @cons _ second _ _ pair _ ih =>
    rcases List.mem_cons.mp member with rfl | inRest
    · exact ⟨second, List.mem_cons_self, pair⟩
    · obtain ⟨second, isSecond, pair⟩ := ih inRest
      exact ⟨second, List.mem_cons_of_mem _ isSecond, pair⟩
  | cons_right _ ih =>
    obtain ⟨second, isSecond, pair⟩ := ih member
    exact ⟨second, List.mem_cons_of_mem _ isSecond, pair⟩

/-- Where related elements have equal keys, the keys of one list are part of those of the other. -/
theorem map_sublist_of_sublistForall₂ {key : α → γ} {otherKey : β → γ}
    (same : ∀ first second, relation first second → key first = otherKey second)
    (related : List.SublistForall₂ relation firsts seconds) :
    (firsts.map key).Sublist (seconds.map otherKey) := by
  induction related with
  | nil => exact List.nil_sublist _
  | cons pair _ ih =>
    rw [List.map_cons, List.map_cons, same _ _ pair]
    exact ih.cons_cons _
  | cons_right _ ih => exact ih.cons _

/-- Lists related all along may stand in front. -/
theorem sublistForall₂_append (front : List.Forall₂ relation firsts seconds)
    (related : List.SublistForall₂ relation others rest) :
    List.SublistForall₂ relation (firsts ++ others) (seconds ++ rest) := by
  induction front with
  | nil => exact related
  | cons pair _ ih => exact .cons pair ih

end SublistForall₂

/-! ## Bodies -/

namespace Statement

/-- A body from which some statements are deleted, but no declaration of a local variable. -/
inductive Thins : List Statement → List Statement → Prop where
  /-- Nothing is deleted from an empty body. -/
  | nil : Thins [] []
  /-- A statement is kept. -/
  | keep (statement : Statement) {thinned body : List Statement} (thins : Thins thinned body) :
    Thins (statement :: thinned) (statement :: body)
  /-- A statement that declares nothing is deleted. -/
  | delete {statement : Statement} {thinned body : List Statement}
    (declaresNothing : statement.localVariable? = none) (thins : Thins thinned body) :
    Thins thinned (statement :: body)

variable {thinned body : List Statement}

/-- Nothing has to be deleted from a body. -/
theorem Thins.refl : ∀ body : List Statement, Thins body body
  | [] => .nil
  | statement :: body => .keep statement (.refl body)

/-- What is left of a body is part of it. -/
theorem Thins.sublist (thins : Thins thinned body) : thinned.Sublist body := by
  induction thins with
  | nil => exact .slnil
  | keep statement _ ih => exact ih.cons_cons statement
  | delete _ _ ih => exact ih.cons _

/-- What is left of a body uses no other names, as the same locals hide them. -/
theorem usedNames_sublist_of_thins (thins : Thins thinned body) (locals : List String) :
    (usedNames locals thinned).Sublist (usedNames locals body) := by
  induction thins generalizing locals with
  | nil => exact .slnil
  | keep statement _ ih => exact (ih (statement.declaredNames ++ locals)).append_left _
  | @delete statement _ _ declaresNothing _ ih =>
    have noNames : statement.declaredNames = [] := by
      rw [declaredNames, declaresNothing]
      rfl
    rw [usedNames, noNames, List.nil_append]
    exact (ih locals).trans (List.sublist_append_right _ _)

end Statement

namespace Function

/-- A function from whose body statements are deleted. -/
structure IsThinningOf (thinned function : Function) : Prop where
  /-- The name is the same. -/
  name : thinned.name = function.name
  /-- The body is thinned. -/
  body : Statement.Thins thinned.body function.body

/-- Nothing has to be deleted from a function. -/
theorem IsThinningOf.refl (function : Function) : function.IsThinningOf function :=
  ⟨rfl, .refl function.body⟩

variable {thinned function : Function} (thins : thinned.IsThinningOf function)

include thins

/-- A thinned function has no other statements. -/
theorem IsThinningOf.mem_body {statement : Statement} (member : statement ∈ thinned.body) :
    statement ∈ function.body :=
  thins.body.sublist.subset member

/-- A thinned function reads no other names. -/
theorem IsThinningOf.readsName {name : String} (reads : thinned.ReadsName name) :
    function.ReadsName name := by
  rw [← mem_uses] at reads ⊢
  exact (Statement.usedNames_sublist_of_thins thins.body []).subset reads

end Function

/-! ## Programs -/

/-- An entry point from whose body statements are deleted. -/
structure EntryPoint.IsThinningOf (thinned entryPoint : EntryPoint) : Prop where
  /-- The function is thinned. -/
  function : thinned.toFunction.IsThinningOf entryPoint.toFunction
  /-- The stage is the same. -/
  stage : thinned.stage = entryPoint.stage

/-- Nothing has to be deleted from an entry point. -/
theorem EntryPoint.IsThinningOf.refl (entryPoint : EntryPoint) :
    entryPoint.IsThinningOf entryPoint :=
  ⟨.refl entryPoint.toFunction, rfl⟩

namespace Program

/-- A program from whose bodies statements are deleted and which is left without some of its entry
points. -/
structure IsThinningOf (thinned program : Program) : Prop where
  /-- The resources are the same. -/
  resources : thinned.resources = program.resources
  /-- The plain variables are the same. -/
  globals : thinned.globals = program.globals
  /-- The helpers are thinned, each in its place. -/
  helpers : List.Forall₂ Function.IsThinningOf thinned.helpers program.helpers
  /-- Some of the entry points are left, and thinned. -/
  entryPoints : List.SublistForall₂ EntryPoint.IsThinningOf thinned.entryPoints program.entryPoints

namespace IsThinningOf

variable {thinned program : Program} (thins : thinned.IsThinningOf program)

include thins

/-- What is left of the functions of a program is thinned. -/
theorem functions :
    List.SublistForall₂ Function.IsThinningOf thinned.functions program.functions := by
  refine sublistForall₂_append thins.helpers ?_
  rw [List.sublistForall₂_map_left_iff, List.sublistForall₂_map_right_iff]
  obtain ⟨originals, related, included⟩ := List.sublistForall₂_iff.mp thins.entryPoints
  exact List.sublistForall₂_iff.mpr
    ⟨originals, related.imp fun _ _ thinsEntryPoint => thinsEntryPoint.function, included⟩

/-- The variables are the same. -/
theorem variableNames : thinned.variableNames = program.variableNames := by
  rw [Program.variableNames, thins.resources, thins.globals, Program.variableNames]

/-- The names of helpers are the same. -/
theorem names_helpers : thinned.helpers.map (·.name) = program.helpers.map (·.name) := by
  have names : List.Forall₂ (fun first second : Function => first.name = second.name)
      thinned.helpers program.helpers :=
    thins.helpers.imp fun _ _ thinsHelper => thinsHelper.name
  rwa [← List.forall₂_eq_eq_eq, List.forall₂_map_left_iff, List.forall₂_map_right_iff]

/-- No name is declared that was not. -/
theorem declaredNames : thinned.declaredNames.Sublist program.declaredNames := by
  rw [Program.declaredNames, Program.declaredNames, thins.variableNames]
  exact (map_sublist_of_sublistForall₂ (fun _ _ thinsFunction => thinsFunction.name)
    thins.functions).append_left _

/-- No entry point has a name that none had. -/
theorem names_entryPoints :
    (thinned.entryPoints.map (·.name)).Sublist (program.entryPoints.map (·.name)) :=
  map_sublist_of_sublistForall₂ (fun _ _ thinsEntryPoint => thinsEntryPoint.function.name)
    thins.entryPoints

/-- No calls are made that were not. -/
theorem calls_le : thinned.Calls ≤ program.Calls := by
  rintro caller callee ⟨function, member, rfl, call⟩
  obtain ⟨original, isFunction, thinsOriginal⟩ :=
    exists_of_mem_sublistForall₂ thins.functions member
  exact ⟨original, isFunction, thinsOriginal.name.symm, thinsOriginal.mem_body call⟩

/-- No uses are made that were not. -/
theorem uses_le : thinned.Uses ≤ program.Uses := by
  rintro user variableName ⟨function, member, rfl, reads⟩
  obtain ⟨original, isFunction, thinsOriginal⟩ :=
    exists_of_mem_sublistForall₂ thins.functions member
  exact ⟨original, isFunction, thinsOriginal.name.symm, thinsOriginal.readsName reads⟩

/-- What is left of a valid program is valid. -/
theorem isValid (valid : program.IsValid) : thinned.IsValid := by
  rw [isValid_iff] at valid ⊢
  obtain ⟨names, uses, calls, acyclic, resources, globals, locals, places⟩ := valid
  rw [thins.variableNames, thins.names_helpers, thins.resources, thins.globals]
  refine ⟨names.sublist thins.declaredNames,
    fun user name use => uses user name (thins.uses_le user name use),
    fun caller callee call => calls caller callee (thins.calls_le caller callee call),
    fun name => acyclic_anti thins.calls_le (acyclic name), resources, globals,
    fun function member declared declares => ?_,
    fun name isEntryPoint first isFirst second isSecond different leads leads' => ?_⟩
  · obtain ⟨original, isFunction, thinsOriginal⟩ :=
      exists_of_mem_sublistForall₂ thins.functions member
    exact locals original isFunction declared (thinsOriginal.mem_body declares)
  · have fewer : thinned.LeadsTo ≤ program.LeadsTo := leadsTo_mono thins.calls_le thins.uses_le
    exact places name (thins.names_entryPoints.subset isEntryPoint) first isFirst second isSecond
      different (fewer name _ leads) (fewer name _ leads')

end IsThinningOf

/-- Acceptance is closed under thinning. When uses and calls are deleted from the bodies of a program
that the verdict accepts, and some of its entry points are left out, it accepts what is left. -/
theorem accepted_verdict_of_thinning {thinned program : Program}
    (thins : thinned.IsThinningOf program) (accepted : program.verdict.accepted = true) :
    thinned.verdict.accepted = true := by
  rw [accepted_verdict_iff_isValid] at accepted ⊢
  exact thins.isValid accepted

/-- From a program in which two entry points lead to an image and a buffer, one entry point can be
left out, and with it the use and the call by which the other one and its helper reach the buffer. -/
theorem accepted_verdict_of_thinning_image :
    let program : Program :=
      ⟨[⟨"image", .texture2D, some 0, some 1⟩, ⟨"buffer", .storage, some 0, some 2⟩], [],
        [⟨"sample", [.use "image", .call "load"]⟩, ⟨"load", [.use "buffer"]⟩],
        [⟨⟨"shade", [.call "sample"]⟩, "fragment"⟩,
          ⟨⟨"main", [.use "buffer", .call "sample"]⟩, "compute"⟩]⟩
    let thinned : Program :=
      ⟨program.resources, [],
        [⟨"sample", [.use "image"]⟩, ⟨"load", [.use "buffer"]⟩],
        [⟨⟨"main", [.call "sample"]⟩, "compute"⟩]⟩
    thinned.IsThinningOf program ∧ program.verdict.accepted = true ∧
      thinned.verdict.accepted = true := by
  intro program thinned
  have sample : Function.IsThinningOf ⟨"sample", [.use "image"]⟩
      ⟨"sample", [.use "image", .call "load"]⟩ := ⟨rfl, .keep _ (.delete rfl .nil)⟩
  have main : EntryPoint.IsThinningOf ⟨⟨"main", [.call "sample"]⟩, "compute"⟩
      ⟨⟨"main", [.use "buffer", .call "sample"]⟩, "compute"⟩ :=
    ⟨⟨rfl, .delete rfl (.keep _ .nil)⟩, rfl⟩
  have thins : thinned.IsThinningOf program :=
    ⟨rfl, rfl, .cons sample (.cons (.refl _) .nil), .cons_right (.cons main .nil)⟩
  have accepted : program.verdict.accepted = true := by cbv
  exact ⟨thins, accepted, accepted_verdict_of_thinning thins accepted⟩

end Program

end BindingSuite
