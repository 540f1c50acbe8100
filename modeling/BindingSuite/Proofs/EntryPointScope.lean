import BindingSuite.Proofs.Thinning

/-! # Entry points one by one

Entry points do not interfere: a program can be judged by one of them at a time.

* `Program.onlyWith` leaves a program one of its entry points;
* the section on closed parts compares two relations that agree on a part which no step leaves;
* `leadsTo_onlyWith_iff` and `acyclic_of_onlyWith` say that an entry point leads where it led
  before, as nothing that it can reach by calls is left out;
* `accepted_verdict_iff_onlyWith` concludes that the verdict on a program is that on all programs
  with one of its entry points. -/

namespace BindingSuite

/-! ## Closed parts -/

section ClosedPart

variable {α : Type} {small large : α → α → Prop} {inside : α → Prop}
  (kept : ∀ source target, inside source → large source target →
    small source target ∧ inside target)
  {source target : α} (start : inside source)

include kept start

/-- What is reached from within a part that no step leaves lies in it and is reached over the steps
that the part keeps. -/
theorem reflTransGen_of_inside (chain : Relation.ReflTransGen large source target) :
    Relation.ReflTransGen small source target ∧ inside target := by
  -- Along the chain, what is reached lies in the part, so that the next step is kept as well.
  induction chain with
  | refl => exact ⟨.refl, start⟩
  | tail _ step ih =>
    obtain ⟨chain, isInside⟩ := ih
    obtain ⟨step, isInside⟩ := kept _ _ isInside step
    exact ⟨chain.tail step, isInside⟩

/-- What is reached from within such a part over one step or more is reached over one or more of the
steps that the part keeps. -/
theorem transGen_of_inside (chain : Relation.TransGen large source target) :
    Relation.TransGen small source target := by
  obtain ⟨middle, first, rest⟩ := Relation.TransGen.head'_iff.mp chain
  obtain ⟨first, isInside⟩ := kept _ _ start first
  exact .head' first (reflTransGen_of_inside kept isInside rest).1

end ClosedPart

namespace Program

/-- The program with one entry point in place of its own. -/
def onlyWith (program : Program) (entryPoint : EntryPoint) : Program :=
  { program with entryPoints := [entryPoint] }

variable {program : Program} {entryPoint : EntryPoint}

/-- The functions that remain are the helpers and the entry point. -/
theorem mem_functions_onlyWith {function : Function} :
    function ∈ (program.onlyWith entryPoint).functions ↔
      function ∈ program.helpers ∨ function = entryPoint.toFunction := by
  rw [functions, onlyWith, List.mem_append, List.map_singleton, List.mem_singleton]

/-- What remains of the functions of a program was among them. -/
theorem mem_functions_of_onlyWith (member : entryPoint ∈ program.entryPoints) {function : Function}
    (remains : function ∈ (program.onlyWith entryPoint).functions) :
    function ∈ program.functions := by
  rcases mem_functions_onlyWith.mp remains with isHelper | rfl
  · exact List.mem_append_left _ isHelper
  · exact List.mem_append_right _ (List.mem_map_of_mem member)

/-- Where there are entry points, a program has the functions that remain with one of them. -/
theorem mem_functions_iff_onlyWith (given : program.entryPoints ≠ []) {function : Function} :
    function ∈ program.functions ↔
      ∃ entryPoint ∈ program.entryPoints, function ∈ (program.onlyWith entryPoint).functions := by
  constructor
  · intro member
    rcases List.mem_append.mp member with isHelper | fromEntryPoint
    · -- A helper remains with any entry point, of which there is one.
      obtain ⟨entryPoint, isEntryPoint⟩ := List.exists_mem_of_ne_nil _ given
      exact ⟨entryPoint, isEntryPoint, mem_functions_onlyWith.mpr (.inl isHelper)⟩
    · obtain ⟨entryPoint, isEntryPoint, rfl⟩ := List.mem_map.mp fromEntryPoint
      exact ⟨entryPoint, isEntryPoint, mem_functions_onlyWith.mpr (.inr rfl)⟩
  · rintro ⟨entryPoint, member, remains⟩
    exact mem_functions_of_onlyWith member remains

/-! ## Calls and uses -/

section Member

variable (member : entryPoint ∈ program.entryPoints)

include member

/-- What remains is a thinning: all other entry points are left out. -/
theorem isThinningOf_onlyWith : (program.onlyWith entryPoint).IsThinningOf program where
  resources := rfl
  globals := rfl
  helpers := List.forall₂_same.mpr fun helper _ => .refl helper
  entryPoints := List.sublistForall₂_iff.mpr
    ⟨[entryPoint], .cons (.refl entryPoint) .nil, List.singleton_sublist.mpr member⟩

section Resolved

variable (distinct : program.declaredNames.Nodup)
  (resolved : ∀ caller callee, program.Calls caller callee →
    callee ∈ program.helpers.map (·.name))

include distinct

/-- Where names are distinct, a function with the name of the entry point or of a helper remains. -/
theorem mem_functions_onlyWith_of_name {function : Function}
    (isFunction : function ∈ program.functions)
    (inside : function.name = entryPoint.name ∨ function.name ∈ program.helpers.map (·.name)) :
    function ∈ (program.onlyWith entryPoint).functions := by
  rw [mem_functions_onlyWith]
  rcases inside with same | sameAsHelper
  · have isOther : entryPoint.toFunction ∈ program.functions :=
      List.mem_append_right _ (List.mem_map_of_mem member)
    exact .inr (eq_of_name_eq distinct isOther isFunction same)
  · obtain ⟨helper, isHelper, same⟩ := List.mem_map.mp sameAsHelper
    have isOther : helper ∈ program.functions := List.mem_append_left _ isHelper
    rw [← eq_of_name_eq distinct isFunction isOther same]
    exact .inl isHelper

include resolved

/-- Where only helpers are called, the entry point and the helpers make up a part that no call
leaves and whose calls remain. -/
theorem calls_kept_onlyWith (caller callee : String)
    (inside : caller = entryPoint.name ∨ caller ∈ program.helpers.map (·.name))
    (call : program.Calls caller callee) :
    (program.onlyWith entryPoint).Calls caller callee ∧
      (callee = entryPoint.name ∨ callee ∈ program.helpers.map (·.name)) := by
  refine ⟨?_, .inr (resolved caller callee call)⟩
  obtain ⟨function, isFunction, rfl, inBody⟩ := call
  have remains := mem_functions_onlyWith_of_name member distinct isFunction inside
  exact ⟨function, remains, rfl, inBody⟩

/-- An entry point leads to the same variables without the other entry points. -/
theorem leadsTo_onlyWith_iff {variableName : String} :
    (program.onlyWith entryPoint).LeadsTo entryPoint.name variableName ↔
      program.LeadsTo entryPoint.name variableName := by
  -- The user at the end of a chain lies in the part too, so that its body remains with its uses.
  constructor
  · have thins := isThinningOf_onlyWith member
    exact leadsTo_mono thins.calls_le thins.uses_le _ _
  · rintro ⟨user, chain, function, isFunction, rfl, reads⟩
    obtain ⟨chain, inside⟩ := reflTransGen_of_inside
      (calls_kept_onlyWith member distinct resolved) (.inl rfl) chain
    have remains := mem_functions_onlyWith_of_name member distinct isFunction inside
    exact ⟨function.name, chain, function, remains, rfl, reads⟩

/-- Calls that lead back to where they start remain with any entry point, as they only go through
helpers. -/
theorem acyclic_of_onlyWith
    (acyclic : ∀ name, ¬Relation.TransGen (program.onlyWith entryPoint).Calls name name)
    (name : String) : ¬Relation.TransGen program.Calls name name := by
  intro cycle
  -- The last call of the cycle shows that the name is that of a helper.
  obtain ⟨last, -, call⟩ := Relation.TransGen.tail'_iff.mp cycle
  have isHelper := resolved last name call
  exact acyclic name
    (transGen_of_inside (calls_kept_onlyWith member distinct resolved) (.inr isHelper) cycle)

end Resolved

end Member

/-! ## Validity -/

/-- Names are distinct exactly when those of the entry points are and each of these differs from the
names of variables and helpers, which are distinct as well. -/
theorem nodup_declaredNames_iff_onlyWith (given : program.entryPoints ≠ []) :
    program.declaredNames.Nodup ↔
      (program.entryPoints.map (·.name)).Nodup ∧
        ∀ entryPoint ∈ program.entryPoints, (program.onlyWith entryPoint).declaredNames.Nodup := by
  -- The other names are the same in all programs concerned.
  obtain ⟨others, names, namesOnlyWith⟩ : ∃ others,
      program.declaredNames = others ++ program.entryPoints.map (·.name) ∧
        ∀ entryPoint,
          (program.onlyWith entryPoint).declaredNames = others ++ [entryPoint.name] := by
    refine ⟨program.variableNames ++ program.helpers.map (·.name), ?_, fun entryPoint => ?_⟩
    · simp [declaredNames, functions]
    · simp [declaredNames, functions, variableNames, onlyWith]
  simp only [names, namesOnlyWith, List.nodup_append, List.mem_singleton, List.forall_mem_map]
  constructor
  · rintro ⟨othersDistinct, distinct, apart⟩
    refine ⟨distinct, fun entryPoint member => ⟨othersDistinct, List.nodup_singleton _, ?_⟩⟩
    rintro name isOther _ rfl
    exact apart name isOther entryPoint member
  · rintro ⟨distinct, each⟩
    obtain ⟨entryPoint, member⟩ := List.exists_mem_of_ne_nil _ given
    have othersDistinct := (each entryPoint member).1
    refine ⟨othersDistinct, distinct, fun name isOther entryPoint member => ?_⟩
    exact (each entryPoint member).2.2 name isOther entryPoint.name rfl

/-- A valid program stays valid with one of its entry points. -/
theorem isValid_onlyWith (valid : program.IsValid) (member : entryPoint ∈ program.entryPoints) :
    (program.onlyWith entryPoint).IsValid :=
  (isThinningOf_onlyWith member).isValid valid

/-- A program whose entry points have distinct names is valid when it is with each of them. -/
theorem isValid_of_onlyWith (given : program.entryPoints ≠ [])
    (distinct : (program.entryPoints.map (·.name)).Nodup)
    (each : ∀ entryPoint ∈ program.entryPoints, (program.onlyWith entryPoint).IsValid) :
    program.IsValid := by
  have names : program.declaredNames.Nodup := (nodup_declaredNames_iff_onlyWith given).mpr
    ⟨distinct, fun entryPoint member => (each entryPoint member).names_nodup⟩
  have calls : ∀ function ∈ program.functions, ∀ callee, .call callee ∈ function.body →
      ∃ helper ∈ program.helpers, helper.name = callee := by
    intro function isFunction callee call
    obtain ⟨entryPoint, member, remains⟩ := (mem_functions_iff_onlyWith given).mp isFunction
    exact ((each entryPoint member).calls function remains callee call).1
  have resolved : ∀ caller callee, program.Calls caller callee →
      callee ∈ program.helpers.map (·.name) :=
    forall_calls_iff.mp fun function isFunction callee call =>
      List.mem_map.mpr (calls function isFunction callee call)
  -- What does not depend on the functions can be read off any of the programs.
  obtain ⟨someEntryPoint, isEntryPoint⟩ := List.exists_mem_of_ne_nil _ given
  have some := each someEntryPoint isEntryPoint
  exact {
    names_nodup := names
    reads := fun function isFunction => by
      obtain ⟨entryPoint, member, remains⟩ := (mem_functions_iff_onlyWith given).mp isFunction
      exact (each entryPoint member).reads function remains
    calls := fun function isFunction callee call => by
      obtain ⟨helper, isHelper, rfl⟩ := calls function isFunction callee call
      exact ⟨⟨helper, isHelper, rfl⟩, fun _ => ne_of_nodup_declaredNames names isHelper⟩
    acyclic := acyclic_iff.mpr
      (acyclic_of_onlyWith isEntryPoint names resolved (acyclic_iff.mp some.acyclic))
    resources := some.resources
    globals := some.globals
    locals := fun function isFunction => by
      obtain ⟨entryPoint, member, remains⟩ := (mem_functions_iff_onlyWith given).mp isFunction
      exact (each entryPoint member).locals function remains
    places := fun entryPoint member first isFirst second isSecond different => by
      rw [← leadsTo_onlyWith_iff member names resolved,
        ← leadsTo_onlyWith_iff member names resolved]
      exact (each entryPoint member).places entryPoint List.mem_cons_self first isFirst second
        isSecond different }

/-- The verdict decomposes. A program with entry points is accepted exactly when these have distinct
names and it is accepted with any one of them in place of all. -/
theorem accepted_verdict_iff_onlyWith (given : program.entryPoints ≠ []) :
    program.verdict.accepted = true ↔
      (program.entryPoints.map (·.name)).Nodup ∧
        ∀ entryPoint ∈ program.entryPoints,
          (program.onlyWith entryPoint).verdict.accepted = true := by
  simp only [accepted_verdict_iff_isValid]
  constructor
  · intro valid
    exact ⟨((nodup_declaredNames_iff_onlyWith given).mp valid.names_nodup).1,
      fun entryPoint member => isValid_onlyWith valid member⟩
  · rintro ⟨distinct, each⟩
    exact isValid_of_onlyWith given distinct each

/-- Two entry points share a helper that reads a texture. One of them also reads a buffer at the
same place, for which alone both are rejected. -/
theorem accepted_verdict_onlyWith_collision :
    (Program.verdict
      ⟨[⟨"image", .texture2D, some 0, some 1⟩, ⟨"buffer", .storage, some 0, some 1⟩], [],
        [⟨"sample", [.use "image"]⟩],
        [⟨⟨"shade", [.call "sample"]⟩, "fragment"⟩,
          ⟨⟨"main", [.use "buffer", .call "sample"]⟩, "vertex"⟩]⟩).accepted = false := by
  rw [← Bool.not_eq_true, accepted_verdict_iff_onlyWith (List.cons_ne_nil _ _)]
  rintro ⟨-, each⟩
  have alone := each ⟨⟨"main", [.use "buffer", .call "sample"]⟩, "vertex"⟩ (by simp)
  rw [Verdict.accepted_iff, reasons_verdict_eq_nil_iff] at alone
  have same := alone.places _ List.mem_cons_self ⟨"image", .texture2D, some 0, some 1⟩
    ⟨"buffer", .storage, some 0, some 1⟩
    ⟨by simp [onlyWith], "sample", .single (by decide), by decide⟩
    ⟨by simp [onlyWith], "main", .refl, by decide⟩ _ rfl _ rfl rfl
  exact absurd same (by decide)

end Program

end BindingSuite
