import BindingSuite.Proofs.ModuleRules
import BindingSuite.Proofs.Validity

/-! # Orders of declarations

In which order a program or a module declares things has no say in whether it is accepted.

* `Program.IsReorderingOf` and `Wgsl.Module.IsReorderingOf` allow each sort of declarations to be
  permuted, bodies untouched;
* the calls and uses between names stay the same (`calls_eq`, `uses_eq`), and so do the conditions
  of validity and the rules of modules, although the checks go through tables that depend on the
  order;
* `accepted_of_reordering` concludes for the verdict and for the answer of the compiler. -/

namespace BindingSuite

/-! ## Programs -/

namespace Program

/-- Two programs declare the same, each sort in any order. -/
structure IsReorderingOf (program other : Program) : Prop where
  /-- The resources are permuted. -/
  resources : program.resources.Perm other.resources
  /-- The plain variables are permuted. -/
  globals : program.globals.Perm other.globals
  /-- The helpers are permuted. -/
  helpers : program.helpers.Perm other.helpers
  /-- The entry points are permuted. -/
  entryPoints : program.entryPoints.Perm other.entryPoints

namespace IsReorderingOf

variable {program other : Program} (same : program.IsReorderingOf other)

include same

/-- Reordering permutes the functions. -/
theorem functions : program.functions.Perm other.functions :=
  same.helpers.append (same.entryPoints.map _)

/-- Reordering permutes the names of variables. -/
theorem variableNames : program.variableNames.Perm other.variableNames :=
  (same.resources.map _).append (same.globals.map _)

/-- Reordering permutes the declared names. -/
theorem declaredNames : program.declaredNames.Perm other.declaredNames :=
  same.variableNames.append (same.functions.map _)

/-- Reordering keeps the calls. -/
theorem calls_eq : program.Calls = other.Calls := by
  funext caller callee
  simp only [Calls, same.functions.mem_iff]

/-- Reordering keeps the uses. -/
theorem uses_eq : program.Uses = other.Uses := by
  funext name variableName
  simp only [Uses, same.functions.mem_iff]

/-- Reordering keeps the variables to which a function leads. -/
theorem leadsTo_eq : program.LeadsTo = other.LeadsTo := by
  funext name variableName
  rw [LeadsTo, LeadsTo, same.calls_eq, same.uses_eq]

/-- Reordering keeps validity. -/
theorem isValid_iff : program.IsValid ↔ other.IsValid := by
  -- Apart from the distinctness of names, each condition asks what is declared and not where.
  rw [Program.isValid_iff, Program.isValid_iff, same.declaredNames.nodup_iff, same.calls_eq,
    same.uses_eq, same.leadsTo_eq]
  simp only [same.variableNames.mem_iff, (same.helpers.map _).mem_iff,
    (same.entryPoints.map _).mem_iff, same.resources.mem_iff, same.globals.mem_iff,
    same.functions.mem_iff]

end IsReorderingOf

end Program

/-! ## Modules -/

namespace Wgsl.Module

/-- Two modules declare the same, variables and functions in any order. -/
structure IsReorderingOf (module other : Module) : Prop where
  /-- The variables are permuted. -/
  globals : module.globals.Perm other.globals
  /-- The functions are permuted. -/
  functions : module.functions.Perm other.functions

namespace IsReorderingOf

variable {module other : Module} (same : module.IsReorderingOf other)

include same

/-- Reordering can be undone. -/
theorem symm : other.IsReorderingOf module :=
  ⟨same.globals.symm, same.functions.symm⟩

/-- Reordering permutes the declared names. -/
theorem declaredNames : module.declaredNames.Perm other.declaredNames :=
  (same.globals.map _).append (same.functions.map _)

/-- Reordering keeps the calls. -/
theorem calls_eq : module.Calls = other.Calls := by
  funext caller callee
  simp only [Calls, same.functions.mem_iff]

/-- Reordering keeps the uses. -/
theorem uses_eq : module.Uses = other.Uses := by
  funext name variableName
  simp only [Uses, same.functions.mem_iff]

/-- Reordering keeps the helpers. -/
theorem hasHelper_eq : module.HasHelper = other.HasHelper := by
  funext name
  simp only [HasHelper, same.functions.mem_iff]

/-- Reordering keeps the variables. -/
theorem hasGlobal_eq : module.HasGlobal = other.HasGlobal := by
  funext name
  simp only [HasGlobal, same.globals.mem_iff]

/-- Reordering keeps the interfaces of entry points. -/
theorem inInterface_eq : module.InInterface = other.InInterface := by
  funext entryPoint resource
  simp only [InInterface, same.globals.mem_iff, same.calls_eq, same.uses_eq]

/-- Reordering keeps the rules. -/
theorem keepsRules (rules : module.KeepsRules) : other.KeepsRules where
  names_nodup := (same.declaredNames.map _).nodup_iff.mp rules.names_nodup
  globals declared member := rules.globals declared (same.globals.mem_iff.mpr member)
  locals function member := rules.locals function (same.functions.mem_iff.mpr member)
  calls function member := by
    rw [← same.hasHelper_eq]
    exact rules.calls function (same.functions.mem_iff.mpr member)
  valueCalls function member := by
    rw [← same.hasHelper_eq]
    exact rules.valueCalls function (same.functions.mem_iff.mpr member)
  references function member := by
    rw [← same.hasGlobal_eq]
    exact rules.references function (same.functions.mem_iff.mpr member)
  acyclic function member := by
    rw [← same.calls_eq]
    exact rules.acyclic function (same.functions.mem_iff.mpr member)
  compute function member := rules.compute function (same.functions.mem_iff.mpr member)
  vertex function member := rules.vertex function (same.functions.mem_iff.mpr member)
  places entryPoint member := by
    rw [← same.inInterface_eq]
    exact rules.places entryPoint (same.functions.mem_iff.mpr member)

end IsReorderingOf

end Wgsl.Module

/-! ## Acceptance -/

/-- The order of declarations does not matter. Permuting its resources, plain variables, helpers and
entry points leaves whether the verdict accepts a program, and permuting its variables and functions
leaves whether the compiler accepts a module. -/
theorem accepted_of_reordering :
    (∀ program other : Program, other.IsReorderingOf program →
      other.verdict.accepted = program.verdict.accepted) ∧
    ∀ module other : Wgsl.Module, other.IsReorderingOf module →
      other.answer.accepted = module.answer.accepted := by
  constructor
  · intro program other same
    rw [Bool.eq_iff_iff, Program.accepted_verdict_iff_isValid, Program.accepted_verdict_iff_isValid]
    exact same.isValid_iff
  · intro module other same
    rw [Bool.eq_iff_iff, Wgsl.Module.accepted_answer_iff, Wgsl.Module.accepted_answer_iff,
      Wgsl.Module.breaches_eq_nil_iff, Wgsl.Module.breaches_eq_nil_iff]
    -- One direction suffices, as a reordering can be undone.
    exact ⟨same.keepsRules, same.symm.keepsRules⟩

/-- A collision behind a chain of helpers is found when the resources, the helpers and the entry
points stand the other way round, and so is the second of two declarations of one name when it
comes first. -/
theorem accepted_of_reordering_collision :
    (Program.verdict
        ⟨[⟨"buffer", .storage, some 0, some 1⟩, ⟨"image", .texture2D, some 0, some 1⟩], [],
          [⟨"sample", [.use "image", .call "load"]⟩, ⟨"load", [.use "buffer"]⟩],
          [⟨⟨"other", []⟩, "fragment"⟩, ⟨⟨"main", [.call "sample"]⟩, "vertex"⟩]⟩).accepted = false ∧
      (Wgsl.Module.answer
        ⟨[⟨[], ["private"], ⟨"state", .start⟩, "u32"⟩, ⟨[], ["private"], ⟨"state", .start⟩, "f32"⟩],
          [⟨[], ⟨"main", .start⟩, none, [.drop (.reference ⟨"state", .start⟩)]⟩]⟩).accepted =
        false := by
  have unchanged := accepted_of_reordering.1
    ⟨[⟨"image", .texture2D, some 0, some 1⟩, ⟨"buffer", .storage, some 0, some 1⟩], [],
      [⟨"load", [.use "buffer"]⟩, ⟨"sample", [.use "image", .call "load"]⟩],
      [⟨⟨"main", [.call "sample"]⟩, "vertex"⟩, ⟨⟨"other", []⟩, "fragment"⟩]⟩
    ⟨[⟨"buffer", .storage, some 0, some 1⟩, ⟨"image", .texture2D, some 0, some 1⟩], [],
      [⟨"sample", [.use "image", .call "load"]⟩, ⟨"load", [.use "buffer"]⟩],
      [⟨⟨"other", []⟩, "fragment"⟩, ⟨⟨"main", [.call "sample"]⟩, "vertex"⟩]⟩
    ⟨by decide, by decide, by decide, by decide⟩
  have unchangedModule := accepted_of_reordering.2
    ⟨[⟨[], ["private"], ⟨"state", .start⟩, "f32"⟩, ⟨[], ["private"], ⟨"state", .start⟩, "u32"⟩],
      [⟨[], ⟨"main", .start⟩, none, [.drop (.reference ⟨"state", .start⟩)]⟩]⟩
    ⟨[⟨[], ["private"], ⟨"state", .start⟩, "u32"⟩, ⟨[], ["private"], ⟨"state", .start⟩, "f32"⟩],
      [⟨[], ⟨"main", .start⟩, none, [.drop (.reference ⟨"state", .start⟩)]⟩]⟩
    ⟨by decide, by decide⟩
  refine ⟨unchanged.trans ?_, unchangedModule.trans ?_⟩
  · rw [← Bool.not_eq_true, Verdict.accepted_iff, Program.reasons_verdict_eq_nil_iff]
    intro rules
    have same := rules.places _ List.mem_cons_self ⟨"image", .texture2D, some 0, some 1⟩
      ⟨"buffer", .storage, some 0, some 1⟩ ⟨by simp, "sample", .single (by decide), by decide⟩
      ⟨by simp, "load", .tail (.single (by decide : ("main", "sample") ∈ _)) (by decide), by decide⟩
      _ rfl _ rfl rfl
    exact absurd same (by decide)
  · rw [← Bool.not_eq_true, Wgsl.Module.accepted_answer_iff, Wgsl.Module.breaches_eq_nil_iff]
    exact fun rules => absurd rules.names_nodup (by decide)

end BindingSuite
