import BindingSuite.Proofs.Usage

/-! # What a new entry point references

A new entry point references its resources, except where the program already has functions of the
names of helpers that do something else.

* `leadsTo_withEntryPoint_iff` lists the variables to which the new entry point leads;
* `Program.HelpersServe` says what the functions that are there must lead to for the sake of an
  entry point, and `references_iff_helpersServe` that this is necessary and sufficient. -/

namespace BindingSuite

namespace Program

variable {program : Program} {usage : Usage} {name stage : String} {resources : List String}

/-! ## Where a new entry point leads -/

section New

variable (isFree : program.IsFree name)
  (apart : ∀ resource ∈ usage.helped resources, helperNameOf resource ≠ name)

include isFree apart

/-- A new entry point of a free name leads to the resources that it uses itself, to those for which
it gets new helpers, and to what the names of the helpers that it calls led to before. -/
theorem leadsTo_withEntryPoint_iff {variableName : String} :
    (program.withEntryPointUsing usage name stage resources).LeadsTo name variableName ↔
      (usage = .direct ∧ variableName ∈ resources) ∨
      (variableName ∈ usage.helped resources ∧ program.LacksHelper variableName) ∨
      ∃ resource ∈ usage.helped resources,
        program.LeadsTo (helperNameOf resource) variableName := by
  -- From all other names the same functions are reached as before.
  have chains {source user : String} (other : source ≠ name) :
      Relation.ReflTransGen (program.withEntryPointUsing usage name stage resources).Calls
        source user ↔ Relation.ReflTransGen program.Calls source user := by
    refine CallGraph.reflTransGen_iff_of_fresh isFree.not_calls_to (fun caller callee notNew => ?_)
      other
    rw [calls_withEntryPoint_iff, or_iff_left fun call => notNew call.1.symm]
  constructor
  · rintro ⟨user, chain, use⟩
    rcases chain.cases_head with rfl | ⟨callee, call, chain⟩
    · rcases uses_withEntryPoint_iff.mp use with old | ⟨helped, -, same⟩ | ⟨-, direct⟩
      · exact absurd old isFree.not_uses
      · exact absurd same (apart variableName helped)
      · exact .inl direct
    · rcases calls_withEntryPoint_iff.mp call with old | ⟨-, isHelper⟩
      · exact absurd old isFree.not_calls
      obtain ⟨resource, helped, rfl⟩ := List.mem_map.mp isHelper
      have chain := (chains (apart resource helped)).mp chain
      have other := CallGraph.ne_of_reflTransGen_of_fresh isFree.not_calls_to
        (apart resource helped) chain
      rcases uses_withEntryPoint_iff.mp use with old | ⟨helped, lacking, -⟩ | ⟨same, -⟩
      · exact .inr (.inr ⟨resource, helped, user, chain, old⟩)
      · exact .inr (.inl ⟨helped, lacking⟩)
      · exact absurd same.symm other
  · have called {resource : String} (helped : resource ∈ usage.helped resources) :
        (program.withEntryPointUsing usage name stage resources).Calls name
          (helperNameOf resource) :=
      calls_withEntryPoint_iff.mpr (.inr ⟨rfl, List.mem_map_of_mem helped⟩)
    rintro (direct | ⟨helped, lacking⟩ | ⟨resource, helped, user, chain, use⟩)
    · exact ⟨name, .refl, uses_withEntryPoint_iff.mpr (.inr (.inr ⟨rfl, direct⟩))⟩
    · exact ⟨helperNameOf variableName, .single (called helped),
        uses_withEntryPoint_iff.mpr (.inr (.inl ⟨helped, lacking, rfl⟩))⟩
    · exact ⟨user, .head (called helped) ((chains (apart resource helped)).mpr chain),
        uses_withEntryPoint_iff.mpr (.inl use)⟩

end New

/-! ## Helpers that serve -/

/-- The functions that a program has of the names of helpers serve the resources: they lead to
nothing else, and to each of these whose helper is not lacking. -/
structure HelpersServe (program : Program) (resources : List String) : Prop where
  /-- From the name of a helper nothing but the resources is led to. -/
  only : ∀ resource ∈ resources, ∀ variableName,
    program.LeadsTo (helperNameOf resource) variableName → variableName ∈ resources
  /-- A resource whose helper is not lacking is led to from the name of some helper. -/
  all : ∀ resource ∈ resources, ¬program.LacksHelper resource →
    ∃ other ∈ resources, program.LeadsTo (helperNameOf other) resource

/-- Functions serve the resources when those of the names of helpers are these helpers. -/
theorem helpersServe_of_helpers
    (helpers : ∀ function ∈ program.functions, ∀ resource ∈ resources,
      function.name = helperNameOf resource → function = helperFor resource) :
    program.HelpersServe resources where
  only resource member variableName := by
    rintro ⟨user, chain, use⟩
    rcases chain.cases_head with rfl | ⟨callee, ⟨function, isFunction, same, call⟩, -⟩
    · obtain ⟨function, isFunction, same, reads⟩ := use
      rw [helpers function isFunction resource member same, readsName_helperFor] at reads
      rwa [reads]
    · rw [helpers function isFunction resource member same] at call
      simp at call
  all resource member present := by
    obtain ⟨helper, isHelper, same⟩ := List.mem_map.mp (not_not.mp present)
    have isFunction : helper ∈ program.functions := List.mem_append_left _ isHelper
    refine ⟨resource, member, _, .refl, helper, isFunction, same, ?_⟩
    rw [helpers helper isFunction resource member same, readsName_helperFor]

/-- A new entry point references its resources. If its name is free and no helper of its resources
has it, a direct entry point leads to exactly these, whatever else the program holds. A transitive
one does exactly when the functions of the names of helpers that the program already has serve the
resources, and they do whenever they are these helpers. -/
theorem references_iff_helpersServe (isFree : program.IsFree name)
    (apart : ∀ resource ∈ resources, helperNameOf resource ≠ name) :
    ∃ direct transitive,
      program.withEntryPoint name stage resources "direct" = .ok direct ∧
        program.withEntryPoint name stage resources "transitive" = .ok transitive ∧
        (∀ variableName, variableName ∈ direct.callGraph.reachableVariables name ↔
          variableName ∈ resources) ∧
        ((∀ variableName, variableName ∈ transitive.callGraph.reachableVariables name ↔
          variableName ∈ resources) ↔ program.HelpersServe resources) ∧
        ((∀ function ∈ program.functions, ∀ resource ∈ resources,
          function.name = helperNameOf resource → function = helperFor resource) →
          program.HelpersServe resources) := by
  refine ⟨_, _, withEntryPoint_name .direct, withEntryPoint_name .transitive, ?_, ?_, ?_⟩
  · intro variableName
    rw [mem_reachableVariables_callGraph,
      @leadsTo_withEntryPoint_iff program .direct name stage resources isFree nofun]
    simp [Usage.helped]
  · have leads (variableName : String) :
        (program.withEntryPointUsing .transitive name stage resources).LeadsTo name variableName ↔
          (variableName ∈ resources ∧ program.LacksHelper variableName) ∨
            ∃ resource ∈ resources, program.LeadsTo (helperNameOf resource) variableName := by
      rw [@leadsTo_withEntryPoint_iff program .transitive name stage resources isFree apart]
      simp [Usage.helped]
    simp only [mem_reachableVariables_callGraph, leads]
    constructor
    · intro references
      refine ⟨fun resource member variableName led => ?_, fun resource member present => ?_⟩
      · exact (references variableName).mp (.inr ⟨resource, member, led⟩)
      · exact ((references resource).mpr member).resolve_left fun lacking => present lacking.2
    · intro serve variableName
      constructor
      · rintro (⟨member, -⟩ | ⟨resource, member, led⟩)
        · exact member
        · exact serve.only resource member variableName led
      · intro member
        by_cases lacking : program.LacksHelper variableName
        · exact .inl ⟨member, lacking⟩
        · exact .inr (serve.all variableName member lacking)
  · exact fun helpers => helpersServe_of_helpers helpers

/-- Where one of two helpers is there already, and is called elsewhere, a vertex entry point that
asks twice for the other one references both resources and nothing else. -/
theorem references_iff_helpersServe_shared :
    let program : Program := ⟨[⟨"image", .texture2D, some 0, some 1⟩,
      ⟨"buffer", .storage, some 0, some 1⟩], [⟨"scale", "private", "f32", none, none⟩],
      [⟨"use_image", [.use "image"]⟩, ⟨"shade", [.call "use_image", .use "scale"]⟩], []⟩
    program.IsFree "main" ∧
      (∀ resource ∈ ["buffer", "image", "buffer"], helperNameOf resource ≠ "main") ∧
      ∃ next, program.withEntryPoint "main" "vertex" ["buffer", "image", "buffer"] "transitive" =
          .ok next ∧
        ∀ variableName, variableName ∈ next.callGraph.reachableVariables "main" ↔
          variableName ∈ ["buffer", "image", "buffer"] := by
  intro program
  have isFree : program.IsFree "main" := by decide
  have apart : ∀ resource ∈ ["buffer", "image", "buffer"], helperNameOf resource ≠ "main" := by
    decide
  obtain ⟨-, next, -, isNext, -, references, serve⟩ :=
    @references_iff_helpersServe program "main" "vertex" ["buffer", "image", "buffer"] isFree apart
  exact ⟨isFree, apart, next, isNext, references.mpr (serve (by decide))⟩

/-- A function of the name of a helper takes the place of the helper. If it uses nothing, a new
entry point does not reference the resource. -/
theorem not_references_of_other_helper :
    let program : Program := ⟨[⟨"image", .texture2D, some 0, some 1⟩,
      ⟨"buffer", .storage, some 0, some 1⟩], [], [⟨"use_buffer", []⟩], []⟩
    program.IsFree "main" ∧ (∀ resource ∈ ["image", "buffer"], helperNameOf resource ≠ "main") ∧
      ∃ next, program.withEntryPoint "main" "compute" ["image", "buffer"] "transitive" = .ok next ∧
        ¬∀ variableName, variableName ∈ next.callGraph.reachableVariables "main" ↔
          variableName ∈ ["image", "buffer"] := by
  intro program
  refine ⟨by decide, by decide, _, rfl, fun references => ?_⟩
  have reached := (references "buffer").mpr (by decide)
  have only : (program.withEntryPointUsing .transitive "main" "compute"
      ["image", "buffer"]).callGraph.reachableVariables "main" = ["image"] := by cbv
  rw [only] at reached
  exact absurd reached (by decide)

end Program

end BindingSuite
