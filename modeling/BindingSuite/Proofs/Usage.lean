import BindingSuite.Program.Builder
import BindingSuite.Proofs.Agreement
import BindingSuite.Proofs.Distinct
import BindingSuite.Proofs.Validity

/-! # Direct and transitive usage

An entry point that uses resources in its own body and one that uses them in helpers meet the same
fate.

* `Usage.helped` are the resources that get helpers, and `withEntryPointUsing_eq` says which program
  results: its helpers for resources stand in the order in which these were first asked for;
* `Program.IsFree` says that a name is neither declared nor called, as the names of helpers must be;
* `mem_helpers_withHelpers` says which helpers a program gets, whatever it has already, and
  `calls_withEntryPoint_iff` and `uses_withEntryPoint_iff` what an entry point adds;
* `leadsTo_transitive_iff_direct` says that both usages lead from functions to the same variables,
  because helpers are leaves among the calls;
* `accepted_direct_eq_accepted_transitive` concludes that the verdict, and the compiler where it can
  be asked, accept both programs or neither. -/

namespace BindingSuite

/-! ## Helpers of resources -/

/-- Different resources have helpers of different names. -/
theorem helperNameOf_injective : Function.Injective helperNameOf :=
  fun _ _ same => String.append_right_inj _ |>.mp same

/-- The name of the helper of a resource. -/
@[simp] theorem name_helperFor (resource : String) :
    (helperFor resource).name = helperNameOf resource := rfl

/-- The body of the helper of a resource. -/
@[simp] theorem body_helperFor (resource : String) :
    (helperFor resource).body = [.use resource] := rfl

/-- The names of the helpers of resources. -/
@[simp] theorem map_name_map_helperFor (resources : List String) :
    (resources.map helperFor).map (·.name) = resources.map helperNameOf := by
  rw [List.map_map]
  rfl

/-- The helper of a resource reads this resource only. -/
theorem readsName_helperFor {resource variableName : String} :
    (helperFor resource).ReadsName variableName ↔ variableName = resource := by
  rw [Function.readsName_iff_of_noLocals (by simp)]
  simp

/-- The resources for which a usage needs helpers. -/
def Usage.helped : Usage → List String → List String
  | direct, _ => []
  | transitive, resources => resources

/-- Only the resources themselves get helpers. -/
theorem Usage.mem_of_mem_helped {usage : Usage} {resources : List String} {resource : String}
    (helped : resource ∈ usage.helped resources) : resource ∈ resources := by
  cases usage with
  | direct => cases helped
  | transitive => exact helped

section EntryPointFor

variable {usage : Usage} {name stage : String} {resources : List String}

/-- The helpers of an entry point are those of the resources that need one. -/
theorem helpers_entryPointFor :
    (entryPointFor usage name stage resources).2 = (usage.helped resources).map helperFor := by
  cases usage <;> rfl

/-- An entry point has the name that it is given. -/
@[simp] theorem name_entryPointFor : (entryPointFor usage name stage resources).1.name = name := by
  cases usage <;> rfl

/-- An entry point declares no local variables. -/
@[simp] theorem declare_notMem_entryPointFor {declared : LocalVariable} :
    .declare declared ∉ (entryPointFor usage name stage resources).1.body := by
  cases usage <;> simp [entryPointFor]

/-- An entry point calls the helpers of the resources that need one. -/
theorem call_mem_entryPointFor {callee : String} :
    .call callee ∈ (entryPointFor usage name stage resources).1.body ↔
      callee ∈ (usage.helped resources).map helperNameOf := by
  cases usage <;> simp [entryPointFor, Usage.helped]

/-- An entry point reads its resources when it uses them directly, and else nothing. -/
theorem readsName_entryPointFor {variableName : String} :
    (entryPointFor usage name stage resources).1.ReadsName variableName ↔
      usage = .direct ∧ variableName ∈ resources := by
  rw [Function.readsName_iff_of_noLocals fun _ => declare_notMem_entryPointFor]
  cases usage <;> simp [entryPointFor]

end EntryPointFor

namespace Program

/-! ## New entry points -/

/-- Beside other helpers, under whose names no resource is used, a program has one helper for each
resource known so far. New resources join the known ones. -/
theorem withHelpers_map_helperFor {program : Program} {others : List Function}
    {known resources : List String}
    (isHelpers : program.helpers = others ++ known.eraseDups.map helperFor)
    (apart : ∀ resource ∈ resources, helperNameOf resource ∉ others.map (·.name)) :
    program.withHelpers (resources.map helperFor) =
      { program with helpers := others ++ (known ++ resources).eraseDups.map helperFor } := by
  -- The walk over the resources keeps the form of the helpers, with more resources known.
  induction resources generalizing program known with
  | nil =>
    rw [List.append_nil, ← isHelpers]
    rfl
  | cons first rest ih =>
    obtain ⟨firstApart, restApart⟩ := List.forall_mem_cons.mp apart
    have present : (helperFor first).name ∈ program.helpers.map (·.name) ↔ first ∈ known := by
      rw [isHelpers, List.map_append, map_name_map_helperFor, List.mem_append,
        name_helperFor, or_iff_right firstApart, List.mem_map_of_injective helperNameOf_injective,
        List.mem_eraseDups]
    have step := eraseDups_concat known first
    rw [List.append_cons, List.map_cons, withHelpers]
    by_cases isKnown : first ∈ known
    · rw [if_pos isKnown] at step
      rw [if_pos (present.mpr isKnown)]
      exact ih (by rw [isHelpers, step]) restApart
    · rw [if_neg isKnown] at step
      rw [if_neg (mt present.mp isKnown)]
      exact ih (by rw [isHelpers, step, List.map_append, List.append_assoc]; rfl) restApart

variable {program : Program} {usage : Usage} {name stage : String} {resources : List String}

/-- A new entry point comes last, and resources that need helpers join those that have one. -/
theorem withEntryPointUsing_eq {others : List Function} {known : List String}
    (isHelpers : program.helpers = others ++ known.eraseDups.map helperFor)
    (apart : ∀ resource ∈ usage.helped resources, helperNameOf resource ∉ others.map (·.name)) :
    program.withEntryPointUsing usage name stage resources =
      { program with
        helpers := others ++ (known ++ usage.helped resources).eraseDups.map helperFor
        entryPoints :=
          program.entryPoints ++ [(entryPointFor usage name stage resources).1] } := by
  have added := withHelpers_map_helperFor isHelpers apart
  rw [← @helpers_entryPointFor usage name stage resources] at added
  unfold withEntryPointUsing
  dsimp only
  rw [added]

/-! ## What a new entry point adds -/

/-- A program lacks the helper of a resource: none of its helpers has this name. -/
def LacksHelper (program : Program) (resource : String) : Prop :=
  helperNameOf resource ∉ program.helpers.map (·.name)

instance (program : Program) : DecidablePred program.LacksHelper :=
  fun _ => inferInstanceAs (Decidable (_ ∉ _))

/-- A program keeps its helpers and gets that of each resource for which it lacks one. -/
theorem mem_helpers_withHelpers {helper : Function} :
    helper ∈ (program.withHelpers (resources.map helperFor)).helpers ↔
      helper ∈ program.helpers ∨
        ∃ resource ∈ resources, program.LacksHelper resource ∧ helperFor resource = helper := by
  induction resources generalizing program with
  | nil => simp [withHelpers]
  | cons first rest ih =>
    rw [List.map_cons, withHelpers, name_helperFor, List.exists_mem_cons_iff]
    split
    · rename_i present
      have notLacking : ¬program.LacksHelper first := not_not_intro present
      simp only [ih, notLacking, false_and, false_or]
    · rename_i lacking
      replace lacking : program.LacksHelper first := lacking
      -- With the new helper the program lacks what it lacked before, except for the first one.
      have step (resource : String) :
          LacksHelper { program with helpers := program.helpers ++ [helperFor first] } resource ↔
            program.LacksHelper resource ∧ resource ≠ first := by
        rw [LacksHelper, List.map_append, List.mem_append, not_or, LacksHelper,
          List.map_singleton, List.mem_singleton, name_helperFor,
          helperNameOf_injective.eq_iff]
      simp only [ih, step, List.mem_append, List.mem_singleton]
      constructor
      · rintro ((isOld | rfl) | ⟨resource, member, ⟨isLacking, -⟩, rfl⟩)
        · exact .inl isOld
        · exact .inr (.inl ⟨lacking, rfl⟩)
        · exact .inr (.inr ⟨resource, member, isLacking, rfl⟩)
      · rintro (isOld | ⟨-, rfl⟩ | ⟨resource, member, isLacking, rfl⟩)
        · exact .inl (.inl isOld)
        · exact .inl (.inr rfl)
        · by_cases isFirst : resource = first
          · exact .inl (.inr (congrArg helperFor isFirst))
          · exact .inr ⟨resource, member, ⟨isLacking, isFirst⟩, rfl⟩

/-- New helpers leave the entry points. -/
theorem entryPoints_withHelpers (helpers : List Function) :
    (program.withHelpers helpers).entryPoints = program.entryPoints := by
  fun_induction program.withHelpers helpers with
  | case1 program => rfl
  | case2 program helper rest present ih => exact ih
  | case3 program helper rest absent ih => exact ih

/-- The functions are the old ones, the helpers that the program lacks, and the entry point. -/
theorem mem_functions_withEntryPoint {function : Function} :
    function ∈ (program.withEntryPointUsing usage name stage resources).functions ↔
      function ∈ program.functions ∨
        (∃ resource ∈ usage.helped resources,
          program.LacksHelper resource ∧ helperFor resource = function) ∨
          function = (entryPointFor usage name stage resources).1.toFunction := by
  rw [withEntryPointUsing]
  dsimp only
  rw [functions, functions, helpers_entryPointFor, List.map_append, entryPoints_withHelpers,
    List.mem_append,
    List.mem_append, List.mem_append, mem_helpers_withHelpers, or_or_or_comm, List.map_singleton,
    List.mem_singleton]

/-- A new entry point calls the helpers of its resources, and helpers call nothing. -/
theorem calls_withEntryPoint_iff {caller callee : String} :
    (program.withEntryPointUsing usage name stage resources).Calls caller callee ↔
      program.Calls caller callee ∨
        name = caller ∧ callee ∈ (usage.helped resources).map helperNameOf := by
  simp only [Calls, mem_functions_withEntryPoint, or_and_right, exists_or, exists_eq_left,
    name_entryPointFor, call_mem_entryPointFor]
  simp

/-- A new entry point uses its resources itself, or each helper that the program lacked uses one. -/
theorem uses_withEntryPoint_iff {user variableName : String} :
    (program.withEntryPointUsing usage name stage resources).Uses user variableName ↔
      program.Uses user variableName ∨
        (variableName ∈ usage.helped resources ∧ program.LacksHelper variableName ∧
          helperNameOf variableName = user) ∨
        name = user ∧ usage = .direct ∧ variableName ∈ resources := by
  simp only [Uses, mem_functions_withEntryPoint, or_and_right, exists_or, exists_eq_left,
    name_entryPointFor, readsName_entryPointFor]
  simp [readsName_helperFor, and_assoc]

/-! ## Free names -/

/-- A name is neither declared nor called. -/
def IsFree (program : Program) (name : String) : Prop :=
  name ∉ program.declaredNames ∧ ∀ function ∈ program.functions, .call name ∉ function.body

instance (program : Program) (name : String) : Decidable (program.IsFree name) :=
  inferInstanceAs (Decidable (_ ∧ _))

/-- No function has a free name. -/
theorem IsFree.name_ne (isFree : program.IsFree name) {function : Function}
    (member : function ∈ program.functions) : function.name ≠ name := by
  rintro rfl
  exact isFree.1 (List.mem_append_right _ (List.mem_map_of_mem member))

/-- No function calls or uses anything by a free name. -/
theorem IsFree.not_calls (isFree : program.IsFree name) {callee : String} :
    ¬program.Calls name callee := by
  rintro ⟨function, member, same, -⟩
  exact isFree.name_ne member same

/-- No function uses anything by a free name. -/
theorem IsFree.not_uses (isFree : program.IsFree name) {variableName : String} :
    ¬program.Uses name variableName := by
  rintro ⟨function, member, same, -⟩
  exact isFree.name_ne member same

/-- Nothing calls a free name. -/
theorem IsFree.not_calls_to (isFree : program.IsFree name) (caller : String) :
    ¬program.Calls caller name := by
  rintro ⟨function, member, -, call⟩
  exact isFree.2 function member call

section Free

variable (free : ∀ resource ∈ resources,
  program.IsFree (helperNameOf resource) ∧ helperNameOf resource ≠ name)

include free

/-- With free names, a program lacks all helpers that are needed. -/
theorem lacksHelper_of_free {resource : String} (helped : resource ∈ usage.helped resources) :
    program.LacksHelper resource := by
  intro isHelper
  refine (free resource (Usage.mem_of_mem_helped helped)).1.1 (List.mem_append_right _ ?_)
  rw [functions, List.map_append]
  exact List.mem_append_left _ isHelper

/-- With free names, every resource that needs a helper gets a new one. -/
theorem withEntryPointUsing_eq_of_free :
    program.withEntryPointUsing usage name stage resources =
      { program with
        helpers := program.helpers ++ (usage.helped resources).eraseDups.map helperFor
        entryPoints :=
          program.entryPoints ++ [(entryPointFor usage name stage resources).1] } := by
  exact @withEntryPointUsing_eq _ _ _ _ _ program.helpers [] (List.append_nil _).symm
    fun _ => lacksHelper_of_free free

/-- A new entry point leaves the resources. -/
theorem resources_withEntryPointUsing :
    (program.withEntryPointUsing usage name stage resources).resources = program.resources := by
  rw [withEntryPointUsing_eq_of_free free]

/-- A new entry point leaves the plain variables. -/
theorem globals_withEntryPointUsing :
    (program.withEntryPointUsing usage name stage resources).globals = program.globals := by
  rw [withEntryPointUsing_eq_of_free free]

/-- A new entry point leaves the names of variables. -/
theorem variableNames_withEntryPointUsing :
    (program.withEntryPointUsing usage name stage resources).variableNames =
      program.variableNames := by
  rw [variableNames, resources_withEntryPointUsing free, globals_withEntryPointUsing free,
    variableNames]

/-- The name of a new entry point comes last. -/
theorem names_entryPoints_withEntryPointUsing :
    (program.withEntryPointUsing usage name stage resources).entryPoints.map (·.name) =
      program.entryPoints.map (·.name) ++ [name] := by
  rw [withEntryPointUsing_eq_of_free free, List.map_append, List.map_singleton, name_entryPointFor]

/-- With free names, the functions are the old ones, the helpers and the entry point. -/
theorem mem_functions_withEntryPoint_of_free {function : Function} :
    function ∈ (program.withEntryPointUsing usage name stage resources).functions ↔
      function ∈ program.functions ∨
        (∃ resource ∈ usage.helped resources, helperFor resource = function) ∨
          function = (entryPointFor usage name stage resources).1.toFunction := by
  rw [mem_functions_withEntryPoint]
  refine or_congr_right (or_congr_left (exists_congr fun resource => ?_))
  exact and_congr_right fun helped => and_iff_right (lacksHelper_of_free free helped)

/-- With free names, the entry point uses its resources itself or each helper uses one. -/
theorem uses_withEntryPoint_iff_of_free {user variableName : String} :
    (program.withEntryPointUsing usage name stage resources).Uses user variableName ↔
      program.Uses user variableName ∨
        variableName ∈ usage.helped resources ∧ helperNameOf variableName = user ∨
          name = user ∧ usage = .direct ∧ variableName ∈ resources := by
  rw [uses_withEntryPoint_iff]
  refine or_congr_right (or_congr_left (and_congr_right fun helped => ?_))
  exact and_iff_right (lacksHelper_of_free free helped)

/-! ## What helpers change -/

/-- No function beside a direct entry point, nor this itself, has the name of a helper. -/
theorem name_notMem_of_direct {function : Function}
    (member : function ∈ (program.withEntryPointUsing .direct name stage resources).functions) :
    function.name ∉ resources.map helperNameOf := by
  rw [List.mem_map]
  rintro ⟨resource, isResource, same⟩
  rcases (mem_functions_withEntryPoint_of_free free).mp member with member | ⟨_, helped, -⟩ | rfl
  · exact (free resource isResource).1.name_ne member same.symm
  · cases helped
  · exact (free resource isResource).2 same

/-- Nothing with the name of a helper uses a variable beside a direct entry point. -/
theorem notMem_of_uses_direct {user variableName : String}
    (use : (program.withEntryPointUsing .direct name stage resources).Uses user variableName) :
    user ∉ resources.map helperNameOf := by
  obtain ⟨function, member, rfl, -⟩ := use
  exact name_notMem_of_direct free member

/-- The helpers are leaves among the calls. -/
theorem not_calls_transitive_helper (leaf : String) (isHelper : leaf ∈ resources.map helperNameOf)
    (callee : String) :
    ¬(program.withEntryPointUsing .transitive name stage resources).Calls leaf callee := by
  obtain ⟨resource, member, rfl⟩ := List.mem_map.mp isHelper
  obtain ⟨isFree, different⟩ := free resource member
  rw [calls_withEntryPoint_iff]
  rintro (call | ⟨same, -⟩)
  · exact isFree.not_calls call
  · exact different same.symm

omit free in
/-- With both usages, the same functions call what is no helper. -/
theorem calls_transitive_iff_direct (caller callee : String)
    (notHelper : callee ∉ resources.map helperNameOf) :
    (program.withEntryPointUsing .transitive name stage resources).Calls caller callee ↔
      (program.withEntryPointUsing .direct name stage resources).Calls caller callee := by
  rw [calls_withEntryPoint_iff, calls_withEntryPoint_iff,
    or_iff_left fun call => notHelper call.2, or_iff_left fun call => List.not_mem_nil call.2]

/-- With both usages, the same chains of calls lead to what is no helper. -/
theorem chain_transitive_iff_direct {source target : String}
    (notHelper : target ∉ resources.map helperNameOf) :
    Relation.ReflTransGen (program.withEntryPointUsing .transitive name stage resources).Calls
        source target ↔
      Relation.ReflTransGen (program.withEntryPointUsing .direct name stage resources).Calls
        source target :=
  CallGraph.reflTransGen_iff_of_leaf (not_calls_transitive_helper free)
    calls_transitive_iff_direct notHelper

/-- With both usages, calls lead back to the same functions. -/
theorem cycle_transitive_iff_direct {node : String} :
    Relation.TransGen (program.withEntryPointUsing .transitive name stage resources).Calls
        node node ↔
      Relation.TransGen (program.withEntryPointUsing .direct name stage resources).Calls
        node node := by
  by_cases isHelper : node ∈ resources.map helperNameOf
  · -- In neither program does a helper call something.
    constructor
    · intro cycle
      obtain ⟨callee, call, -⟩ := Relation.TransGen.head'_iff.mp cycle
      exact absurd call (not_calls_transitive_helper free node isHelper callee)
    · intro cycle
      obtain ⟨callee, ⟨function, member, rfl, -⟩, -⟩ := Relation.TransGen.head'_iff.mp cycle
      exact absurd isHelper (name_notMem_of_direct free member)
  · exact CallGraph.transGen_iff_of_leaf (not_calls_transitive_helper free)
      calls_transitive_iff_direct isHelper

/-- Both usages lead from what is no helper to the same variables. -/
theorem leadsTo_transitive_iff_direct {source variableName : String}
    (notHelper : source ∉ resources.map helperNameOf) :
    (program.withEntryPointUsing .transitive name stage resources).LeadsTo source variableName ↔
      (program.withEntryPointUsing .direct name stage resources).LeadsTo source variableName := by
  constructor
  · rintro ⟨user, chain, use⟩
    rcases (uses_withEntryPoint_iff_of_free free).mp use with use | ⟨member, rfl⟩ | ⟨-, ⟨⟩, -⟩
    · have use := (@uses_withEntryPoint_iff_of_free _ .direct _ stage _ free _ _).mpr (.inl use)
      have userNot := notMem_of_uses_direct free use
      exact ⟨user, (chain_transitive_iff_direct free userNot).mp chain, use⟩
    · -- The last call leads to the helper of the variable, so the entry point makes it.
      rcases chain.cases_tail with same | ⟨caller, chain, call⟩
      · exact absurd (same ▸ List.mem_map_of_mem member) notHelper
      · rcases (calls_withEntryPoint_iff).mp call with call | ⟨rfl, -⟩
        · obtain ⟨function, isFunction, -, call⟩ := call
          exact absurd call ((free variableName member).1.2 function isFunction)
        · have use := (@uses_withEntryPoint_iff_of_free _ .direct _ stage _ free name _).mpr
            (.inr (.inr ⟨rfl, rfl, member⟩))
          have nameNot := notMem_of_uses_direct free use
          exact ⟨name, (chain_transitive_iff_direct free nameNot).mp chain, use⟩
  · rintro ⟨user, chain, use⟩
    have userNot := notMem_of_uses_direct free use
    have chain := (chain_transitive_iff_direct free userNot).mpr chain
    rcases (uses_withEntryPoint_iff_of_free free).mp use with use | ⟨helped, -⟩ | ⟨rfl, -, member⟩
    · exact ⟨user, chain, (uses_withEntryPoint_iff_of_free free).mpr (.inl use)⟩
    · cases helped
    · have call := (@calls_withEntryPoint_iff program .transitive _ stage _ name _).mpr
        (.inr ⟨rfl, List.mem_map_of_mem member⟩)
      have use := (@uses_withEntryPoint_iff_of_free _ .transitive _ stage _ free _ _).mpr
        (.inr (.inl ⟨member, rfl⟩))
      exact ⟨_, chain.tail call, use⟩

/-! ## Validity of both -/

/-- The names that are declared with a transitive entry point are those with a direct one and those
of the helpers. -/
theorem declaredNames_transitive_perm :
    (program.withEntryPointUsing .transitive name stage resources).declaredNames.Perm
      ((program.withEntryPointUsing .direct name stage resources).declaredNames
        ++ resources.eraseDups.map helperNameOf) := by
  rw [withEntryPointUsing_eq_of_free free, withEntryPointUsing_eq_of_free free]
  simp only [declaredNames, functions, variableNames, List.map_append, List.append_assoc,
    map_name_map_helperFor]
  refine .append_left _ (.append_left _ (.append_left _ ?_))
  exact List.perm_append_comm.trans (.of_eq (List.append_assoc _ _ _))

/-- Names are distinct with transitive usage exactly when they are with direct usage. -/
theorem nodup_declaredNames_transitive_iff :
    (program.withEntryPointUsing .transitive name stage resources).declaredNames.Nodup ↔
      (program.withEntryPointUsing .direct name stage resources).declaredNames.Nodup := by
  rw [(declaredNames_transitive_perm free).nodup_iff, List.nodup_append]
  -- The names of the helpers differ from each other, and as free names from all others.
  refine and_iff_left ⟨(nodup_eraseDups resources).map helperNameOf_injective, ?_⟩
  rintro declared member helperName isHelperName rfl
  obtain ⟨resource, isResource, rfl⟩ := List.mem_map.mp isHelperName
  rw [List.mem_eraseDups] at isResource
  rcases List.mem_append.mp member with isVariable | isFunction
  · exact (free resource isResource).1.1 (List.mem_append_left _ isVariable)
  · obtain ⟨function, isFunction, same⟩ := List.mem_map.mp isFunction
    exact name_notMem_of_direct free isFunction (same ▸ List.mem_map_of_mem isResource)

/-- All variables that are used have a property with transitive usage exactly when they have it with
direct usage. -/
theorem forall_uses_transitive_iff {holds : String → Prop} :
    (∀ user variableName,
        (program.withEntryPointUsing .transitive name stage resources).Uses user variableName →
          holds variableName) ↔
      ∀ user variableName,
        (program.withEntryPointUsing .direct name stage resources).Uses user variableName →
          holds variableName := by
  simp only [uses_withEntryPoint_iff_of_free free]
  constructor
  · rintro each user variableName (use | ⟨helped, -⟩ | ⟨-, -, member⟩)
    · exact each user variableName (.inl use)
    · cases helped
    · exact each (helperNameOf variableName) variableName (.inr (.inl ⟨member, rfl⟩))
  · rintro each user variableName (use | ⟨member, -⟩ | ⟨-, ⟨⟩, -⟩)
    · exact each user variableName (.inl use)
    · exact each name variableName (.inr (.inr ⟨rfl, trivial, member⟩))

/-- Only helpers are called with transitive usage exactly when this is so with direct usage. -/
theorem forall_calls_transitive_iff :
    (∀ caller callee,
        (program.withEntryPointUsing .transitive name stage resources).Calls caller callee →
          callee ∈ (program.withEntryPointUsing .transitive name stage resources).helpers.map
            (·.name)) ↔
      ∀ caller callee,
        (program.withEntryPointUsing .direct name stage resources).Calls caller callee →
          callee ∈ (program.withEntryPointUsing .direct name stage resources).helpers.map
            (·.name) := by
  have new : (program.withEntryPointUsing .transitive name stage resources).helpers.map (·.name) =
      program.helpers.map (·.name) ++ resources.eraseDups.map helperNameOf := by
    rw [withEntryPointUsing_eq_of_free free, List.map_append, map_name_map_helperFor]
    rfl
  have old : (program.withEntryPointUsing .direct name stage resources).helpers =
      program.helpers := rfl
  simp only [calls_withEntryPoint_iff, new, old, List.mem_append]
  constructor
  · rintro resolved caller callee (call | ⟨-, helped⟩)
    · -- The old functions do not call new helpers.
      refine (resolved caller callee (.inl call)).resolve_right fun isNew => ?_
      obtain ⟨resource, member, rfl⟩ := List.mem_map.mp isNew
      obtain ⟨function, isFunction, -, call⟩ := call
      exact (free resource (List.mem_eraseDups.mp member)).1.2 function isFunction call
    · cases helped
  · rintro resolved caller callee (call | ⟨-, isNew⟩)
    · exact .inl (resolved caller callee (.inl call))
    · obtain ⟨resource, member, rfl⟩ := List.mem_map.mp isNew
      exact .inr (List.mem_map_of_mem (List.mem_eraseDups.mpr member))

/-- The rules are kept with transitive usage exactly when they are with direct usage. -/
theorem keepsRules_transitive_iff_direct :
    (program.withEntryPointUsing .transitive name stage resources).KeepsRules ↔
      (program.withEntryPointUsing .direct name stage resources).KeepsRules := by
  rw [keepsRules_iff_isValid, keepsRules_iff_isValid, isValid_iff, isValid_iff,
    nodup_declaredNames_transitive_iff free, forall_uses_transitive_iff free,
    forall_calls_transitive_iff free]
  -- What is left is about cycles, local variables and collisions: variables are the same.
  simp only [variableNames_withEntryPointUsing free, resources_withEntryPointUsing free,
    globals_withEntryPointUsing free, names_entryPoints_withEntryPointUsing free]
  refine and_congr_right fun _ => and_congr_right fun _ => and_congr_right fun _ => ?_
  refine and_congr ?_ (and_congr_right fun _ => and_congr_right fun _ => and_congr ?_ ?_)
  · exact forall_congr' fun node => not_congr (cycle_transitive_iff_direct free)
  · simp only [mem_functions_withEntryPoint_of_free free, or_imp, forall_and, forall_eq]
    simp
  · rw [← @names_entryPoints_withEntryPointUsing _ .direct _ stage _ free]
    refine forall₂_congr fun entryName member => ?_
    obtain ⟨entryPoint, isEntryPoint, rfl⟩ := List.mem_map.mp member
    have notHelper := name_notMem_of_direct free
      (List.mem_append_right _ (List.mem_map_of_mem isEntryPoint))
    simp only [leadsTo_transitive_iff_direct free notHelper]

end Free

end Program

/-! ## Texts of both -/

/-- The characters of the name of a helper. -/
theorem toList_helperNameOf (resource : String) :
    (helperNameOf resource).toList = 'u' :: 's' :: 'e' :: '_' :: resource.toList := by
  rw [helperNameOf, String.toList_append]
  rfl

/-- The name of a helper differs from texts that start otherwise. -/
theorem helperNameOf_ne (resource : String) {text : String}
    (otherwise : text.toList.head? ≠ some 'u') : helperNameOf resource ≠ text := by
  rintro rfl
  exact otherwise (by rw [toList_helperNameOf, List.head?_cons])

/-- Where a resource has a proper name, so has its helper. -/
theorem IsPlainName.helperNameOf {resource : String} (plain : IsPlainName resource) :
    IsPlainName (helperNameOf resource) := by
  constructor
  · have rest := Wgsl.forall_isWordRest_of_isName plain.1
    rw [IsIdentifier, toList_helperNameOf, Wgsl.isName, Bool.and_eq_true, List.all_eq_true]
    exact ⟨by decide, by simpa [List.forall_mem_cons] using ⟨by decide, by decide, by decide, rest⟩⟩
  · intro isKeyword
    have otherwise : ∀ keyword ∈ ["_", "var", "fn", "return"],
        keyword.toList.head? ≠ some 'u' := by decide
    exact helperNameOf_ne resource (otherwise _ isKeyword) rfl

namespace Program

variable {program : Program} {name stage : String} {resources : List String}

section Free

variable (free : ∀ resource ∈ resources,
  program.IsFree (helperNameOf resource) ∧ helperNameOf resource ≠ name)

include free

/-- Where a program with a direct entry point is well-formed, so is that with a transitive one. -/
theorem IsWellFormed.transitive
    (wellFormed : (program.withEntryPointUsing .direct name stage resources).IsWellFormed) :
    (program.withEntryPointUsing .transitive name stage resources).IsWellFormed := by
  have entry := wellFormed.entryPoints ⟨⟨name, resources.map .use⟩, stage⟩
    (List.mem_append_right _ (List.mem_singleton_self _))
  have plain (resource : String) (member : resource ∈ resources) : IsPlainName resource :=
    entry.function.body (.use resource) (List.mem_map_of_mem member)
  rw [withEntryPointUsing_eq_of_free free]
  refine ⟨wellFormed.resources, wellFormed.globals, fun helper member => ?_,
    fun entryPoint member => ?_⟩
  · rcases List.mem_append.mp member with isOld | isNew
    · exact wellFormed.helpers helper isOld
    · obtain ⟨resource, isResource, rfl⟩ := List.mem_map.mp isNew
      have proper := plain resource (List.mem_eraseDups.mp isResource)
      exact ⟨proper.helperNameOf, List.forall_mem_singleton.mpr proper⟩
  · rcases List.mem_append.mp member with isOld | isNew
    · exact wellFormed.entryPoints entryPoint (List.mem_append_left _ isOld)
    · obtain rfl := List.mem_singleton.mp isNew
      refine ⟨⟨entry.function.name, ?_⟩, entry.stage⟩
      simp only [entryPointFor, List.map_map, List.forall_mem_map]
      exact fun resource isResource => (plain resource isResource).helperNameOf

/-- Where no function has a certain name, no helper has it either, when it starts otherwise. -/
theorem name_ne_of_direct {text : String} (otherwise : text.toList.head? ≠ some 'u')
    (others : ∀ function ∈
      (program.withEntryPointUsing .direct name stage resources).functions, function.name ≠ text) :
    ∀ function ∈ (program.withEntryPointUsing .transitive name stage resources).functions,
      function.name ≠ text := by
  intro function member
  rcases (mem_functions_withEntryPoint_of_free free).mp member with isOld | ⟨resource, -, rfl⟩ | rfl
  · exact others function ((mem_functions_withEntryPoint_of_free free).mpr (.inl isOld))
  · exact helperNameOf_ne resource otherwise
  · exact others (entryPointFor .direct name stage resources).1.toFunction
      ((mem_functions_withEntryPoint_of_free free).mpr (.inr (.inr rfl)))

end Free

/-- A usage is found by its name. -/
@[simp] theorem withEntryPoint_name (usage : Usage) :
    program.withEntryPoint name stage resources usage.name =
      .ok (program.withEntryPointUsing usage name stage resources) := by
  rw [withEntryPoint, Usage.ofName_name]
  rfl

/-- Direct and transitive usage have the same outcome. Where the names of the helpers are free and
differ from that of the entry point, the verdict accepts the program with the direct entry point
exactly when it accepts that with the transitive one. So does the compiler, when the program with
the direct entry point is well-formed, its plain variables lie in address spaces for data and none
of its functions is called `vec4f`. -/
theorem accepted_direct_eq_accepted_transitive
    (free : ∀ resource ∈ resources,
      program.IsFree (helperNameOf resource) ∧ helperNameOf resource ≠ name) :
    ∃ direct transitive,
      program.withEntryPoint name stage resources "direct" = .ok direct ∧
        program.withEntryPoint name stage resources "transitive" = .ok transitive ∧
        direct.verdict.accepted = transitive.verdict.accepted ∧
        (direct.IsWellFormed → (∀ function ∈ direct.functions, function.name ≠ "vec4f") →
          (∀ declared ∈ direct.globals,
            declared.addressSpace = "private" ∨ declared.addressSpace = "workgroup") →
          ∃ directText directAnswer transitiveText transitiveAnswer,
            direct.text = .ok directText ∧ Wgsl.answer directText = .ok directAnswer ∧
              transitive.text = .ok transitiveText ∧
              Wgsl.answer transitiveText = .ok transitiveAnswer ∧
              directAnswer.accepted = transitiveAnswer.accepted) := by
  have rules := @keepsRules_transitive_iff_direct program name stage resources free
  refine ⟨_, _, withEntryPoint_name .direct, withEntryPoint_name .transitive, ?_, ?_⟩
  · rw [Bool.eq_iff_iff, Verdict.accepted_iff, Verdict.accepted_iff, reasons_verdict_eq_nil_iff,
      reasons_verdict_eq_nil_iff, rules]
  · intro wellFormed notPosition spaces
    have sameGlobals := @globals_withEntryPointUsing _ .transitive _ stage _ free
    obtain ⟨directText, directAnswer, isDirectText, isDirectAnswer, directAccepted⟩ :=
      exists_answer_accepted_iff wellFormed notPosition spaces
    obtain ⟨transitiveText, transitiveAnswer, isText, isAnswer, transitiveAccepted⟩ :=
      exists_answer_accepted_iff (wellFormed.transitive free)
        (name_ne_of_direct free (by decide) notPosition) (sameGlobals ▸ spaces)
    refine ⟨directText, directAnswer, transitiveText, transitiveAnswer, isDirectText,
      isDirectAnswer, isText, isAnswer, ?_⟩
    rw [Bool.eq_iff_iff, directAccepted, transitiveAccepted, rules]

/-- A texture and a buffer at one place collide for the verdict and for the compiler when a vertex
entry point uses them, and the texture twice, by helpers. -/
theorem accepted_transitive_collision :
    ∃ transitive,
      Program.withEntryPoint
          ⟨[⟨"image", .texture2D, some 0, some 1⟩, ⟨"buffer", .storage, some 0, some 1⟩],
            [], [], []⟩
          "main" "vertex" ["image", "buffer", "image"] "transitive" = .ok transitive ∧
        transitive.verdict.accepted = false ∧
        ∃ source answer, transitive.text = .ok source ∧ Wgsl.answer source = .ok answer ∧
          answer.accepted = false := by
  obtain ⟨direct, transitive, isDirect, isTransitive, same, compiled⟩ :=
    @accepted_direct_eq_accepted_transitive
      ⟨[⟨"image", .texture2D, some 0, some 1⟩, ⟨"buffer", .storage, some 0, some 1⟩], [], [], []⟩
      "main" "vertex" ["image", "buffer", "image"] (by decide)
  obtain rfl : direct =
      ⟨[⟨"image", .texture2D, some 0, some 1⟩, ⟨"buffer", .storage, some 0, some 1⟩], [], [],
        [⟨⟨"main", [.use "image", .use "buffer", .use "image"]⟩, "vertex"⟩]⟩ :=
    (Except.ok.inj isDirect).symm
  have rejected : ¬Program.KeepsRules
      ⟨[⟨"image", .texture2D, some 0, some 1⟩, ⟨"buffer", .storage, some 0, some 1⟩], [], [],
        [⟨⟨"main", [.use "image", .use "buffer", .use "image"]⟩, "vertex"⟩]⟩ := by
    intro rules
    have places := rules.places _ List.mem_cons_self ⟨"image", .texture2D, some 0, some 1⟩
      ⟨"buffer", .storage, some 0, some 1⟩ ⟨by simp, "main", .refl, by decide⟩
      ⟨by simp, "main", .refl, by decide⟩ _ rfl _ rfl rfl
    exact absurd places (by decide)
  have natural (value : Nat) (short : value.repr.length ≤ Text.digitLimit) :
      ∀ index ∈ some (Index.number value), index.IsNatural := by
    rintro index ⟨⟩
    exact ⟨value, rfl, short⟩
  have resource (name : String) (kind : ResourceKind) (plain : IsPlainName name) :
      Resource.IsWellFormed ⟨name, kind, some 0, some 1⟩ :=
    ⟨plain, natural 0 (by decide), natural 1 (by decide)⟩
  have main : EntryPoint.IsWellFormed
      ⟨⟨"main", [.use "image", .use "buffer", .use "image"]⟩, "vertex"⟩ := by
    refine ⟨⟨by decide, fun statement member => ?_⟩, .vertex, rfl⟩
    obtain ⟨name, isName, rfl⟩ : ∃ name ∈ ["image", "buffer", "image"], .use name = statement := by
      simpa [eq_comm] using member
    exact (by decide : ∀ name ∈ ["image", "buffer", "image"], IsPlainName name) name isName
  have wellFormed : Program.IsWellFormed
      ⟨[⟨"image", .texture2D, some 0, some 1⟩, ⟨"buffer", .storage, some 0, some 1⟩], [], [],
        [⟨⟨"main", [.use "image", .use "buffer", .use "image"]⟩, "vertex"⟩]⟩ :=
    ⟨List.forall_mem_cons.mpr ⟨resource "image" .texture2D (by decide),
        List.forall_mem_singleton.mpr (resource "buffer" .storage (by decide))⟩,
      List.forall_mem_nil _, List.forall_mem_nil _, List.forall_mem_singleton.mpr main⟩
  have notPosition : ∀ function ∈
      [Function.mk "main" [.use "image", .use "buffer", .use "image"]],
      function.name ≠ "vec4f" := by decide
  obtain ⟨directText, directAnswer, source, answer, isDirectText, isDirectAnswer, isText, isAnswer,
    agree⟩ := compiled wellFormed notPosition (List.forall_mem_nil _)
  refine ⟨transitive, isTransitive, ?_, source, answer, isText, isAnswer, ?_⟩
  · rw [← same, ← Bool.not_eq_true, Verdict.accepted_iff, reasons_verdict_eq_nil_iff]
    exact rejected
  · obtain ⟨text, given, hasText, hasAnswer, accepted⟩ :=
      exists_answer_accepted_iff wellFormed notPosition (List.forall_mem_nil _)
    obtain rfl : directText = text := Except.ok.inj (isDirectText.symm.trans hasText)
    obtain rfl : directAnswer = given := Except.ok.inj (isDirectAnswer.symm.trans hasAnswer)
    rw [← agree, ← Bool.not_eq_true, accepted]
    exact rejected

end Program

end BindingSuite
