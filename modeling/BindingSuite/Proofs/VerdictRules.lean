import Mathlib
import BindingSuite.Proofs.CallClosure
import BindingSuite.Proofs.Distinct
import BindingSuite.Program.Verdict

/-! # Declarative rules of programs

What a program has to satisfy, said without the order in which the verdict looks for reasons.

* `Program.InInterface` says that an entry point uses a resource, by itself or through calls;
* `Program.KeepsRules` collects the rules;
* `reasons_verdict_eq_nil_iff` says that nothing speaks against exactly those programs that keep
  them. -/

namespace BindingSuite

/-! ## Rules -/

/-- The rules of a local variable. -/
structure LocalVariable.KeepsRules (declared : LocalVariable) : Prop where
  /-- It has no group. -/
  group : declared.group = none
  /-- It has no binding number. -/
  binding : declared.binding = none
  /-- It lies in the address space of functions, which need not be written. -/
  addressSpace : declared.addressSpace = none ∨ declared.addressSpace = some "function"
  /-- It holds no texture and no sampler. -/
  notHandle : isHandleType declared.typeName = false

namespace Program

/-- A resource of the program belongs to the interface of an entry point: the entry point uses it,
or something does to which a chain of calls leads from there. -/
def InInterface (program : Program) (entryPoint : EntryPoint) (resource : Resource) : Prop :=
  resource ∈ program.resources ∧
    ∃ function, Relation.ReflTransGen program.callGraph.Calls entryPoint.name function ∧
      (function, resource.name) ∈ program.callGraph.uses

/-- The rules of a program. -/
structure KeepsRules (program : Program) : Prop where
  /-- The names of variables and functions are pairwise distinct. -/
  names_nodup : program.declaredNames.Nodup
  /-- Bodies use only resources and plain variables, besides their own locals. -/
  uses : ∀ function ∈ program.functions, ∀ name ∈ function.uses, name ∈ program.variableNames
  /-- Bodies call only helpers. -/
  calls : ∀ function ∈ program.functions, ∀ callee ∈ function.calls,
    callee ∈ program.helpers.map (·.name)
  /-- No chain of one or more calls leads from a function back to it. -/
  acyclic : ∀ function ∈ program.functions,
    ¬Relation.TransGen program.callGraph.Calls function.name function.name
  /-- A resource has a group and a binding number. -/
  resources : ∀ resource ∈ program.resources,
    resource.group.isSome = true ∧ resource.binding.isSome = true
  /-- A plain variable has neither. -/
  globals : ∀ declared ∈ program.globals, declared.group = none ∧ declared.binding = none
  /-- Every local variable keeps the rules of such variables. -/
  locals : ∀ function ∈ program.functions, ∀ declared ∈ function.locals, declared.KeepsRules
  /-- Two resources in the interface of one entry point are bound at different places. -/
  places : ∀ entryPoint ∈ program.entryPoints, ∀ first second,
    program.InInterface entryPoint first → program.InInterface entryPoint second →
      ∀ firstPoint ∈ first.point?, ∀ secondPoint ∈ second.point?,
        firstPoint.normal = secondPoint.normal → first.name = second.name

end Program

/-! ## Declarations -/

/-- A list of names repeats nothing exactly when the names are distinct from each other and from
those seen. -/
theorem repeatedNames_eq_nil_iff {seen names : List String} :
    repeatedNames seen names = [] ↔ Fresh seen names := by
  induction names generalizing seen with
  | nil => simp [repeatedNames]
  | cons name rest ih =>
    rw [repeatedNames, fresh_cons]
    split
    · rename_i isSeen
      simp [isSeen]
    · rename_i isNew
      rw [ih, and_iff_right isNew]

/-- Sorting names leaves none exactly when there are none. -/
theorem Text.sortedNames_eq_nil_iff {names : List String} :
    sortedNames names = [] ↔ names = [] := by
  simp only [List.eq_nil_iff_forall_not_mem, mem_sortedNames]

namespace Program

variable {program : Program}

/-- The references of a function are in order exactly when it uses variables of the program and
calls helpers. -/
theorem referenceReasons_eq_nil_iff {function : Function} :
    program.referenceReasons function = [] ↔
      (∀ name ∈ function.uses, name ∈ program.variableNames) ∧
        ∀ callee ∈ function.calls, callee ∈ program.helpers.map (·.name) := by
  rw [referenceReasons, List.append_eq_nil_iff, List.map_eq_nil_iff, List.map_eq_nil_iff,
    Text.sortedNames_eq_nil_iff, Text.sortedNames_eq_nil_iff]
  simp only [List.filter_eq_nil_iff, decide_eq_true_eq, not_not]

/-- The declarations are in order exactly when names are distinct, references lead to what is
declared and no function is recursive. -/
theorem declarationReasons_eq_nil_iff :
    program.declarationReasons = [] ↔
      program.declaredNames.Nodup ∧
      (∀ function ∈ program.functions,
        (∀ name ∈ function.uses, name ∈ program.variableNames) ∧
          ∀ callee ∈ function.calls, callee ∈ program.helpers.map (·.name)) ∧
      ∀ function ∈ program.functions,
        ¬Relation.TransGen program.callGraph.Calls function.name function.name := by
  rw [declarationReasons, List.append_eq_nil_iff, List.append_eq_nil_iff, List.map_eq_nil_iff,
    List.map_eq_nil_iff, repeatedNames_eq_nil_iff, List.flatMap_eq_nil_iff,
    List.filter_eq_nil_iff]
  simp only [referenceReasons_eq_nil_iff, CallGraph.isRecursive_iff_transGen, fresh_nil_iff,
    and_assoc]

/-! ## Attributes and scopes -/

/-- No attribute is missing exactly when every resource has both. -/
theorem attributeReasons_eq_nil_iff :
    program.attributeReasons = [] ↔
      ∀ resource ∈ program.resources,
        resource.group.isSome = true ∧ resource.binding.isSome = true := by
  simp [attributeReasons, List.flatMap_eq_nil_iff, Option.isSome_iff_ne_none]

/-- Nothing speaks against a local variable exactly when it keeps the rules. -/
theorem localReasons_eq_nil_iff {function : Function} {declared : LocalVariable} :
    localReasons function declared = [] ↔ declared.KeepsRules := by
  have attributes : (if declared.group.isSome || declared.binding.isSome then
        [Reason.attributesOnLocal declared.name function.name] else []) = [] ↔
      declared.group = none ∧ declared.binding = none := by simp
  rw [localReasons, List.append_eq_nil_iff, List.append_eq_nil_iff, attributes]
  constructor
  · rintro ⟨⟨⟨group, binding⟩, space⟩, handle⟩
    refine ⟨group, binding, ?_, by simpa using handle⟩
    split at space
    · rename_i addressSpace same
      rw [same, Option.some_inj]
      exact .inr (by simpa using space)
    · exact .inl (by assumption)
  · rintro ⟨group, binding, space, handle⟩
    refine ⟨⟨⟨group, binding⟩, ?_⟩, by simp [handle]⟩
    rcases space with space | space <;> simp [space]

/-- Plain and local variables are in order exactly when plain ones have no binding attributes and
local ones keep the rules. -/
theorem scopeReasons_eq_nil_iff :
    program.scopeReasons = [] ↔
      (∀ declared ∈ program.globals, declared.group = none ∧ declared.binding = none) ∧
        ∀ function ∈ program.functions, ∀ declared ∈ function.locals, declared.KeepsRules := by
  rw [scopeReasons, List.append_eq_nil_iff, List.map_eq_nil_iff, List.filter_eq_nil_iff]
  simp only [List.flatMap_eq_nil_iff, localReasons_eq_nil_iff]
  simp

/-! ## Collisions -/

/-- A new owner of a free place asks for its name there, besides what the other owners ask. -/
theorem forall_owner_cons_iff {owners : List (BindingPoint × String)} {free place : BindingPoint}
    {name other : String} (isFree : owners.lookup free = none) :
    (∀ owner ∈ ((free, name) :: owners).lookup place, owner = other) ↔
      (free = place → name = other) ∧ ∀ owner ∈ owners.lookup place, owner = other := by
  rw [List.lookup_cons]
  by_cases same : free = place
  · subst same
    simp [isFree]
  · have different : (place == free) = false := beq_eq_false_iff_ne.mpr (Ne.symm same)
    simp [different, same]

/-- Nothing collides exactly when every entry bears the name of the owner of its place, and entries
at one place bear one name. -/
theorem collisions_eq_nil_iff {entryPoint : String} {owners : List (BindingPoint × String)}
    {interface : List (String × BindingPoint)} :
    collisions entryPoint owners interface = [] ↔
      (∀ entry ∈ interface, ∀ owner ∈ owners.lookup entry.2.normal, owner = entry.1) ∧
        interface.Pairwise fun first second =>
          first.2.normal = second.2.normal → first.1 = second.1 := by
  induction interface generalizing owners with
  | nil => simp [collisions]
  | cons entry rest ih =>
    obtain ⟨name, point⟩ := entry
    rw [collisions, List.forall_mem_cons, List.pairwise_cons]
    split
    · rename_i free
      -- What the new owner asks of the rest is what the new entry asks of it.
      simp only [ih, forall_owner_cons_iff free, forall₂_and, free, Option.not_mem_none,
        false_implies, implies_true, true_and]
      tauto
    · rename_i owner owned
      split
      · rename_i same
        subst same
        rw [ih]
        constructor
        · rintro ⟨rest, pairwise⟩
          refine ⟨⟨fun other isOwner => ?_, rest⟩, fun entry member same => ?_, pairwise⟩
          · exact Option.mem_unique isOwner owned
          · exact rest entry member owner (same ▸ owned)
        · rintro ⟨⟨-, rest⟩, -, pairwise⟩
          exact ⟨rest, pairwise⟩
      · rename_i different
        simp only [reduceCtorEq, false_iff]
        rintro ⟨⟨same, -⟩, -⟩
        exact different (same owner owned)

/-- A resource belongs to an interface exactly when the call graph says that the entry point uses
it. -/
theorem inInterface_iff {entryPoint : EntryPoint} {resource : Resource} :
    program.InInterface entryPoint resource ↔
      resource ∈ program.resources ∧
        resource.name ∈ program.callGraph.reachableVariables entryPoint.name := by
  simp only [InInterface, CallGraph.mem_reachableVariables, CallGraph.reaches_iff_reflTransGen]

/-- What a resource adds to the interface of an entry point. -/
def interfaceEntry? (program : Program) (entryPoint : String) (resource : Resource) :
    Option (String × BindingPoint) :=
  if resource.name ∈ program.callGraph.reachableVariables entryPoint then
    resource.point?.map fun point => (resource.name, point)
  else none

/-- An entry bears the name of its resource and holds its place. -/
theorem interfaceEntry?_eq_some_iff {entryPoint : String} {resource : Resource}
    {entry : String × BindingPoint} :
    program.interfaceEntry? entryPoint resource = some entry ↔
      resource.name ∈ program.callGraph.reachableVariables entryPoint ∧
        entry.1 = resource.name ∧ resource.point? = some entry.2 := by
  unfold interfaceEntry?
  split
  · rename_i used
    rw [Option.map_eq_some_iff]
    constructor
    · rintro ⟨point, hasPoint, rfl⟩
      exact ⟨used, rfl, hasPoint⟩
    · rintro ⟨-, same, hasPoint⟩
      exact ⟨entry.2, hasPoint, Prod.ext same.symm rfl⟩
  · rename_i unused
    simp [unused]

/-- The interface of an entry point lists the resources that belong to it and have a place. -/
theorem mem_interfaceOf {entryPoint : EntryPoint} {entry : String × BindingPoint} :
    entry ∈ program.interfaceOf entryPoint.name ↔
      ∃ resource, program.InInterface entryPoint resource ∧ entry.1 = resource.name ∧
        resource.point? = some entry.2 := by
  change entry ∈ program.resources.filterMap (program.interfaceEntry? entryPoint.name) ↔ _
  simp only [List.mem_filterMap, interfaceEntry?_eq_some_iff, inInterface_iff, and_assoc]

/-- Nothing collides exactly when resources at one place of an interface bear one name. -/
theorem collisionReasons_eq_nil_iff :
    program.collisionReasons = [] ↔
      ∀ entryPoint ∈ program.entryPoints, ∀ first second,
        program.InInterface entryPoint first → program.InInterface entryPoint second →
          ∀ firstPoint ∈ first.point?, ∀ secondPoint ∈ second.point?,
            firstPoint.normal = secondPoint.normal → first.name = second.name := by
  rw [collisionReasons, List.flatMap_eq_nil_iff]
  refine forall₂_congr fun entryPoint _ => ?_
  rw [collisions_eq_nil_iff]
  simp only [List.lookup_nil, Option.not_mem_none, false_implies, implies_true, true_and]
  constructor
  · intro pairwise first second isFirst isSecond firstPoint hasFirst secondPoint hasSecond same
    have symmetric : Std.Symm fun first second : String × BindingPoint =>
        first.2.normal = second.2.normal → first.1 = second.1 :=
      ⟨fun _ _ related same => (related same.symm).symm⟩
    have left : (first.name, firstPoint) ∈ program.interfaceOf entryPoint.name :=
      mem_interfaceOf.mpr ⟨first, isFirst, rfl, hasFirst⟩
    have right : (second.name, secondPoint) ∈ program.interfaceOf entryPoint.name :=
      mem_interfaceOf.mpr ⟨second, isSecond, rfl, hasSecond⟩
    exact pairwise.forall_of_forall (fun _ _ _ => rfl) left right same
  · intro apart
    refine List.pairwise_of_forall_mem_list fun left isLeft right isRight same => ?_
    obtain ⟨first, isFirst, firstName, hasFirst⟩ := mem_interfaceOf.mp isLeft
    obtain ⟨second, isSecond, secondName, hasSecond⟩ := mem_interfaceOf.mp isRight
    rw [firstName, secondName]
    exact apart first second isFirst isSecond left.2 hasFirst right.2 hasSecond same

/-! ## All rules -/

/-- Nothing speaks against a program exactly when it keeps the rules. -/
theorem reasons_verdict_eq_nil_iff : program.verdict.reasons = [] ↔ program.KeepsRules := by
  rw [verdict, List.append_eq_nil_iff, List.append_eq_nil_iff, List.append_eq_nil_iff,
    declarationReasons_eq_nil_iff, attributeReasons_eq_nil_iff, scopeReasons_eq_nil_iff,
    collisionReasons_eq_nil_iff]
  constructor
  · rintro ⟨⟨⟨⟨names, references, acyclic⟩, resources⟩, globals, locals⟩, places⟩
    exact ⟨names, fun function member => (references function member).1,
      fun function member => (references function member).2, acyclic, resources, globals, locals,
      places⟩
  · intro rules
    refine ⟨⟨⟨⟨rules.names_nodup, fun function member => ?_, rules.acyclic⟩, rules.resources⟩,
      rules.globals, rules.locals⟩, rules.places⟩
    exact ⟨rules.uses function member, rules.calls function member⟩

end Program

end BindingSuite
