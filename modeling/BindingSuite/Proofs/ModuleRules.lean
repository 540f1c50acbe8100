import Mathlib
import BindingSuite.Proofs.CallClosure
import BindingSuite.Proofs.Distinct
import BindingSuite.Compiler.Reference

/-! # Declarative rules of modules

What a module has to satisfy, said without the order in which a checker looks for breaches.

* `Module.Calls` and `Module.Uses` are the calls and uses of a module, read off the bodies of its
  functions, and the closures of `Module.Calls` stand for chains of calls;
* `Module.KeepsRules` collects the rules;
* `breaches_eq_nil_iff` says that the list of breaches is empty exactly for the modules that keep
  them, and `accepted_answer_iff_keepsRules` says so of the answer. -/

namespace BindingSuite.Wgsl

/-! ## References of a body -/

/-- A statement calls a name by itself or for its value. -/
theorem Statement.callee?_eq_some_iff {statement : Statement} {callee : String} :
    statement.callee? = some callee ↔
      ∃ name : Word, name.text = callee ∧
        (statement = .call name ∨ statement.value? = some (.call name)) := by
  cases statement with
  | call name => simp [callee?, value?]
  | declare declared => simp [callee?, value?]
  | drop value => cases value <;> simp [callee?, value?]
  | leave value => rcases value with _ | (_ | _ | _) <;> simp [callee?, value?]

/-- A name is used outside a body when some statement reads it and neither the given locals nor
those declared before that statement hide it. -/
theorem Statement.mem_usedNames {locals : List String} {body : List Statement}
    {variableName : String} :
    variableName ∈ usedNames locals body ↔
      variableName ∉ locals ∧ ∃ before statement, before ++ [statement] <+: body ∧
        statement.usedName? = some variableName ∧
          ∀ earlier ∈ before, variableName ∉ earlier.declaredNames := by
  induction body generalizing locals with
  | nil => simp [usedNames]
  | cons first rest ih =>
    -- A name is used by the first statement, or by a later one when the first does not declare it.
    rw [usedNames, List.mem_append, ih, List.mem_filter, Option.mem_toList]
    simp only [decide_eq_true_eq, List.mem_append, not_or]
    constructor
    · rintro (⟨reads, notLocal⟩ | ⟨⟨notDeclared, notLocal⟩, before, statement, starts, reads, free⟩)
      · exact ⟨notLocal, [], first, by simp, reads, by simp⟩
      · refine ⟨notLocal, first :: before, statement, by simpa using starts, reads, ?_⟩
        simpa using ⟨notDeclared, free⟩
    · rintro ⟨notLocal, before, statement, starts, reads, free⟩
      cases before with
      | nil =>
        obtain rfl : statement = first := by simpa using starts
        exact .inl ⟨reads, notLocal⟩
      | cons earlier before =>
        obtain ⟨rfl, continues⟩ : earlier = first ∧ before ++ [statement] <+: rest := by
          simpa only [List.cons_append, List.cons_prefix_cons] using starts
        obtain ⟨notDeclared, free⟩ : variableName ∉ earlier.declaredNames ∧
            ∀ later ∈ before, variableName ∉ later.declaredNames := by
          simpa using free
        exact .inr ⟨⟨notDeclared, notLocal⟩, before, statement, continues, reads, free⟩

namespace Function

/-- A function calls a name: one of its statements does, by itself or for its value. -/
def CallsName (function : Function) (callee : String) : Prop :=
  ∃ statement ∈ function.body, ∃ name : Word, name.text = callee ∧
    (statement = .call name ∨ statement.value? = some (.call name))

/-- A function reads a name of its module: some statement reads it, and no statement before that
one declares a local variable of this name. -/
def ReadsName (function : Function) (variableName : String) : Prop :=
  ∃ before statement, before ++ [statement] <+: function.body ∧
    statement.usedName? = some variableName ∧
      ∀ earlier ∈ before, variableName ∉ earlier.declaredNames

/-- The calls of a function are the names that it calls. -/
theorem mem_calls {function : Function} {callee : String} :
    callee ∈ function.calls ↔ function.CallsName callee := by
  simp only [calls, List.mem_filterMap, Statement.callee?_eq_some_iff, CallsName]

/-- The uses of a function are the names of the module that it reads. -/
theorem mem_uses {function : Function} {variableName : String} :
    variableName ∈ function.uses ↔ function.ReadsName variableName := by
  simp [uses, Statement.mem_usedNames, ReadsName]

end Function

namespace Module

/-- A function of the module calls a name. -/
def Calls (module : Module) (caller callee : String) : Prop :=
  ∃ function ∈ module.functions, function.name.text = caller ∧ function.CallsName callee

/-- A function of the module reads a variable of the module. -/
def Uses (module : Module) (name variableName : String) : Prop :=
  ∃ function ∈ module.functions, function.name.text = name ∧ function.ReadsName variableName

/-- The call graph of a module holds its calls. -/
theorem calls_callGraph (module : Module) : module.callGraph.Calls = module.Calls := by
  funext caller callee
  rw [CallGraph.Calls, callGraph, CallGraph.mem_calls_ofNodes]
  simp only [List.mem_map, exists_exists_and_eq_and, Function.node, Function.mem_calls, Calls,
    @eq_comm _ caller]

/-- The call graph of a module holds its uses. -/
theorem mem_uses_callGraph {module : Module} {name variableName : String} :
    (name, variableName) ∈ module.callGraph.uses ↔ module.Uses name variableName := by
  rw [callGraph, CallGraph.mem_uses_ofNodes]
  simp only [List.mem_map, exists_exists_and_eq_and, Function.node, Function.mem_uses, Uses,
    @eq_comm _ name]

end Module

/-! ## Rules -/

/-- An attribute gives an index: its only argument is a number. -/
def Attribute.GivesIndex (given : Attribute) : Prop :=
  ∃ value, given.arguments = [.number value]

namespace Variable

/-- A variable of a module binds a resource: by its address space, or by having none and the type
of a texture or sampler. -/
def BindsResource (declared : Variable) : Prop :=
  declared.addressSpace? = some "uniform" ∨ declared.addressSpace? = some "storage" ∨
    (declared.addressSpace? = none ∧ isHandleType declared.typeName = true)

/-- A variable lies in an address space for the data of a module. -/
def HoldsData (declared : Variable) : Prop :=
  declared.addressSpace? = some "private" ∨ declared.addressSpace? = some "workgroup"

/-- The rules of a variable of the module. Of attributes with one name only the first counts. -/
structure KeepsGlobalRules (declared : Variable) : Prop where
  /-- A group is an index. -/
  group_index : ∀ given, findAttribute? declared.attributes "group" = some given → given.GivesIndex
  /-- A binding number is an index. -/
  binding_index :
    ∀ given, findAttribute? declared.attributes "binding" = some given → given.GivesIndex
  /-- A resource has both attributes. -/
  resource : declared.BindsResource →
    hasAttribute declared.attributes "group" = true ∧
      hasAttribute declared.attributes "binding" = true
  /-- Any other variable has neither and holds data. -/
  plain : ¬declared.BindsResource →
    hasAttribute declared.attributes "group" = false ∧
      hasAttribute declared.attributes "binding" = false ∧ declared.HoldsData

/-- The rules of a variable of a function. -/
structure KeepsLocalRules (declared : Variable) : Prop where
  /-- It has no group. -/
  group_absent : hasAttribute declared.attributes "group" = false
  /-- It has no binding number. -/
  binding_absent : hasAttribute declared.attributes "binding" = false
  /-- It lies in the address space of functions, which need not be written. -/
  addressSpace : declared.addressSpace? = none ∨ declared.addressSpace? = some "function"
  /-- It holds no texture and no sampler. -/
  notHandle : isHandleType declared.typeName = false

end Variable

namespace Module

/-- A name is that of a function of the module at which no stage starts. -/
def HasHelper (module : Module) (name : String) : Prop :=
  ∃ function ∈ module.functions, function.name.text = name ∧ function.stage? = none

/-- A name is that of a variable of the module. -/
def HasGlobal (module : Module) (name : String) : Prop :=
  ∃ declared ∈ module.globals, declared.name.text = name

/-- A resource of the module belongs to the interface of an entry point: the entry point reads it,
or something does to which a chain of calls leads from there. -/
def InInterface (module : Module) (entryPoint : Function) (resource : Variable) : Prop :=
  resource ∈ module.globals ∧ resource.BindsResource ∧
    ∃ name, Relation.ReflTransGen module.Calls entryPoint.name.text name ∧
      module.Uses name resource.name.text

/-- The rules of a module. -/
structure KeepsRules (module : Module) : Prop where
  /-- The names of variables and functions are pairwise distinct. -/
  names_nodup : (module.declaredNames.map Word.text).Nodup
  /-- Every variable of the module keeps the rules of such variables. -/
  globals : ∀ declared ∈ module.globals, declared.KeepsGlobalRules
  /-- Every variable of a function keeps the rules of such variables. -/
  locals : ∀ function ∈ module.functions, ∀ declared, .declare declared ∈ function.body →
    declared.KeepsLocalRules
  /-- A statement calls only helpers. -/
  calls : ∀ function ∈ module.functions, ∀ name, .call name ∈ function.body →
    module.HasHelper name.text
  /-- An expression calls only helpers and constructors of vectors. -/
  valueCalls : ∀ function ∈ module.functions, ∀ statement ∈ function.body, ∀ name,
    statement.value? = some (.call name) →
      name.text ∈ vectorConstructors ∨ module.HasHelper name.text
  /-- A statement reads only variables of the module and those declared before it in its body. -/
  references : ∀ function ∈ module.functions, ∀ before statement,
    before ++ [statement] <+: function.body → ∀ name,
      statement.value? = some (.reference name) →
        (∃ declared, .declare declared ∈ before ∧ declared.name.text = name.text) ∨
          module.HasGlobal name.text
  /-- No chain of one or more calls leads from a function back to it. -/
  acyclic : ∀ function ∈ module.functions,
    ¬Relation.TransGen module.Calls function.name.text function.name.text
  /-- A compute entry point has a workgroup size. -/
  compute : ∀ function ∈ module.functions, function.stage? = some .compute →
    hasAttribute function.attributes "workgroup_size" = true
  /-- A vertex entry point returns a value with a builtin role. -/
  vertex : ∀ function ∈ module.functions, function.stage? = some .vertex →
    ∃ result, function.result = some result ∧ hasAttribute result.attributes "builtin" = true
  /-- Two resources in the interface of one entry point are bound at different places. -/
  places : ∀ entryPoint ∈ module.functions, entryPoint.stage?.isSome = true → ∀ first second,
    module.InInterface entryPoint first → module.InInterface entryPoint second →
      first.name.text ≠ second.name.text →
        (index? first.attributes "group", index? first.attributes "binding") ≠
          (index? second.attributes "group", index? second.attributes "binding")

end Module

/-! ## Names -/

/-- There is no breach by names exactly when they are distinct from each other and from those
seen. -/
theorem nameBreaches_eq_nil_iff {seen : List String} {names : List Word} :
    nameBreaches seen names = [] ↔ Fresh seen (names.map Word.text) := by
  induction names generalizing seen with
  | nil => simp [nameBreaches]
  | cons name rest ih =>
    rw [nameBreaches, List.map_cons, fresh_cons]
    split
    · rename_i isSeen
      simp [isSeen]
    · rename_i isNew
      rw [ih, and_iff_right isNew]

/-! ## Variables -/

/-- An attribute has an index exactly when it gives one. -/
theorem Attribute.index?_eq_some_iff {given : Attribute} {value : Nat} :
    given.index? = some value ↔ given.arguments = [.number value] := by
  unfold index?
  split
  · rename_i arguments
    simp [arguments]
  · rename_i other
    simpa using other value

/-- There is no breach by the attribute of a name exactly when the first such attribute, if there
is one, gives an index. -/
theorem indexBreaches_eq_nil_iff {attributes : List Attribute} {name : String} :
    indexBreaches attributes name = [] ↔
      ∀ given, findAttribute? attributes name = some given → given.GivesIndex := by
  unfold indexBreaches
  split
  · rename_i given found
    have index : given.index? ≠ none ↔ given.GivesIndex := by
      rw [Option.ne_none_iff_exists']
      simp only [Attribute.index?_eq_some_iff, Attribute.GivesIndex]
    simp [found, ← index]
  · rename_i found
    simp [found]

namespace Variable

/-- The test for resources decides which variables bind one. -/
theorem isResource_iff {declared : Variable} :
    declared.isResource = true ↔ declared.BindsResource := by
  unfold isResource BindsResource
  split
  · rename_i space
    simp [space]
  · rename_i addressSpace space
    simp [space]

/-- A variable without breaches as a plain variable has no binding attributes and holds data. -/
theorem plainBreaches_eq_nil_iff {declared : Variable} :
    plainBreaches declared = [] ↔
      hasAttribute declared.attributes "group" = false ∧
        hasAttribute declared.attributes "binding" = false ∧ declared.HoldsData := by
  rw [plainBreaches, List.append_eq_nil_iff, ← and_assoc]
  refine and_congr (by simp) ?_
  unfold HoldsData
  split
  · rename_i space
    simp [space]
  · rename_i addressSpace space
    simp [space, or_iff_not_imp_left]

/-- A variable without breaches as a resource has both binding attributes. -/
theorem resourceBreaches_eq_nil_iff {declared : Variable} :
    resourceBreaches declared = [] ↔
      hasAttribute declared.attributes "group" = true ∧
        hasAttribute declared.attributes "binding" = true := by
  simp [resourceBreaches]

/-- There is no breach by a variable of the module exactly when it keeps the rules. -/
theorem globalBreaches_eq_nil_iff {declared : Variable} :
    globalBreaches declared = [] ↔ declared.KeepsGlobalRules := by
  rw [globalBreaches, List.append_eq_nil_iff, List.append_eq_nil_iff, indexBreaches_eq_nil_iff,
    indexBreaches_eq_nil_iff]
  by_cases isResource : declared.BindsResource
  · rw [if_pos (isResource_iff.mpr isResource), resourceBreaches_eq_nil_iff]
    constructor
    · rintro ⟨⟨group, binding⟩, both⟩
      exact ⟨group, binding, fun _ => both, fun plain => absurd isResource plain⟩
    · rintro ⟨group, binding, both, -⟩
      exact ⟨⟨group, binding⟩, both isResource⟩
  · rw [if_neg (fun decided => isResource (isResource_iff.mp decided)), plainBreaches_eq_nil_iff]
    constructor
    · rintro ⟨⟨group, binding⟩, plain⟩
      exact ⟨group, binding, fun resource => absurd resource isResource, fun _ => plain⟩
    · rintro ⟨group, binding, -, plain⟩
      exact ⟨⟨group, binding⟩, plain isResource⟩

/-- There is no breach by a variable of a function exactly when it keeps the rules. -/
theorem localBreaches_eq_nil_iff {declared : Variable} :
    localBreaches declared = [] ↔ declared.KeepsLocalRules := by
  have attributes : (if hasAttribute declared.attributes "group"
        || hasAttribute declared.attributes "binding" then
          [Breach.attributesOnLocal declared.name] else []) = [] ↔
      hasAttribute declared.attributes "group" = false ∧
        hasAttribute declared.attributes "binding" = false := by simp
  rw [localBreaches, List.append_eq_nil_iff, List.append_eq_nil_iff, attributes]
  constructor
  · rintro ⟨⟨⟨group, binding⟩, space⟩, handle⟩
    refine ⟨group, binding, ?_, by simpa using handle⟩
    split at space
    · exact .inl (by assumption)
    · rename_i addressSpace same
      rw [same, Option.some_inj]
      exact .inr (by simpa using space)
  · rintro ⟨group, binding, space, handle⟩
    refine ⟨⟨⟨group, binding⟩, ?_⟩, by simp [handle]⟩
    rcases space with space | space <;> simp [space]

end Variable

/-! ## Bodies -/

/-- The names that statements declare, below the names of earlier locals. -/
def Statement.localsAfter (locals : List String) (before : List Statement) : List String :=
  before.foldl (fun locals statement => statement.declaredNames ++ locals) locals

/-- A name is known behind some statements when it was before or one of them declares it. -/
theorem Statement.mem_localsAfter {locals : List String} {before : List Statement}
    {name : String} :
    name ∈ localsAfter locals before ↔
      name ∈ locals ∨ ∃ declared, .declare declared ∈ before ∧ declared.name.text = name := by
  induction before generalizing locals with
  | nil => simp [localsAfter]
  | cons statement before ih =>
    rw [show localsAfter locals (statement :: before) =
      localsAfter (statement.declaredNames ++ locals) before from rfl, ih]
    cases statement with
    | declare declared =>
      simp only [declaredNames, List.singleton_append, List.mem_cons, declare.injEq]
      constructor
      · rintro ((same | known) | ⟨other, member, same⟩)
        · exact .inr ⟨declared, .inl rfl, same.symm⟩
        · exact .inl known
        · exact .inr ⟨other, .inr member, same⟩
      · rintro (known | ⟨other, rfl | member, same⟩)
        · exact .inl (.inr known)
        · exact .inl (.inl same.symm)
        · exact .inr ⟨other, member, same⟩
    | drop | call | leave => simp [declaredNames]

namespace Module

variable {module : Module}

/-- Where functions have distinct names, the name of one is that of a helper exactly when no stage
starts at it. -/
theorem hasHelper_iff_of_mem (distinct : (module.functions.map (·.name.text)).Nodup)
    {function : Function} (member : function ∈ module.functions) :
    module.HasHelper function.name.text ↔ function.stage? = none := by
  constructor
  · rintro ⟨other, otherMember, same, noStage⟩
    rwa [List.inj_on_of_nodup_map distinct otherMember member same] at noStage
  · intro noStage
    exact ⟨function, member, rfl, noStage⟩

/-- Where functions have distinct names, there is no breach by a call exactly when it is of a
helper. -/
theorem callBreaches_eq_nil_iff (distinct : (module.functions.map (·.name.text)).Nodup)
    {function callee : String} :
    module.callBreaches function callee = [] ↔ module.HasHelper callee := by
  unfold callBreaches
  split
  · rename_i missing
    have unnamed := List.find?_eq_none.mp missing
    simp only [reduceCtorEq, false_iff]
    rintro ⟨declared, member, same, -⟩
    exact absurd same (by simpa using unnamed declared member)
  · rename_i declared found
    have member := List.mem_of_find?_eq_some found
    have named : declared.name.text = callee := by simpa using List.find?_some found
    rw [← named, hasHelper_iff_of_mem distinct member]
    split
    · rename_i starts
      simpa using Option.isSome_iff_ne_none.mp starts
    · rename_i noStage
      simpa using noStage

/-- The rules of one statement below the names of earlier locals. -/
structure KeepsStatementRules (module : Module) (locals : List String) (statement : Statement) :
    Prop where
  /-- A variable that it declares keeps the rules of such variables. -/
  declares : ∀ declared, statement = .declare declared → declared.KeepsLocalRules
  /-- A function that it calls is a helper. -/
  calls : ∀ name, statement = .call name → module.HasHelper name.text
  /-- A function that it calls for its value is a constructor of vectors or a helper. -/
  valueCalls : ∀ name, statement.value? = some (.call name) →
    name.text ∈ vectorConstructors ∨ module.HasHelper name.text
  /-- A variable that it reads is an earlier local or a variable of the module. -/
  references : ∀ name, statement.value? = some (.reference name) →
    name.text ∈ locals ∨ module.HasGlobal name.text

/-- A statement with a value keeps the rules when the value calls and reads what it may. -/
theorem keepsStatementRules_iff {locals : List String} {statement : Statement} {value : Expression}
    (valued : statement.value? = some value) :
    module.KeepsStatementRules locals statement ↔
      (∀ name, value = .call name → name.text ∈ vectorConstructors ∨ module.HasHelper name.text) ∧
      ∀ name, value = .reference name → name.text ∈ locals ∨ module.HasGlobal name.text := by
  constructor
  · rintro ⟨-, -, calls, references⟩
    exact ⟨fun name same => calls name (by rw [valued, same]),
      fun name same => references name (by rw [valued, same])⟩
  · rintro ⟨calls, references⟩
    refine ⟨?_, ?_, fun name same => calls name ?_, fun name same => references name ?_⟩
    · rintro declared rfl
      cases valued
    · rintro name rfl
      cases valued
    · rwa [valued, Option.some_inj] at same
    · rwa [valued, Option.some_inj] at same

/-- There is no breach by an expression exactly when it calls and reads what it may. -/
theorem expressionBreaches_eq_nil_iff (distinct : (module.functions.map (·.name.text)).Nodup)
    {function : String} {locals : List String} {expression : Expression} :
    module.expressionBreaches function locals expression = [] ↔
      (∀ name, expression = .call name →
        name.text ∈ vectorConstructors ∨ module.HasHelper name.text) ∧
      ∀ name, expression = .reference name →
        name.text ∈ locals ∨ module.HasGlobal name.text := by
  cases expression with
  | call name =>
    rw [expressionBreaches]
    split
    · rename_i constructor
      simp [constructor]
    · rename_i noConstructor
      simp [callBreaches_eq_nil_iff distinct, noConstructor]
  | reference name => simp [expressionBreaches, HasGlobal, or_iff_not_imp_left]
  | number value => simp [expressionBreaches]

/-- There is no breach by a statement exactly when it keeps the rules. -/
theorem statementBreaches_eq_nil_iff (distinct : (module.functions.map (·.name.text)).Nodup)
    {function : String} {locals : List String} {statement : Statement} :
    module.statementBreaches function locals statement = [] ↔
      module.KeepsStatementRules locals statement := by
  cases statement with
  | declare declared =>
    rw [statementBreaches, Variable.localBreaches_eq_nil_iff]
    exact ⟨fun rules => ⟨by simpa using rules, nofun, nofun, nofun⟩,
      fun rules => rules.declares _ rfl⟩
  | call name =>
    rw [statementBreaches, callBreaches_eq_nil_iff distinct]
    exact ⟨fun helper => ⟨nofun, by simpa using helper, nofun, nofun⟩,
      fun rules => rules.calls _ rfl⟩
  | drop value =>
    rw [statementBreaches, expressionBreaches_eq_nil_iff distinct, keepsStatementRules_iff rfl]
  | leave value =>
    cases value with
    | none => exact iff_of_true rfl ⟨nofun, nofun, nofun, nofun⟩
    | some value =>
      rw [statementBreaches, Option.map_some, Option.getD_some,
        expressionBreaches_eq_nil_iff distinct, keepsStatementRules_iff rfl]

/-- There is no breach by a body exactly when each statement keeps the rules below the locals that
the statements before it declare. -/
theorem bodyBreaches_eq_nil_iff (distinct : (module.functions.map (·.name.text)).Nodup)
    {function : String} {locals : List String} {body : List Statement} :
    module.bodyBreaches function locals body = [] ↔
      ∀ before statement, before ++ [statement] <+: body →
        module.KeepsStatementRules (Statement.localsAfter locals before) statement := by
  induction body generalizing locals with
  | nil => simp [bodyBreaches]
  | cons first rest ih =>
    rw [bodyBreaches, List.append_eq_nil_iff, ih, statementBreaches_eq_nil_iff distinct]
    constructor
    · rintro ⟨head, tail⟩ before statement starts
      cases before with
      | nil =>
        obtain rfl : statement = first := by simpa using starts
        exact head
      | cons earlier before =>
        rw [List.cons_append, List.cons_prefix_cons] at starts
        obtain ⟨rfl, continues⟩ := starts
        exact tail before statement continues
    · intro rules
      exact ⟨rules [] first (by simp), fun before statement continues =>
        rules (first :: before) statement (by simpa using continues)⟩

/-- There is no breach by a function exactly when its statements keep the rules and it is not
recursive. -/
theorem functionBreaches_eq_nil_iff (distinct : (module.functions.map (·.name.text)).Nodup)
    {function : Function} :
    module.functionBreaches function = [] ↔
      (∀ before statement, before ++ [statement] <+: function.body →
        module.KeepsStatementRules (Statement.localsAfter [] before) statement) ∧
      ¬Relation.TransGen module.Calls function.name.text function.name.text := by
  rw [functionBreaches, List.append_eq_nil_iff, bodyBreaches_eq_nil_iff distinct,
    ← calls_callGraph, ← CallGraph.isRecursive_iff_transGen]
  simp

/-! ## Entry points -/

/-- There is no breach by what a stage asks for exactly when compute entry points have a workgroup
size and vertex entry points return a value with a builtin role. -/
theorem stageBreaches_eq_nil_iff {entryPoint : Function} :
    stageBreaches entryPoint = [] ↔
      (entryPoint.stage? = some .compute →
        hasAttribute entryPoint.attributes "workgroup_size" = true) ∧
      (entryPoint.stage? = some .vertex →
        ∃ result, entryPoint.result = some result ∧
          hasAttribute result.attributes "builtin" = true) := by
  unfold stageBreaches
  split
  · rename_i stage
    simp [stage]
  · rename_i stage
    cases result : entryPoint.result with
    | none => simp [stage, hasAttribute, findAttribute?]
    | some result => simp [stage]
  · rename_i notCompute notVertex
    exact iff_of_true rfl
      ⟨fun stage => absurd stage notCompute, fun stage => absurd stage notVertex⟩

/-- There is no breach by shared places exactly when the places differ from each other and from
those with an owner. -/
theorem placeBreaches_eq_nil_iff {entryPoint : String} {owners : List ((Nat × Nat) × String)}
    {interface : List (Word × Nat × Nat)} :
    placeBreaches entryPoint owners interface = [] ↔
      Fresh (owners.map (·.1)) (interface.map (·.2)) := by
  induction interface generalizing owners with
  | nil => simp [placeBreaches]
  | cons entry rest ih =>
    rw [placeBreaches, List.map_cons, fresh_cons]
    split
    · rename_i owner owned
      obtain ⟨before, after, split, -⟩ := List.lookup_eq_some_iff.mp owned
      simp [split]
    · rename_i free
      have unowned : entry.2 ∉ owners.map (·.1) := by
        rintro isOwned
        obtain ⟨owner, member, same⟩ := List.mem_map.mp isOwned
        simpa [same] using List.lookup_eq_none_iff.mp free owner member
      rw [ih, List.map_cons, and_iff_right unowned]

/-- A resource that keeps the rules has a place. -/
theorem exists_place {declared : Variable} (rules : declared.KeepsGlobalRules)
    (isResource : declared.BindsResource) :
    ∃ group binding, index? declared.attributes "group" = some group ∧
      index? declared.attributes "binding" = some binding := by
  have found {name : String} (has : hasAttribute declared.attributes name = true)
      (index : ∀ given, findAttribute? declared.attributes name = some given → given.GivesIndex) :
      ∃ value, index? declared.attributes name = some value := by
    obtain ⟨given, first⟩ := Option.isSome_iff_exists.mp has
    obtain ⟨value, arguments⟩ := index given first
    exact ⟨value, by rw [index?, first, Option.bind_some, Attribute.index?_eq_some_iff, arguments]⟩
  obtain ⟨hasGroup, hasBinding⟩ := rules.resource isResource
  obtain ⟨group, isGroup⟩ := found hasGroup rules.group_index
  obtain ⟨binding, isBinding⟩ := found hasBinding rules.binding_index
  exact ⟨group, binding, isGroup, isBinding⟩

/-- A variable of the module belongs to an interface exactly when the call graph says that the
entry point uses it and it is a resource. -/
theorem inInterface_iff {entryPoint : Function} {declared : Variable}
    (member : declared ∈ module.globals) :
    module.InInterface entryPoint declared ↔
      (declared.name.text ∈ module.callGraph.reachableVariables entryPoint.name.text
        && declared.isResource) = true := by
  rw [InInterface, Bool.and_eq_true, Variable.isResource_iff, decide_eq_true_eq,
    CallGraph.mem_reachableVariables]
  simp only [CallGraph.reaches_iff_reflTransGen, calls_callGraph, mem_uses_callGraph, member,
    true_and]
  exact and_comm

/-- What a variable of the module adds to the interface of an entry point. -/
def interfaceEntry? (module : Module) (entryPoint : String) (declared : Variable) :
    Option (Word × Nat × Nat) :=
  if declared.name.text ∈ module.callGraph.reachableVariables entryPoint
      && declared.isResource then
    match index? declared.attributes "group", index? declared.attributes "binding" with
    | some group, some binding => some (declared.name, group, binding)
    | _, _ => none
  else none

/-- Under the rules, a variable adds an entry to an interface exactly when it belongs to it, and
the entry holds its place. -/
theorem interfaceEntry?_eq_some_iff {entryPoint : Function} {declared : Variable}
    (member : declared ∈ module.globals) {entry : Word × Nat × Nat} :
    module.interfaceEntry? entryPoint.name.text declared = some entry ↔
      module.InInterface entryPoint declared ∧ entry.1 = declared.name ∧
        index? declared.attributes "group" = some entry.2.1 ∧
          index? declared.attributes "binding" = some entry.2.2 := by
  rw [inInterface_iff member, interfaceEntry?]
  split
  · rename_i inside
    rw [inside]
    split
    · rename_i group binding isGroup isBinding
      rw [isGroup, isBinding, Option.some_inj, Option.some_inj, Option.some_inj, Prod.ext_iff,
        Prod.ext_iff, @eq_comm _ declared.name]
      simp
    · rename_i incomplete
      simp only [reduceCtorEq, false_iff, true_and]
      rintro ⟨-, isGroup, isBinding⟩
      exact incomplete _ _ isGroup isBinding
  · rename_i outside
    simp [outside]

/-- Where the variables of the module have distinct names and keep the rules, the places of an
interface differ exactly when any two of its resources have different places. -/
theorem nodup_places_iff (distinct : (module.globals.map (·.name.text)).Nodup)
    (rules : ∀ declared ∈ module.globals, declared.KeepsGlobalRules) {entryPoint : Function} :
    ((module.interfaceOf entryPoint.name.text).map (·.2)).Nodup ↔
      ∀ first second, module.InInterface entryPoint first → module.InInterface entryPoint second →
        first.name.text ≠ second.name.text →
          (index? first.attributes "group", index? first.attributes "binding") ≠
            (index? second.attributes "group", index? second.attributes "binding") := by
  have entries : module.interfaceOf entryPoint.name.text =
    module.globals.filterMap (module.interfaceEntry? entryPoint.name.text) := rfl
  have symmetric : Std.Symm fun first second : Variable =>
      ∀ left, module.interfaceEntry? entryPoint.name.text first = some left →
        ∀ right, module.interfaceEntry? entryPoint.name.text second = some right →
          left.2 ≠ right.2 :=
    ⟨fun _ _ apart right isRight left isLeft => (apart left isLeft right isRight).symm⟩
  rw [entries, List.Nodup, List.pairwise_map, List.pairwise_filterMap,
    pairwise_iff_of_nodup_map distinct]
  constructor
  · intro apart first second isFirst isSecond different same
    -- Both resources have entries, and with equal places these would break the assumption.
    obtain ⟨group, binding, isGroup, isBinding⟩ :=
      exists_place (rules first isFirst.1) isFirst.2.1
    rw [isGroup, isBinding, Prod.mk.injEq] at same
    have left : module.interfaceEntry? entryPoint.name.text first =
        some (first.name, group, binding) :=
      (interfaceEntry?_eq_some_iff isFirst.1).mpr ⟨isFirst, rfl, isGroup, isBinding⟩
    have right : module.interfaceEntry? entryPoint.name.text second =
        some (second.name, group, binding) :=
      (interfaceEntry?_eq_some_iff isSecond.1).mpr
        ⟨isSecond, rfl, same.1.symm, same.2.symm⟩
    exact apart first isFirst.1 second isSecond.1 different _ left _ right rfl
  · intro apart first isFirst second isSecond different left isLeft right isRight same
    obtain ⟨inFirst, -, firstGroup, firstBinding⟩ := (interfaceEntry?_eq_some_iff isFirst).mp isLeft
    obtain ⟨inSecond, -, secondGroup, secondBinding⟩ :=
      (interfaceEntry?_eq_some_iff isSecond).mp isRight
    apply apart first second inFirst inSecond different
    rw [firstGroup, firstBinding, secondGroup, secondBinding, same]

/-! ## All rules -/

/-- Every statement of a body stands behind some part of it. -/
theorem exists_prefix_of_mem {body : List Statement} {statement : Statement}
    (member : statement ∈ body) : ∃ before, before ++ [statement] <+: body := by
  obtain ⟨before, after, rfl⟩ := List.append_of_mem member
  exact ⟨before, after, by simp⟩

/-- Where all names are distinct, those of the variables are and those of the functions are. -/
theorem nodup_of_nodup_declaredNames (names : (module.declaredNames.map Word.text).Nodup) :
    (module.globals.map (·.name.text)).Nodup ∧ (module.functions.map (·.name.text)).Nodup := by
  rw [declaredNames, List.map_append, List.nodup_append, List.map_map, List.map_map] at names
  exact ⟨names.1, names.2.1⟩

/-- The rules on statements, statement by statement: each keeps them behind what precedes it. -/
theorem KeepsRules.statementRules (rules : module.KeepsRules) {function : Function}
    (member : function ∈ module.functions) {before : List Statement} {statement : Statement}
    (starts : before ++ [statement] <+: function.body) :
    module.KeepsStatementRules (Statement.localsAfter [] before) statement := by
  have inBody : statement ∈ function.body := starts.subset (by simp)
  refine ⟨?_, ?_, fun name => rules.valueCalls function member statement inBody name, ?_⟩
  · rintro declared rfl
    exact rules.locals function member declared inBody
  · rintro name rfl
    exact rules.calls function member name inBody
  · intro name reads
    rw [Statement.mem_localsAfter]
    simpa using rules.references function member before statement starts name reads

/-- A module has no breaches exactly when it keeps the rules. -/
theorem breaches_eq_nil_iff : module.breaches = [] ↔ module.KeepsRules := by
  rw [breaches, List.append_eq_nil_iff, List.append_eq_nil_iff, List.append_eq_nil_iff,
    nameBreaches_eq_nil_iff]
  simp only [List.flatMap_eq_nil_iff, Variable.globalBreaches_eq_nil_iff, entryPointBreaches,
    List.append_eq_nil_iff, stageBreaches_eq_nil_iff, placeBreaches_eq_nil_iff, List.map_nil,
    fresh_nil_iff]
  constructor
  · rintro ⟨⟨⟨names, globals⟩, functions⟩, entryPoints⟩
    obtain ⟨globalNames, functionNames⟩ := nodup_of_nodup_declaredNames names
    have statements := fun function member =>
      ((functionBreaches_eq_nil_iff functionNames).mp (functions function member)).1
    have staged {function : Function} (member : function ∈ module.functions)
        (starts : function.stage?.isSome = true) :=
      entryPoints function (List.mem_filter.mpr ⟨member, starts⟩)
    -- The rules of bodies are read off the statement behind some part of the body, the rules of
    -- entry points off the functions at which a stage starts.
    refine ⟨names, globals, ?_, ?_, ?_, ?_, ?_, ?_, ?_, ?_⟩
    · intro function member declared inBody
      obtain ⟨before, starts⟩ := exists_prefix_of_mem inBody
      exact (statements function member before _ starts).declares declared rfl
    · intro function member name inBody
      obtain ⟨before, starts⟩ := exists_prefix_of_mem inBody
      exact (statements function member before _ starts).calls name rfl
    · intro function member statement inBody name calls
      obtain ⟨before, starts⟩ := exists_prefix_of_mem inBody
      exact (statements function member before _ starts).valueCalls name calls
    · intro function member before statement starts name reads
      have known := (statements function member before _ starts).references name reads
      rw [Statement.mem_localsAfter] at known
      simpa using known
    · intro function member
      exact ((functionBreaches_eq_nil_iff functionNames).mp (functions function member)).2
    · intro function member stage
      exact (staged member (by simp [stage])).1.1 stage
    · intro function member stage
      exact (staged member (by simp [stage])).1.2 stage
    · intro entryPoint member starts
      exact (nodup_places_iff globalNames globals).mp (staged member starts).2
  · intro rules
    obtain ⟨globalNames, functionNames⟩ := nodup_of_nodup_declaredNames rules.names_nodup
    refine ⟨⟨⟨rules.names_nodup, rules.globals⟩, ?_⟩, ?_⟩
    · intro function member
      rw [functionBreaches_eq_nil_iff functionNames]
      exact ⟨fun _ _ => rules.statementRules member, rules.acyclic function member⟩
    · intro entryPoint isEntryPoint
      obtain ⟨member, starts⟩ := List.mem_filter.mp isEntryPoint
      refine ⟨⟨rules.compute entryPoint member, rules.vertex entryPoint member⟩, ?_⟩
      exact (nodup_places_iff globalNames rules.globals).mpr
        (rules.places entryPoint member starts)

/-- A module is accepted exactly when it has no breaches. -/
theorem accepted_answer_iff : module.answer.accepted = true ↔ module.breaches = [] := by
  unfold answer
  split
  · rename_i none
    simp [none]
  · rename_i breach rest some
    simp [some]

/-- The reference compiler accepts a module exactly when the module keeps the declarative rules. -/
theorem accepted_answer_iff_keepsRules (module : Module) :
    module.answer.accepted = true ↔ module.KeepsRules :=
  accepted_answer_iff.trans breaches_eq_nil_iff

end Module

end BindingSuite.Wgsl
