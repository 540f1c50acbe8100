import BindingSuite.Proofs.VerdictRules

/-! # Validity

Which programs are valid, read off their declarations and the statements of their bodies alone.

* `Function.ReadsName` says that a body reads a name of the module; `Program.Calls` and
  `Program.Uses` are the calls and uses of a program, and the closures of `Program.Calls` stand for
  chains of calls;
* `Program.IsValid` collects the conditions, and `keepsRules_iff_isValid` compares them with the
  rules that the verdict checks on call graphs;
* `accepted_verdict_iff_isValid` says that the verdict accepts exactly the valid programs. -/

namespace BindingSuite

/-! ## References of a body -/

/-- A statement uses a name exactly when it is the use of this name. -/
theorem Statement.usedName?_eq_some_iff {statement : Statement} {name : String} :
    statement.usedName? = some name ↔ statement = .use name := by
  cases statement <;> simp [usedName?]

/-- A statement declares a name exactly when it declares a local variable of this name. -/
theorem Statement.mem_declaredNames {statement : Statement} {name : String} :
    name ∈ statement.declaredNames ↔
      ∃ declared, statement = .declare declared ∧ declared.name = name := by
  cases statement <;> simp [declaredNames, localVariable?, eq_comm]

/-- A name is used outside a body when some statement uses it and neither the given locals nor those
declared before that statement hide it. -/
theorem Statement.mem_usedNames {locals : List String} {body : List Statement} {name : String} :
    name ∈ usedNames locals body ↔
      name ∉ locals ∧ ∃ before, before ++ [.use name] <+: body ∧
        ∀ declared, .declare declared ∈ before → declared.name ≠ name := by
  induction body generalizing locals with
  | nil => simp [usedNames]
  | cons first rest ih =>
    -- A name is used by the first statement, or by a later one when the first does not declare it.
    rw [usedNames, List.mem_append, ih, List.mem_filter, Option.mem_toList,
      usedName?_eq_some_iff, List.mem_append, not_or, mem_declaredNames, decide_eq_true_eq]
    constructor
    · rintro (⟨rfl, notLocal⟩ | ⟨⟨notDeclared, notLocal⟩, before, starts, free⟩)
      · exact ⟨notLocal, [], by simp, fun _ member => absurd member List.not_mem_nil⟩
      · refine ⟨notLocal, first :: before, by simpa using starts, fun declared member same => ?_⟩
        rcases List.mem_cons.mp member with isFirst | inBefore
        · exact notDeclared ⟨declared, isFirst.symm, same⟩
        · exact free declared inBefore same
    · rintro ⟨notLocal, before, starts, free⟩
      cases before with
      | nil =>
        obtain rfl : .use name = first := by simpa using starts
        exact .inl ⟨rfl, notLocal⟩
      | cons earlier before =>
        obtain ⟨rfl, continues⟩ : earlier = first ∧ before ++ [.use name] <+: rest := by
          simpa only [List.cons_append, List.cons_prefix_cons] using starts
        refine .inr ⟨⟨?_, notLocal⟩, before, continues, fun declared member =>
          free declared (List.mem_cons_of_mem _ member)⟩
        rintro ⟨declared, rfl, same⟩
        exact free declared List.mem_cons_self same

namespace Function

variable {function : Function}

/-- A function reads a name of its module: some statement uses it, and no statement before that one
declares a local variable of this name. -/
def ReadsName (function : Function) (name : String) : Prop :=
  ∃ before, before ++ [.use name] <+: function.body ∧
    ∀ declared, .declare declared ∈ before → declared.name ≠ name

/-- The uses of a function are the names of the module that it reads. -/
theorem mem_uses {name : String} : name ∈ function.uses ↔ function.ReadsName name := by
  rw [uses, Statement.mem_usedNames, and_iff_right List.not_mem_nil, ReadsName]

/-- A body without local variables reads every name that it uses. -/
theorem readsName_iff_of_noLocals (noLocals : ∀ declared, .declare declared ∉ function.body)
    {name : String} : function.ReadsName name ↔ .use name ∈ function.body := by
  constructor
  · rintro ⟨before, starts, -⟩
    exact starts.subset (by simp)
  · intro member
    obtain ⟨before, after, split⟩ := List.append_of_mem member
    refine ⟨before, ⟨after, by simp [split]⟩, fun declared declares => ?_⟩
    exact absurd (by simp [split, declares]) (noLocals declared)

/-- The calls of a function are those that its statements make. -/
theorem mem_calls {callee : String} : callee ∈ function.calls ↔ .call callee ∈ function.body := by
  rw [calls, List.mem_filterMap]
  constructor
  · rintro ⟨statement, member, calls⟩
    cases statement with
    | call name => cases calls; exact member
    | _ => cases calls
  · exact fun member => ⟨.call callee, member, rfl⟩

/-- The locals of a function are those that its statements declare. -/
theorem mem_locals {declared : LocalVariable} :
    declared ∈ function.locals ↔ .declare declared ∈ function.body := by
  rw [locals, List.mem_filterMap]
  constructor
  · rintro ⟨statement, member, declares⟩
    cases statement with
    | declare localVariable => cases declares; exact member
    | _ => cases declares
  · exact fun member => ⟨.declare declared, member, rfl⟩

end Function

namespace Program

variable {program : Program}

/-! ## Calls and uses -/

/-- A function of the program calls a name. -/
def Calls (program : Program) (caller callee : String) : Prop :=
  ∃ function ∈ program.functions, function.name = caller ∧ .call callee ∈ function.body

/-- A function of the program reads a variable of the module. -/
def Uses (program : Program) (name variableName : String) : Prop :=
  ∃ function ∈ program.functions, function.name = name ∧ function.ReadsName variableName

/-- A function leads to a variable: it reads the variable, or something does to which a chain of
calls leads from there. -/
def LeadsTo (program : Program) (name variableName : String) : Prop :=
  ∃ user, Relation.ReflTransGen program.Calls name user ∧ program.Uses user variableName

/-- Where more calls and uses are made, functions lead to more variables. -/
theorem leadsTo_mono {other : Program} (calls : program.Calls ≤ other.Calls)
    (uses : program.Uses ≤ other.Uses) : program.LeadsTo ≤ other.LeadsTo := by
  rintro name variableName ⟨user, chain, use⟩
  exact ⟨user, Relation.ReflTransGen.mono calls _ _ chain, uses user variableName use⟩

/-- Where more calls are made, calls lead back at least from where they did. -/
theorem acyclic_anti {other : Program} (calls : program.Calls ≤ other.Calls) {name : String}
    (acyclic : ¬Relation.TransGen other.Calls name name) :
    ¬Relation.TransGen program.Calls name name :=
  mt (Relation.TransGen.mono calls name name) acyclic

/-- The call graph of a program holds its calls. -/
theorem calls_callGraph (program : Program) : program.callGraph.Calls = program.Calls := by
  funext caller callee
  rw [CallGraph.Calls, callGraph, CallGraph.mem_calls_ofNodes]
  simp only [List.mem_map, exists_exists_and_eq_and, Function.node, Function.mem_calls, Calls,
    @eq_comm _ caller]

/-- The call graph of a program holds its uses. -/
theorem mem_uses_callGraph {name variableName : String} :
    (name, variableName) ∈ program.callGraph.uses ↔ program.Uses name variableName := by
  rw [callGraph, CallGraph.mem_uses_ofNodes]
  simp only [List.mem_map, exists_exists_and_eq_and, Function.node, Function.mem_uses, Uses,
    @eq_comm _ name]

/-- The search in the call graph lists the variables to which a function leads. -/
theorem mem_reachableVariables_callGraph {name variableName : String} :
    variableName ∈ program.callGraph.reachableVariables name ↔
      program.LeadsTo name variableName := by
  simp only [CallGraph.mem_reachableVariables, CallGraph.reaches_iff_reflTransGen, calls_callGraph,
    mem_uses_callGraph, LeadsTo]

/-- The interface of an entry point consists of the resources to which it leads. -/
theorem inInterface_iff_leadsTo {entryPoint : EntryPoint} {resource : Resource} :
    program.InInterface entryPoint resource ↔
      resource ∈ program.resources ∧ program.LeadsTo entryPoint.name resource.name := by
  rw [inInterface_iff, mem_reachableVariables_callGraph]

/-- What holds of every name that a body reads holds of every variable that is used. -/
theorem forall_reads_iff {holds : String → Prop} :
    (∀ function ∈ program.functions, ∀ name, function.ReadsName name → holds name) ↔
      ∀ user name, program.Uses user name → holds name := by
  constructor
  · rintro reads user name ⟨function, member, rfl, read⟩
    exact reads function member name read
  · exact fun uses function member name read =>
      uses function.name name ⟨function, member, rfl, read⟩

/-- What holds of every name that a body calls holds of every callee. -/
theorem forall_calls_iff {holds : String → Prop} :
    (∀ function ∈ program.functions, ∀ callee, .call callee ∈ function.body → holds callee) ↔
      ∀ caller callee, program.Calls caller callee → holds callee := by
  constructor
  · rintro calls caller callee ⟨function, member, rfl, call⟩
    exact calls function member callee call
  · exact fun calls function member callee call =>
      calls function.name callee ⟨function, member, rfl, call⟩

/-- Calls lead nowhere back from any function exactly when they do not from any name, as only
functions call something. -/
theorem acyclic_iff :
    (∀ function ∈ program.functions,
        ¬Relation.TransGen program.Calls function.name function.name) ↔
      ∀ name, ¬Relation.TransGen program.Calls name name := by
  constructor
  · intro acyclic name cycle
    obtain ⟨_, ⟨function, member, rfl, -⟩, -⟩ := Relation.TransGen.head'_iff.mp cycle
    exact acyclic function member cycle
  · exact fun acyclic function _ => acyclic function.name

/-- Where nothing is called, calls lead nowhere back. -/
theorem acyclic_of_no_calls (none : ∀ caller callee, ¬program.Calls caller callee) (name : String) :
    ¬Relation.TransGen program.Calls name name := by
  intro cycle
  obtain ⟨callee, call, -⟩ := Relation.TransGen.head'_iff.mp cycle
  exact none name callee call

section Distinct

variable (distinct : program.declaredNames.Nodup)

include distinct

/-- Where names are distinct, functions of one name are the same. -/
theorem eq_of_name_eq {function other : Function} (member : function ∈ program.functions)
    (isOther : other ∈ program.functions) (same : other.name = function.name) :
    other = function :=
  List.inj_on_of_nodup_map (List.nodup_append.mp distinct).2.1 isOther member same

/-- Where names are distinct, a function calls by its name what its body calls. -/
theorem calls_iff_of_mem {function : Function} (member : function ∈ program.functions)
    {callee : String} : program.Calls function.name callee ↔ .call callee ∈ function.body := by
  constructor
  · rintro ⟨other, isOther, same, called⟩
    rwa [← eq_of_name_eq distinct member isOther same]
  · exact fun called => ⟨function, member, rfl, called⟩

/-- Where names are distinct, a function uses by its name what its body reads. -/
theorem uses_iff_of_mem {function : Function} (member : function ∈ program.functions)
    {name : String} : program.Uses function.name name ↔ function.ReadsName name := by
  constructor
  · rintro ⟨other, isOther, same, reads⟩
    rwa [← eq_of_name_eq distinct member isOther same]
  · exact fun reads => ⟨function, member, rfl, reads⟩

/-- Where names are distinct, no entry point has the name of a helper. -/
theorem ne_of_nodup_declaredNames {helper : Function} (isHelper : helper ∈ program.helpers)
    {entryPoint : EntryPoint} (isEntryPoint : entryPoint ∈ program.entryPoints) :
    entryPoint.name ≠ helper.name := by
  rw [declaredNames, functions, List.map_append] at distinct
  have apart := (List.nodup_append.mp (List.nodup_append.mp distinct).2.1).2.2
  refine (apart helper.name (List.mem_map_of_mem isHelper) entryPoint.name ?_).symm
  exact List.mem_map_of_mem (List.mem_map_of_mem isEntryPoint)

end Distinct

/-! ## Conditions -/

end Program

/-- Two resources are bound at different places: their groups or their binding numbers do not amount
to the same. -/
def Resource.IsApartFrom (first second : Resource) : Prop :=
  (first.group.map Index.normal, first.binding.map Index.normal) ≠
    (second.group.map Index.normal, second.binding.map Index.normal)

instance (first second : Resource) : Decidable (first.IsApartFrom second) :=
  inferInstanceAs (Decidable (_ ≠ _))

namespace Program

variable {program : Program}

/-- The conditions of validity. -/
structure IsValid (program : Program) : Prop where
  /-- The names of resources, plain variables, helpers and entry points are pairwise distinct. -/
  names_nodup : program.declaredNames.Nodup
  /-- What a body reads, other than its earlier locals, is a resource or a plain variable. -/
  reads : ∀ function ∈ program.functions, ∀ name, function.ReadsName name →
    (∃ resource ∈ program.resources, resource.name = name) ∨
      ∃ declared ∈ program.globals, declared.name = name
  /-- What a body calls is a helper, and never an entry point. -/
  calls : ∀ function ∈ program.functions, ∀ callee, .call callee ∈ function.body →
    (∃ helper ∈ program.helpers, helper.name = callee) ∧
      ∀ entryPoint ∈ program.entryPoints, entryPoint.name ≠ callee
  /-- No chain of one or more calls leads from a function back to it. -/
  acyclic : ∀ function ∈ program.functions,
    ¬Relation.TransGen program.Calls function.name function.name
  /-- A resource has a group and a binding number. -/
  resources : ∀ resource ∈ program.resources,
    resource.group.isSome = true ∧ resource.binding.isSome = true
  /-- A plain variable has neither. -/
  globals : ∀ declared ∈ program.globals, declared.group = none ∧ declared.binding = none
  /-- A local variable has neither, lies in the address space of functions and holds no handle. -/
  locals : ∀ function ∈ program.functions, ∀ declared, .declare declared ∈ function.body →
    declared.KeepsRules
  /-- Differently named resources to which one entry point leads are bound at different places. -/
  places : ∀ entryPoint ∈ program.entryPoints, ∀ first ∈ program.resources,
    ∀ second ∈ program.resources, first.name ≠ second.name →
      program.LeadsTo entryPoint.name first.name → program.LeadsTo entryPoint.name second.name →
        first.IsApartFrom second

/-- A name of a variable is that of a resource or of a plain variable. -/
theorem mem_variableNames {name : String} :
    name ∈ program.variableNames ↔
      (∃ resource ∈ program.resources, resource.name = name) ∨
        ∃ declared ∈ program.globals, declared.name = name := by
  rw [variableNames, List.mem_append, List.mem_map, List.mem_map]

/-- The conditions in terms of names and of the calls and uses between them. -/
theorem isValid_iff :
    program.IsValid ↔
      program.declaredNames.Nodup ∧
      (∀ user name, program.Uses user name → name ∈ program.variableNames) ∧
      (∀ caller callee, program.Calls caller callee → callee ∈ program.helpers.map (·.name)) ∧
      (∀ name, ¬Relation.TransGen program.Calls name name) ∧
      (∀ resource ∈ program.resources,
        resource.group.isSome = true ∧ resource.binding.isSome = true) ∧
      (∀ declared ∈ program.globals, declared.group = none ∧ declared.binding = none) ∧
      (∀ function ∈ program.functions, ∀ declared, .declare declared ∈ function.body →
        declared.KeepsRules) ∧
      ∀ name ∈ program.entryPoints.map (·.name), ∀ first ∈ program.resources,
        ∀ second ∈ program.resources, first.name ≠ second.name → program.LeadsTo name first.name →
          program.LeadsTo name second.name → first.IsApartFrom second := by
  rw [← forall_reads_iff, ← forall_calls_iff, ← acyclic_iff, List.forall_mem_map]
  simp only [mem_variableNames]
  constructor
  · intro valid
    refine ⟨valid.names_nodup, valid.reads, fun function member callee call => ?_, valid.acyclic,
      valid.resources, valid.globals, valid.locals, valid.places⟩
    exact List.mem_map.mpr (valid.calls function member callee call).1
  · rintro ⟨distinct, reads, calls, acyclic, resources, globals, locals, places⟩
    refine ⟨distinct, reads, fun function member callee call => ?_, acyclic, resources, globals,
      locals, places⟩
    obtain ⟨helper, isHelper, rfl⟩ := List.mem_map.mp (calls function member callee call)
    exact ⟨⟨helper, isHelper, rfl⟩, fun _ => ne_of_nodup_declaredNames distinct isHelper⟩

/-- Two resources with both attributes are apart exactly when they are not at points that amount to
the same. -/
theorem isApartFrom_iff {first second : Resource}
    (hasFirst : first.group.isSome = true ∧ first.binding.isSome = true)
    (hasSecond : second.group.isSome = true ∧ second.binding.isSome = true) :
    first.IsApartFrom second ↔
      ∀ firstPoint ∈ first.point?, ∀ secondPoint ∈ second.point?,
        firstPoint.normal ≠ secondPoint.normal := by
  obtain ⟨⟨group, isGroup⟩, binding, isBinding⟩ :=
    hasFirst.imp Option.isSome_iff_exists.mp Option.isSome_iff_exists.mp
  obtain ⟨⟨group', isGroup'⟩, binding', isBinding'⟩ :=
    hasSecond.imp Option.isSome_iff_exists.mp Option.isSome_iff_exists.mp
  simp [Resource.IsApartFrom, Resource.point?, BindingPoint.normal, isGroup, isBinding, isGroup',
    isBinding']

/-- The rules that the verdict checks are the conditions of validity. -/
theorem keepsRules_iff_isValid : program.KeepsRules ↔ program.IsValid := by
  rw [isValid_iff, ← forall_reads_iff, ← forall_calls_iff, ← acyclic_iff, ← calls_callGraph,
    List.forall_mem_map]
  simp only [← Function.mem_uses, ← Function.mem_calls, ← Function.mem_locals]
  constructor
  · intro rules
    refine ⟨rules.names_nodup, rules.uses, rules.calls, rules.acyclic, rules.resources,
      rules.globals, rules.locals, ?_⟩
    intro entryPoint member first isFirst second isSecond different leads leads'
    rw [isApartFrom_iff (rules.resources first isFirst) (rules.resources second isSecond)]
    intro firstPoint hasFirst secondPoint hasSecond same
    exact different (rules.places entryPoint member first second
      (inInterface_iff_leadsTo.mpr ⟨isFirst, leads⟩)
      (inInterface_iff_leadsTo.mpr ⟨isSecond, leads'⟩) firstPoint hasFirst secondPoint hasSecond
      same)
  · rintro ⟨distinct, uses, calls, acyclic, resources, globals, locals, places⟩
    refine ⟨distinct, uses, calls, acyclic, resources, globals, locals, ?_⟩
    intro entryPoint member first second inFirst inSecond firstPoint hasFirst secondPoint hasSecond
      same
    obtain ⟨isFirst, leads⟩ := inInterface_iff_leadsTo.mp inFirst
    obtain ⟨isSecond, leads'⟩ := inInterface_iff_leadsTo.mp inSecond
    by_contra different
    have apart := places entryPoint member first isFirst second isSecond different leads leads'
    rw [isApartFrom_iff (resources first isFirst) (resources second isSecond)] at apart
    exact apart firstPoint hasFirst secondPoint hasSecond same

/-- The verdict on a program accepts exactly when the program is valid. -/
theorem accepted_verdict_iff_isValid : program.verdict.accepted = true ↔ program.IsValid := by
  rw [Verdict.accepted_iff, reasons_verdict_eq_nil_iff, keepsRules_iff_isValid]

end Program

end BindingSuite
