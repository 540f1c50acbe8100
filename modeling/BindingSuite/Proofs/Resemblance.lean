import BindingSuite.Proofs.BreachPlacement
import BindingSuite.Proofs.Diagnostics
import BindingSuite.Proofs.Lists

/-! # Modules that look alike to the rules

The rules look at little of a module: of attributes at which there are and at the arguments of the
first group and binding number, of types at whether they are those of textures and samplers.

* `Module.Resembles` says that two modules have all this in common, declaration by declaration;
* `Resembles.breaches_eq` says that such modules break the same rules in the same order, by one
  lemma for each function of the checker. `Breach.outline` sets aside where a breach is and how a
  type is written;
* `accepted_eq_of_outlines` concludes for the answer. -/

namespace BindingSuite.Wgsl

/-! ## Outlines -/

/-- A breach without the position of its word and without the text of a type. -/
def Breach.outline : Breach → Breach
  | localHandle name _ => localHandle name.unplaced ""
  | breach => breach.unplaced

/-- Positions are no part of an outline. -/
@[simp] theorem Breach.outline_unplaced (breach : Breach) :
    breach.unplaced.outline = breach.outline := by
  cases breach <;> rfl

/-- Breaches without positions have the outlines of those with them. -/
theorem map_outline_unplaced (breaches : List Breach) :
    (breaches.map Breach.unplaced).map Breach.outline = breaches.map Breach.outline := by
  rw [List.map_map]
  exact List.map_congr_left fun breach _ => breach.outline_unplaced

/-! ## Attributes that count -/

/-- The arguments of the first attribute of a given name. -/
def firstArguments? (attributes : List Attribute) (name : String) : Option (List Argument) :=
  (findAttribute? attributes name).map Attribute.arguments

/-- The group and the binding number that count, of those that a variable carries. -/
def Variable.leaders (declared : Variable) : Option (List Argument) × Option (List Argument) :=
  (firstArguments? declared.attributes "group", firstArguments? declared.attributes "binding")

/-- The index that counts is that of the arguments that count. -/
theorem index?_of_firstArguments? {attributes others : List Attribute} {name : String}
    (same : firstArguments? attributes name = firstArguments? others name) :
    index? attributes name = index? others name := by
  -- An index depends on the arguments of its attribute only.
  have byArguments (list : List Attribute) : index? list name =
      (firstArguments? list name).bind fun arguments =>
        (Attribute.mk ⟨"", .start⟩ arguments).index? := by
    rw [index?, firstArguments?, Option.bind_map]
    rfl
  rw [byArguments, byArguments, same]

/-- The breach by an attribute depends on the arguments that count, its position aside. -/
theorem indexBreaches_of_firstArguments? {attributes others : List Attribute} {name : String}
    (same : firstArguments? attributes name = firstArguments? others name) :
    (indexBreaches attributes name).map Breach.outline =
      (indexBreaches others name).map Breach.outline := by
  have byArguments (list : List Attribute) : (indexBreaches list name).map Breach.outline =
      match firstArguments? list name with
      | some arguments =>
        if (Attribute.mk ⟨name, .start⟩ arguments).index?.isNone then
          [.malformedIndex ⟨name, .start⟩]
        else []
      | none => [] := by
    unfold indexBreaches firstArguments?
    cases found : findAttribute? list name with
    | none => rfl
    | some given =>
      have named : given.name.text = name := by simpa using List.find?_some found
      change List.map _ (if given.index?.isNone then _ else _) =
        if given.index?.isNone then _ else _
      split
      · simp [Breach.outline, Breach.unplaced, Word.unplaced, named]
      · rfl
  rw [byArguments, byArguments, same]

/-! ## Resemblance -/

/-- Two variables look alike in what the rules for local variables look at. -/
structure Variable.Resembles (declared other : Variable) : Prop where
  /-- There are attributes of the same names. -/
  attributes : ∀ name, hasAttribute declared.attributes name = hasAttribute other.attributes name
  /-- The template is the same. -/
  template : declared.template = other.template
  /-- The name is the same. -/
  name : declared.name = other.name
  /-- Both types are of textures or samplers, or none is. -/
  handle : isHandleType declared.typeName = isHandleType other.typeName

/-- Two statements look alike: they declare variables that do, or are the same. -/
inductive Statement.Resembles : Statement → Statement → Prop where
  /-- The declared variables look alike. -/
  | declare {declared other : Variable} (same : declared.Resembles other) :
    Resembles (.declare declared) (.declare other)
  /-- The statements are the same. -/
  | refl (statement : Statement) : Resembles statement statement

/-- Two functions look alike. -/
structure Function.Resembles (function other : Function) : Prop where
  /-- There are attributes of the same names. -/
  attributes : ∀ name, hasAttribute function.attributes name = hasAttribute other.attributes name
  /-- The stage is the same. -/
  stage : function.stage? = other.stage?
  /-- The name is the same. -/
  name : function.name = other.name
  /-- There are attributes of the same names on what the functions return. -/
  result : Option.Rel (fun result other => ∀ name,
    hasAttribute result.attributes name = hasAttribute other.attributes name)
      function.result other.result
  /-- The statements look alike, each in its place. -/
  body : List.Forall₂ Statement.Resembles function.body other.body

/-- Two modules look alike. -/
structure Module.Resembles (module other : Module) : Prop where
  /-- The variables look alike, each in its place, and the same groups and binding numbers count. -/
  globals : List.Forall₂ (fun declared otherDeclared => declared.Resembles otherDeclared ∧
    declared.leaders = otherDeclared.leaders) module.globals other.globals
  /-- The functions look alike, each in its place. -/
  functions : List.Forall₂ Function.Resembles module.functions other.functions

/-! ## Variables -/

namespace Variable.Resembles

variable {declared other : Variable} (same : declared.Resembles other)

include same

/-- Variables that look alike lie in the same address space. -/
theorem addressSpace?_eq : declared.addressSpace? = other.addressSpace? := by
  rw [addressSpace?, addressSpace?, same.template]

/-- Variables that look alike bind resources together. -/
theorem isResource_eq : declared.isResource = other.isResource := by
  rw [isResource, isResource, same.addressSpace?_eq, same.handle]

/-- Variables of a function that look alike have breaches of the same outlines. -/
theorem localBreaches_eq :
    (localBreaches declared).map Breach.outline = (localBreaches other).map Breach.outline := by
  simp only [localBreaches, List.map_append, same.attributes, same.addressSpace?_eq, same.handle,
    same.name]
  congr 1
  split <;> rfl

/-- Variables of the module that look alike have breaches of the same outlines, if the same groups
and binding numbers count. -/
theorem globalBreaches_eq (leaders : declared.leaders = other.leaders) :
    (globalBreaches declared).map Breach.outline = (globalBreaches other).map Breach.outline := by
  obtain ⟨group, binding⟩ := Prod.mk.inj leaders
  have resource : resourceBreaches declared = resourceBreaches other := by
    rw [resourceBreaches, resourceBreaches, same.attributes, same.attributes, same.name]
  have plain : plainBreaches declared = plainBreaches other := by
    rw [plainBreaches, plainBreaches, same.attributes, same.attributes, same.addressSpace?_eq,
      same.name]
  rw [globalBreaches, globalBreaches, List.map_append, List.map_append, List.map_append,
    List.map_append, indexBreaches_of_firstArguments? group,
    indexBreaches_of_firstArguments? binding, same.isResource_eq, resource, plain]

end Variable.Resembles

/-! ## Bodies -/

namespace Statement.Resembles

variable {statement other : Statement} (same : statement.Resembles other)

include same

/-- Statements that look alike call the same function. -/
theorem callee?_eq : statement.callee? = other.callee? := by
  cases same <;> rfl

/-- Statements that look alike read the same variable. -/
theorem usedName?_eq : statement.usedName? = other.usedName? := by
  cases same <;> rfl

/-- Statements that look alike declare the same name. -/
theorem declaredNames_eq : statement.declaredNames = other.declaredNames := by
  cases same with
  | declare alike => rw [declaredNames, declaredNames, alike.name]
  | refl => rfl

end Statement.Resembles

/-- Statements that look alike use the same names. -/
theorem Statement.usedNames_of_resembles {body others : List Statement}
    (same : List.Forall₂ Resembles body others) (locals : List String) :
    usedNames locals body = usedNames locals others := by
  induction same generalizing locals with
  | nil => rfl
  | cons first _ ih => rw [usedNames, usedNames, first.usedName?_eq, first.declaredNames_eq, ih]

namespace Function.Resembles

variable {function other : Function} (same : function.Resembles other)

include same

/-- Functions that look alike are the same in the call graph. -/
theorem node_eq : function.node = other.node := by
  have calls : function.calls = other.calls := by
    have byCallees (body : List Statement) :
        body.filterMap Statement.callee? = (body.map Statement.callee?).filterMap id := by
      rw [List.filterMap_map, Function.id_comp]
    rw [calls, calls, byCallees, byCallees,
      map_eq_map_of_forall₂ (fun _ _ statement => statement.callee?_eq) same.body]
  rw [node, node, calls, uses, uses, Statement.usedNames_of_resembles same.body, same.name]

/-- Entry points that look alike lack the same of what their stage asks for. -/
theorem stageBreaches_eq : Module.stageBreaches function = Module.stageBreaches other := by
  have result : hasAttribute ((function.result.map Result.attributes).getD []) "builtin" =
      hasAttribute ((other.result.map Result.attributes).getD []) "builtin" := by
    match function.result, other.result, same.result with
    | none, none, .none => rfl
    | some _, some _, .some attributes => exact attributes "builtin"
  rw [Module.stageBreaches, Module.stageBreaches, same.stage, same.name, result, same.attributes]

end Function.Resembles

/-! ## Modules -/

namespace Module.Resembles

variable {module other : Module} (same : module.Resembles other)

include same

/-- Modules that look alike declare the same names. -/
theorem declaredNames_eq : module.declaredNames = other.declaredNames := by
  rw [declaredNames, declaredNames,
    map_eq_map_of_forall₂ (fun _ _ pair => pair.1.name) same.globals,
    map_eq_map_of_forall₂ (fun _ _ function => function.name) same.functions]

/-- Modules that look alike have the same call graph. -/
theorem callGraph_eq : module.callGraph = other.callGraph := by
  rw [callGraph, callGraph,
    map_eq_map_of_forall₂ (fun _ _ function => function.node_eq) same.functions]

/-- In modules that look alike, a name stands for functions of the same stage. -/
theorem stage?_function?_eq (name : String) :
    (module.function? name).map Function.stage? = (other.function? name).map Function.stage? := by
  let key (function : Function) : String × Option Stage := (function.name.text, function.stage?)
  have keys : module.functions.map key = other.functions.map key :=
    map_eq_map_of_forall₂
      (fun _ _ function => Prod.ext (congrArg Word.text function.name) function.stage)
      same.functions
  have byKeys (module : Module) : (module.function? name).map Function.stage? =
      ((module.functions.map key).find? fun key => key.1 = name).map Prod.snd := by
    rw [List.find?_map, Option.map_map]
    rfl
  rw [byKeys, byKeys, keys]

/-- Modules that look alike have the same breaches by a call. -/
theorem callBreaches_eq (function callee : String) :
    module.callBreaches function callee = other.callBreaches function callee := by
  have byStage (module : Module) : module.callBreaches function callee =
      match (module.function? callee).map Function.stage? with
      | none => [.unresolvedCall callee function]
      | some stage? => if stage?.isSome then [.entryPointCall callee function] else [] := by
    rw [callBreaches]
    cases module.function? callee <;> rfl
  rw [byStage, byStage, same.stage?_function?_eq]

/-- Modules that look alike have the same breaches by an expression. -/
theorem expressionBreaches_eq (function : String) (locals : List String) (value : Expression) :
    module.expressionBreaches function locals value =
      other.expressionBreaches function locals value := by
  cases value with
  | call name => rw [expressionBreaches, expressionBreaches, same.callBreaches_eq]
  | reference name =>
    have names : module.globals.map (·.name.text) = other.globals.map (·.name.text) :=
      map_eq_map_of_forall₂ (fun _ _ pair => congrArg Word.text pair.1.name) same.globals
    rw [expressionBreaches, expressionBreaches, names]
  | number value => rfl

/-- In modules that look alike, statements that do have breaches of the same outlines. -/
theorem statementBreaches_eq (function : String) (locals : List String)
    {statement otherStatement : Statement} (alike : statement.Resembles otherStatement) :
    (module.statementBreaches function locals statement).map Breach.outline =
      (other.statementBreaches function locals otherStatement).map Breach.outline := by
  cases alike with
  | declare alike => exact alike.localBreaches_eq
  | refl =>
    cases statement with
    | drop value => exact congrArg _ (same.expressionBreaches_eq function locals value)
    | call name => exact congrArg _ (same.callBreaches_eq function name.text)
    | declare declared => rfl
    | leave value =>
      rw [statementBreaches, statementBreaches,
        funext (same.expressionBreaches_eq function locals)]

/-- In modules that look alike, bodies that do have breaches of the same outlines. -/
theorem bodyBreaches_eq (function : String) (locals : List String)
    {body otherBody : List Statement}
    (alike : List.Forall₂ Statement.Resembles body otherBody) :
    (module.bodyBreaches function locals body).map Breach.outline =
      (other.bodyBreaches function locals otherBody).map Breach.outline := by
  induction alike generalizing locals with
  | nil => rfl
  | cons first _ ih =>
    rw [bodyBreaches, bodyBreaches, List.map_append, List.map_append,
      same.statementBreaches_eq function locals first, first.declaredNames_eq, ih]

/-- In modules that look alike, functions that do have breaches of the same outlines. -/
theorem functionBreaches_eq {function otherFunction : Function}
    (alike : function.Resembles otherFunction) :
    (module.functionBreaches function).map Breach.outline =
      (other.functionBreaches otherFunction).map Breach.outline := by
  rw [functionBreaches, functionBreaches, List.map_append, List.map_append, same.callGraph_eq,
    alike.name, same.bodyBreaches_eq otherFunction.name.text [] alike.body]

/-- Entry points of modules that look alike have the same interfaces. -/
theorem interfaceOf_eq (entryPoint : String) :
    module.interfaceOf entryPoint = other.interfaceOf entryPoint := by
  have byEntries (module : Module) : module.interfaceOf entryPoint =
      (module.globals.map (module.interfaceEntry? entryPoint)).filterMap id := by
    rw [List.filterMap_map]
    rfl
  have entries : module.globals.map (module.interfaceEntry? entryPoint) =
      other.globals.map (other.interfaceEntry? entryPoint) := by
    refine map_eq_map_of_forall₂ (fun first second pair => ?_) same.globals
    obtain ⟨group, binding⟩ := Prod.mk.inj pair.2
    rw [Module.interfaceEntry?, Module.interfaceEntry?, same.callGraph_eq, pair.1.name,
      pair.1.isResource_eq, index?_of_firstArguments? group, index?_of_firstArguments? binding]
  rw [byEntries, byEntries, entries]

/-- Modules that look alike have entry points that do, each in its place. -/
theorem entryPoints : List.Forall₂ Function.Resembles module.entryPoints other.entryPoints := by
  refine List.rel_filter (fun function otherFunction alike => ?_) same.functions
  simp only [alike.stage]

/-- Modules that look alike break the same rules in the same order. -/
theorem breaches_eq :
    module.breaches.map Breach.outline = other.breaches.map Breach.outline := by
  have globals :
      (module.globals.flatMap globalBreaches).map Breach.outline =
        (other.globals.flatMap globalBreaches).map Breach.outline := by
    rw [List.map_flatMap, List.map_flatMap, List.flatMap_def, List.flatMap_def,
      map_eq_map_of_forall₂ (fun _ _ pair => pair.1.globalBreaches_eq pair.2) same.globals]
  have functions :
      (module.functions.flatMap module.functionBreaches).map Breach.outline =
        (other.functions.flatMap other.functionBreaches).map Breach.outline := by
    rw [List.map_flatMap, List.map_flatMap, List.flatMap_def, List.flatMap_def,
      map_eq_map_of_forall₂ (fun _ _ alike => same.functionBreaches_eq alike) same.functions]
  have entryPoints :
      module.entryPoints.flatMap module.entryPointBreaches =
        other.entryPoints.flatMap other.entryPointBreaches := by
    rw [List.flatMap_def, List.flatMap_def,
      map_eq_map_of_forall₂ (fun function otherFunction alike => ?_) same.entryPoints]
    rw [entryPointBreaches, entryPointBreaches, alike.stageBreaches_eq, alike.name,
      same.interfaceOf_eq]
  simp only [breaches, List.map_append, same.declaredNames_eq, globals, functions, entryPoints]

end Module.Resembles

/-- Modules whose breaches have the same outlines are accepted together. -/
theorem Module.accepted_eq_of_outlines {module other : Module}
    (same : module.breaches.map Breach.outline = other.breaches.map Breach.outline) :
    module.answer.accepted = other.answer.accepted := by
  rw [Bool.eq_iff_iff, accepted_answer_iff, accepted_answer_iff, ← List.map_eq_nil_iff, same,
    List.map_eq_nil_iff]

end BindingSuite.Wgsl
