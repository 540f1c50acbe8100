import BindingSuite.Proofs.Usage

/-! # Runs of requests

What becomes of a program without functions when it is asked for entry points, one after the other.

* A `Request` names an entry point, its stage, its resources and the usage; `Program.afterRequests`
  is the program after a run of requests, of which those of an unknown usage fail and change
  nothing;
* `afterRequest_eq` is the step and `afterRequests_eq` the run: helpers stand in the order in which
  they were first needed, entry points in the order of the requests;
* `Program.IsInitial` and `Program.Admits` are the conditions at the start of a run;
* `leadsTo_afterRequests_iff` says that every entry point leads to its own resources, although
  requests share helpers;
* `outcome_afterRequests` collects what a run leaves, up to the verdict. -/

namespace BindingSuite

/-- A request for an entry point. -/
structure Request where
  /-- The name of the entry point. -/
  name : String
  /-- The name of its stage. -/
  stage : String
  /-- The names of the resources that it uses. -/
  resources : List String
  /-- The name of the way in which it uses them. -/
  usage : String
  deriving DecidableEq

namespace Request

/-- The usage that a request names, if there is one. -/
def usage? (request : Request) : Option Usage :=
  (Usage.ofName request.usage).toOption

/-- Whether a request names a usage. -/
def isKnown (request : Request) : Bool :=
  request.usage?.isSome

/-- The entry point that a request adds, unless its usage is unknown. -/
def entryPoint? (request : Request) : Option EntryPoint :=
  request.usage?.map fun usage =>
    (entryPointFor usage request.name request.stage request.resources).1

/-- The resources for which a request needs helpers. -/
def helped (request : Request) : List String :=
  match request.usage? with
  | some usage => usage.helped request.resources
  | none => []

variable {request : Request} {usage : Usage}

/-- A request with a usage is known. -/
theorem isKnown_of_usage? (isUsage : request.usage? = some usage) : request.isKnown = true := by
  rw [isKnown, isUsage, Option.isSome_some]

/-- The usage of a known request is found. -/
theorem ofName_of_usage? (isUsage : request.usage? = some usage) :
    Usage.ofName request.usage = .ok usage := by
  rw [usage?] at isUsage
  cases found : Usage.ofName request.usage with
  | error unknown => rw [found] at isUsage; cases isUsage
  | ok given =>
    rw [found] at isUsage
    cases isUsage
    rfl

/-- The usage of an unknown request is given back. -/
theorem ofName_of_not_isKnown (unknown : request.isKnown = false) :
    Usage.ofName request.usage = .error ⟨request.usage⟩ := by
  rw [isKnown, usage?] at unknown
  cases found : Usage.all.find? fun usage => usage.name = request.usage with
  | none => rw [Usage.ofName, found]
  | some usage => rw [Usage.ofName, found] at unknown; cases unknown

/-- A request that needs helpers is known, and it needs them for its resources. -/
theorem isKnown_of_mem_helped {resource : String} (helped : resource ∈ request.helped) :
    request.isKnown = true ∧ resource ∈ request.resources := by
  rw [Request.helped] at helped
  rw [isKnown]
  cases found : request.usage? with
  | none => rw [found] at helped; cases helped
  | some usage =>
    rw [found] at helped
    cases usage with
    | direct => cases helped
    | transitive => exact ⟨rfl, helped⟩

/-- The entry points of requests have the names that the known requests give. -/
theorem names_filterMap_entryPoint? (requests : List Request) :
    (requests.filterMap entryPoint?).map (·.name) =
      (requests.filter (·.isKnown)).map (·.name) := by
  induction requests with
  | nil => rfl
  | cons first rest ih =>
    rw [List.filterMap_cons, List.filter_cons, entryPoint?, isKnown]
    cases first.usage? with
    | none => exact ih
    | some usage => simp [ih]

end Request

namespace Program

/-! ## Step and run -/

/-- The program after a request, which changes nothing when it fails. -/
def afterRequest (program : Program) (request : Request) : Program :=
  match program.withEntryPoint request.name request.stage request.resources request.usage with
  | .ok next => next
  | .error _ => program

/-- The program after a run of requests. -/
def afterRequests (program : Program) (requests : List Request) : Program :=
  requests.foldl afterRequest program

variable {program : Program} {request : Request} {requests : List Request}

/-- A request of a known usage succeeds. -/
theorem withEntryPoint_of_usage? {usage : Usage} (isUsage : request.usage? = some usage) :
    program.withEntryPoint request.name request.stage request.resources request.usage =
      .ok (program.withEntryPointUsing usage request.name request.stage request.resources) := by
  rw [withEntryPoint, Request.ofName_of_usage? isUsage]
  rfl

/-- A known request makes the program that comes after it. -/
theorem withEntryPoint_of_isKnown (isKnown : request.isKnown = true) :
    program.withEntryPoint request.name request.stage request.resources request.usage =
      .ok (program.afterRequest request) := by
  obtain ⟨usage, found⟩ := Option.isSome_iff_exists.mp isKnown
  rw [afterRequest, withEntryPoint_of_usage? found]

/-- A request of an unknown usage fails with this usage. -/
theorem withEntryPoint_of_not_isKnown (unknown : request.isKnown = false) :
    program.withEntryPoint request.name request.stage request.resources request.usage =
      .error ⟨request.usage⟩ := by
  rw [withEntryPoint, Request.ofName_of_not_isKnown unknown]
  rfl

/-- A request of an unknown usage changes nothing. -/
theorem afterRequest_of_not_isKnown (unknown : request.isKnown = false) :
    program.afterRequest request = program := by
  rw [afterRequest, withEntryPoint_of_not_isKnown unknown]

/-- The last request of a run is made of the program after those before it. -/
theorem afterRequests_concat (front : List Request) :
    program.afterRequests (front ++ [request]) =
      (program.afterRequests front).afterRequest request := by
  rw [afterRequests, List.foldl_concat, afterRequests]

/-- In a program whose helpers are those of some resources, a request adds the helpers that it needs
beyond them, and its entry point. -/
theorem afterRequest_eq {known : List String}
    (isHelpers : program.helpers = known.eraseDups.map helperFor) :
    program.afterRequest request =
      { program with
        helpers := (known ++ request.helped).eraseDups.map helperFor
        entryPoints := program.entryPoints ++ request.entryPoint?.toList } := by
  cases found : request.usage? with
  | none =>
    rw [afterRequest_of_not_isKnown (by rw [Request.isKnown, found]; rfl), Request.helped,
      Request.entryPoint?, found]
    simp [← isHelpers]
  | some usage =>
    rw [afterRequest, withEntryPoint_of_usage? found, Request.helped, Request.entryPoint?, found]
    exact @withEntryPointUsing_eq program usage _ _ _ [] known isHelpers fun _ _ => List.not_mem_nil

/-- A run of requests adds the helpers that the requests need, each where it is first needed, and
the entry points of the requests. -/
theorem afterRequests_eq {known : List String}
    (isHelpers : program.helpers = known.eraseDups.map helperFor) :
    program.afterRequests requests =
      { program with
        helpers := (known ++ requests.flatMap Request.helped).eraseDups.map helperFor
        entryPoints := program.entryPoints ++ requests.filterMap Request.entryPoint? } := by
  -- The first request makes a program of the same form, in which more resources are known.
  induction requests generalizing program known with
  | nil => simp [afterRequests, ← isHelpers]
  | cons first rest ih =>
    have step := @afterRequest_eq program first known isHelpers
    have run := @ih (program.afterRequest first) (known ++ first.helped) (by rw [step])
    have entryPoints : (first :: rest).filterMap Request.entryPoint? =
        first.entryPoint?.toList ++ rest.filterMap Request.entryPoint? := by
      rw [List.filterMap_cons]
      cases first.entryPoint? <;> rfl
    rw [afterRequests, List.foldl_cons, ← afterRequests, run, step, entryPoints, List.flatMap_cons,
      ← List.append_assoc, ← List.append_assoc]

/-! ## Conditions at the start -/

/-- A program with which a run starts: its variables are declared as they should be, and it has no
functions. -/
structure IsInitial (program : Program) : Prop where
  /-- The names of resources and plain variables are pairwise distinct. -/
  names_nodup : program.variableNames.Nodup
  /-- A resource has a group and a binding number. -/
  resources : ∀ resource ∈ program.resources,
    resource.group.isSome = true ∧ resource.binding.isSome = true
  /-- A plain variable has neither. -/
  globals : ∀ declared ∈ program.globals, declared.group = none ∧ declared.binding = none
  /-- There are no helpers. -/
  helpers : program.helpers = []
  /-- There are no entry points. -/
  entryPoints : program.entryPoints = []

/-- A program admits requests: the known ones among them ask for declared names, and no names of
entry points, helpers and variables clash. -/
structure Admits (program : Program) (requests : List Request) : Prop where
  /-- Known requests ask for declared names. -/
  declared : ∀ request ∈ requests, request.isKnown = true → ∀ resource ∈ request.resources,
    resource ∈ program.variableNames
  /-- The names of entry points are pairwise distinct. -/
  names_nodup : ((requests.filter (·.isKnown)).map (·.name)).Nodup
  /-- No entry point has the name of a variable. -/
  names_apart : ∀ request ∈ requests, request.isKnown = true →
    request.name ∉ program.variableNames
  /-- No helper has the name of a variable. -/
  helpers_apart : ∀ request ∈ requests, ∀ resource ∈ request.helped,
    helperNameOf resource ∉ program.variableNames
  /-- No entry point has the name of a helper. -/
  name_ne_helper : ∀ request ∈ requests, request.isKnown = true → ∀ other ∈ requests,
    ∀ resource ∈ other.helped, request.name ≠ helperNameOf resource

section Run

variable (isInitial : program.IsInitial)

include isInitial

/-- What a run makes of a program without functions. -/
theorem afterRequests_eq_of_isInitial :
    program.afterRequests requests =
      ⟨program.resources, program.globals,
        (requests.flatMap Request.helped).eraseDups.map helperFor,
        requests.filterMap Request.entryPoint?⟩ := by
  have run := @afterRequests_eq program requests [] isInitial.helpers
  rw [run, isInitial.entryPoints, List.nil_append, List.nil_append]

/-- After a run, a function is the helper of a resource that a request needs or the entry point of a
request. -/
theorem mem_functions_afterRequests {function : Function} :
    function ∈ (program.afterRequests requests).functions ↔
      ∃ request ∈ requests, (∃ resource ∈ request.helped, helperFor resource = function) ∨
        ∃ usage, request.usage? = some usage ∧
          (entryPointFor usage request.name request.stage request.resources).1.toFunction =
            function := by
  rw [afterRequests_eq_of_isInitial isInitial, functions, List.mem_append]
  simp only [List.mem_map, List.mem_eraseDups, List.mem_flatMap, List.mem_filterMap,
    Request.entryPoint?, Option.map_eq_some_iff]
  constructor
  · rintro (⟨resource, ⟨request, member, helped⟩, same⟩ | ⟨_, ⟨request, member, found⟩, same⟩)
    · exact ⟨request, member, .inl ⟨resource, helped, same⟩⟩
    · obtain ⟨usage, found, rfl⟩ := found
      exact ⟨request, member, .inr ⟨usage, found, same⟩⟩
  · rintro ⟨request, member, ⟨resource, helped, same⟩ | ⟨usage, found, same⟩⟩
    · exact .inl ⟨resource, ⟨request, member, helped⟩, same⟩
    · exact .inr ⟨_, ⟨request, member, usage, found, rfl⟩, same⟩

/-- After a run, an entry point calls the helpers that its request needs. -/
theorem calls_afterRequests_iff {caller callee : String} :
    (program.afterRequests requests).Calls caller callee ↔
      ∃ request ∈ requests, request.name = caller ∧
        ∃ resource ∈ request.helped, helperNameOf resource = callee := by
  constructor
  · rintro ⟨function, member, rfl, call⟩
    obtain ⟨request, isRequest, ⟨resource, -, rfl⟩ | ⟨usage, found, rfl⟩⟩ :=
      (mem_functions_afterRequests isInitial).mp member
    · simp at call
    · rw [call_mem_entryPointFor, List.mem_map] at call
      exact ⟨request, isRequest, name_entryPointFor.symm, by rw [Request.helped, found]; exact call⟩
  · rintro ⟨request, isRequest, rfl, resource, helped, rfl⟩
    cases found : request.usage? with
    | none => rw [Request.helped, found] at helped; cases helped
    | some usage =>
      rw [Request.helped, found] at helped
      refine ⟨_, (mem_functions_afterRequests isInitial).mpr
        ⟨request, isRequest, .inr ⟨usage, found, rfl⟩⟩, name_entryPointFor, ?_⟩
      exact call_mem_entryPointFor.mpr (List.mem_map_of_mem helped)

/-- After a run, a variable is used by its helper and by the direct entry points. -/
theorem uses_afterRequests_iff {user variableName : String} :
    (program.afterRequests requests).Uses user variableName ↔
      ∃ request ∈ requests, variableName ∈ request.helped ∧ helperNameOf variableName = user ∨
        request.usage? = some .direct ∧ variableName ∈ request.resources ∧ request.name = user := by
  constructor
  · rintro ⟨function, member, rfl, read⟩
    obtain ⟨request, isRequest, ⟨resource, helped, rfl⟩ | ⟨usage, found, rfl⟩⟩ :=
      (mem_functions_afterRequests isInitial).mp member
    · obtain rfl := readsName_helperFor.mp read
      exact ⟨request, isRequest, .inl ⟨helped, rfl⟩⟩
    · obtain ⟨rfl, used⟩ := readsName_entryPointFor.mp read
      exact ⟨request, isRequest, .inr ⟨found, used, name_entryPointFor.symm⟩⟩
  · rintro ⟨request, isRequest, ⟨helped, rfl⟩ | ⟨found, used, rfl⟩⟩
    · exact ⟨_, (mem_functions_afterRequests isInitial).mpr
        ⟨request, isRequest, .inl ⟨_, helped, rfl⟩⟩, rfl, readsName_helperFor.mpr rfl⟩
    · exact ⟨_, (mem_functions_afterRequests isInitial).mpr
        ⟨request, isRequest, .inr ⟨_, found, rfl⟩⟩, name_entryPointFor,
        readsName_entryPointFor.mpr ⟨rfl, used⟩⟩

variable (admits : program.Admits requests)

include admits

omit isInitial in
/-- Known requests of one name are the same. -/
theorem Admits.eq_of_name_eq {other : Request} (isRequest : request ∈ requests)
    (isKnown : request.isKnown = true) (isOther : other ∈ requests)
    (otherKnown : other.isKnown = true) (same : other.name = request.name) : other = request :=
  List.inj_on_of_nodup_map admits.names_nodup (List.mem_filter.mpr ⟨isOther, otherKnown⟩)
    (List.mem_filter.mpr ⟨isRequest, isKnown⟩) same

/-- After a run, helpers call nothing. -/
theorem not_calls_afterRequests_helper (leaf : String)
    (isHelper : ∃ request ∈ requests, ∃ resource ∈ request.helped, helperNameOf resource = leaf)
    (callee : String) : ¬(program.afterRequests requests).Calls leaf callee := by
  obtain ⟨other, isOther, resource, otherHelped, rfl⟩ := isHelper
  rw [calls_afterRequests_iff isInitial]
  rintro ⟨request, isRequest, same, _, helped, -⟩
  have isKnown := (Request.isKnown_of_mem_helped helped).1
  exact admits.name_ne_helper request isRequest isKnown other isOther resource otherHelped same

/-- After a run, the entry point of a request leads to the resources of the request. -/
theorem leadsTo_afterRequests_iff (isRequest : request ∈ requests)
    (isKnown : request.isKnown = true) {variableName : String} :
    (program.afterRequests requests).LeadsTo request.name variableName ↔
      variableName ∈ request.resources := by
  constructor
  · rintro ⟨user, chain, use⟩
    obtain ⟨other, isOther, use⟩ := (uses_afterRequests_iff isInitial).mp use
    rcases chain.cases_head with same | ⟨callee, call, rest⟩
    · -- The entry point uses the variable itself.
      subst same
      rcases use with ⟨helped, same⟩ | ⟨found, used, same⟩
      · exact absurd same.symm
          (admits.name_ne_helper request isRequest isKnown other isOther _ helped)
      · have otherKnown := Request.isKnown_of_usage? found
        rwa [← admits.eq_of_name_eq isRequest isKnown isOther otherKnown same]
    · -- The entry point calls a helper, and the helper uses the variable.
      obtain ⟨caller, isCaller, same, resource, callerHelped, rfl⟩ :=
        (calls_afterRequests_iff isInitial).mp call
      obtain ⟨callerKnown, asked⟩ := Request.isKnown_of_mem_helped callerHelped
      obtain rfl := admits.eq_of_name_eq isRequest isKnown isCaller callerKnown same
      obtain rfl := CallGraph.eq_of_reflTransGen_of_leaf
        (not_calls_afterRequests_helper isInitial admits)
        ⟨caller, isCaller, resource, callerHelped, rfl⟩ rest
      rcases use with ⟨-, same⟩ | ⟨found, -, same⟩
      · rwa [helperNameOf_injective same]
      · have otherKnown := Request.isKnown_of_usage? found
        exact absurd same (admits.name_ne_helper other isOther otherKnown caller isCaller resource
          callerHelped)
  · intro asked
    obtain ⟨usage, found⟩ := Option.isSome_iff_exists.mp isKnown
    cases usage with
    | direct =>
      exact ⟨request.name, .refl, (uses_afterRequests_iff isInitial).mpr
        ⟨request, isRequest, .inr ⟨found, asked, rfl⟩⟩⟩
    | transitive =>
      have helped : variableName ∈ request.helped := by rw [Request.helped, found]; exact asked
      have call := (calls_afterRequests_iff isInitial).mpr
        ⟨request, isRequest, rfl, variableName, helped, rfl⟩
      exact ⟨helperNameOf variableName, .single call, (uses_afterRequests_iff isInitial).mpr
        ⟨request, isRequest, .inl ⟨helped, rfl⟩⟩⟩

/-- After a run, names are distinct. -/
theorem nodup_declaredNames_afterRequests :
    (program.afterRequests requests).declaredNames.Nodup := by
  have names : (program.afterRequests requests).declaredNames = program.variableNames ++
      ((requests.flatMap Request.helped).eraseDups.map helperNameOf
        ++ (requests.filter (·.isKnown)).map (·.name)) := by
    rw [afterRequests_eq_of_isInitial isInitial, declaredNames, functions, List.map_append,
      map_name_map_helperFor, List.map_map, ← Request.names_filterMap_entryPoint?]
    rfl
  rw [names, List.nodup_append, List.nodup_append]
  refine ⟨isInitial.names_nodup,
    ⟨(nodup_eraseDups _).map helperNameOf_injective, admits.names_nodup, ?_⟩, ?_⟩
  · simp only [List.forall_mem_map, List.mem_eraseDups, List.mem_flatMap, List.mem_filter]
    rintro resource ⟨other, isOther, helped⟩ request ⟨isRequest, isKnown⟩ same
    exact admits.name_ne_helper request isRequest isKnown other isOther resource helped same.symm
  · rintro declared isVariable _ member rfl
    simp only [List.mem_append, List.mem_map, List.mem_eraseDups, List.mem_flatMap,
      List.mem_filter] at member
    rcases member with ⟨resource, ⟨request, isRequest, helped⟩, rfl⟩ | ⟨request, isKnown, rfl⟩
    · exact admits.helpers_apart request isRequest resource helped isVariable
    · exact admits.names_apart request isKnown.1 isKnown.2 isVariable

/-- After a run, calls do not lead back. -/
theorem acyclic_afterRequests (name : String) :
    ¬Relation.TransGen (program.afterRequests requests).Calls name name := by
  intro cycle
  -- The last call of a cycle is of a helper, and the first is made by the same function.
  obtain ⟨caller, -, call⟩ := Relation.TransGen.tail'_iff.mp cycle
  obtain ⟨request, isRequest, -, isHelper⟩ := (calls_afterRequests_iff isInitial).mp call
  obtain ⟨callee, call, -⟩ := Relation.TransGen.head'_iff.mp cycle
  exact not_calls_afterRequests_helper isInitial admits name ⟨request, isRequest, isHelper⟩ callee
    call

/-- After a run, variables that are used are declared. -/
theorem declared_of_uses_afterRequests {user variableName : String}
    (use : (program.afterRequests requests).Uses user variableName) :
    variableName ∈ program.variableNames := by
  obtain ⟨request, isRequest, ⟨helped, -⟩ | ⟨found, asked, -⟩⟩ :=
    (uses_afterRequests_iff isInitial).mp use
  · obtain ⟨isKnown, asked⟩ := Request.isKnown_of_mem_helped helped
    exact admits.declared request isRequest isKnown variableName asked
  · have isKnown := Request.isKnown_of_usage? found
    exact admits.declared request isRequest isKnown variableName asked

omit admits in
/-- After a run, what is called is a helper. -/
theorem mem_helpers_of_calls_afterRequests {caller callee : String}
    (call : (program.afterRequests requests).Calls caller callee) :
    callee ∈ (program.afterRequests requests).helpers.map (·.name) := by
  obtain ⟨request, isRequest, -, resource, helped, rfl⟩ :=
    (calls_afterRequests_iff isInitial).mp call
  rw [afterRequests_eq_of_isInitial isInitial, map_name_map_helperFor]
  exact List.mem_map_of_mem (List.mem_eraseDups.mpr (List.mem_flatMap_of_mem isRequest helped))

omit admits in
/-- After a run, no function declares local variables. -/
theorem declare_notMem_afterRequests {function : Function}
    (member : function ∈ (program.afterRequests requests).functions) (declared : LocalVariable) :
    .declare declared ∉ function.body := by
  obtain ⟨request, -, ⟨resource, -, rfl⟩ | ⟨usage, -, rfl⟩⟩ :=
    (mem_functions_afterRequests isInitial).mp member
  · simp
  · exact declare_notMem_entryPointFor

omit admits in
/-- After a run, the entry points have the names of the known requests. -/
theorem mem_names_entryPoints_afterRequests {name : String} :
    name ∈ (program.afterRequests requests).entryPoints.map (·.name) ↔
      ∃ request ∈ requests, request.isKnown = true ∧ request.name = name := by
  rw [afterRequests_eq_of_isInitial isInitial, Request.names_filterMap_entryPoint?]
  simp only [List.mem_map, List.mem_filter, and_assoc]

/-- After a run, the rules are kept exactly when differently named resources of one request are
bound at different places. -/
theorem keepsRules_afterRequests_iff :
    (program.afterRequests requests).KeepsRules ↔
      ∀ request ∈ requests, request.isKnown = true → ∀ first ∈ program.resources,
        ∀ second ∈ program.resources, first.name ≠ second.name → first.name ∈ request.resources →
          second.name ∈ request.resources → first.IsApartFrom second := by
  have closed := @afterRequests_eq_of_isInitial program requests isInitial
  have sameVariables : (program.afterRequests requests).variableNames = program.variableNames := by
    rw [closed, variableNames, variableNames]
  have sameResources : (program.afterRequests requests).resources = program.resources := by
    rw [closed]
  have sameGlobals : (program.afterRequests requests).globals = program.globals := by
    rw [closed]
  rw [keepsRules_iff_isValid, isValid_iff, sameVariables, sameResources, sameGlobals]
  have leads {request : Request} (isRequest : request ∈ requests)
      (isKnown : request.isKnown = true) (variableName : String) :=
    @leadsTo_afterRequests_iff _ _ _ isInitial admits isRequest isKnown variableName
  constructor
  · rintro ⟨-, -, -, -, -, -, -, places⟩ request isRequest isKnown first isFirst second isSecond
      different inFirst inSecond
    exact places request.name
      ((mem_names_entryPoints_afterRequests isInitial).mpr ⟨request, isRequest, isKnown, rfl⟩)
      first isFirst second isSecond different ((leads isRequest isKnown _).mpr inFirst)
      ((leads isRequest isKnown _).mpr inSecond)
  · intro apart
    refine ⟨nodup_declaredNames_afterRequests isInitial admits,
      fun _ _ => declared_of_uses_afterRequests isInitial admits,
      fun _ _ => mem_helpers_of_calls_afterRequests isInitial,
      acyclic_afterRequests isInitial admits, isInitial.resources, isInitial.globals,
      fun _ member declared declares => ?_, fun name isName first isFirst second isSecond different
        leadsFirst leadsSecond => ?_⟩
    · exact absurd declares (declare_notMem_afterRequests isInitial member declared)
    · obtain ⟨request, isRequest, isKnown, rfl⟩ :=
        (mem_names_entryPoints_afterRequests isInitial).mp isName
      exact apart request isRequest isKnown first isFirst second isSecond different
        ((leads isRequest isKnown _).mp leadsFirst) ((leads isRequest isKnown _).mp leadsSecond)

/-- What a run of requests leaves of a program without functions.

The helpers are those of the resources that transitive requests name, in the order in which they are
first named, and the entry points are those of the known requests. A request of an unknown usage
fails and changes nothing. Every entry point leads to the resources of its request, and the verdict
accepts exactly when differently named resources of one known request are bound at different
places. -/
theorem outcome_afterRequests :
    program.afterRequests requests =
        { program with
          helpers := (requests.flatMap Request.helped).eraseDups.map helperFor
          entryPoints := requests.filterMap Request.entryPoint? } ∧
      (∀ front request,
        (request.isKnown = true →
          (program.afterRequests front).withEntryPoint request.name request.stage
              request.resources request.usage =
            .ok (program.afterRequests (front ++ [request]))) ∧
        (request.isKnown = false →
          (program.afterRequests front).withEntryPoint request.name request.stage
              request.resources request.usage = .error ⟨request.usage⟩ ∧
            program.afterRequests (front ++ [request]) = program.afterRequests front)) ∧
      (∀ request ∈ requests, request.isKnown = true → ∀ variableName,
        variableName ∈ (program.afterRequests requests).callGraph.reachableVariables request.name ↔
          variableName ∈ request.resources) ∧
      ((program.afterRequests requests).verdict.accepted = true ↔
        ∀ request ∈ requests, request.isKnown = true → ∀ first ∈ program.resources,
          ∀ second ∈ program.resources, first.name ≠ second.name →
            first.name ∈ request.resources → second.name ∈ request.resources →
              first.IsApartFrom second) := by
  refine ⟨afterRequests_eq_of_isInitial isInitial, fun front request => ?_,
    fun request isRequest isKnown variableName => ?_, ?_⟩
  · rw [afterRequests_concat]
    exact ⟨withEntryPoint_of_isKnown, fun unknown =>
      ⟨withEntryPoint_of_not_isKnown unknown, afterRequest_of_not_isKnown unknown⟩⟩
  · rw [mem_reachableVariables_callGraph]
    exact leadsTo_afterRequests_iff isInitial admits isRequest isKnown
  · rw [Verdict.accepted_iff, reasons_verdict_eq_nil_iff]
    exact keepsRules_afterRequests_iff isInitial admits

end Run

/-- Two entry points use a texture by one helper, and a third uses a buffer at its place. As none
uses both, and the request for one that does fails for its usage, the program is accepted. -/
theorem outcome_afterRequests_shared_helper :
    ∃ program,
      Program.afterRequests
          ⟨[⟨"image", .texture2D, some 0, some 1⟩, ⟨"point", .sampler, some 0, some 2⟩,
              ⟨"buffer", .storage, some 0, some 1⟩],
            [⟨"scratch", "private", "f32", none, none⟩], [], []⟩
          [⟨"draw", "vertex", ["image", "point", "image"], "transitive"⟩,
            ⟨"skip", "vertex", ["buffer", "image"], "indirect"⟩,
            ⟨"shade", "fragment", ["image", "scratch"], "transitive"⟩,
            ⟨"count", "compute", ["buffer"], "direct"⟩] = program ∧
        program.helpers = [helperFor "image", helperFor "point", helperFor "scratch"] ∧
        program.entryPoints.map (·.name) = ["draw", "shade", "count"] ∧
        program.verdict.accepted = true := by
  obtain ⟨closed, -, -, accepted⟩ := @outcome_afterRequests
    ⟨[⟨"image", .texture2D, some 0, some 1⟩, ⟨"point", .sampler, some 0, some 2⟩,
        ⟨"buffer", .storage, some 0, some 1⟩],
      [⟨"scratch", "private", "f32", none, none⟩], [], []⟩
    [⟨"draw", "vertex", ["image", "point", "image"], "transitive"⟩,
      ⟨"skip", "vertex", ["buffer", "image"], "indirect"⟩,
      ⟨"shade", "fragment", ["image", "scratch"], "transitive"⟩,
      ⟨"count", "compute", ["buffer"], "direct"⟩]
    ⟨by decide, by decide, by decide, rfl, rfl⟩
    ⟨by decide, by decide, by decide, by decide, by decide⟩
  refine ⟨_, rfl, ?_, ?_, accepted.mpr (by decide)⟩
  · rw [closed]
    decide
  · rw [closed]
    decide

end Program

end BindingSuite
