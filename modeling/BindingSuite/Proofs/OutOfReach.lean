import BindingSuite.Proofs.Validity

/-! # Resources out of reach

A resource to which no entry point leads has no say in the verdict, wherever it is bound.

* `Program.IsOutOfReach` says that no entry point leads to a name, `Resource.IsBound` that a
  resource has a place;
* `repeatedNames_congr` and `repeatedNames_append_cons` say on which names the search for repeated
  ones depends;
* `attributeReasons_append_cons` and `interfaceOf_append_cons` say that a bound resource out of
  reach adds nothing, neither to what attributes give nor to an interface;
* `verdict_of_outOfReach` concludes that it may be bound elsewhere, or be added under a new name. -/

namespace BindingSuite

/-! ## Repeated names -/

section RepeatedNames

variable {seen other front back names : List String} {name : String}

/-- Which names are repeated depends only on which of them have been seen. -/
theorem repeatedNames_congr (same : ∀ name ∈ names, name ∈ seen ↔ name ∈ other) :
    repeatedNames seen names = repeatedNames other names := by
  induction names generalizing seen other with
  | nil => rfl
  | cons first rest ih =>
    obtain ⟨sameFirst, sameRest⟩ := List.forall_mem_cons.mp same
    rw [repeatedNames, repeatedNames, ih sameRest]
    by_cases isSeen : first ∈ seen
    · rw [if_pos isSeen, if_pos (sameFirst.mp isSeen)]
    · rw [if_neg isSeen, if_neg (mt sameFirst.mpr isSeen)]
      refine ih fun name member => ?_
      rw [List.mem_cons, List.mem_cons, sameRest name member]

/-- A name that stands nowhere else is not repeated and makes no other name repeated. -/
theorem repeatedNames_append_cons (notSeen : name ∉ seen) (notInFront : name ∉ front)
    (notInBack : name ∉ back) :
    repeatedNames seen (front ++ name :: back) = repeatedNames seen (front ++ back) := by
  induction front generalizing seen with
  | nil =>
    rw [List.nil_append, List.nil_append, repeatedNames, if_neg notSeen]
    refine repeatedNames_congr fun other member => ?_
    -- The new name has been seen now, but none of the names behind it is this one.
    rw [List.mem_cons, or_iff_right]
    rintro rfl
    exact notInBack member
  | cons first rest ih =>
    obtain ⟨different, notInRest⟩ := not_or.mp (mt List.mem_cons.mpr notInFront)
    rw [List.cons_append, List.cons_append, repeatedNames, repeatedNames]
    split
    · rw [ih notSeen notInRest]
    · exact ih (mt List.mem_cons.mp (not_or.mpr ⟨different, notSeen⟩)) notInRest

end RepeatedNames

/-! ## Bound resources -/

namespace Resource

/-- A resource has a group and a binding number. -/
def IsBound (resource : Resource) : Prop :=
  resource.group.isSome = true ∧ resource.binding.isSome = true

/-- The resource of the same name that is of a given kind and bound at a given place. -/
def reboundAs (resource : Resource) (kind : ResourceKind) (group binding : Index) : Resource :=
  ⟨resource.name, kind, some group, some binding⟩

end Resource

namespace Program

/-- The program with other resources in place of its own. -/
def withResources (program : Program) (resources : List Resource) : Program :=
  { program with resources := resources }

/-- No entry point leads to a variable. -/
def IsOutOfReach (program : Program) (variableName : String) : Prop :=
  ∀ entryPoint ∈ program.entryPoints, ¬program.LeadsTo entryPoint.name variableName

variable {program : Program} {front back : List Resource} {resource : Resource}

/-- What no function reads is out of reach. -/
theorem isOutOfReach_of_unread {variableName : String}
    (unread : ∀ function ∈ program.functions, ¬function.ReadsName variableName) :
    program.IsOutOfReach variableName := by
  rintro entryPoint - ⟨user, -, function, member, -, reads⟩
  exact unread function member reads

/-- A bound resource gives no reasons for its attributes. -/
theorem attributeReasons_append_cons (bound : resource.IsBound) :
    (program.withResources (front ++ resource :: back)).attributeReasons =
      (program.withResources (front ++ back)).attributeReasons := by
  obtain ⟨hasGroup, hasBinding⟩ := bound
  have none : (if resource.group.isNone then [Reason.missingGroup resource.name] else []) ++
      (if resource.binding.isNone then [Reason.missingBinding resource.name] else []) = [] := by
    simp [Option.isNone_iff_eq_none, Option.isSome_iff_ne_none.mp hasGroup,
      Option.isSome_iff_ne_none.mp hasBinding]
  simp only [attributeReasons, withResources, List.flatMap_append, List.flatMap_cons, none,
    List.nil_append]

/-- A resource out of reach belongs to no interface. -/
theorem interfaceOf_append_cons (outOfReach : program.IsOutOfReach resource.name)
    {entryPoint : EntryPoint} (member : entryPoint ∈ program.entryPoints) :
    (program.withResources (front ++ resource :: back)).interfaceOf entryPoint.name =
      (program.withResources (front ++ back)).interfaceOf entryPoint.name := by
  have unused : resource.name ∉ program.callGraph.reachableVariables entryPoint.name := by
    rw [mem_reachableVariables_callGraph]
    exact outOfReach entryPoint member
  have none : program.interfaceEntry? entryPoint.name resource = none := if_neg unused
  -- The resources have no part in the call graph.
  change (front ++ resource :: back).filterMap (program.interfaceEntry? entryPoint.name) =
    (front ++ back).filterMap (program.interfaceEntry? entryPoint.name)
  rw [List.filterMap_append, List.filterMap_append, List.filterMap_cons_none none]

/-- A resource out of reach collides with nothing. -/
theorem collisionReasons_append_cons (outOfReach : program.IsOutOfReach resource.name) :
    (program.withResources (front ++ resource :: back)).collisionReasons =
      (program.withResources (front ++ back)).collisionReasons := by
  refine List.flatMap_congr fun entryPoint member => ?_
  rw [interfaceOf_append_cons outOfReach member]

/-! ## Declarations -/

/-- The declared names are those of the resources and others that do not depend on these. -/
theorem declaredNames_withResources (resources : List Resource) :
    (program.withResources resources).declaredNames =
      resources.map (·.name) ++ (program.globals.map (·.name) ++ program.functions.map (·.name)) :=
  List.append_assoc _ _ _

/-- The reasons that declarations give depend on the names of the resources only. -/
theorem declarationReasons_withResources_congr {resources others : List Resource}
    (same : resources.map (·.name) = others.map (·.name)) :
    (program.withResources resources).declarationReasons =
      (program.withResources others).declarationReasons := by
  have sameVariables : (program.withResources resources).variableNames =
      (program.withResources others).variableNames := by
    simp only [variableNames, withResources, same]
  have references : (program.withResources resources).referenceReasons =
      (program.withResources others).referenceReasons := by
    funext function
    rw [referenceReasons, sameVariables]
    rfl
  rw [declarationReasons, declaredNames_withResources, same, ← declaredNames_withResources,
    references]
  rfl

/-- A resource that no function reads gives no reasons to the references of a function. -/
theorem referenceReasons_append_cons {function : Function}
    (unread : ¬function.ReadsName resource.name) :
    (program.withResources (front ++ resource :: back)).referenceReasons function =
      (program.withResources (front ++ back)).referenceReasons function := by
  have undeclared : (function.uses.filter fun name =>
        name ∉ (program.withResources (front ++ resource :: back)).variableNames) =
      function.uses.filter fun name =>
        name ∉ (program.withResources (front ++ back)).variableNames := by
    refine List.filter_congr fun name used => ?_
    have different : name ≠ resource.name := by
      rintro rfl
      exact unread (Function.mem_uses.mp used)
    simp [variableNames, withResources, different]
  rw [referenceReasons, undeclared]
  rfl

/-- A resource of a new name that no function reads gives no reasons as a declaration. -/
theorem declarationReasons_append_cons
    (isNew : resource.name ∉ (program.withResources (front ++ back)).declaredNames)
    (unread : ∀ function ∈ program.functions, ¬function.ReadsName resource.name) :
    (program.withResources (front ++ resource :: back)).declarationReasons =
      (program.withResources (front ++ back)).declarationReasons := by
  have repeated :
      repeatedNames [] (program.withResources (front ++ resource :: back)).declaredNames =
        repeatedNames [] (program.withResources (front ++ back)).declaredNames := by
    rw [declaredNames_withResources, List.map_append, List.append_assoc, List.mem_append,
      not_or] at isNew
    rw [declaredNames_withResources, declaredNames_withResources, List.map_append, List.map_append,
      List.append_assoc, List.append_assoc]
    exact repeatedNames_append_cons List.not_mem_nil isNew.1 isNew.2
  have references : (program.withResources (front ++ resource :: back)).functions.flatMap
        (program.withResources (front ++ resource :: back)).referenceReasons =
      (program.withResources (front ++ back)).functions.flatMap
        (program.withResources (front ++ back)).referenceReasons :=
    List.flatMap_congr fun function member => referenceReasons_append_cons (unread function member)
  rw [declarationReasons, repeated, references]
  rfl

/-! ## The verdict -/

/-- Two bound resources of one name that is out of reach give the same verdict. -/
theorem verdict_append_cons_congr {other : Resource} (same : other.name = resource.name)
    (bound : resource.IsBound) (otherBound : other.IsBound)
    (outOfReach : program.IsOutOfReach resource.name) :
    (program.withResources (front ++ other :: back)).verdict =
      (program.withResources (front ++ resource :: back)).verdict := by
  have names : (front ++ other :: back).map (·.name) = (front ++ resource :: back).map (·.name) := by
    simp [same]
  have otherOutOfReach : program.IsOutOfReach other.name := same ▸ outOfReach
  -- Both programs give the reasons of the program without the resource.
  rw [verdict, declarationReasons_withResources_congr names,
    attributeReasons_append_cons otherBound, ← attributeReasons_append_cons bound,
    collisionReasons_append_cons otherOutOfReach, ← collisionReasons_append_cons outOfReach]
  rfl

/-- Resources out of reach do not interfere. Whatever a bound resource to which no entry point leads
is turned into and wherever it is bound instead, the verdict keeps all its reasons. The same holds
when a bound resource of a new name is added that no function reads. -/
theorem verdict_of_outOfReach (program : Program) :
    (∀ front resource back, program.resources = front ++ resource :: back → resource.IsBound →
      program.IsOutOfReach resource.name → ∀ kind group binding,
        (program.withResources (front ++ resource.reboundAs kind group binding :: back)).verdict =
          program.verdict) ∧
    ∀ added : Resource, added.IsBound → added.name ∉ program.declaredNames →
      (∀ function ∈ program.functions, ¬function.ReadsName added.name) →
        (program.withResources (program.resources ++ [added])).verdict = program.verdict := by
  constructor
  · intro front resource back resources bound outOfReach kind group binding
    have itself : program.withResources (front ++ resource :: back) = program := by
      rw [← resources, withResources]
    have same : (resource.reboundAs kind group binding).name = resource.name := rfl
    have moved : (resource.reboundAs kind group binding).IsBound := ⟨rfl, rfl⟩
    rw [verdict_append_cons_congr same bound moved outOfReach, itself]
  · intro added bound isNew unread
    have itself : program.withResources (program.resources ++ []) = program := by
      rw [List.append_nil, withResources]
    rw [verdict, declarationReasons_append_cons (by rwa [itself]) unread,
      attributeReasons_append_cons bound,
      collisionReasons_append_cons (isOutOfReach_of_unread unread), itself]
    rfl

/-- A buffer that only an uncalled helper reads, as the entry point hides it behind a local variable,
can be turned into a sampler at the place of the image that the entry point reads. So can a second
sampler be bound there. -/
theorem verdict_of_outOfReach_hidden :
    let program : Program :=
      ⟨[⟨"buffer", .storage, some 0, some 2⟩, ⟨"image", .texture2D, some 0, some 1⟩], [],
        [⟨"load", [.use "buffer"]⟩],
        [⟨⟨"main", [.use "image", .declare ⟨"buffer", "f32", none, none, none⟩, .use "buffer"]⟩,
          "compute"⟩]⟩
    program.IsOutOfReach "buffer" ∧
      (program.withResources
        [⟨"buffer", .sampler, some 0, some 1⟩, ⟨"image", .texture2D, some 0, some 1⟩]).verdict =
          program.verdict ∧
      (program.withResources
        [⟨"buffer", .storage, some 0, some 2⟩, ⟨"image", .texture2D, some 0, some 1⟩,
          ⟨"filter", .sampler, some 0, some 1⟩]).verdict = program.verdict := by
  intro program
  have outOfReach : program.IsOutOfReach "buffer" := by
    have reached : program.callGraph.reachableVariables "main" = ["image"] := by cbv
    refine List.forall_mem_singleton.mpr ?_
    rw [← mem_reachableVariables_callGraph, reached]
    decide
  have unread : ∀ function ∈ program.functions, ¬function.ReadsName "filter" := by
    simp only [← Function.mem_uses]
    decide
  obtain ⟨moved, added⟩ := verdict_of_outOfReach program
  refine ⟨outOfReach, ?_, ?_⟩
  · exact moved [] _ _ rfl ⟨rfl, rfl⟩ outOfReach .sampler 0 1
  · exact added ⟨"filter", .sampler, some 0, some 1⟩ ⟨rfl, rfl⟩ (by decide) unread

end Program

end BindingSuite
