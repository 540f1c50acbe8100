import BindingSuite.Proofs.BreachPlacement
import BindingSuite.Proofs.ImageRules
import BindingSuite.Proofs.Rendering

/-! # Agreement

The reference compiler and the expected verdict agree on the texts of well-formed programs.

* `isRecursive_callGraph_image` and `mem_reachableVariables_callGraph_image` compare the call graph
  of an image with that of its program;
* `Blames` ties a collision to the breach by the same resources of the same entry point, and
  `blames_collisionReasons` ties all collisions of a program to all breaches by the entry points of
  its image, in order;
* `breaches_image_eq_nil_iff` says that an image breaks no rule of modules exactly when the program
  keeps the rules of programs;
* `accepted_answer_eq_accepted_verdict` draws the conclusion for texts.

The image of a vertex entry point calls `vec4f`, which the entry point itself does not. As long as
no function has that name, the call leads nowhere. -/

namespace BindingSuite

/-- Where a function is defined on a whole list, it relates each of its elements to one value. -/
theorem forall₂_filterMap {α β : Type} {partialMap : α → Option β} {list : List α}
    (defined : ∀ element ∈ list, (partialMap element).isSome = true) :
    List.Forall₂ (fun element value => partialMap element = some value) list
      (list.filterMap partialMap) := by
  induction list with
  | nil => exact .nil
  | cons element rest ih =>
    obtain ⟨isDefined, defined⟩ := List.forall_mem_cons.mp defined
    obtain ⟨value, isValue⟩ := Option.isSome_iff_exists.mp isDefined
    rw [List.filterMap_cons_some isValue]
    exact .cons isValue (ih defined)

/-! ## What is blamed -/

/-- A collision and a breach blame the same: two resources and the entry point that uses them, and
the numbers at which both resources are bound. -/
inductive Blames : Reason → Wgsl.Breach → Prop where
  /-- The indices of the collision are the numbers of the breach. -/
  | collision {entryPoint owner other : String} {point : BindingPoint} {group binding : Nat}
    {position : Wgsl.Position} (isGroup : point.group = .number group)
    (isBinding : point.binding = .number binding) :
    Blames (.collision entryPoint owner other point)
      (.sharedPlace ⟨other, position⟩ owner entryPoint group binding)

namespace Program

variable {program : Program}

/-! ## Declarations -/

/-- The functions of an image are the images of helpers and of entry points. -/
theorem mem_functions_image {image : Wgsl.Function} :
    image ∈ program.image.functions ↔
      (∃ helper ∈ program.helpers, helper.image = image) ∨
        ∃ entryPoint ∈ program.entryPoints, ∃ stage,
          Stage.ofName? entryPoint.stage = some stage ∧
            stage.entryPointImage entryPoint.toFunction = image := by
  simp only [Program.image, List.mem_append, List.mem_map, List.mem_filterMap, EntryPoint.image?,
    Option.map_eq_some_iff]

/-- The functions of a program are its helpers and its entry points. -/
theorem mem_functions {function : Function} :
    function ∈ program.functions ↔
      function ∈ program.helpers ∨
        ∃ entryPoint ∈ program.entryPoints, entryPoint.toFunction = function := by
  rw [functions, List.mem_append, List.mem_map]

/-- Every function of an image is the image of one of the program. -/
theorem exists_function_of_image {image : Wgsl.Function}
    (member : image ∈ program.image.functions) :
    ∃ function ∈ program.functions, function.HasImage image := by
  rcases mem_functions_image.mp member with
    ⟨helper, isHelper, rfl⟩ | ⟨entryPoint, isEntryPoint, stage, -, rfl⟩
  · exact ⟨helper, mem_functions.mpr (.inl isHelper), helper.hasImage_image⟩
  · exact ⟨entryPoint.toFunction, mem_functions.mpr (.inr ⟨entryPoint, isEntryPoint, rfl⟩),
      entryPoint.toFunction.hasImage_entryPointImage stage⟩

/-- The helpers of an image are the helpers of the program. -/
theorem hasHelper_image {name : String} :
    program.image.HasHelper name ↔ name ∈ program.helpers.map (·.name) := by
  rw [List.mem_map]
  constructor
  · rintro ⟨image, member, rfl, noStage⟩
    rcases mem_functions_image.mp member with
      ⟨helper, isHelper, rfl⟩ | ⟨entryPoint, isEntryPoint, stage, -, rfl⟩
    · exact ⟨helper, isHelper, rfl⟩
    · cases stage <;> cases noStage
  · rintro ⟨helper, isHelper, rfl⟩
    exact ⟨helper.image, mem_functions_image.mpr (.inl ⟨helper, isHelper, rfl⟩), rfl, rfl⟩

/-- The variables of an image are the variables of the program. -/
theorem names_globals_image : program.image.globals.map (·.name.text) = program.variableNames := by
  simp only [image, variableNames, List.map_append, List.map_map]
  rfl

/-- Where no function has its name, the constructor of positions calls nothing. -/
theorem position_calls_nothing
    (free : ∀ function ∈ program.functions, function.name ≠ "vec4f") :
    ∀ leaf, leaf = "vec4f" → ∀ callee, (leaf, callee) ∉ program.image.callGraph.calls := by
  rintro _ rfl callee
  rw [Wgsl.Module.callGraph, CallGraph.mem_calls_ofNodes]
  rintro ⟨node, isNode, same, -⟩
  obtain ⟨image, member, rfl⟩ := List.mem_map.mp isNode
  obtain ⟨function, isFunction, hasImage⟩ := exists_function_of_image member
  exact free function isFunction (hasImage.name_eq.symm.trans same.symm)

section WellFormed

variable (wellFormed : program.IsWellFormed)

include wellFormed

/-- The stage of every entry point is known. -/
theorem exists_stage {entryPoint : EntryPoint} (member : entryPoint ∈ program.entryPoints) :
    ∃ stage, Stage.ofName? entryPoint.stage = some stage := by
  obtain ⟨stage, isStage⟩ := (wellFormed.entryPoints entryPoint member).stage
  exact ⟨stage, by rw [isStage, Stage.ofName?_name]⟩

/-- Every function of a program is well-formed. -/
theorem isWellFormed_of_mem_functions {function : Function}
    (member : function ∈ program.functions) : function.IsWellFormed := by
  rcases mem_functions.mp member with isHelper | ⟨entryPoint, isEntryPoint, rfl⟩
  · exact wellFormed.helpers function isHelper
  · exact (wellFormed.entryPoints entryPoint isEntryPoint).function

/-- Every function of a program has an image. -/
theorem exists_image_of_function {function : Function} (member : function ∈ program.functions) :
    ∃ image ∈ program.image.functions, function.HasImage image := by
  rcases mem_functions.mp member with isHelper | ⟨entryPoint, isEntryPoint, rfl⟩
  · exact ⟨function.image, mem_functions_image.mpr (.inl ⟨function, isHelper, rfl⟩),
      function.hasImage_image⟩
  · obtain ⟨stage, isStage⟩ := exists_stage wellFormed isEntryPoint
    exact ⟨stage.entryPointImage entryPoint.toFunction,
      mem_functions_image.mpr (.inr ⟨entryPoint, isEntryPoint, stage, isStage, rfl⟩),
      entryPoint.toFunction.hasImage_entryPointImage stage⟩

/-- The entry points of an image are the images of all entry points, in order. -/
theorem forall₂_entryPoints_image :
    List.Forall₂ (fun entryPoint image => entryPoint.image? = some image) program.entryPoints
      program.image.entryPoints := by
  have helpers : (program.helpers.map Function.image).filter (·.stage?.isSome) = [] := by
    rw [List.filter_eq_nil_iff]
    rintro image isImage
    obtain ⟨helper, -, rfl⟩ := List.mem_map.mp isImage
    exact Bool.false_ne_true
  have entryPoints : (program.entryPoints.filterMap EntryPoint.image?).filter (·.stage?.isSome) =
      program.entryPoints.filterMap EntryPoint.image? := by
    rw [List.filter_eq_self]
    rintro image isImage
    obtain ⟨entryPoint, -, isImage⟩ := List.mem_filterMap.mp isImage
    obtain ⟨stage, -, rfl⟩ := Option.map_eq_some_iff.mp isImage
    cases stage <;> rfl
  rw [Wgsl.Module.entryPoints, image, List.filter_append, helpers, entryPoints, List.nil_append]
  refine forall₂_filterMap fun entryPoint member => ?_
  obtain ⟨stage, isStage⟩ := exists_stage wellFormed member
  rw [EntryPoint.image?, isStage]
  rfl

/-- An image declares the names of the program. -/
theorem declaredNames_image :
    program.image.declaredNames.map Wgsl.Word.text = program.declaredNames := by
  have entryPoints : (program.entryPoints.filterMap EntryPoint.image?).map (·.name.text) =
      program.entryPoints.map (·.name) := by
    -- The stage of every entry point is known, so that none is left out.
    rw [List.map_filterMap, ← List.filterMap_eq_map]
    refine List.filterMap_congr fun entryPoint member => ?_
    obtain ⟨stage, isStage⟩ := exists_stage wellFormed member
    rw [EntryPoint.image?, isStage]
    rfl
  simp only [Wgsl.Module.declaredNames, image, declaredNames, variableNames, functions,
    List.map_append, List.map_map, Function.comp_def] at entryPoints ⊢
  rw [entryPoints]
  rfl

/-! ## Call graphs -/

/-- The image of a program has the calls of the program, and those of the constructor of
positions. -/
theorem mem_calls_callGraph_image {caller callee : String} (notPosition : callee ≠ "vec4f") :
    (caller, callee) ∈ program.image.callGraph.calls ↔
      (caller, callee) ∈ program.callGraph.calls := by
  rw [Wgsl.Module.callGraph, callGraph, CallGraph.mem_calls_ofNodes, CallGraph.mem_calls_ofNodes]
  simp only [List.mem_map, exists_exists_and_eq_and, Wgsl.Function.node, Function.node]
  constructor
  · rintro ⟨image, member, rfl, calls⟩
    obtain ⟨function, isFunction, hasImage⟩ := exists_function_of_image member
    exact ⟨function, isFunction, hasImage.name_eq, (hasImage.mem_calls_iff notPosition).mp calls⟩
  · rintro ⟨function, member, rfl, calls⟩
    obtain ⟨image, isImage, hasImage⟩ := exists_image_of_function wellFormed member
    exact ⟨image, isImage, hasImage.name_eq.symm, (hasImage.mem_calls_iff notPosition).mpr calls⟩

/-- The image of a program has the uses of the program. -/
theorem mem_uses_callGraph_image {name variableName : String} :
    (name, variableName) ∈ program.image.callGraph.uses ↔
      (name, variableName) ∈ program.callGraph.uses := by
  rw [Wgsl.Module.callGraph, callGraph, CallGraph.mem_uses_ofNodes, CallGraph.mem_uses_ofNodes]
  simp only [List.mem_map, exists_exists_and_eq_and, Wgsl.Function.node, Function.node]
  constructor
  · rintro ⟨image, member, rfl, uses⟩
    obtain ⟨function, isFunction, hasImage⟩ := exists_function_of_image member
    exact ⟨function, isFunction, hasImage.name_eq, hasImage.uses_eq ▸ uses⟩
  · rintro ⟨function, member, rfl, uses⟩
    obtain ⟨image, isImage, hasImage⟩ := exists_image_of_function wellFormed member
    exact ⟨image, isImage, hasImage.name_eq.symm, hasImage.uses_eq ▸ uses⟩

section Free

variable (free : ∀ function ∈ program.functions, function.name ≠ "vec4f")

include free

/-- A function is recursive in the image of a program exactly when it is in the program. -/
theorem isRecursive_callGraph_image {function : Function} (member : function ∈ program.functions) :
    program.image.callGraph.isRecursive function.name =
      program.callGraph.isRecursive function.name :=
  CallGraph.isRecursive_eq_of_leaf (position_calls_nothing free)
    (fun _ _ notPosition => mem_calls_callGraph_image wellFormed notPosition)
    (free function member)

/-- A name leads to the same variables in the image of a program as in the program. -/
theorem mem_reachableVariables_callGraph_image {name variableName : String} :
    variableName ∈ program.image.callGraph.reachableVariables name ↔
      variableName ∈ program.callGraph.reachableVariables name := by
  rw [CallGraph.mem_reachableVariables, CallGraph.mem_reachableVariables]
  refine exists_congr fun user => ?_
  rw [mem_uses_callGraph_image wellFormed]
  refine and_congr_left fun uses => ?_
  -- Whatever uses a variable is a function of the program, hence not the leaf.
  rw [callGraph, CallGraph.mem_uses_ofNodes] at uses
  obtain ⟨node, isNode, rfl, -⟩ := uses
  obtain ⟨function, isFunction, rfl⟩ := List.mem_map.mp isNode
  exact CallGraph.reaches_iff_of_leaf (position_calls_nothing free)
    (fun _ _ notPosition => mem_calls_callGraph_image wellFormed notPosition)
    (free function isFunction)

end Free

/-! ## Rules of variables -/

/-- The variables of an image break no rule exactly when resources have both binding attributes and
plain variables have none. -/
theorem flatMap_globalBreaches_image_eq_nil_iff
    (spaces : ∀ declared ∈ program.globals,
      declared.addressSpace = "private" ∨ declared.addressSpace = "workgroup") :
    program.image.globals.flatMap Wgsl.globalBreaches = [] ↔
      (∀ resource ∈ program.resources,
        resource.group.isSome = true ∧ resource.binding.isSome = true) ∧
      ∀ declared ∈ program.globals, declared.group = none ∧ declared.binding = none := by
  rw [image, List.flatMap_append, List.append_eq_nil_iff, List.flatMap_map, List.flatMap_map,
    List.flatMap_eq_nil_iff, List.flatMap_eq_nil_iff]
  refine and_congr (forall₂_congr fun resource member => ?_)
    (forall₂_congr fun declared member => ?_)
  · exact Resource.globalBreaches_image_eq_nil_iff (wellFormed.resources resource member)
  · exact ModuleVariable.globalBreaches_image_eq_nil_iff (wellFormed.globals declared member)
      (spaces declared member)

/-! ## Rules of functions -/

/-- Where names are distinct, the image of a function breaks no rule exactly when the function uses
variables of the program and calls helpers, its local variables keep their rules and it is not
recursive. -/
theorem functionBreaches_image_eq_nil_iff
    (free : ∀ function ∈ program.functions, function.name ≠ "vec4f")
    (distinct : (program.image.functions.map (·.name.text)).Nodup) {function : Function}
    (member : function ∈ program.functions) {image : Wgsl.Function}
    (hasImage : function.HasImage image) :
    program.image.functionBreaches image = [] ↔
      (∀ callee ∈ function.calls, callee ∈ program.helpers.map (·.name)) ∧
      (∀ name ∈ function.uses, name ∈ program.variableNames) ∧
      (∀ declared ∈ function.locals, declared.KeepsRules) ∧
      ¬Relation.TransGen program.callGraph.Calls function.name function.name := by
  have statements := (isWellFormed_of_mem_functions wellFormed member).body
  obtain ⟨-, stage, isBody⟩ := id hasImage
  rw [Wgsl.Module.functionBreaches, List.append_eq_nil_iff, hasImage.name_eq, isBody,
    Statement.bodyBreaches_image_eq_nil_iff statements,
    isRecursive_callGraph_image wellFormed free member, names_globals_image,
    ← CallGraph.isRecursive_iff_transGen]
  simp only [Wgsl.Module.callBreaches_eq_nil_iff distinct, hasHelper_image, ite_eq_right_iff,
    reduceCtorEq, imp_false, and_assoc]
  rfl

/-- Where names are distinct, the functions of an image break no rule exactly when those of the
program use its variables and call its helpers, their local variables keep their rules and none is
recursive. -/
theorem flatMap_functionBreaches_image_eq_nil_iff
    (free : ∀ function ∈ program.functions, function.name ≠ "vec4f")
    (names : program.declaredNames.Nodup) :
    program.image.functions.flatMap program.image.functionBreaches = [] ↔
      ∀ function ∈ program.functions,
        (∀ callee ∈ function.calls, callee ∈ program.helpers.map (·.name)) ∧
        (∀ name ∈ function.uses, name ∈ program.variableNames) ∧
        (∀ declared ∈ function.locals, declared.KeepsRules) ∧
        ¬Relation.TransGen program.callGraph.Calls function.name function.name := by
  rw [← declaredNames_image wellFormed] at names
  obtain ⟨-, distinct⟩ := Wgsl.Module.nodup_of_nodup_declaredNames names
  rw [List.flatMap_eq_nil_iff]
  constructor
  · intro unbroken function member
    obtain ⟨image, isImage, hasImage⟩ := exists_image_of_function wellFormed member
    exact (functionBreaches_image_eq_nil_iff wellFormed free distinct member hasImage).mp
      (unbroken image isImage)
  · intro rules image isImage
    obtain ⟨function, member, hasImage⟩ := exists_function_of_image isImage
    exact (functionBreaches_image_eq_nil_iff wellFormed free distinct member hasImage).mpr
      (rules function member)

/-! ## Rules of entry points -/

omit wellFormed in
/-- The image of an entry point has what its stage asks for. -/
theorem stageBreaches_entryPointImage (stage : Stage) (function : Function) :
    Wgsl.Module.stageBreaches (stage.entryPointImage function) = [] := by
  cases stage <;> rfl

omit wellFormed in
/-- Where names are distinct, the entries of an interface bear distinct names. -/
theorem pairwise_names_interfaceOf (names : program.declaredNames.Nodup) (entryPoint : String) :
    (program.interfaceOf entryPoint).Pairwise fun first second => first.1 ≠ second.1 := by
  rw [declaredNames, variableNames, List.append_assoc] at names
  have resources := List.pairwise_map.mp (List.nodup_append.mp names).1
  refine resources.filterMap (program.interfaceEntry? entryPoint) ?_
  intro first second different left isLeft right isRight
  rw [(interfaceEntry?_eq_some_iff.mp isLeft).2.1, (interfaceEntry?_eq_some_iff.mp isRight).2.1]
  exact different

/-- The places in an interface have numbers for indices. -/
theorem isNatural_of_mem_interfaceOf {entryPoint : EntryPoint} {entry : String × BindingPoint}
    (member : entry ∈ program.interfaceOf entryPoint.name) :
    entry.2.group.IsNatural ∧ entry.2.binding.IsNatural := by
  obtain ⟨resource, ⟨isResource, -⟩, -, hasPoint⟩ := mem_interfaceOf.mp member
  have natural := wellFormed.resources resource isResource
  unfold Resource.point? at hasPoint
  split at hasPoint
  · rename_i group binding isGroup isBinding
    rw [← Option.some_inj.mp hasPoint]
    exact ⟨natural.group group isGroup, natural.binding binding isBinding⟩
  · cases hasPoint

/-- A well-formed program has a text, and the compiler's answer on this text accepts exactly when
the image of the program breaks no rule of modules. -/
theorem exists_answer_accepted_iff_image :
    ∃ source answer, program.text = .ok source ∧ Wgsl.answer source = .ok answer ∧
      (answer.accepted = true ↔ program.image.breaches = []) := by
  -- The module that is read is the image up to positions, which no breach depends on.
  obtain ⟨source, module, isText, read, meaning⟩ := exists_ofSource wellFormed
  refine ⟨source, module.answer, isText, by rw [Wgsl.answer, read], ?_⟩
  rw [Wgsl.Module.accepted_answer_iff, ← meaning, Wgsl.Module.breaches_unplaced,
    List.map_eq_nil_iff]

/-- An entry of an interface as one of a module: its indices are numbers. -/
def entryImage (entry : String × BindingPoint) : Wgsl.Word × Nat × Nat :=
  (wordImage entry.1, entry.2.group.toNat, entry.2.binding.toNat)

omit wellFormed in
/-- In an interface of distinct names and with numbers for indices, each collision blames what the
breach by the same entry does, as long as both sides go by the same owners. -/
theorem blames_collisions {entryPoint : String} {interface : List (String × BindingPoint)}
    (natural : ∀ entry ∈ interface, entry.2.group.IsNatural ∧ entry.2.binding.IsNatural)
    (distinct : interface.Pairwise fun first second => first.1 ≠ second.1)
    {owners : List (BindingPoint × String)} {placeOwners : List ((Nat × Nat) × String)}
    (others : ∀ entry ∈ interface, ∀ owner ∈ owners, owner.2 ≠ entry.1)
    (same : ∀ entry ∈ interface,
      placeOwners.lookup (entryImage entry).2 = owners.lookup entry.2.normal) :
    List.Forall₂ Blames (collisions entryPoint owners interface)
      (Wgsl.Module.placeBreaches entryPoint placeOwners (interface.map entryImage)) := by
  induction interface generalizing owners placeOwners with
  | nil => exact .nil
  | cons entry rest ih =>
    obtain ⟨name, point⟩ := entry
    obtain ⟨isNatural, natural⟩ := List.forall_mem_cons.mp natural
    obtain ⟨different, distinct⟩ := List.pairwise_cons.mp distinct
    obtain ⟨other, others⟩ := List.forall_mem_cons.mp others
    obtain ⟨sameHere, same⟩ := List.forall_mem_cons.mp same
    rw [List.map_cons, entryImage, collisions, Wgsl.Module.placeBreaches]
    cases owned : owners.lookup point.normal with
    | none =>
      simp only [entryImage, owned] at sameHere
      simp only [sameHere]
      refine ih natural distinct ?_ ?_
      · intro entry member
        exact List.forall_mem_cons.mpr ⟨different entry member, others entry member⟩
      · intro entry member
        have samePlace : ((entryImage entry).2 == (point.group.toNat, point.binding.toNat)) =
            (entry.2.normal == point.normal) := by
          rw [Bool.eq_iff_iff, beq_iff_eq, beq_iff_eq]
          exact (BindingPoint.normal_eq_normal_iff (natural entry member) isNatural).symm
        rw [List.lookup_cons, List.lookup_cons, same entry member, samePlace]
        rfl
    | some owner =>
      simp only [entryImage, owned] at sameHere
      simp only [sameHere]
      have otherName : owner ≠ name := by
        obtain ⟨before, after, split, -⟩ := List.lookup_eq_some_iff.mp owned
        exact other (point.normal, owner) (by simp [split])
      rw [if_neg otherName]
      refine .cons ?_ (ih natural distinct others same)
      exact .collision isNatural.1.eq_number isNatural.2.eq_number

section Interfaces

variable (free : ∀ function ∈ program.functions, function.name ≠ "vec4f")
  (spaces : ∀ declared ∈ program.globals,
    declared.addressSpace = "private" ∨ declared.addressSpace = "workgroup")

include free

/-- The image of a resource adds to an interface what the resource adds. -/
theorem interfaceEntry?_image {resource : Resource} (member : resource ∈ program.resources)
    (entryPoint : String) :
    program.image.interfaceEntry? entryPoint resource.image =
      (program.interfaceEntry? entryPoint resource).map entryImage := by
  have natural := wellFormed.resources resource member
  have group : Wgsl.index? resource.image.attributes "group" = resource.group.map Index.toNat :=
    index?_bindingImage natural.group natural.binding (.inl ⟨rfl, rfl⟩)
  have binding :
      Wgsl.index? resource.image.attributes "binding" = resource.binding.map Index.toNat :=
    index?_bindingImage natural.group natural.binding (.inr ⟨rfl, rfl⟩)
  have inside :
      (resource.image.name.text ∈ program.image.callGraph.reachableVariables entryPoint
        && resource.image.isResource) = true ↔
      resource.name ∈ program.callGraph.reachableVariables entryPoint := by
    rw [Wgsl.Variable.isResource_iff.mpr resource.bindsResource_image, Bool.and_true,
      decide_eq_true_eq, mem_reachableVariables_callGraph_image wellFormed free]
    rfl
  rw [Wgsl.Module.interfaceEntry?, interfaceEntry?]
  by_cases used : resource.name ∈ program.callGraph.reachableVariables entryPoint
  · rw [if_pos (inside.mpr used), if_pos used, group, binding, Resource.point?]
    cases resource.group <;> cases resource.binding <;> rfl
  · rw [if_neg (mt inside.mp used), if_neg used, Option.map_none]

include spaces

/-- The interface of the image of an entry point is that of the entry point, with numbers for
indices. Plain variables add nothing. -/
theorem interfaceOf_image (entryPoint : String) :
    program.image.interfaceOf entryPoint = (program.interfaceOf entryPoint).map entryImage := by
  have plain : ∀ declared ∈ program.globals,
      (program.image.interfaceEntry? entryPoint ∘ ModuleVariable.image) declared = none := by
    intro declared member
    have notResource : declared.image.isResource = false := by
      rw [← Bool.not_eq_true, Wgsl.Variable.isResource_iff]
      exact ModuleVariable.not_bindsResource_image (spaces declared member)
    rw [Function.comp_apply, Wgsl.Module.interfaceEntry?, notResource, Bool.and_false]
    rfl
  change program.image.globals.filterMap (program.image.interfaceEntry? entryPoint) =
    (program.resources.filterMap (program.interfaceEntry? entryPoint)).map entryImage
  have globals : program.image.globals =
      program.resources.map Resource.image ++ program.globals.map ModuleVariable.image := rfl
  rw [globals, List.filterMap_append, List.filterMap_map, List.filterMap_map,
    List.filterMap_eq_nil_iff.mpr plain, List.append_nil, List.map_filterMap]
  exact List.filterMap_congr fun _ member => interfaceEntry?_image wellFormed free member entryPoint

/-- Where names are distinct, the collisions of a program and the breaches by the entry points of
its image blame the same, one after the other. -/
theorem blames_collisionReasons (names : program.declaredNames.Nodup) :
    List.Forall₂ Blames program.collisionReasons
      (program.image.entryPoints.flatMap program.image.entryPointBreaches) := by
  refine List.rel_flatMap (forall₂_entryPoints_image wellFormed) ?_
  intro entryPoint image isImage
  obtain ⟨stage, -, rfl⟩ := Option.map_eq_some_iff.mp isImage
  rw [Wgsl.Module.entryPointBreaches, stageBreaches_entryPointImage, List.nil_append]
  change List.Forall₂ Blames _ (Wgsl.Module.placeBreaches entryPoint.name []
    (program.image.interfaceOf entryPoint.name))
  rw [interfaceOf_image wellFormed free spaces]
  exact blames_collisions (fun _ => isNatural_of_mem_interfaceOf wellFormed)
    (pairwise_names_interfaceOf names entryPoint.name) (by simp) (by simp)

/-! ## All rules -/

/-- Where names are distinct, the entry points of an image break no rule exactly when nothing
collides in those of the program. -/
theorem flatMap_entryPointBreaches_image_eq_nil_iff (names : program.declaredNames.Nodup) :
    program.image.entryPoints.flatMap program.image.entryPointBreaches = [] ↔
      program.collisionReasons = [] := by
  have blames := blames_collisionReasons wellFormed free spaces names
  constructor
  · intro unbroken
    rw [unbroken] at blames
    exact List.forall₂_nil_right_iff.mp blames
  · intro apart
    rw [apart] at blames
    exact List.forall₂_nil_left_iff.mp blames

/-- The image of a program breaks no rule of modules exactly when the program keeps the rules of
programs. -/
theorem breaches_image_eq_nil_iff : program.image.breaches = [] ↔ program.KeepsRules := by
  rw [Wgsl.Module.breaches, List.append_eq_nil_iff, List.append_eq_nil_iff,
    List.append_eq_nil_iff, Wgsl.nameBreaches_eq_nil_iff, fresh_nil_iff,
    declaredNames_image wellFormed, flatMap_globalBreaches_image_eq_nil_iff wellFormed spaces]
  constructor
  · rintro ⟨⟨⟨names, resources, globals⟩, functions⟩, entryPoints⟩
    rw [flatMap_functionBreaches_image_eq_nil_iff wellFormed free names] at functions
    rw [flatMap_entryPointBreaches_image_eq_nil_iff wellFormed free spaces names,
      collisionReasons_eq_nil_iff] at entryPoints
    exact {
      names_nodup := names
      uses := fun function member => (functions function member).2.1
      calls := fun function member => (functions function member).1
      acyclic := fun function member => (functions function member).2.2.2
      resources := resources
      globals := globals
      locals := fun function member => (functions function member).2.2.1
      places := entryPoints }
  · intro rules
    have names := rules.names_nodup
    refine ⟨⟨⟨names, rules.resources, rules.globals⟩, ?_⟩, ?_⟩
    · rw [flatMap_functionBreaches_image_eq_nil_iff wellFormed free names]
      intro function member
      exact ⟨rules.calls function member, rules.uses function member,
        rules.locals function member, rules.acyclic function member⟩
    · rw [flatMap_entryPointBreaches_image_eq_nil_iff wellFormed free spaces names,
        collisionReasons_eq_nil_iff]
      exact rules.places

/-- A well-formed program has a text, and the compiler's answer on this text accepts exactly when
the program keeps the rules of programs. -/
theorem exists_answer_accepted_iff :
    ∃ source answer, program.text = .ok source ∧ Wgsl.answer source = .ok answer ∧
      (answer.accepted = true ↔ program.KeepsRules) := by
  rw [← breaches_image_eq_nil_iff wellFormed free spaces]
  exact exists_answer_accepted_iff_image wellFormed

end Interfaces

end WellFormed

/-- The compiler and the verdict agree. A well-formed program whose plain variables lie in address
spaces for data, and of which no function is called `vec4f`, has a text, on which the compiler has
an answer that accepts exactly when the verdict on the program does. -/
theorem accepted_answer_eq_accepted_verdict (wellFormed : program.IsWellFormed)
    (free : ∀ function ∈ program.functions, function.name ≠ "vec4f")
    (spaces : ∀ declared ∈ program.globals,
      declared.addressSpace = "private" ∨ declared.addressSpace = "workgroup") :
    ∃ source answer, program.text = .ok source ∧ Wgsl.answer source = .ok answer ∧
      answer.accepted = program.verdict.accepted := by
  obtain ⟨source, answer, isText, isAnswer, accepted⟩ :=
    exists_answer_accepted_iff wellFormed free spaces
  refine ⟨source, answer, isText, isAnswer, ?_⟩
  rw [Bool.eq_iff_iff, accepted, Verdict.accepted_iff, reasons_verdict_eq_nil_iff]

/-- A vertex entry point that reads a texture and calls a helper which reads a buffer at the same
place is rejected by the compiler, as the verdict says. -/
theorem accepted_answer_collision :
    ∃ source answer,
      Program.text
          ⟨[⟨"image", .texture2D, some 0, some 1⟩, ⟨"buffer", .storage, some 0, some 1⟩],
            [⟨"scratch", "private", "f32", none, none⟩], [⟨"helper", [.use "buffer"]⟩],
            [⟨⟨"main", [.use "image", .call "helper"]⟩, "vertex"⟩]⟩ = .ok source ∧
        Wgsl.answer source = .ok answer ∧ answer.accepted = false := by
  have natural (value : Nat) (short : value.repr.length ≤ Text.digitLimit) :
      ∀ index ∈ some (Index.number value), index.IsNatural := by
    rintro index ⟨⟩
    exact ⟨value, rfl, short⟩
  have resource (name : String) (kind : ResourceKind) (plain : IsPlainName name) :
      Resource.IsWellFormed ⟨name, kind, some 0, some 1⟩ :=
    ⟨plain, natural 0 (by decide), natural 1 (by decide)⟩
  have scratch : ModuleVariable.IsWellFormed ⟨"scratch", "private", "f32", none, none⟩ :=
    ⟨by decide, by decide, ⟨⟨"f32", []⟩, by decide, rfl⟩, by simp, by simp⟩
  have helper : Function.IsWellFormed ⟨"helper", [.use "buffer"]⟩ :=
    ⟨by decide, List.forall_mem_singleton.mpr (by decide : IsPlainName "buffer")⟩
  have main : EntryPoint.IsWellFormed ⟨⟨"main", [.use "image", .call "helper"]⟩, "vertex"⟩ :=
    ⟨⟨by decide, List.forall_mem_cons.mpr ⟨(by decide : IsPlainName "image"),
      List.forall_mem_singleton.mpr (by decide : IsPlainName "helper")⟩⟩, .vertex, rfl⟩
  have wellFormed : Program.IsWellFormed
      ⟨[⟨"image", .texture2D, some 0, some 1⟩, ⟨"buffer", .storage, some 0, some 1⟩],
        [⟨"scratch", "private", "f32", none, none⟩], [⟨"helper", [.use "buffer"]⟩],
        [⟨⟨"main", [.use "image", .call "helper"]⟩, "vertex"⟩]⟩ :=
    ⟨List.forall_mem_cons.mpr ⟨resource "image" .texture2D (by decide),
        List.forall_mem_singleton.mpr (resource "buffer" .storage (by decide))⟩,
      List.forall_mem_singleton.mpr scratch, List.forall_mem_singleton.mpr helper,
      List.forall_mem_singleton.mpr main⟩
  obtain ⟨source, answer, isText, isAnswer, agree⟩ :=
    accepted_answer_eq_accepted_verdict wellFormed
      (List.forall_mem_cons.mpr ⟨by decide, List.forall_mem_singleton.mpr (by decide)⟩)
      (List.forall_mem_singleton.mpr (.inl rfl))
  refine ⟨source, answer, isText, isAnswer, ?_⟩
  rw [agree, ← Bool.not_eq_true, Verdict.accepted_iff, reasons_verdict_eq_nil_iff]
  intro rules
  have same := rules.places _ List.mem_cons_self ⟨"image", .texture2D, some 0, some 1⟩
    ⟨"buffer", .storage, some 0, some 1⟩ ⟨by simp, "main", .refl, by decide⟩
    ⟨by simp, "helper", .single (by decide), by decide⟩ _ rfl _ rfl rfl
  exact absurd same (by decide)

end Program

end BindingSuite
