import BindingSuite.Proofs.Image
import BindingSuite.Proofs.ModuleRules
import BindingSuite.Proofs.VerdictRules

/-! # Rules of images

Which rules of modules the images of variables and bodies keep, in terms of what they are images of.

* `hasAttribute_bindingImage` and `index?_bindingImage` say what binding attributes an image has;
* `globalBreaches_image_eq_nil_iff` and `localBreaches_image_eq_nil_iff` compare the rules of
  variables, `Statement.bodyBreaches_image_eq_nil_iff` those of bodies;
* `Function.HasImage` relates functions of a program and of a module that have the same body, with
  what a stage adds to it. -/

namespace BindingSuite

/-! ## Indices -/

/-- The number that an index holds. -/
def Index.toNat : Index → Nat
  | number value => value.toNat
  | _ => 0

/-- Two numbers amount to the same index exactly when they are equal. -/
theorem Index.normal_eq_normal_iff {first second : Index} (isFirst : first.IsNatural)
    (isSecond : second.IsNatural) : first.normal = second.normal ↔ first.toNat = second.toNat := by
  obtain ⟨value, rfl, -⟩ := isFirst
  obtain ⟨other, rfl, -⟩ := isSecond
  simp [toNat]

/-- A natural index is the number that it holds. -/
theorem Index.IsNatural.eq_number {index : Index} (natural : index.IsNatural) :
    index = .number index.toNat := by
  obtain ⟨value, rfl, -⟩ := natural
  rfl

/-- Two points with numbers for indices are the same place exactly when they have the same
numbers. -/
theorem BindingPoint.normal_eq_normal_iff {first second : BindingPoint}
    (isFirst : first.group.IsNatural ∧ first.binding.IsNatural)
    (isSecond : second.group.IsNatural ∧ second.binding.IsNatural) :
    first.normal = second.normal ↔
      (first.group.toNat, first.binding.toNat) = (second.group.toNat, second.binding.toNat) := by
  rw [normal, normal, mk.injEq, Prod.mk.injEq, Index.normal_eq_normal_iff isFirst.1 isSecond.1,
    Index.normal_eq_normal_iff isFirst.2 isSecond.2]

/-- The image of an index is an attribute with its number. -/
theorem indexImage_eq {name : String} {given : Option Index}
    (natural : ∀ index ∈ given, index.IsNatural) :
    indexImage name given =
      (given.map fun index => ⟨wordImage name, [.number index.toNat]⟩).toList := by
  cases given with
  | none => rfl
  | some index =>
    obtain ⟨value, rfl, -⟩ := natural index rfl
    rfl

section Attributes

variable {group binding : Option Index} (groupNatural : ∀ index ∈ group, index.IsNatural)
  (bindingNatural : ∀ index ∈ binding, index.IsNatural) {name : String} {given : Option Index}
  (isOne : (name = "group" ∧ given = group) ∨ (name = "binding" ∧ given = binding))

include groupNatural bindingNatural isOne

/-- The binding attributes of an image are those that were declared. -/
theorem findAttribute?_bindingImage :
    Wgsl.findAttribute? (bindingImage group binding) name =
      given.map fun index => ⟨wordImage name, [.number index.toNat]⟩ := by
  rw [bindingImage, indexImage_eq groupNatural, indexImage_eq bindingNatural]
  rcases isOne with ⟨rfl, same⟩ | ⟨rfl, same⟩ <;> rw [same] <;> cases group <;> cases binding <;>
    simp [Wgsl.findAttribute?, wordImage]

/-- An image has the binding attributes that were declared. -/
theorem hasAttribute_bindingImage :
    Wgsl.hasAttribute (bindingImage group binding) name = given.isSome := by
  rw [Wgsl.hasAttribute, findAttribute?_bindingImage groupNatural bindingNatural isOne,
    Option.isSome_map]

/-- The binding attributes of an image hold the numbers that were declared. -/
theorem index?_bindingImage :
    Wgsl.index? (bindingImage group binding) name = given.map Index.toNat := by
  rw [Wgsl.index?, findAttribute?_bindingImage groupNatural bindingNatural isOne]
  cases given <;> rfl

/-- The binding attributes of an image give indices. -/
theorem givesIndex_bindingImage {found : Wgsl.Attribute}
    (isFirst : Wgsl.findAttribute? (bindingImage group binding) name = some found) :
    found.GivesIndex := by
  rw [findAttribute?_bindingImage groupNatural bindingNatural isOne] at isFirst
  obtain ⟨index, -, rfl⟩ := Option.map_eq_some_iff.mp isFirst
  exact ⟨index.toNat, rfl⟩

omit isOne in
/-- An image has both binding attributes exactly when both were declared. -/
theorem hasBoth_bindingImage_iff :
    (Wgsl.hasAttribute (bindingImage group binding) "group" = true ∧
      Wgsl.hasAttribute (bindingImage group binding) "binding" = true) ↔
    group.isSome = true ∧ binding.isSome = true := by
  rw [hasAttribute_bindingImage groupNatural bindingNatural (.inl ⟨rfl, rfl⟩),
    hasAttribute_bindingImage groupNatural bindingNatural (.inr ⟨rfl, rfl⟩)]

omit isOne in
/-- An image has no binding attribute exactly when none was declared. -/
theorem hasNone_bindingImage_iff :
    (Wgsl.hasAttribute (bindingImage group binding) "group" = false ∧
      Wgsl.hasAttribute (bindingImage group binding) "binding" = false) ↔
    group = none ∧ binding = none := by
  rw [hasAttribute_bindingImage groupNatural bindingNatural (.inl ⟨rfl, rfl⟩),
    hasAttribute_bindingImage groupNatural bindingNatural (.inr ⟨rfl, rfl⟩),
    Option.isSome_eq_false_iff, Option.isSome_eq_false_iff, Option.isNone_iff_eq_none,
    Option.isNone_iff_eq_none]

end Attributes

/-! ## Variables -/

/-- A kind without an address space has the type of a texture or sampler. -/
theorem ResourceKind.isHandleType_storeType {kind : ResourceKind}
    (spaceless : kind.addressSpace? = none) : isHandleType kind.storeType = true := by
  revert spaceless
  cases kind <;> decide

/-- The image of a resource binds one. -/
theorem Resource.bindsResource_image (resource : Resource) : resource.image.BindsResource := by
  obtain ⟨name, kind, group, binding⟩ := resource
  cases kind with
  | uniform => exact .inl rfl
  | storage => exact .inr (.inl rfl)
  | _ => exact .inr (.inr ⟨rfl, ResourceKind.isHandleType_storeType rfl⟩)

/-- The image of a resource breaks no rule exactly when the resource has both attributes. -/
theorem Resource.globalBreaches_image_eq_nil_iff {resource : Resource}
    (wellFormed : resource.IsWellFormed) :
    Wgsl.globalBreaches resource.image = [] ↔
      resource.group.isSome = true ∧ resource.binding.isSome = true := by
  have attributes := hasBoth_bindingImage_iff wellFormed.group wellFormed.binding
  rw [Wgsl.Variable.globalBreaches_eq_nil_iff]
  constructor
  · intro rules
    exact attributes.mp (rules.resource resource.bindsResource_image)
  · intro complete
    refine ⟨fun _ => ?_, fun _ => ?_, fun _ => attributes.mpr complete, fun plain => ?_⟩
    · exact givesIndex_bindingImage wellFormed.group wellFormed.binding (.inl ⟨rfl, rfl⟩)
    · exact givesIndex_bindingImage wellFormed.group wellFormed.binding (.inr ⟨rfl, rfl⟩)
    · exact absurd resource.bindsResource_image plain

/-- The image of a variable in an address space for data binds no resource. -/
theorem ModuleVariable.not_bindsResource_image {declared : ModuleVariable}
    (space : declared.addressSpace = "private" ∨ declared.addressSpace = "workgroup") :
    ¬declared.image.BindsResource := by
  have given : declared.image.addressSpace? = some declared.addressSpace := rfl
  rw [Wgsl.Variable.BindsResource, given]
  rcases space with space | space <;> simp [space]

/-- The image of a variable in an address space for data breaks no rule exactly when the variable
has no binding attributes. -/
theorem ModuleVariable.globalBreaches_image_eq_nil_iff {declared : ModuleVariable}
    (wellFormed : declared.IsWellFormed)
    (space : declared.addressSpace = "private" ∨ declared.addressSpace = "workgroup") :
    Wgsl.globalBreaches declared.image = [] ↔ declared.group = none ∧ declared.binding = none := by
  have attributes := hasNone_bindingImage_iff wellFormed.group wellFormed.binding
  have holdsData : declared.image.HoldsData := space.imp (congrArg some) (congrArg some)
  rw [Wgsl.Variable.globalBreaches_eq_nil_iff]
  constructor
  · intro rules
    obtain ⟨group, binding, -⟩ := rules.plain (not_bindsResource_image space)
    exact attributes.mp ⟨group, binding⟩
  · intro bare
    obtain ⟨group, binding⟩ := attributes.mpr bare
    refine ⟨fun _ => ?_, fun _ => ?_, fun resource => ?_, fun _ => ⟨group, binding, holdsData⟩⟩
    · exact givesIndex_bindingImage wellFormed.group wellFormed.binding (.inl ⟨rfl, rfl⟩)
    · exact givesIndex_bindingImage wellFormed.group wellFormed.binding (.inr ⟨rfl, rfl⟩)
    · exact absurd resource (not_bindsResource_image space)

/-- The image of a local variable breaks no rule exactly when the variable keeps its own. -/
theorem LocalVariable.localBreaches_image_eq_nil_iff {declared : LocalVariable}
    (wellFormed : declared.IsWellFormed) :
    Wgsl.localBreaches declared.image = [] ↔ declared.KeepsRules := by
  have attributes := hasNone_bindingImage_iff wellFormed.group wellFormed.binding
  have space : declared.image.addressSpace? = declared.addressSpace :=
    Option.head?_toList ..
  rw [Wgsl.Variable.localBreaches_eq_nil_iff]
  constructor
  · rintro ⟨groupAbsent, bindingAbsent, inFunction, notHandle⟩
    obtain ⟨group, binding⟩ := attributes.mp ⟨groupAbsent, bindingAbsent⟩
    rw [space] at inFunction
    exact ⟨group, binding, inFunction, notHandle⟩
  · rintro ⟨group, binding, inFunction, notHandle⟩
    obtain ⟨groupAbsent, bindingAbsent⟩ := attributes.mpr ⟨group, binding⟩
    rw [← space] at inFunction
    exact ⟨groupAbsent, bindingAbsent, inFunction, notHandle⟩

/-! ## Bodies -/

/-- What a stage adds to a body reads nothing. -/
theorem Stage.usedNames_endImage (stage : Stage) (locals : List String) :
    Wgsl.Statement.usedNames locals stage.endImage = [] := by
  cases stage <;> rfl

/-- What a stage adds to a body breaks no rule: it calls a constructor at most. -/
theorem Stage.bodyBreaches_endImage (stage : Stage) (module : Wgsl.Module) (function : String)
    (locals : List String) : module.bodyBreaches function locals stage.endImage = [] := by
  cases stage with
  | vertex => simp [endImage, Wgsl.Module.bodyBreaches, Wgsl.Module.statementBreaches,
      Wgsl.Module.expressionBreaches, Wgsl.vectorConstructors, wordImage]
  | _ => rfl

/-- The image of a body uses what the body uses. -/
theorem Statement.usedNames_image (locals : List String) (body : List Statement) (stage : Stage) :
    Wgsl.Statement.usedNames locals (body.filterMap image? ++ stage.endImage) =
      usedNames locals body := by
  induction body generalizing locals with
  | nil => exact stage.usedNames_endImage locals
  | cons statement rest ih =>
    cases statement with
    | unknown => exact ih locals
    | _ => exact congrArg₂ _ rfl (ih _)

/-- The image of a body calls what the body calls. -/
theorem Statement.filterMap_callee?_image (body : List Statement) :
    (body.filterMap image?).filterMap Wgsl.Statement.callee? = body.filterMap callee? := by
  rw [List.filterMap_filterMap]
  refine List.filterMap_congr fun statement _ => ?_
  cases statement <;> rfl

/-- A well-formed statement has an image, which declares the same names and breaks no rule exactly
when the module has the function that the statement calls and the variable that it uses, and the
local variable that it declares keeps its rules. -/
theorem Statement.exists_image {statement : Statement} (wellFormed : statement.IsWellFormed)
    (module : Wgsl.Module) (function : String) (locals : List String) :
    ∃ image, statement.image? = some image ∧ image.declaredNames = statement.declaredNames ∧
      (module.statementBreaches function locals image = [] ↔
        (∀ callee ∈ statement.callee?, module.callBreaches function callee = []) ∧
        (∀ name ∈ statement.usedName?, name ∉ locals →
          name ∈ module.globals.map (·.name.text)) ∧
        ∀ declared ∈ statement.localVariable?, declared.KeepsRules) := by
  cases statement with
  | use name =>
    have reads (word : Wgsl.Word) :
        module.expressionBreaches function locals (.reference word) = [] ↔
          (word.text ∉ locals → word.text ∈ module.globals.map (·.name.text)) := by
      simp [Wgsl.Module.expressionBreaches, or_iff_not_imp_left]
    refine ⟨.drop (.reference (wordImage name)), rfl, rfl, ?_⟩
    rw [Wgsl.Module.statementBreaches, reads]
    simp [wordImage, callee?, usedName?, localVariable?]
  | call name =>
    refine ⟨.call (wordImage name), rfl, rfl, ?_⟩
    simp [Wgsl.Module.statementBreaches, wordImage, callee?, usedName?, localVariable?]
  | declare declared =>
    refine ⟨.declare declared.image, rfl, rfl, ?_⟩
    rw [Wgsl.Module.statementBreaches, LocalVariable.localBreaches_image_eq_nil_iff wellFormed]
    simp [callee?, usedName?, localVariable?]
  | unknown => exact wellFormed.elim

/-- The image of a body breaks no rule exactly when the module has the functions that the body calls
and the variables that it uses, and its local variables keep their rules. -/
theorem Statement.bodyBreaches_image_eq_nil_iff {body : List Statement}
    (wellFormed : ∀ statement ∈ body, statement.IsWellFormed) (stage : Stage)
    (module : Wgsl.Module) (function : String) (locals : List String) :
    module.bodyBreaches function locals (body.filterMap image? ++ stage.endImage) = [] ↔
      (∀ callee ∈ body.filterMap callee?, module.callBreaches function callee = []) ∧
      (∀ name ∈ usedNames locals body, name ∈ module.globals.map (·.name.text)) ∧
      ∀ declared ∈ body.filterMap localVariable?, declared.KeepsRules := by
  induction body generalizing locals with
  | nil => simpa [usedNames] using stage.bodyBreaches_endImage module function locals
  | cons statement rest ih =>
    rw [List.forall_mem_cons] at wellFormed
    -- The rest of the body stands below the locals that the first statement adds.
    obtain ⟨image, isImage, names, first⟩ :=
      Statement.exists_image wellFormed.1 module function locals
    rw [List.filterMap_cons_some isImage, List.cons_append, Wgsl.Module.bodyBreaches,
      List.append_eq_nil_iff, first, names, ih wellFormed.2, usedNames, List.forall_mem_append]
    simp only [List.forall_mem_filterMap, List.forall_mem_cons, List.mem_filter, Option.mem_toList,
      Option.mem_def, decide_eq_true_eq, and_imp]
    tauto

/-! ## Functions -/

/-- A function of a module is the image of a function of a program, up to attributes and result: it
has the same name and statements, behind which a position may be returned. -/
def Function.HasImage (function : Function) (image : Wgsl.Function) : Prop :=
  image.name = wordImage function.name ∧
    ∃ stage : Stage, image.body = function.body.filterMap Statement.image? ++ stage.endImage

namespace Function

variable {function : Function} {image : Wgsl.Function}

/-- A function has the image without a stage. -/
theorem hasImage_image (function : Function) : function.HasImage function.image :=
  ⟨rfl, .compute, (List.append_nil _).symm⟩

/-- A function has an image as the entry point of every stage. -/
theorem hasImage_entryPointImage (function : Function) (stage : Stage) :
    function.HasImage (stage.entryPointImage function) :=
  ⟨rfl, stage, rfl⟩

/-- An image has the name of its function. -/
theorem HasImage.name_eq (hasImage : function.HasImage image) :
    image.name.text = function.name := by
  rw [hasImage.1]
  rfl

/-- An image uses what its function uses. -/
theorem HasImage.uses_eq (hasImage : function.HasImage image) : image.uses = function.uses := by
  obtain ⟨-, stage, body⟩ := hasImage
  rw [Wgsl.Function.uses, body]
  exact Statement.usedNames_image [] function.body stage

/-- An image calls what its function calls, besides the constructor of positions. -/
theorem HasImage.mem_calls_iff (hasImage : function.HasImage image) {callee : String}
    (notPosition : callee ≠ "vec4f") : callee ∈ image.calls ↔ callee ∈ function.calls := by
  obtain ⟨-, stage, body⟩ := hasImage
  -- Only the end of a vertex entry point calls something.
  have ending : callee ∉ stage.endImage.filterMap Wgsl.Statement.callee? := by
    cases stage with
    | vertex => simpa [Stage.endImage, Wgsl.Statement.callee?, Wgsl.Statement.value?, wordImage]
    | _ => exact List.not_mem_nil
  rw [Wgsl.Function.calls, body, List.filterMap_append, Statement.filterMap_callee?_image,
    List.mem_append, or_iff_left ending, calls]

end Function

end BindingSuite
