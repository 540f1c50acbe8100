import BindingSuite.Proofs.Agreement
import BindingSuite.Proofs.Collisions

/-! # Blame

What a rejection for a collision blames. The verdict lists all collisions, and the compiler reports
one breach: where nothing but collisions speaks against a program, the compiler blames the first one
on the list.

* `Blames.message_eq` reads off the message of a breach what it blames;
* `reasons_eq_nil_of_isCollision` says what else is in order where a verdict lists only collisions;
* `breaches_image_eq_flatMap_entryPointBreaches` says that nothing else is breached where the
  verdict lists nothing else;
* `answer_blames_first_collision` concludes for the diagnostic on the text of a program. -/

namespace BindingSuite

/-! ## Breaches -/

/-- A reason is that two resources collide. -/
def Reason.IsCollision (reason : Reason) : Prop :=
  ∃ entryPoint owner other point, reason = .collision entryPoint owner other point

/-- Positions are no part of what a breach blames. -/
theorem Blames.of_unplaced {reason : Reason} {breach : Wgsl.Breach}
    (blames : Blames reason breach.unplaced) : Blames reason breach := by
  cases breach with
  | sharedPlace name owner entryPoint group binding =>
    cases blames with
    | collision isGroup isBinding => exact .collision isGroup isBinding
  | _ => cases blames

/-- The message of a breach says what it blames, in the words of the place. -/
theorem Blames.message_eq {entryPoint owner other : String} {point : BindingPoint}
    {breach : Wgsl.Breach} (blames : Blames (.collision entryPoint owner other point) breach) :
    ∃ position : Wgsl.Position, breach.message =
      position.text ++ ": '" ++ other ++ "' and '" ++ owner ++ "' used by entry point '"
        ++ entryPoint ++ "' share " ++ point.text := by
  cases blames with
  | @collision _ _ _ _ group binding position isGroup isBinding =>
    have words : "' share @group(" = "' share " ++ "@group(" := by decide
    refine ⟨position, ?_⟩
    rw [BindingPoint.text, isGroup, isBinding]
    change _ ++ "' share @group(" ++ group.repr ++ ") @binding(" ++ binding.repr ++ ")" =
      _ ++ ("@group(" ++ group.repr ++ ") @binding(" ++ binding.repr ++ ")")
    rw [words]
    simp only [String.append_assoc]

namespace Program

/-! ## Verdicts on collisions -/

variable {program : Program}

/-- A reason from declarations, attributes or scopes is no collision. -/
theorem not_isCollision {reason : Reason}
    (member : reason ∈ program.declarationReasons ++ program.attributeReasons ++
      program.scopeReasons) : ¬reason.IsCollision := by
  rintro ⟨entryPoint, owner, other, point, rfl⟩
  rw [List.mem_append, List.mem_append] at member
  rcases member with (declarations | attributes) | scopes
  · simp [declarationReasons, referenceReasons] at declarations
  · simp [attributeReasons] at attributes
  · rcases List.mem_append.mp scopes with ofVariable | ofLocal
    · simp at ofVariable
    · obtain ⟨function, -, ofLocal⟩ := List.mem_flatMap.mp ofLocal
      obtain ⟨declared, -, ofLocal⟩ := List.mem_flatMap.mp ofLocal
      rw [localReasons, List.mem_append, List.mem_append] at ofLocal
      rcases ofLocal with (ofAttributes | ofSpace) | ofType
      · simp at ofAttributes
      · split at ofSpace
        · split at ofSpace <;> simp at ofSpace
        · cases ofSpace
      · simp at ofType

/-- Where a verdict lists only collisions, declarations, attributes and scopes are in order. -/
theorem reasons_eq_nil_of_isCollision
    (only : ∀ reason ∈ program.verdict.reasons, reason.IsCollision) :
    program.declarationReasons = [] ∧ program.attributeReasons = [] ∧
      program.scopeReasons = [] := by
  have none : program.declarationReasons ++ program.attributeReasons ++ program.scopeReasons = [] :=
    List.eq_nil_iff_forall_not_mem.mpr fun reason member =>
      not_isCollision member (only reason (List.mem_append_left _ member))
  rw [List.append_eq_nil_iff, List.append_eq_nil_iff, and_assoc] at none
  exact none

/-! ## Breaches of images -/

section WellFormed

variable (wellFormed : program.IsWellFormed)
  (free : ∀ function ∈ program.functions, function.name ≠ "vec4f")
  (spaces : ∀ declared ∈ program.globals,
    declared.addressSpace = "private" ∨ declared.addressSpace = "workgroup")

include wellFormed

include free spaces

/-- Where declarations, attributes and scopes are in order, only entry points of the image can break
rules. -/
theorem breaches_image_eq_flatMap_entryPointBreaches
    (declarations : program.declarationReasons = [])
    (attributes : program.attributeReasons = []) (scopes : program.scopeReasons = []) :
    program.image.breaches =
      program.image.entryPoints.flatMap program.image.entryPointBreaches := by
  obtain ⟨names, references, acyclic⟩ := declarationReasons_eq_nil_iff.mp declarations
  obtain ⟨plain, locals⟩ := scopeReasons_eq_nil_iff.mp scopes
  have distinct : Wgsl.nameBreaches [] program.image.declaredNames = [] := by
    rw [Wgsl.nameBreaches_eq_nil_iff, fresh_nil_iff, declaredNames_image wellFormed]
    exact names
  have globals : program.image.globals.flatMap Wgsl.globalBreaches = [] :=
    (flatMap_globalBreaches_image_eq_nil_iff wellFormed spaces).mpr
      ⟨attributeReasons_eq_nil_iff.mp attributes, plain⟩
  have functions : program.image.functions.flatMap program.image.functionBreaches = [] := by
    rw [flatMap_functionBreaches_image_eq_nil_iff wellFormed free names]
    intro function member
    exact ⟨(references function member).2, (references function member).1,
      locals function member, acyclic function member⟩
  rw [Wgsl.Module.breaches, distinct, globals, functions]
  rfl

end WellFormed

/-- The compiler blames what the verdict blames first. The verdict on a well-formed program, whose
plain variables lie in address spaces for data and of which no function is called `vec4f`, may list
collisions and nothing else. Then the first one listed is between two resources that an entry point
uses, the first one declared at their place and a later one. The program has a text that the
compiler rejects, and its only diagnostic names the same entry point, the same two resources and the
same place. -/
theorem answer_blames_first_collision (wellFormed : program.IsWellFormed)
    (free : ∀ function ∈ program.functions, function.name ≠ "vec4f")
    (spaces : ∀ declared ∈ program.globals,
      declared.addressSpace = "private" ∨ declared.addressSpace = "workgroup")
    (only : ∀ reason ∈ program.verdict.reasons, reason.IsCollision)
    (rejected : program.verdict.reasons ≠ []) :
    ∃ entryPoint ∈ program.entryPoints, ∃ holder other point,
      program.Collides entryPoint holder other point ∧
      program.verdict.reasons.head? =
        some (.collision entryPoint.name holder.name other.name point) ∧
      ∃ source, program.text = .ok source ∧ ∃ position : Wgsl.Position,
        Wgsl.answer source = .ok ⟨false, [position.text ++ ": '" ++ other.name ++ "' and '" ++
          holder.name ++ "' used by entry point '" ++ entryPoint.name ++ "' share " ++
          point.text]⟩ := by
  obtain ⟨declarations, attributes, scopes⟩ := reasons_eq_nil_of_isCollision only
  have reasons : program.verdict.reasons = program.collisionReasons := by
    rw [verdict, declarations, attributes, scopes]
    rfl
  have names := (declarationReasons_eq_nil_iff.mp declarations).1
  -- What the text declares breaks the rules of its image, in the same order.
  obtain ⟨source, module, isText, read, meaning⟩ := exists_ofSource wellFormed
  have breaches : List.Forall₂ Blames program.collisionReasons module.breaches := by
    have blames := blames_collisionReasons wellFormed free spaces names
    rw [← breaches_image_eq_flatMap_entryPointBreaches wellFormed free spaces declarations
      attributes scopes, ← meaning, Wgsl.Module.breaches_unplaced, List.forall₂_map_right_iff]
      at blames
    exact blames.imp fun _ _ => Blames.of_unplaced
  obtain ⟨first, rest, isFirst⟩ := List.exists_cons_of_ne_nil (reasons ▸ rejected)
  obtain ⟨entryPoint, isEntryPoint, holder, other, point, rfl, collides⟩ :=
    exists_collides_of_mem_collisionReasons (isFirst ▸ List.mem_cons_self)
  refine ⟨entryPoint, isEntryPoint, holder, other, point, collides, ?_, source, isText, ?_⟩
  · rw [reasons, isFirst, List.head?_cons]
  rw [isFirst] at breaches
  obtain ⟨breach, others, blames, -, isBreach⟩ := List.forall₂_cons_left_iff.mp breaches
  obtain ⟨position, message⟩ := blames.message_eq
  refine ⟨position, ?_⟩
  rw [Wgsl.answer, read]
  change Except.ok module.answer = _
  rw [Wgsl.Module.answer, isBreach, ← message]

/-- A vertex entry point uses a texture and, through a helper, a buffer and a uniform at the same
place. The compiler blames the buffer, which comes second. -/
theorem answer_blames_first_collision_buffer :
    ∃ source, Program.text
          ⟨[⟨"image", .texture2D, some 0, some 1⟩, ⟨"buffer", .storage, some 0, some 1⟩,
              ⟨"lights", .uniform, some 0, some 1⟩],
            [], [⟨"helper", [.use "lights", .use "buffer"]⟩],
            [⟨⟨"main", [.call "helper", .use "image"]⟩, "vertex"⟩]⟩ = .ok source ∧
      ∃ position : Wgsl.Position, Wgsl.answer source = .ok ⟨false, [position.text ++
        ": 'buffer' and 'image' used by entry point 'main' share @group(0) @binding(1)"]⟩ := by
  have resource (name : String) (kind : ResourceKind) (plain : IsPlainName name) :
      Resource.IsWellFormed ⟨name, kind, some 0, some 1⟩ :=
    ⟨plain, Index.isNatural_of_mem_some 0 (by decide), Index.isNatural_of_mem_some 1 (by decide)⟩
  have helper : Function.IsWellFormed ⟨"helper", [.use "lights", .use "buffer"]⟩ :=
    ⟨by decide, List.forall_mem_cons.mpr ⟨(by decide : IsPlainName "lights"),
      List.forall_mem_singleton.mpr (by decide : IsPlainName "buffer")⟩⟩
  have main : EntryPoint.IsWellFormed ⟨⟨"main", [.call "helper", .use "image"]⟩, "vertex"⟩ :=
    ⟨⟨by decide, List.forall_mem_cons.mpr ⟨(by decide : IsPlainName "helper"),
      List.forall_mem_singleton.mpr (by decide : IsPlainName "image")⟩⟩, .vertex, rfl⟩
  let program : Program :=
    ⟨[⟨"image", .texture2D, some 0, some 1⟩, ⟨"buffer", .storage, some 0, some 1⟩,
        ⟨"lights", .uniform, some 0, some 1⟩],
      [], [⟨"helper", [.use "lights", .use "buffer"]⟩],
      [⟨⟨"main", [.call "helper", .use "image"]⟩, "vertex"⟩]⟩
  have wellFormed : program.IsWellFormed :=
    ⟨List.forall_mem_cons.mpr ⟨resource "image" .texture2D (by decide),
        List.forall_mem_cons.mpr ⟨resource "buffer" .storage (by decide),
          List.forall_mem_singleton.mpr (resource "lights" .uniform (by decide))⟩⟩,
      nofun, List.forall_mem_singleton.mpr helper, List.forall_mem_singleton.mpr main⟩
  have reasons : program.verdict.reasons = [.collision "main" "image" "buffer" ⟨0, 1⟩,
      .collision "main" "image" "lights" ⟨0, 1⟩] := by
    cbv
  obtain ⟨entryPoint, -, holder, other, point, -, isFirst, source, isText, position, isAnswer⟩ :=
    answer_blames_first_collision wellFormed
      (List.forall_mem_cons.mpr ⟨by decide, List.forall_mem_singleton.mpr (by decide)⟩) nofun
      (by rw [reasons]; simp [Reason.IsCollision]) (by rw [reasons]; exact List.cons_ne_nil _ _)
  rw [reasons, List.head?_cons, Option.some_inj, Reason.collision.injEq] at isFirst
  obtain ⟨isMain, isImage, isBuffer, rfl⟩ := isFirst
  refine ⟨source, isText, position, ?_⟩
  rw [isAnswer, ← isMain, ← isImage, ← isBuffer]
  simp only [String.append_assoc]
  rfl

end Program

end BindingSuite
