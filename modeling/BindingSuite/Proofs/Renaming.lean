import BindingSuite.Proofs.Agreement
import BindingSuite.Proofs.Validity

/-! # Renaming

Which names a program uses has no say in whether it is accepted, as long as they are told apart.

* `Program.renamed` renames everything that a program declares, uses and calls, and `renameText`
  makes a function on texts of an injective renaming of plain names;
* `calls_renamed` and `uses_renamed` say that the calls and uses are renamed with the program, and
  `transGen_map_iff` and `reflTransGen_map_iff` that chains of calls are;
* `isValid_renamed_iff` draws the conclusion for validity, `accepted_verdict_renamed` for the
  verdict and `accepted_renamed` for the compiler's answer too.

The text of a vertex entry point mentions one name of its own, the constructor `vec4f`. The compiler
does not ask for a function of this name, but once there is one it counts the constructor as a call
of this function: `accepted_answer_renamed_position` is a program that is rejected for it. -/

namespace BindingSuite

/-! ## Renamed relations -/

section Map

variable {α β : Type} {calls : α → α → Prop} {rename : α → β}
  (injective : Function.Injective rename) {source : α} {target : β}

include injective

/-- From a renamed source, what is reached over one or more renamed steps is what was reached,
renamed. -/
theorem transGen_map_iff :
    Relation.TransGen (Relation.Map calls rename rename) (rename source) target ↔
      ∃ original, Relation.TransGen calls source original ∧ rename original = target := by
  constructor
  · -- Each further step starts where the chain is, as no two nodes get one name.
    intro chain
    induction chain with
    | single step =>
      obtain ⟨first, second, step, same, rfl⟩ := step
      obtain rfl := injective same
      exact ⟨second, .single step, rfl⟩
    | tail _ step ih =>
      obtain ⟨middle, chain, rfl⟩ := ih
      obtain ⟨first, second, step, same, rfl⟩ := step
      obtain rfl := injective same
      exact ⟨second, chain.tail step, rfl⟩
  · rintro ⟨original, chain, rfl⟩
    exact Relation.TransGen.lift rename (Relation.le_onFun_map rename) _ _ chain

/-- From a renamed source, what is reached over renamed steps is what was reached, renamed. -/
theorem reflTransGen_map_iff :
    Relation.ReflTransGen (Relation.Map calls rename rename) (rename source) target ↔
      ∃ original, Relation.ReflTransGen calls source original ∧ rename original = target := by
  simp only [Relation.reflTransGen_iff_eq_or_transGen, transGen_map_iff injective, or_and_right,
    exists_or, exists_eq_left, @eq_comm _ target]

/-- Renamed steps lead nowhere back exactly when the steps did not. -/
theorem acyclic_map_iff :
    (∀ node, ¬Relation.TransGen (Relation.Map calls rename rename) node node) ↔
      ∀ node, ¬Relation.TransGen calls node node := by
  constructor
  · intro acyclic node cycle
    exact acyclic (rename node) ((transGen_map_iff injective).mpr ⟨node, cycle, rfl⟩)
  · intro acyclic node cycle
    -- A cycle starts with a renamed step, hence at a renamed node.
    obtain ⟨_, ⟨source, _, _, rfl, _⟩, _⟩ := Relation.TransGen.head'_iff.mp cycle
    obtain ⟨original, cycle, same⟩ := (transGen_map_iff injective).mp cycle
    obtain rfl := injective same
    exact acyclic original cycle

end Map

/-! ## Renamed programs -/

section Renamed

variable (rename : String → String)

/-- A resource of another name. -/
def Resource.renamed (resource : Resource) : Resource :=
  { resource with name := rename resource.name }

/-- A plain variable of another name. -/
def ModuleVariable.renamed (declared : ModuleVariable) : ModuleVariable :=
  { declared with name := rename declared.name }

/-- A local variable of another name. -/
def LocalVariable.renamed (declared : LocalVariable) : LocalVariable :=
  { declared with name := rename declared.name }

/-- A statement with other names. -/
def Statement.renamed : Statement → Statement
  | use name => use (rename name)
  | call name => call (rename name)
  | declare localVariable => declare (localVariable.renamed rename)
  | unknown => unknown

/-- A function of another name, with other names in its body. -/
def Function.renamed (function : Function) : Function :=
  ⟨rename function.name, function.body.map (Statement.renamed rename)⟩

/-- An entry point of another name, with other names in its body. -/
def EntryPoint.renamed (entryPoint : EntryPoint) : EntryPoint :=
  ⟨entryPoint.toFunction.renamed rename, entryPoint.stage⟩

/-- A program with other names. -/
def Program.renamed (program : Program) : Program :=
  { resources := program.resources.map (Resource.renamed rename)
    globals := program.globals.map (ModuleVariable.renamed rename)
    helpers := program.helpers.map (Function.renamed rename)
    entryPoints := program.entryPoints.map (EntryPoint.renamed rename) }

end Renamed

variable {rename : String → String}

/-! ## Bodies -/

namespace Statement

/-- Renaming renames the name that a statement uses. -/
theorem usedName?_renamed (statement : Statement) :
    (statement.renamed rename).usedName? = statement.usedName?.map rename := by
  cases statement <;> rfl

/-- Renaming renames the function that a statement calls. -/
theorem callee?_renamed (statement : Statement) :
    (statement.renamed rename).callee? = statement.callee?.map rename := by
  cases statement <;> rfl

/-- Renaming renames the local variable that a statement declares. -/
theorem localVariable?_renamed (statement : Statement) :
    (statement.renamed rename).localVariable? =
      statement.localVariable?.map (LocalVariable.renamed rename) := by
  cases statement <;> rfl

/-- Renaming renames the name that a statement declares. -/
theorem declaredNames_renamed (statement : Statement) :
    (statement.renamed rename).declaredNames = statement.declaredNames.map rename := by
  cases statement <;> rfl

/-- An injective renaming renames the names that a body uses, as it hides no further ones. -/
theorem usedNames_renamed (injective : Function.Injective rename) (locals : List String)
    (body : List Statement) :
    usedNames (locals.map rename) (body.map (renamed rename)) =
      (usedNames locals body).map rename := by
  induction body generalizing locals with
  | nil => rfl
  | cons statement rest ih =>
    -- A renamed name is hidden by the renamed locals exactly when the name was by the locals.
    have used : (statement.usedName?.map rename).toList.filter (· ∉ locals.map rename) =
        (statement.usedName?.toList.filter (· ∉ locals)).map rename := by
      rw [Option.toList_map, List.filter_map]
      simp only [Function.comp_def, List.mem_map_of_injective injective]
    rw [List.map_cons, usedNames, usedNames, usedName?_renamed, declaredNames_renamed,
      ← List.map_append, ih, used, List.map_append]

end Statement

namespace Function

variable {function : Function}

/-- Renaming renames the functions that a body calls. -/
theorem calls_renamed : (function.renamed rename).calls = function.calls.map rename := by
  simp only [calls, renamed, List.filterMap_map, List.map_filterMap, Function.comp_def,
    Statement.callee?_renamed]

/-- Renaming renames the local variables of a body. -/
theorem locals_renamed :
    (function.renamed rename).locals = function.locals.map (LocalVariable.renamed rename) := by
  simp only [locals, renamed, List.filterMap_map, List.map_filterMap, Function.comp_def,
    Statement.localVariable?_renamed]

/-- A renamed body calls what the body called, renamed. -/
theorem call_mem_renamed_iff {callee : String} :
    .call callee ∈ (function.renamed rename).body ↔
      ∃ original, .call original ∈ function.body ∧ rename original = callee := by
  simp only [← mem_calls, calls_renamed, List.mem_map]

/-- A renamed body declares what the body declared, renamed. -/
theorem declare_mem_renamed_iff {declared : LocalVariable} :
    .declare declared ∈ (function.renamed rename).body ↔
      ∃ original, .declare original ∈ function.body ∧ original.renamed rename = declared := by
  simp only [← mem_locals, locals_renamed, List.mem_map]

/-- A body that is injectively renamed reads what the body read, renamed. -/
theorem readsName_renamed_iff (injective : Function.Injective rename) {name : String} :
    (function.renamed rename).ReadsName name ↔
      ∃ original, function.ReadsName original ∧ rename original = name := by
  have uses : (function.renamed rename).uses = function.uses.map rename :=
    Statement.usedNames_renamed injective [] function.body
  simp only [← mem_uses, uses, List.mem_map]

end Function

/-- The rules of local variables do not speak of names. -/
theorem LocalVariable.keepsRules_renamed_iff {declared : LocalVariable} :
    (declared.renamed rename).KeepsRules ↔ declared.KeepsRules :=
  ⟨fun rules => ⟨rules.group, rules.binding, rules.addressSpace, rules.notHandle⟩,
    fun rules => ⟨rules.group, rules.binding, rules.addressSpace, rules.notHandle⟩⟩

namespace Program

variable {program : Program}

/-! ## Declarations -/

/-- Renaming renames the functions. -/
theorem functions_renamed :
    (program.renamed rename).functions = program.functions.map (Function.renamed rename) := by
  simp only [functions, renamed, List.map_append, List.map_map]
  rfl

/-- Renaming renames the names of variables. -/
theorem variableNames_renamed :
    (program.renamed rename).variableNames = program.variableNames.map rename := by
  simp only [variableNames, renamed, List.map_append, List.map_map]
  rfl

/-- Renaming renames the names of helpers. -/
theorem names_helpers_renamed :
    (program.renamed rename).helpers.map (·.name) = (program.helpers.map (·.name)).map rename := by
  simp only [renamed, List.map_map]
  rfl

/-- Renaming renames the names of entry points. -/
theorem names_entryPoints_renamed :
    (program.renamed rename).entryPoints.map (·.name) =
      (program.entryPoints.map (·.name)).map rename := by
  simp only [renamed, List.map_map]
  rfl

/-- Renaming renames the declared names. -/
theorem declaredNames_renamed :
    (program.renamed rename).declaredNames = program.declaredNames.map rename := by
  rw [declaredNames, declaredNames, variableNames_renamed, functions_renamed, List.map_append,
    List.map_map, List.map_map]
  rfl

/-! ## Calls and uses -/

/-- Renaming renames the calls. -/
theorem calls_renamed :
    (program.renamed rename).Calls = Relation.Map program.Calls rename rename := by
  funext caller callee
  simp only [Calls, functions_renamed, List.mem_map, exists_exists_and_eq_and,
    Function.call_mem_renamed_iff, Relation.Map, eq_iff_iff]
  constructor
  · rintro ⟨function, isFunction, rfl, original, call, rfl⟩
    exact ⟨function.name, original, ⟨function, isFunction, rfl, call⟩, rfl, rfl⟩
  · rintro ⟨_, original, ⟨function, isFunction, rfl, call⟩, rfl, rfl⟩
    exact ⟨function, isFunction, rfl, original, call, rfl⟩

section Injective

variable (injective : Function.Injective rename)

include injective

/-- An injective renaming renames the uses. -/
theorem uses_renamed :
    (program.renamed rename).Uses = Relation.Map program.Uses rename rename := by
  funext name variableName
  simp only [Uses, functions_renamed, List.mem_map, exists_exists_and_eq_and,
    Function.readsName_renamed_iff injective, Relation.Map, eq_iff_iff]
  constructor
  · rintro ⟨function, isFunction, rfl, original, reads, rfl⟩
    exact ⟨function.name, original, ⟨function, isFunction, rfl, reads⟩, rfl, rfl⟩
  · rintro ⟨_, original, ⟨function, isFunction, rfl, reads⟩, rfl, rfl⟩
    exact ⟨function, isFunction, rfl, original, reads, rfl⟩

/-- An injective renaming renames the variables to which a function leads. -/
theorem leadsTo_renamed_iff {name variableName : String} :
    (program.renamed rename).LeadsTo (rename name) (rename variableName) ↔
      program.LeadsTo name variableName := by
  simp only [LeadsTo, calls_renamed, uses_renamed injective, reflTransGen_map_iff injective]
  constructor
  · rintro ⟨_, ⟨user, chain, rfl⟩, use⟩
    rw [Relation.map_apply_apply injective injective] at use
    exact ⟨user, chain, use⟩
  · rintro ⟨user, chain, use⟩
    exact ⟨rename user, ⟨user, chain, rfl⟩, user, variableName, use, rfl, rfl⟩

/-- An injective renaming keeps validity. -/
theorem isValid_renamed_iff : (program.renamed rename).IsValid ↔ program.IsValid := by
  rw [isValid_iff, isValid_iff, declaredNames_renamed, List.nodup_map_iff injective,
    variableNames_renamed, names_helpers_renamed, names_entryPoints_renamed, functions_renamed,
    calls_renamed, uses_renamed injective, acyclic_map_iff injective]
  -- Names, calls and uses go over to their renamed counterparts; what is declared about resources
  -- and variables does not speak of names.
  refine and_congr_right fun _ => and_congr ?_ (and_congr ?_ (and_congr_right fun _ =>
    and_congr ?_ (and_congr ?_ (and_congr ?_ ?_))))
  · constructor
    · intro declared user name use
      rw [← List.mem_map_of_injective injective]
      exact declared _ _ ⟨user, name, use, rfl, rfl⟩
    · rintro declared _ _ ⟨user, name, use, rfl, rfl⟩
      exact List.mem_map_of_mem (declared user name use)
  · constructor
    · intro resolved caller callee call
      rw [← List.mem_map_of_injective injective]
      exact resolved _ _ ⟨caller, callee, call, rfl, rfl⟩
    · rintro resolved _ _ ⟨caller, callee, call, rfl, rfl⟩
      exact List.mem_map_of_mem (resolved caller callee call)
  · exact List.forall_mem_map
  · exact List.forall_mem_map
  · simp only [List.forall_mem_map, Function.declare_mem_renamed_iff, forall_exists_index, and_imp,
      forall_apply_eq_imp_iff₂, LocalVariable.keepsRules_renamed_iff]
  · have resources : (program.renamed rename).resources =
        program.resources.map (Resource.renamed rename) := rfl
    have name (resource : Resource) : (resource.renamed rename).name = rename resource.name := rfl
    have isApart (first second : Resource) :
        (first.renamed rename).IsApartFrom (second.renamed rename) ↔ first.IsApartFrom second :=
      .rfl
    simp only [resources, List.forall_mem_map, name, leadsTo_renamed_iff injective,
      injective.ne_iff, isApart]

/-- The verdict on any program is the same under an injective renaming. -/
theorem accepted_verdict_renamed :
    (program.renamed rename).verdict.accepted = program.verdict.accepted := by
  rw [Bool.eq_iff_iff, accepted_verdict_iff_isValid, accepted_verdict_iff_isValid,
    isValid_renamed_iff injective]

end Injective

end Program

/-! ## Plain names -/

/-- The names that are no keywords. -/
abbrev PlainName :=
  {name : String // IsPlainName name}

/-- A renaming of plain names as a function on texts, which leaves other texts alone. -/
def renameText (naming : PlainName ↪ PlainName) (text : String) : String :=
  if plain : IsPlainName text then naming ⟨text, plain⟩ else text

section RenameText

variable {naming : PlainName ↪ PlainName}

/-- A plain name is renamed as a plain name. -/
theorem renameText_of_plain {text : String} (plain : IsPlainName text) :
    renameText naming text = naming ⟨text, plain⟩ := by
  rw [renameText, dif_pos plain]

/-- A plain name gets a plain name. -/
theorem isPlainName_renameText {text : String} (plain : IsPlainName text) :
    IsPlainName (renameText naming text) := by
  rw [renameText_of_plain plain]
  exact (naming ⟨text, plain⟩).property

/-- A text that is no plain name is left alone. -/
theorem renameText_of_not_plain {text : String} (notPlain : ¬IsPlainName text) :
    renameText naming text = text := by
  rw [renameText, dif_neg notPlain]

/-- A renaming of plain names tells all texts apart. -/
theorem renameText_injective : Function.Injective (renameText naming) := by
  -- A plain name gets a plain name and any other text does not, so the two are not confused.
  intro first second same
  by_cases isFirst : IsPlainName first <;> by_cases isSecond : IsPlainName second
  · rw [renameText_of_plain isFirst, renameText_of_plain isSecond] at same
    exact congrArg Subtype.val (naming.injective (Subtype.ext same))
  · rw [renameText_of_not_plain isSecond] at same
    exact absurd (same ▸ isPlainName_renameText isFirst) isSecond
  · rw [renameText_of_not_plain isFirst] at same
    exact absurd (same ▸ isPlainName_renameText isSecond) isFirst
  · rwa [renameText_of_not_plain isFirst, renameText_of_not_plain isSecond] at same

/-! ## Well-formed programs -/

/-- A renamed statement is well-formed. -/
theorem Statement.isWellFormed_renamed {statement : Statement}
    (wellFormed : statement.IsWellFormed) :
    (statement.renamed (renameText naming)).IsWellFormed := by
  cases statement with
  | use name => exact isPlainName_renameText wellFormed
  | call name => exact isPlainName_renameText wellFormed
  | declare declared =>
    obtain ⟨name, addressSpace, type, group, binding⟩ : declared.IsWellFormed := wellFormed
    exact ⟨isPlainName_renameText name, addressSpace, type, group, binding⟩
  | unknown => exact wellFormed

/-- A renamed function is well-formed. -/
theorem Function.isWellFormed_renamed {function : Function} (wellFormed : function.IsWellFormed) :
    (function.renamed (renameText naming)).IsWellFormed :=
  ⟨isPlainName_renameText wellFormed.name, List.forall_mem_map.mpr fun statement member =>
    Statement.isWellFormed_renamed (wellFormed.body statement member)⟩

/-- A renamed program is well-formed. -/
theorem Program.isWellFormed_renamed {program : Program} (wellFormed : program.IsWellFormed) :
    (program.renamed (renameText naming)).IsWellFormed where
  resources := List.forall_mem_map.mpr fun resource member =>
    have declared := wellFormed.resources resource member
    ⟨isPlainName_renameText declared.name, declared.group, declared.binding⟩
  globals := List.forall_mem_map.mpr fun globalVariable member =>
    have declared := wellFormed.globals globalVariable member
    ⟨isPlainName_renameText declared.name, declared.addressSpace, declared.type, declared.group,
      declared.binding⟩
  helpers := List.forall_mem_map.mpr fun helper member =>
    Function.isWellFormed_renamed (wellFormed.helpers helper member)
  entryPoints := List.forall_mem_map.mpr fun entryPoint member =>
    have declared := wellFormed.entryPoints entryPoint member
    ⟨Function.isWellFormed_renamed declared.function, declared.stage⟩

end RenameText

/-! ## Renaming -/

namespace Program

variable {program : Program}

/-- Names have no say in what is accepted. When the plain names of a well-formed program are given
other plain names, each its own, the verdict accepts the program as before. So does the compiler's
answer on its text, as long as no function is called `vec4f` before or after. -/
theorem accepted_renamed (wellFormed : program.IsWellFormed)
    (spaces : ∀ declared ∈ program.globals,
      declared.addressSpace = "private" ∨ declared.addressSpace = "workgroup")
    (naming : PlainName ↪ PlainName) :
    (program.renamed (renameText naming)).verdict.accepted = program.verdict.accepted ∧
      ((∀ function ∈ program.functions,
          function.name ≠ "vec4f" ∧ renameText naming function.name ≠ "vec4f") →
        ∃ source answer renamedSource renamedAnswer,
          program.text = .ok source ∧ Wgsl.answer source = .ok answer ∧
            (program.renamed (renameText naming)).text = .ok renamedSource ∧
            Wgsl.answer renamedSource = .ok renamedAnswer ∧
            renamedAnswer.accepted = answer.accepted) := by
  constructor
  · exact accepted_verdict_renamed renameText_injective
  · intro free
    -- Both texts are accepted exactly when the programs are valid.
    obtain ⟨source, answer, isText, isAnswer, accepted⟩ :=
      exists_answer_accepted_iff wellFormed (fun function member => (free function member).1) spaces
    have renamedFree : ∀ function ∈ (program.renamed (renameText naming)).functions,
        function.name ≠ "vec4f" := by
      rw [functions_renamed]
      exact List.forall_mem_map.mpr fun function member => (free function member).2
    obtain ⟨renamedSource, renamedAnswer, isRenamedText, isRenamedAnswer, renamedAccepted⟩ :=
      exists_answer_accepted_iff (isWellFormed_renamed wellFormed) renamedFree
        (List.forall_mem_map.mpr spaces)
    refine ⟨source, answer, renamedSource, renamedAnswer, isText, isAnswer, isRenamedText,
      isRenamedAnswer, ?_⟩
    rw [Bool.eq_iff_iff, renamedAccepted, accepted, keepsRules_iff_isValid, keepsRules_iff_isValid,
      isValid_renamed_iff renameText_injective]

/-- When an entry point with a collision that is called `main` is called `start` instead, the verdict
still rejects it, and the compiler says of its new text what it said of the old one. -/
theorem accepted_renamed_collision :
    let program : Program :=
      ⟨[⟨"image", .texture2D, some 0, some 1⟩, ⟨"buffer", .storage, some 0, some 1⟩], [], [],
        [⟨⟨"main", [.use "image", .use "buffer"]⟩, "vertex"⟩]⟩
    let naming : PlainName ↪ PlainName :=
      (Equiv.swap ⟨"main", by decide⟩ ⟨"start", by decide⟩).toEmbedding
    (program.renamed (renameText naming)).verdict.accepted = false ∧
      ∃ source answer renamedSource renamedAnswer,
        program.text = .ok source ∧ Wgsl.answer source = .ok answer ∧
          (program.renamed (renameText naming)).text = .ok renamedSource ∧
          Wgsl.answer renamedSource = .ok renamedAnswer ∧
          renamedAnswer.accepted = answer.accepted := by
  intro program naming
  have resource (name : String) (kind : ResourceKind) (plain : IsPlainName name) :
      Resource.IsWellFormed ⟨name, kind, some 0, some 1⟩ :=
    ⟨plain, Index.isNatural_of_mem_some 0 (by decide), Index.isNatural_of_mem_some 1 (by decide)⟩
  have main : EntryPoint.IsWellFormed ⟨⟨"main", [.use "image", .use "buffer"]⟩, "vertex"⟩ :=
    ⟨⟨by decide, List.forall_mem_cons.mpr ⟨(by decide : IsPlainName "image"),
      List.forall_mem_singleton.mpr (by decide : IsPlainName "buffer")⟩⟩, .vertex, rfl⟩
  have wellFormed : program.IsWellFormed :=
    ⟨List.forall_mem_cons.mpr ⟨resource "image" .texture2D (by decide),
        List.forall_mem_singleton.mpr (resource "buffer" .storage (by decide))⟩,
      List.forall_mem_nil _, List.forall_mem_nil _, List.forall_mem_singleton.mpr main⟩
  obtain ⟨sameVerdict, sameAnswer⟩ := accepted_renamed wellFormed (List.forall_mem_nil _) naming
  refine ⟨?_, sameAnswer (List.forall_mem_singleton.mpr (by decide +kernel))⟩
  rw [sameVerdict, ← Bool.not_eq_true, accepted_verdict_iff_isValid]
  intro valid
  have leads (name : String) (used : name ∈ ["image", "buffer"]) : program.LeadsTo "main" name := by
    refine ⟨"main", .refl, _, List.mem_singleton_self _, rfl, ?_⟩
    rw [Function.readsName_iff_of_noLocals (by simp)]
    simpa using used
  have apart := valid.places _ List.mem_cons_self ⟨"image", .texture2D, some 0, some 1⟩
    List.mem_cons_self ⟨"buffer", .storage, some 0, some 1⟩
    (List.mem_cons_of_mem _ List.mem_cons_self) (by decide) (leads _ List.mem_cons_self)
    (leads _ (List.mem_cons_of_mem _ List.mem_cons_self))
  exact absurd apart (by decide)

/-- A vertex entry point called `vec4f` makes the compiler reject a program: the position that it
returns counts as a call of the entry point itself. -/
theorem exists_answer_rejected_of_position (wellFormed : program.IsWellFormed)
    {entryPoint : EntryPoint} (member : entryPoint ∈ program.entryPoints)
    (isVertex : entryPoint.stage = "vertex") (isPosition : entryPoint.name = "vec4f") :
    ∃ source answer, program.text = .ok source ∧ Wgsl.answer source = .ok answer ∧
      answer.accepted = false := by
  obtain ⟨source, answer, isText, isAnswer, accepted⟩ := exists_answer_accepted_iff_image wellFormed
  refine ⟨source, answer, isText, isAnswer, ?_⟩
  rw [← Bool.not_eq_true, accepted, Wgsl.Module.breaches_eq_nil_iff]
  intro rules
  have isImage : Stage.vertex.entryPointImage entryPoint.toFunction ∈ program.image.functions :=
    mem_functions_image.mpr (.inr ⟨entryPoint, member, .vertex, by rw [isVertex]; rfl, rfl⟩)
  -- The statement that is added at the end of the body is the call.
  have returns : .leave (some (.call (wordImage "vec4f"))) ∈
      (Stage.vertex.entryPointImage entryPoint.toFunction).body :=
    List.mem_append_right _ (List.mem_singleton_self _)
  have callsItself : program.image.Calls entryPoint.name entryPoint.name :=
    ⟨_, isImage, rfl, _, returns, wordImage "vec4f", isPosition.symm, .inr rfl⟩
  exact rules.acyclic _ isImage (.single callsItself)

/-- The name `vec4f` has a say in what the compiler accepts. It accepts the text of a single vertex
entry point without statements that is called `main`, and rejects it when it is called `vec4f`. -/
theorem accepted_answer_renamed_position :
    let program : Program := ⟨[], [], [], [⟨⟨"main", []⟩, "vertex"⟩]⟩
    let naming : PlainName ↪ PlainName :=
      (Equiv.swap ⟨"main", by decide⟩ ⟨"vec4f", by decide⟩).toEmbedding
    ∃ source answer renamedSource renamedAnswer,
      program.text = .ok source ∧ Wgsl.answer source = .ok answer ∧
        (program.renamed (renameText naming)).text = .ok renamedSource ∧
        Wgsl.answer renamedSource = .ok renamedAnswer ∧
        answer.accepted = true ∧ renamedAnswer.accepted = false := by
  intro program naming
  have renamed : program.renamed (renameText naming) =
      ⟨[], [], [], [⟨⟨"vec4f", []⟩, "vertex"⟩]⟩ := by decide +kernel
  have main : EntryPoint.IsWellFormed ⟨⟨"main", []⟩, "vertex"⟩ :=
    ⟨⟨by decide, List.forall_mem_nil _⟩, .vertex, rfl⟩
  have wellFormed : program.IsWellFormed :=
    ⟨List.forall_mem_nil _, List.forall_mem_nil _, List.forall_mem_nil _,
      List.forall_mem_singleton.mpr main⟩
  have renamedWellFormed : (program.renamed (renameText naming)).IsWellFormed :=
    isWellFormed_renamed wellFormed
  obtain ⟨source, answer, isText, isAnswer, accepted⟩ :=
    exists_answer_accepted_iff wellFormed (List.forall_mem_singleton.mpr (by decide))
      (List.forall_mem_nil _)
  have isEntryPoint :
      ⟨⟨"vec4f", []⟩, "vertex"⟩ ∈ (program.renamed (renameText naming)).entryPoints := by
    rw [renamed]
    exact List.mem_singleton_self _
  obtain ⟨renamedSource, renamedAnswer, isRenamedText, isRenamedAnswer, rejected⟩ :=
    exists_answer_rejected_of_position renamedWellFormed isEntryPoint rfl rfl
  refine ⟨source, answer, renamedSource, renamedAnswer, isText, isAnswer, isRenamedText,
    isRenamedAnswer, ?_, rejected⟩
  -- Without statements there are no calls and no uses, hence nothing that could be invalid.
  have empty : ∀ function ∈ program.functions, ∀ statement, statement ∉ function.body :=
    List.forall_mem_singleton.mpr fun _ => List.not_mem_nil
  have callsNothing (caller callee : String) : ¬program.Calls caller callee :=
    fun ⟨function, member, _, call⟩ => empty function member _ call
  have usesNothing (user name : String) : ¬program.Uses user name :=
    fun ⟨function, member, _, _, starts, _⟩ =>
      empty function member (.use name) (starts.subset (by simp))
  rw [accepted, keepsRules_iff_isValid, isValid_iff]
  exact ⟨by decide, fun user name use => absurd use (usesNothing user name),
    fun caller callee call => absurd call (callsNothing caller callee),
    acyclic_of_no_calls callsNothing, List.forall_mem_nil _, List.forall_mem_nil _,
    fun function member _ declares => absurd declares (empty function member _),
    fun _ _ => List.forall_mem_nil _⟩

end Program

end BindingSuite
