import BindingSuite.Proofs.Validity

/-! # Inlining

A call of a helper may be replaced by the statements of the helper, which stays in the program.

* `Program.functionAt?` and `Program.withBody` find a function of a program and change its body;
* the section on detours compares the closures of two relations, of which one goes past a node
  where the other goes through it;
* `readsName_inlined_iff`, `leadsTo_inlined_iff` and `acyclic_inlined_iff` say what inlining keeps;
* `accepted_verdict_inlined` concludes that the verdict stays the same. -/

namespace BindingSuite

/-! ## Detours -/

section Detour

variable {α : Type} {calls inlined : α → α → Prop} {caller callee source target : α}
  (drawn : ∀ source target, inlined source target →
    calls source target ∨ source = caller ∧ calls callee target)
  (called : calls caller callee)

include drawn called

/-- Calls that are kept, or that the caller takes over from its callee, make no new chains. -/
theorem transGen_of_inlined (chain : Relation.TransGen inlined source target) :
    Relation.TransGen calls source target := by
  refine Relation.TransGen.closed (fun first second step => ?_) _ _ chain
  rcases drawn first second step with kept | ⟨rfl, taken⟩
  · exact .single kept
  · exact (Relation.TransGen.single called).tail taken

/-- What is reached over such calls was reached before. -/
theorem reflTransGen_of_inlined (chain : Relation.ReflTransGen inlined source target) :
    Relation.ReflTransGen calls source target := by
  rcases Relation.reflTransGen_iff_eq_or_transGen.mp chain with rfl | chain
  · exact .refl
  · exact (transGen_of_inlined drawn called chain).to_reflTransGen

variable
  (kept : ∀ source target, calls source target →
    inlined source target ∨ source = caller ∧ target = callee)
  (taken : ∀ target, calls callee target → inlined caller target)

include kept taken

omit drawn called in
/-- A chain of calls is kept, unless it ends with the call that was inlined. -/
theorem transGen_inlined_or (chain : Relation.TransGen calls source target) :
    Relation.TransGen inlined source target ∨
      target = callee ∧ Relation.ReflTransGen inlined source caller := by
  induction chain with
  | single call =>
    rcases kept _ _ call with call | ⟨rfl, rfl⟩
    · exact .inl (.single call)
    · exact .inr ⟨rfl, .refl⟩
  | @tail middle target _ call ih =>
    rcases ih with chain | ⟨rfl, chain⟩
    · rcases kept _ _ call with call | ⟨rfl, rfl⟩
      · exact .inl (chain.tail call)
      · exact .inr ⟨rfl, chain.to_reflTransGen⟩
    · -- The chain went through the callee, whose calls the caller has taken over.
      exact .inl (.tail' chain (taken target call))

omit called in
/-- Where nothing leads back to itself after inlining, nothing did before. -/
theorem acyclic_of_inlined (different : callee ≠ caller)
    (acyclic : ∀ node, ¬Relation.TransGen inlined node node) (node : α) :
    ¬Relation.TransGen calls node node := by
  intro cycle
  rcases transGen_inlined_or kept taken cycle with cycle | ⟨rfl, chain⟩
  · exact acyclic node cycle
  · -- The cycle ran through both, so that the caller, past its callee, still leads back to itself.
    rcases chain.cases_head with same | ⟨next, first, rest⟩
    · exact different same
    · rcases drawn _ _ first with call | ⟨same, -⟩
      · exact acyclic caller (.head' (taken next call) rest)
      · exact different same

end Detour

/-! ## Bodies -/

namespace Statement

variable {locals : List String} {body front back : List Statement} {name : String}

/-- The names that a body uses below further locals are those that they do not hide. -/
theorem mem_usedNames_append_locals {new : List String} :
    name ∈ usedNames (new ++ locals) body ↔ name ∉ new ∧ name ∈ usedNames locals body := by
  rw [mem_usedNames, mem_usedNames, List.mem_append, not_or, and_assoc]

/-- A body uses the names that its front uses and those that its back uses below the locals of the
front. -/
theorem mem_usedNames_append :
    name ∈ usedNames locals (front ++ back) ↔
      name ∈ usedNames locals front ∨ name ∈ usedNames locals back ∧
        ∀ declared, .declare declared ∈ front → declared.name ≠ name := by
  induction front generalizing locals with
  | nil => simp [usedNames]
  | cons first rest ih =>
    have hidden : (∀ declared, .declare declared ∈ first :: rest → declared.name ≠ name) ↔
        name ∉ first.declaredNames ∧
          ∀ declared, .declare declared ∈ rest → declared.name ≠ name := by
      simp only [List.mem_cons, mem_declaredNames, not_exists, not_and, or_imp, forall_and,
        @eq_comm _ first]
    rw [List.cons_append, usedNames, usedNames, List.mem_append, List.mem_append, ih, hidden]
    simp only [mem_usedNames_append_locals]
    tauto

end Statement

namespace Function

variable {function helper : Function} {before after : List Statement}
  (isBody : function.body = before ++ .call helper.name :: after)
  (noLocals : ∀ declared, .declare declared ∉ helper.body)
  (visible : ∀ declared, .declare declared ∈ before → .use declared.name ∉ helper.body)

include isBody noLocals visible

/-- A function into which a helper is inlined reads what it read and what the helper reads. -/
theorem readsName_inlined_iff {name : String} :
    ReadsName { function with body := before ++ helper.body ++ after } name ↔
      function.ReadsName name ∨ helper.ReadsName name := by
  have hidden (read : name ∈ Statement.usedNames [] helper.body) (declared : LocalVariable)
      (declares : .declare declared ∈ before) : declared.name ≠ name := by
    rintro rfl
    obtain ⟨-, front, starts, -⟩ := Statement.mem_usedNames.mp read
    exact visible declared declares (starts.subset (by simp))
  have call : Statement.usedNames [] (.call helper.name :: after) = Statement.usedNames [] after :=
    rfl
  rw [← mem_uses, ← mem_uses, ← mem_uses, uses, uses, uses, isBody, List.append_assoc,
    Statement.mem_usedNames_append, Statement.mem_usedNames_append, Statement.mem_usedNames_append,
    call]
  -- The body of the helper hides nothing, and nothing in front of the call hides what it reads.
  simp only [noLocals, false_implies, implies_true, and_true]
  tauto

omit visible in
/-- A function into which a helper is inlined declares what it declared. -/
theorem mem_body_inlined_iff {declared : LocalVariable} :
    .declare declared ∈ before ++ helper.body ++ after ↔ .declare declared ∈ function.body := by
  simp [isBody, noLocals]

end Function

/-! ## Places of functions -/

/-- The place of a function in a program. -/
inductive FunctionPlace where
  /-- Among the helpers. -/
  | helper (index : Nat)
  /-- Among the entry points. -/
  | entryPoint (index : Nat)
  deriving DecidableEq

/-- Changing an element of a list in a way that keeps a key keeps all keys. -/
theorem map_modify_of_eq {α β : Type} {key : α → β} {change : α → α}
    (keeps : ∀ element, key (change element) = key element) (list : List α) (index : Nat) :
    (list.modify index change).map key = list.map key := by
  refine List.ext_getElem? fun place => ?_
  rw [List.getElem?_map, List.getElem?_map, List.getElem?_modify]
  cases list[place]? with
  | none => rfl
  | some element => by_cases same : index = place <;> simp [same, keeps]

namespace Program

variable {program : Program}

/-- The function at a place, if there is one. -/
def functionAt? (program : Program) : FunctionPlace → Option Function
  | .helper index => program.helpers[index]?
  | .entryPoint index => program.entryPoints[index]?.map EntryPoint.toFunction

/-- The program in which the function at a place has another body. -/
def withBody (program : Program) (place : FunctionPlace) (body : List Statement) : Program :=
  match place with
  | .helper index =>
    { program with helpers := program.helpers.modify index fun helper => { helper with body } }
  | .entryPoint index =>
    { program with
      entryPoints := program.entryPoints.modify index fun entryPoint => { entryPoint with body } }

/-- Other bodies leave the names of helpers. -/
@[simp] theorem names_helpers_withBody (program : Program) (place : FunctionPlace)
    (body : List Statement) :
    (program.withBody place body).helpers.map (·.name) = program.helpers.map (·.name) := by
  cases place with
  | helper index => simp [withBody, map_modify_of_eq]
  | entryPoint index => rfl

/-- Other bodies leave the names of entry points. -/
@[simp] theorem names_entryPoints_withBody (program : Program) (place : FunctionPlace)
    (body : List Statement) :
    (program.withBody place body).entryPoints.map (·.name) = program.entryPoints.map (·.name) := by
  cases place with
  | helper index => rfl
  | entryPoint index => simp [withBody, map_modify_of_eq]

/-- Other bodies leave the resources. -/
@[simp] theorem resources_withBody (program : Program) (place : FunctionPlace)
    (body : List Statement) : (program.withBody place body).resources = program.resources := by
  cases place <;> rfl

/-- Other bodies leave the plain variables. -/
@[simp] theorem globals_withBody (program : Program) (place : FunctionPlace)
    (body : List Statement) : (program.withBody place body).globals = program.globals := by
  cases place <;> rfl

/-- A function at a place stands between other functions, and it alone gets another body. -/
theorem exists_functions_eq {place : FunctionPlace} {function : Function}
    (isFunction : program.functionAt? place = some function) :
    ∃ front back, program.functions = front ++ function :: back ∧
      ∀ body,
        (program.withBody place body).functions = front ++ { function with body } :: back := by
  cases place with
  | helper index =>
    obtain ⟨inside, rfl⟩ := List.getElem?_eq_some_iff.mp isFunction
    refine ⟨program.helpers.take index, program.helpers.drop (index + 1)
      ++ program.entryPoints.map EntryPoint.toFunction, ?_, fun body => ?_⟩
    · rw [← List.cons_append, ← List.append_assoc, ← List.drop_eq_getElem_cons inside,
        List.take_append_drop, functions]
    · rw [functions, withBody, List.modify_eq_take_cons_drop inside, List.append_assoc]
      rfl
  | entryPoint index =>
    obtain ⟨entryPoint, found, rfl⟩ := Option.map_eq_some_iff.mp isFunction
    obtain ⟨inside, rfl⟩ := List.getElem?_eq_some_iff.mp found
    refine ⟨program.helpers ++ (program.entryPoints.take index).map EntryPoint.toFunction,
      (program.entryPoints.drop (index + 1)).map EntryPoint.toFunction, ?_, fun body => ?_⟩
    · rw [List.append_assoc, ← List.map_cons, ← List.map_append, ← List.drop_eq_getElem_cons inside,
        List.take_append_drop, functions]
    · rw [functions, withBody, List.modify_eq_take_cons_drop inside, List.append_assoc,
        List.map_append]
      rfl

/-! ## Calls and uses -/

/-- A member of a list is one of the others or the one between them. -/
theorem exists_mem_append_cons {α : Type} {holds : α → Prop} {front back : List α} {middle : α} :
    (∃ element ∈ front ++ middle :: back, holds element) ↔
      (∃ element ∈ front ++ back, holds element) ∨ holds middle := by
  simp only [List.mem_append, List.mem_cons, or_and_right, exists_or, exists_eq_left]
  rw [← or_assoc, or_right_comm]

section Inlined

variable {inlined : Program} {function helper : Function} {front back : List Function}
  {before after : List Statement}
  (split : program.functions = front ++ function :: back)
  (splice : inlined.functions =
    front ++ { function with body := before ++ helper.body ++ after } :: back)
  (isBody : function.body = before ++ .call helper.name :: after)
  (distinct : program.declaredNames.Nodup) (isHelper : helper ∈ program.functions)

include split splice isBody

/-- Every call but the inlined one is still there. -/
theorem calls_kept (caller callee : String) (call : program.Calls caller callee) :
    inlined.Calls caller callee ∨ caller = function.name ∧ callee = helper.name := by
  rw [Calls, split, exists_mem_append_cons] at call
  rw [Calls, splice, exists_mem_append_cons]
  rcases call with others | ⟨rfl, inBody⟩
  · exact .inl (.inl others)
  · rw [isBody, List.mem_append, List.mem_cons] at inBody
    rcases inBody with inFront | same | inBack
    · exact .inl (.inr ⟨rfl, by simp [inFront]⟩)
    · exact .inr ⟨rfl, Statement.call.inj same⟩
    · exact .inl (.inr ⟨rfl, by simp [inBack]⟩)

include isHelper

/-- Every call was there, or the helper made it. -/
theorem calls_drawn (caller callee : String) (call : inlined.Calls caller callee) :
    program.Calls caller callee ∨ caller = function.name ∧ program.Calls helper.name callee := by
  rw [Calls, splice, exists_mem_append_cons] at call
  rw [Calls, split, exists_mem_append_cons, isBody]
  rcases call with others | ⟨rfl, inBody⟩
  · exact .inl (.inl others)
  · rw [List.mem_append, List.mem_append] at inBody
    rcases inBody with (inFront | inHelper) | inBack
    · exact .inl (.inr ⟨rfl, by simp [inFront]⟩)
    · exact .inr ⟨rfl, helper, isHelper, rfl, inHelper⟩
    · exact .inl (.inr ⟨rfl, by simp [inBack]⟩)

include distinct

omit split isBody in
/-- The calls of the helper are made in its place. -/
theorem calls_taken (callee : String) (call : program.Calls helper.name callee) :
    inlined.Calls function.name callee := by
  rw [calls_iff_of_mem distinct isHelper] at call
  rw [Calls, splice, exists_mem_append_cons]
  exact .inr ⟨rfl, by simp [call]⟩

variable (noLocals : ∀ declared, .declare declared ∉ helper.body)
  (visible : ∀ declared, .declare declared ∈ before → .use declared.name ∉ helper.body)

include noLocals visible

/-- Every use was there, or the helper makes it as well. -/
theorem uses_inlined_iff {name variableName : String} :
    inlined.Uses name variableName ↔
      program.Uses name variableName ∨
        name = function.name ∧ program.Uses helper.name variableName := by
  rw [uses_iff_of_mem distinct isHelper, Uses, Uses, splice, split, exists_mem_append_cons,
    exists_mem_append_cons, Function.readsName_inlined_iff isBody noLocals visible,
    @eq_comm _ name function.name, or_assoc, ← and_or_left]

/-- Inlining keeps the variables to which a function leads. -/
theorem leadsTo_inlined_iff {name variableName : String} :
    inlined.LeadsTo name variableName ↔ program.LeadsTo name variableName := by
  have kept := calls_kept split splice isBody
  have drawn := calls_drawn split splice isBody isHelper
  have taken := calls_taken splice distinct isHelper
  have called : program.Calls function.name helper.name :=
    (calls_iff_of_mem distinct (by simp [split])).mpr (by simp [isBody])
  simp only [LeadsTo, uses_inlined_iff split splice isBody distinct isHelper noLocals visible]
  constructor
  · rintro ⟨user, chain, use⟩
    have chain : Relation.ReflTransGen program.Calls name user :=
      reflTransGen_of_inlined drawn called chain
    rcases use with use | ⟨rfl, use⟩
    · exact ⟨user, chain, use⟩
    · exact ⟨helper.name, chain.tail called, use⟩
  · rintro ⟨user, chain, use⟩
    rcases Relation.reflTransGen_iff_eq_or_transGen.mp chain with rfl | chain
    · exact ⟨user, .refl, .inl use⟩
    · rcases transGen_inlined_or kept taken chain with chain | ⟨rfl, toCaller⟩
      · exact ⟨user, chain.to_reflTransGen, .inl use⟩
      · exact ⟨function.name, toCaller, .inr ⟨rfl, use⟩⟩

omit noLocals visible in
/-- Inlining keeps whether some chain of calls leads back to where it starts. -/
theorem acyclic_inlined_iff (different : helper.name ≠ function.name) :
    (∀ name, ¬Relation.TransGen inlined.Calls name name) ↔
      ∀ name, ¬Relation.TransGen program.Calls name name := by
  have kept := calls_kept split splice isBody
  have drawn := calls_drawn split splice isBody isHelper
  have taken := calls_taken splice distinct isHelper
  have called : program.Calls function.name helper.name :=
    (calls_iff_of_mem distinct (by simp [split])).mpr (by simp [isBody])
  constructor
  · exact fun acyclic name => acyclic_of_inlined drawn kept taken different acyclic name
  · exact fun acyclic name cycle => acyclic name (transGen_of_inlined drawn called cycle)

omit distinct isHelper visible in
/-- A property of all local variables stays with the program, as the helper declares none. -/
theorem forall_locals_inlined_iff {holds : LocalVariable → Prop} :
    (∀ other ∈ inlined.functions, ∀ declared, .declare declared ∈ other.body → holds declared) ↔
      ∀ other ∈ program.functions, ∀ declared, .declare declared ∈ other.body → holds declared := by
  simp only [splice, split, List.forall_mem_append, List.forall_mem_cons,
    Function.mem_body_inlined_iff isBody noLocals]

end Inlined

/-! ## Validity -/

/-- Other bodies leave the names of variables. -/
@[simp] theorem variableNames_withBody (program : Program) (place : FunctionPlace)
    (body : List Statement) :
    (program.withBody place body).variableNames = program.variableNames := by
  rw [variableNames, variableNames, resources_withBody, globals_withBody]

/-- Other bodies leave the declared names. -/
@[simp] theorem declaredNames_withBody (program : Program) (place : FunctionPlace)
    (body : List Statement) :
    (program.withBody place body).declaredNames = program.declaredNames := by
  have entryPoints (program : Program) :
      (program.entryPoints.map EntryPoint.toFunction).map (·.name) =
        program.entryPoints.map (·.name) := List.map_map
  rw [declaredNames, declaredNames, variableNames_withBody, functions, functions, List.map_append,
    List.map_append, entryPoints, entryPoints, names_helpers_withBody, names_entryPoints_withBody]

/-- Where names are distinct, a helper has another name than a function at another place. -/
theorem name_ne_of_functionAt? {place : FunctionPlace} {index : Nat} {function helper : Function}
    (isFunction : program.functionAt? place = some function)
    (isHelper : program.helpers[index]? = some helper) (apart : place ≠ .helper index)
    (distinct : program.declaredNames.Nodup) : helper.name ≠ function.name := by
  cases place with
  | helper other =>
    intro same
    have isFunction : program.helpers[other]? = some function := isFunction
    rw [declaredNames, functions, List.map_append] at distinct
    have names := (List.nodup_append.mp (List.nodup_append.mp distinct).2.1).1
    have inside : other < (program.helpers.map (·.name)).length := by
      simpa using (List.getElem?_eq_some_iff.mp isFunction).1
    refine apart (congrArg _ ((List.getElem?_inj inside names).mp ?_))
    rw [List.getElem?_map, List.getElem?_map, isHelper, isFunction]
    exact congrArg some same.symm
  | entryPoint other =>
    obtain ⟨entryPoint, found, rfl⟩ := Option.map_eq_some_iff.mp isFunction
    exact (ne_of_nodup_declaredNames distinct (List.mem_of_getElem? isHelper)
      (List.mem_of_getElem? found)).symm

/-- Inlining does not change the verdict. A helper that declares no local variables is called in the
body of a function at another place, behind no local variable that hides a name which the helper
uses. With the statements of the helper in place of this call, the program is accepted exactly when
it was before. -/
theorem accepted_verdict_inlined {place : FunctionPlace} {index : Nat} {function helper : Function}
    {before after : List Statement} (isFunction : program.functionAt? place = some function)
    (isHelper : program.helpers[index]? = some helper) (apart : place ≠ .helper index)
    (isBody : function.body = before ++ .call helper.name :: after)
    (noLocals : ∀ declared, .declare declared ∉ helper.body)
    (visible : ∀ declared, .declare declared ∈ before → .use declared.name ∉ helper.body) :
    (program.withBody place (before ++ helper.body ++ after)).verdict.accepted =
      program.verdict.accepted := by
  obtain ⟨front, back, split, splice⟩ := exists_functions_eq isFunction
  replace splice := splice (before ++ helper.body ++ after)
  have member : helper ∈ program.functions :=
    List.mem_append_left _ (List.mem_of_getElem? isHelper)
  rw [Bool.eq_iff_iff, Verdict.accepted_iff, Verdict.accepted_iff, reasons_verdict_eq_nil_iff,
    reasons_verdict_eq_nil_iff, keepsRules_iff_isValid, keepsRules_iff_isValid, isValid_iff,
    isValid_iff, declaredNames_withBody]
  -- All names stay, so that calls and uses can be compared where names are distinct.
  refine and_congr_right fun distinct => ?_
  have different := name_ne_of_functionAt? isFunction isHelper apart distinct
  rw [variableNames_withBody, resources_withBody, globals_withBody, names_helpers_withBody,
    names_entryPoints_withBody, acyclic_inlined_iff split splice isBody distinct member different,
    forall_locals_inlined_iff split splice isBody noLocals]
  simp only [uses_inlined_iff split splice isBody distinct member noLocals visible,
    leadsTo_inlined_iff split splice isBody distinct member noLocals visible]
  refine and_congr ?_ (and_congr ?_ Iff.rfl)
  · constructor
    · exact fun declared user name use => declared user name (.inl use)
    · rintro declared user name (use | ⟨-, use⟩)
      · exact declared user name use
      · exact declared helper.name name use
  · constructor
    · intro resolved caller callee call
      rcases calls_kept split splice isBody caller callee call with call | ⟨-, rfl⟩
      · exact resolved caller callee call
      · exact List.mem_map_of_mem (List.mem_of_getElem? isHelper)
    · intro resolved caller callee call
      rcases calls_drawn split splice isBody member caller callee call with call | ⟨-, call⟩
      · exact resolved caller callee call
      · exact resolved helper.name callee call

/-- A vertex entry point calls a helper that reads a texture and leads on to a buffer at the same
place. With the body of this helper in place of the call, the collision is still found. -/
theorem accepted_verdict_inlined_collision :
    (Program.withBody
        ⟨[⟨"image", .texture2D, some 0, some 1⟩, ⟨"buffer", .storage, some 0, some 1⟩], [],
          [⟨"load", [.use "buffer"]⟩, ⟨"sample", [.use "image", .call "load"]⟩],
          [⟨⟨"main", [.declare ⟨"size", "f32", none, none, none⟩, .call "sample",
            .use "size"]⟩, "vertex"⟩]⟩
        (.entryPoint 0) [.declare ⟨"size", "f32", none, none, none⟩, .use "image", .call "load",
          .use "size"]).verdict.accepted = false := by
  have unchanged := @accepted_verdict_inlined
    ⟨[⟨"image", .texture2D, some 0, some 1⟩, ⟨"buffer", .storage, some 0, some 1⟩], [],
      [⟨"load", [.use "buffer"]⟩, ⟨"sample", [.use "image", .call "load"]⟩],
      [⟨⟨"main", [.declare ⟨"size", "f32", none, none, none⟩, .call "sample",
        .use "size"]⟩, "vertex"⟩]⟩
    (.entryPoint 0) 1
    ⟨"main", [.declare ⟨"size", "f32", none, none, none⟩, .call "sample", .use "size"]⟩
    ⟨"sample", [.use "image", .call "load"]⟩
    [.declare ⟨"size", "f32", none, none, none⟩] [.use "size"]
    rfl rfl (by decide) rfl (by simp) (by simp)
  refine unchanged.trans ?_
  rw [← Bool.not_eq_true, Verdict.accepted_iff, reasons_verdict_eq_nil_iff]
  intro rules
  have same := rules.places _ List.mem_cons_self ⟨"image", .texture2D, some 0, some 1⟩
    ⟨"buffer", .storage, some 0, some 1⟩
    ⟨by simp, "sample", .single (by decide), by decide⟩
    ⟨by simp, "load", .tail (.single (by decide : ("main", "sample") ∈ _)) (by decide), by decide⟩
    _ rfl _ rfl rfl
  exact absurd same (by decide)

end Program

end BindingSuite
