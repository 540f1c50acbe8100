import BindingSuite.Proofs.Diagnostics

/-! # Calls of entry points

The functions at which a stage starts are called from outside. In an accepted module no statement
calls one, and no expression does but for a constructor of vectors: an expression that calls one of
these names is let through before any function of the module is looked up, and an entry point may
have that name.

* `Function.CarriesStage` says that one of the attributes of a function names a stage;
* `Module.KeepsRules.eq_of_leadsTo_entryPoint` ends every chain of calls before an entry point
  without the name of a constructor;
* `not_callsName_entryPoint` says of accepted texts which calls of entry points they lack, and
  `callsName_entryPoint_constructor` shows one that they may have. -/

namespace BindingSuite

/-- The names of the stages. -/
theorem Stage.isSome_ofName?_iff {name : String} :
    (ofName? name).isSome = true ↔ name ∈ ["vertex", "fragment", "compute"] := by
  simp [ofName?, all, Stage.name, @eq_comm _ _ name]

namespace Wgsl

/-- One of the attributes of a function names a stage. -/
def Function.CarriesStage (function : Function) : Prop :=
  ∃ given ∈ function.attributes, given.name.text ∈ ["vertex", "fragment", "compute"]

/-- A stage starts at the functions that carry one. -/
theorem Function.isSome_stage?_iff {function : Function} :
    function.stage?.isSome = true ↔ function.CarriesStage := by
  simp only [stage?, List.isSome_findSome?, List.any_eq_true, Stage.isSome_ofName?_iff,
    CarriesStage]

namespace Module.KeepsRules

variable {module : Module} {function entryPoint : Function}

/-- An entry point is no helper, nor does a helper share its name. -/
theorem not_hasHelper (rules : module.KeepsRules) (member : entryPoint ∈ module.functions)
    (starts : entryPoint.CarriesStage) : ¬module.HasHelper entryPoint.name.text := by
  obtain ⟨-, distinct⟩ := nodup_of_nodup_declaredNames rules.names_nodup
  rw [hasHelper_iff_of_mem distinct member]
  exact Option.isSome_iff_ne_none.mp (Function.isSome_stage?_iff.mpr starts)

/-- No statement calls an entry point. -/
theorem call_ne_entryPoint (rules : module.KeepsRules) (inModule : function ∈ module.functions)
    (member : entryPoint ∈ module.functions) (starts : entryPoint.CarriesStage) {name : Word}
    (call : .call name ∈ function.body) : name.text ≠ entryPoint.name.text := by
  intro same
  refine rules.not_hasHelper member starts ?_
  rw [← same]
  exact rules.calls function inModule name call

/-- An entry point is called by the name of a constructor, if at all. -/
theorem not_callsName (rules : module.KeepsRules) (inModule : function ∈ module.functions)
    (member : entryPoint ∈ module.functions) (starts : entryPoint.CarriesStage)
    (noConstructor : entryPoint.name.text ∉ vectorConstructors) :
    ¬function.CallsName entryPoint.name.text := by
  rintro ⟨statement, inBody, name, same, rfl | call⟩
  · exact rules.call_ne_entryPoint inModule member starts inBody same
  · rcases rules.valueCalls function inModule statement inBody name call with constructor | helper
    · rw [same] at constructor
      exact noConstructor constructor
    · rw [same] at helper
      exact rules.not_hasHelper member starts helper

/-- The only chain of calls to an entry point is the empty one, unless it has the name of a
constructor. -/
theorem eq_of_leadsTo_entryPoint (rules : module.KeepsRules)
    (member : entryPoint ∈ module.functions) (starts : entryPoint.CarriesStage)
    (noConstructor : entryPoint.name.text ∉ vectorConstructors) {name : String}
    (chain : Relation.ReflTransGen module.Calls name entryPoint.name.text) :
    name = entryPoint.name.text := by
  cases chain with
  | refl => rfl
  | tail _ last =>
    obtain ⟨caller, inModule, -, call⟩ := last
    exact absurd call (rules.not_callsName inModule member starts noConstructor)

end Module.KeepsRules

/-! ## Accepted texts -/

/-- An accepted text declares a module in which no statement calls an entry point, and in which
nothing calls an entry point without the name of a constructor, be it by a statement, for a value
that is dropped or for one that is returned. -/
theorem not_callsName_entryPoint {source : String} {answer : Answer}
    (answered : Wgsl.answer source = .ok answer) (accepted : answer.accepted = true) :
    ∃ module, Module.ofSource source = .ok module ∧
      ∀ function ∈ module.functions, ∀ entryPoint ∈ module.functions, entryPoint.CarriesStage →
        (∀ name, .call name ∈ function.body → name.text ≠ entryPoint.name.text) ∧
        (entryPoint.name.text ∉ vectorConstructors →
          ¬function.CallsName entryPoint.name.text) := by
  obtain ⟨module, read, rules⟩ := exists_keepsRules_of_accepted answered accepted
  refine ⟨module, read, fun function inModule entryPoint member starts => ⟨fun name => ?_, ?_⟩⟩
  · exact rules.call_ne_entryPoint inModule member starts
  · exact rules.not_callsName inModule member starts

/-- A fragment stage that calls a helper and a constructor, in a text that is accepted. -/
theorem not_callsName_entryPoint_main :
    Wgsl.answer "fn shade() \x7b \x7d @fragment fn main() \x7b shade(); _ = vec4f(); \x7d" =
      .ok ⟨true, []⟩ ∧
    ∃ module,
      Module.ofSource "fn shade() \x7b \x7d @fragment fn main() \x7b shade(); _ = vec4f(); \x7d" =
        .ok module ∧
      ∀ function ∈ module.functions, ∀ entryPoint ∈ module.functions, entryPoint.CarriesStage →
        (∀ name, .call name ∈ function.body → name.text ≠ entryPoint.name.text) ∧
        (entryPoint.name.text ∉ vectorConstructors →
          ¬function.CallsName entryPoint.name.text) := by
  have answered :
      Wgsl.answer "fn shade() \x7b \x7d @fragment fn main() \x7b shade(); _ = vec4f(); \x7d" =
        .ok ⟨true, []⟩ := by
    cbv
  exact ⟨answered, not_callsName_entryPoint answered rfl⟩

/-- The exemption of constructors is not a matter of form: a fragment stage with the name of one is
called for a value, in a text that is accepted. -/
theorem callsName_entryPoint_constructor :
    Wgsl.answer "@fragment fn vec4f() \x7b \x7d fn g() \x7b _ = vec4f(); \x7d" =
      .ok ⟨true, []⟩ ∧
    ∃ module,
      Module.ofSource "@fragment fn vec4f() \x7b \x7d fn g() \x7b _ = vec4f(); \x7d" =
        .ok module ∧
      ∃ function ∈ module.functions, ∃ entryPoint ∈ module.functions,
        entryPoint.CarriesStage ∧ function.CallsName entryPoint.name.text := by
  let entryPoint : Function := ⟨[⟨⟨"fragment", ⟨1, 1, 2⟩⟩, []⟩], ⟨"vec4f", ⟨13, 1, 14⟩⟩, none, []⟩
  let caller : Function :=
    ⟨[], ⟨"g", ⟨28, 1, 29⟩⟩, none, [.drop (.call ⟨"vec4f", ⟨38, 1, 39⟩⟩)]⟩
  have read :
      Module.ofSource "@fragment fn vec4f() \x7b \x7d fn g() \x7b _ = vec4f(); \x7d" =
        .ok ⟨[], [entryPoint, caller]⟩ := by
    cbv
  have starts : entryPoint.CarriesStage := by simp [Function.CarriesStage, entryPoint]
  have calls : caller.CallsName "vec4f" := Function.mem_calls.mp (by decide)
  refine ⟨by cbv, _, read, caller, ?_, entryPoint, ?_, starts, calls⟩
  · simp
  · simp

end Wgsl

end BindingSuite
