import BindingSuite.Proofs.Resemblance

/-! # Orders of attributes

In which order a declaration carries its attributes matters to the rules only where attributes
repeat: of several groups or binding numbers on a variable of the module, and of several stages on a
function, the first one counts.

* `Module.IsRearrangementOf` allows the attributes of every declaration to be permuted, arguments
  untouched, and `Module.HasLeadersOf` asks that the attributes that count are the same as before;
* `resembles_of_rearrangement` says that such a module looks like the original to the rules;
* `accepted_of_rearrangement` concludes for the answer, and that a module without repetitions has
  its leaders in every order; `accepted_depends_on_leaders` shows that others do not. -/

namespace BindingSuite.Wgsl

/-! ## Lists with one hit -/

section OneHit

variable {α β : Type}

/-- A list of at most one element has no other order. -/
theorem eq_of_perm_of_length_le_one {list other : List α} (same : list.Perm other)
    (short : list.length ≤ 1) : list = other := by
  match list with
  | [] => exact same.nil_eq
  | [_] => exact (List.perm_singleton.mp same.symm).symm
  | _ :: _ :: _ => simp at short

/-- The only hit in a list is the first one in every order. -/
theorem find?_eq_of_perm {list other : List α} (same : list.Perm other) {test : α → Bool}
    (once : list.countP test ≤ 1) : list.find? test = other.find? test := by
  rw [List.countP_eq_length_filter] at once
  rw [← List.head?_filter, ← List.head?_filter,
    eq_of_perm_of_length_le_one (same.filter test) once]

/-- The only result of a search in a list is the first one in every order. -/
theorem findSome?_eq_of_perm {list other : List α} (same : list.Perm other) {search : α → Option β}
    (once : list.countP (fun item => (search item).isSome) ≤ 1) :
    list.findSome? search = other.findSome? search := by
  rw [← List.length_filterMap_eq_countP] at once
  rw [← List.head?_filterMap, ← List.head?_filterMap,
    eq_of_perm_of_length_le_one (same.filterMap search) once]

end OneHit

/-! ## Rearrangements -/

/-- A variable with its attributes in any order. -/
structure Variable.IsRearrangementOf (rearranged declared : Variable) : Prop where
  /-- The attributes are permuted. -/
  attributes : rearranged.attributes.Perm declared.attributes
  /-- The template is the same. -/
  template : rearranged.template = declared.template
  /-- The name is the same. -/
  name : rearranged.name = declared.name
  /-- The type is the same. -/
  typeName : rearranged.typeName = declared.typeName

/-- A statement with the attributes of the variable that it may declare in any order. -/
inductive Statement.IsRearrangementOf : Statement → Statement → Prop where
  /-- A declaration is rearranged. -/
  | declare {rearranged declared : Variable} (same : rearranged.IsRearrangementOf declared) :
    IsRearrangementOf (.declare rearranged) (.declare declared)
  /-- Nothing is rearranged. -/
  | refl (statement : Statement) : IsRearrangementOf statement statement

/-- What a function returns, with its attributes in any order. -/
structure Result.IsRearrangementOf (rearranged result : Result) : Prop where
  /-- The attributes are permuted. -/
  attributes : rearranged.attributes.Perm result.attributes
  /-- The type is the same. -/
  typeName : rearranged.typeName = result.typeName

/-- A function with the attributes of itself, of its result and of its local variables in any
order. -/
structure Function.IsRearrangementOf (rearranged function : Function) : Prop where
  /-- The attributes are permuted. -/
  attributes : rearranged.attributes.Perm function.attributes
  /-- The name is the same. -/
  name : rearranged.name = function.name
  /-- The result is rearranged. -/
  result : Option.Rel Result.IsRearrangementOf rearranged.result function.result
  /-- The statements are rearranged, each in its place. -/
  body : List.Forall₂ Statement.IsRearrangementOf rearranged.body function.body

/-- A module with the attributes of all its declarations in any order. -/
structure Module.IsRearrangementOf (rearranged module : Module) : Prop where
  /-- The variables are rearranged, each in its place. -/
  globals : List.Forall₂ Variable.IsRearrangementOf rearranged.globals module.globals
  /-- The functions are rearranged, each in its place. -/
  functions : List.Forall₂ Function.IsRearrangementOf rearranged.functions module.functions

/-- The attributes that count are those of another module, declaration by declaration. -/
structure Module.HasLeadersOf (rearranged module : Module) : Prop where
  /-- The first group and the first binding number of a variable have the same arguments. -/
  globals : rearranged.globals.map Variable.leaders = module.globals.map Variable.leaders
  /-- The first stage of a function is the same. -/
  stages : rearranged.functions.map Function.stage? = module.functions.map Function.stage?

/-- No variable of a module repeats its group or its binding number, and no function has several
stages. -/
structure Module.RepeatsNoLeader (module : Module) : Prop where
  /-- A variable has at most one group. -/
  groups : ∀ declared ∈ module.globals,
    declared.attributes.countP (fun given => given.name.text = "group") ≤ 1
  /-- A variable has at most one binding number. -/
  bindings : ∀ declared ∈ module.globals,
    declared.attributes.countP (fun given => given.name.text = "binding") ≤ 1
  /-- A function has at most one stage. -/
  stages : ∀ function ∈ module.functions,
    function.attributes.countP (fun given => (Stage.ofName? given.name.text).isSome) ≤ 1

/-! ## Attributes -/

/-- Whether there is an attribute of a name does not depend on the order. -/
theorem hasAttribute_of_perm {attributes others : List Attribute} (same : attributes.Perm others)
    (name : String) : hasAttribute attributes name = hasAttribute others name := by
  rw [Bool.eq_iff_iff, hasAttribute, hasAttribute, findAttribute?, findAttribute?,
    List.find?_isSome, List.find?_isSome]
  simp only [same.mem_iff]

/-! ## Resemblance -/

/-- A rearranged variable looks like the variable. -/
theorem Variable.IsRearrangementOf.resembles {rearranged declared : Variable}
    (same : rearranged.IsRearrangementOf declared) : rearranged.Resembles declared :=
  ⟨hasAttribute_of_perm same.attributes, same.template, same.name, by rw [same.typeName]⟩

/-- A rearranged statement looks like the statement. -/
theorem Statement.IsRearrangementOf.resembles {rearranged statement : Statement}
    (same : rearranged.IsRearrangementOf statement) : rearranged.Resembles statement := by
  cases same with
  | declare rearranges => exact .declare rearranges.resembles
  | refl => exact .refl _

/-- A rearranged function of the same stage looks like the function. -/
theorem Function.IsRearrangementOf.resembles {rearranged function : Function}
    (same : rearranged.IsRearrangementOf function) (stage : rearranged.stage? = function.stage?) :
    rearranged.Resembles function where
  attributes := hasAttribute_of_perm same.attributes
  stage := stage
  name := same.name
  result := by
    match rearranged.result, function.result, same.result with
    | none, none, .none => exact .none
    | some _, some _, .some rearranges => exact .some (hasAttribute_of_perm rearranges.attributes)
  body := same.body.imp fun _ _ statement => statement.resembles

namespace Module

variable {rearranged module : Module}

/-- A rearranged module with the same leaders looks like the module. -/
theorem resembles_of_rearrangement (same : rearranged.IsRearrangementOf module)
    (leaders : rearranged.HasLeadersOf module) : rearranged.Resembles module where
  globals := (forall₂_and_key_eq same.globals leaders.globals).imp fun _ _ pair =>
    ⟨pair.1.resembles, pair.2⟩
  functions := (forall₂_and_key_eq same.functions leaders.stages).imp fun _ _ pair =>
    pair.1.resembles pair.2

/-- A rearranged module with the same leaders breaks the same rules in the same order as the
module. -/
theorem breaches_rearranged (same : rearranged.IsRearrangementOf module)
    (leaders : rearranged.HasLeadersOf module) :
    rearranged.breaches.map Breach.outline = module.breaches.map Breach.outline :=
  (resembles_of_rearrangement same leaders).breaches_eq

/-- In a module that repeats none of the attributes that count they are the same in every order. -/
theorem RepeatsNoLeader.hasLeadersOf (once : module.RepeatsNoLeader)
    (same : rearranged.IsRearrangementOf module) : rearranged.HasLeadersOf module where
  globals := by
    have globals := (List.forall₂_and_left module.globals rearranged.globals).mpr
      ⟨fun declared member =>
        And.intro (once.groups declared member) (once.bindings declared member), same.globals.flip⟩
    refine (map_eq_map_of_forall₂ (fun declared other pair => ?_) globals).symm
    obtain ⟨⟨group, binding⟩, rearranges⟩ := pair
    rw [Variable.leaders, Variable.leaders, firstArguments?, firstArguments?, firstArguments?,
      firstArguments?, findAttribute?, findAttribute?, findAttribute?, findAttribute?,
      find?_eq_of_perm rearranges.attributes.symm group,
      find?_eq_of_perm rearranges.attributes.symm binding]
  stages := by
    have functions := (List.forall₂_and_left module.functions rearranged.functions).mpr
      ⟨once.stages, same.functions.flip⟩
    refine (map_eq_map_of_forall₂ (fun function other pair => ?_) functions).symm
    exact findSome?_eq_of_perm pair.2.attributes.symm pair.1

end Module

/-! ## Acceptance -/

/-- The order of attributes does not matter but for repetitions. A module with its attributes in
another order, in which the groups, the binding numbers and the stages that count are the same, is
accepted exactly when the module is. In a module that repeats none of these they are the same in
every order. -/
theorem accepted_of_rearrangement :
    (∀ module rearranged : Module, rearranged.IsRearrangementOf module →
      rearranged.HasLeadersOf module → rearranged.answer.accepted = module.answer.accepted) ∧
    ∀ module rearranged : Module, rearranged.IsRearrangementOf module →
      module.RepeatsNoLeader → rearranged.HasLeadersOf module := by
  refine ⟨fun module rearranged same leaders => ?_, fun _ _ same once => once.hasLeadersOf same⟩
  rw [Bool.eq_iff_iff, Module.accepted_answer_iff, Module.accepted_answer_iff,
    ← List.map_eq_nil_iff, Module.breaches_rearranged same leaders, List.map_eq_nil_iff]

/-- A resource with two groups is accepted as long as the first of them stays in front of the other,
and a compute stage with nothing repeated, whose result and local variable have two attributes each,
is accepted in another order. -/
theorem accepted_of_rearrangement_groups :
    let group : Attribute := ⟨⟨"group", .start⟩, [.number 0]⟩
    let otherGroup : Attribute := ⟨⟨"group", .start⟩, [.word "x"]⟩
    let binding : Attribute := ⟨⟨"binding", .start⟩, [.number 1]⟩
    let bare (name : String) : Attribute := ⟨⟨name, .start⟩, []⟩
    let resource (attributes : List Attribute) : Module :=
      ⟨[⟨attributes, ["uniform"], ⟨"buffer", .start⟩, "f32"⟩], []⟩
    let stage (outer result inner : List Attribute) : Module :=
      ⟨[], [⟨outer, ⟨"main", .start⟩, some ⟨result, "vec4f"⟩,
        [.declare ⟨inner, [], ⟨"position", .start⟩, "vec4f"⟩,
          .leave (some (.reference ⟨"position", .start⟩))]⟩]⟩
    (resource [group, binding, otherGroup]).answer.accepted = true ∧
      (resource [binding, group, otherGroup]).answer.accepted = true ∧
      (stage [bare "compute", bare "workgroup_size"] [bare "builtin", bare "invariant"]
        [bare "align", bare "size"]).answer.accepted = true ∧
      (stage [bare "workgroup_size", bare "compute"] [bare "invariant", bare "builtin"]
        [bare "size", bare "align"]).answer.accepted = true := by
  intro group otherGroup binding bare resource stage
  have sameResource : (resource [binding, group, otherGroup]).IsRearrangementOf
      (resource [group, binding, otherGroup]) :=
    ⟨.cons ⟨by decide, rfl, rfl, rfl⟩ .nil, .nil⟩
  have leaders : (resource [binding, group, otherGroup]).HasLeadersOf
      (resource [group, binding, otherGroup]) := ⟨rfl, rfl⟩
  have sameStage :
      (stage [bare "workgroup_size", bare "compute"] [bare "invariant", bare "builtin"]
        [bare "size", bare "align"]).IsRearrangementOf
      (stage [bare "compute", bare "workgroup_size"] [bare "builtin", bare "invariant"]
        [bare "align", bare "size"]) :=
    ⟨.nil, .cons ⟨by decide, rfl, .some ⟨by decide, rfl⟩,
      .cons (.declare ⟨by decide, rfl, rfl, rfl⟩) (.cons (.refl _) .nil)⟩ .nil⟩
  have once : (stage [bare "compute", bare "workgroup_size"] [bare "builtin", bare "invariant"]
      [bare "align", bare "size"]).RepeatsNoLeader :=
    ⟨by decide, by decide, by decide⟩
  have acceptedResource : (resource [group, binding, otherGroup]).answer.accepted = true := rfl
  have acceptedStage : (stage [bare "compute", bare "workgroup_size"]
      [bare "builtin", bare "invariant"] [bare "align", bare "size"]).answer.accepted = true := by
    decide +kernel
  refine ⟨acceptedResource, ?_, acceptedStage, ?_⟩
  · rw [accepted_of_rearrangement.1 _ _ sameResource leaders, acceptedResource]
  · rw [accepted_of_rearrangement.1 _ _ sameStage
      (accepted_of_rearrangement.2 _ _ sameStage once), acceptedStage]

/-- Where attributes repeat, their order matters: a resource whose second group is no number is
accepted, and rejected when this group comes first, and a function at a fragment stage that carries
the compute stage as well is accepted, and rejected the other way round. -/
theorem accepted_depends_on_leaders :
    (∃ module rearranged : Module,
      Module.ofSource "@group(0) @group(x) @binding(1) var<uniform> buffer : f32;" = .ok module ∧
        rearranged.IsRearrangementOf module ∧ module.answer.accepted = true ∧
          rearranged.answer.accepted = false) ∧
    ∃ module rearranged : Module,
      Module.ofSource "@fragment @compute fn main() \x7b \x7d" = .ok module ∧
        rearranged.IsRearrangementOf module ∧ module.answer.accepted = true ∧
          rearranged.answer.accepted = false := by
  let group : Attribute := ⟨⟨"group", ⟨1, 1, 2⟩⟩, [.number 0]⟩
  let otherGroup : Attribute := ⟨⟨"group", ⟨11, 1, 12⟩⟩, [.word "x"]⟩
  let binding : Attribute := ⟨⟨"binding", ⟨21, 1, 22⟩⟩, [.number 1]⟩
  let resource (attributes : List Attribute) : Module :=
    ⟨[⟨attributes, ["uniform"], ⟨"buffer", ⟨45, 1, 46⟩⟩, "f32"⟩], []⟩
  let fragment : Attribute := ⟨⟨"fragment", ⟨1, 1, 2⟩⟩, []⟩
  let compute : Attribute := ⟨⟨"compute", ⟨11, 1, 12⟩⟩, []⟩
  let stage (attributes : List Attribute) : Module :=
    ⟨[], [⟨attributes, ⟨"main", ⟨22, 1, 23⟩⟩, none, []⟩]⟩
  refine ⟨⟨resource [group, otherGroup, binding], resource [otherGroup, group, binding], by cbv,
    ⟨.cons ⟨by decide, rfl, rfl, rfl⟩ .nil, .nil⟩, rfl, rfl⟩, ?_⟩
  exact ⟨stage [fragment, compute], stage [compute, fragment], by cbv,
    ⟨.nil, .cons ⟨by decide, rfl, .none, .nil⟩ .nil⟩, rfl, rfl⟩

end BindingSuite.Wgsl
