import BindingSuite.Proofs.Layout
import BindingSuite.Program.Basic
import BindingSuite.Wgsl.Reading

/-! # Images of programs

What a program declares, as a module, and which programs have a text that says so.

* `Program.image` is the module that a program stands for, without positions: variables and
  functions in their order, statement by statement, with what the stages of entry points add;
* `Program.IsWellFormed` asks for names that are no keywords, for known stages, for indices that are
  numbers, and for address spaces and types of the grammar. -/

namespace BindingSuite

/-! ## Well-formed programs -/

/-- A text is an identifier. -/
def IsIdentifier (text : String) : Prop :=
  Wgsl.isName text.toList = true

instance (text : String) : Decidable (IsIdentifier text) :=
  inferInstanceAs (Decidable (_ = true))

/-- A text is an identifier and no keyword. -/
def IsPlainName (text : String) : Prop :=
  IsIdentifier text ∧ text ∉ ["_", "var", "fn", "return"]

instance (text : String) : Decidable (IsPlainName text) :=
  inferInstanceAs (Decidable (_ ∧ _))

/-- A text is a type of the grammar in its normal spelling. -/
def IsTypeText (text : String) : Prop :=
  ∃ type : Wgsl.Tree.TypeName, (∀ token ∈ type.yield, token.IsTerminal) ∧ type.text = text

namespace ResourceKind

/-- The type of a name with the type of floating-point numbers as its parameter. -/
def floatType (name : String) : Wgsl.Tree.TypeName :=
  ⟨name, [.type "f32" []]⟩

/-- The store type of a kind as a tree. -/
def storeTree : ResourceKind → Wgsl.Tree.TypeName
  | uniform => floatType "vec4"
  | storage => ⟨"array", [.type "vec4" [.type "f32" []], .numeral "4"]⟩
  | texture1D => floatType "texture_1d"
  | texture2D => floatType "texture_2d"
  | texture2DArray => floatType "texture_2d_array"
  | texture3D => floatType "texture_3d"
  | textureCube => floatType "texture_cube"
  | textureCubeArray => floatType "texture_cube_array"
  | textureMultisampled2D => floatType "texture_multisampled_2d"
  | kind => ⟨kind.storeType, []⟩

/-- The store type of every kind is a type of the grammar. -/
theorem isTypeText_storeType (kind : ResourceKind) : IsTypeText kind.storeType :=
  ⟨kind.storeTree, by cases kind <;> decide, by cases kind <;> rfl⟩

/-- The address space of every kind is an identifier. -/
theorem isIdentifier_addressSpace (kind : ResourceKind) :
    ∀ space ∈ kind.addressSpace?, IsIdentifier space := by
  cases kind <;> rintro space ⟨⟩ <;> decide

end ResourceKind

/-- An index is a number, not negative and with no more digits than the limit. -/
def Index.IsNatural (index : Index) : Prop :=
  ∃ value : Nat, index = .number value ∧ value.repr.length ≤ Text.digitLimit

/-- A number that is declared with few digits is an index of this sort. -/
theorem Index.isNatural_of_mem_some (value : Nat) (short : value.repr.length ≤ Text.digitLimit) :
    ∀ index ∈ some (number value), index.IsNatural := by
  rintro index ⟨⟩
  exact ⟨value, rfl, short⟩

/-- A resource has a proper name and, as far as they are declared, numbers as indices. -/
structure Resource.IsWellFormed (resource : Resource) : Prop where
  /-- Its name is no keyword. -/
  name : IsPlainName resource.name
  /-- Its group is a number. -/
  group : ∀ index ∈ resource.group, index.IsNatural
  /-- Its binding number is a number. -/
  binding : ∀ index ∈ resource.binding, index.IsNatural

/-- A plain variable has a proper name, address space and type, and numbers as indices. -/
structure ModuleVariable.IsWellFormed (declared : ModuleVariable) : Prop where
  /-- Its name is no keyword. -/
  name : IsPlainName declared.name
  /-- Its address space is an identifier. -/
  addressSpace : IsIdentifier declared.addressSpace
  /-- Its type is one of the grammar. -/
  type : IsTypeText declared.typeName
  /-- Its group is a number. -/
  group : ∀ index ∈ declared.group, index.IsNatural
  /-- Its binding number is a number. -/
  binding : ∀ index ∈ declared.binding, index.IsNatural

/-- A local variable has a proper name and type, numbers as indices, and a proper address space or
none. -/
structure LocalVariable.IsWellFormed (declared : LocalVariable) : Prop where
  /-- Its name is no keyword. -/
  name : IsPlainName declared.name
  /-- Its address space is an identifier. -/
  addressSpace : ∀ space ∈ declared.addressSpace, IsIdentifier space
  /-- Its type is one of the grammar. -/
  type : IsTypeText declared.typeName
  /-- Its group is a number. -/
  group : ∀ index ∈ declared.group, index.IsNatural
  /-- Its binding number is a number. -/
  binding : ∀ index ∈ declared.binding, index.IsNatural

/-- A statement is one of the language, and its names are no keywords. -/
def Statement.IsWellFormed : Statement → Prop
  | use name => IsPlainName name
  | call name => IsPlainName name
  | declare localVariable => localVariable.IsWellFormed
  | unknown => False

/-- A function has a proper name and proper statements. -/
structure Function.IsWellFormed (function : Function) : Prop where
  /-- Its name is no keyword. -/
  name : IsPlainName function.name
  /-- Its statements are well-formed. -/
  body : ∀ statement ∈ function.body, statement.IsWellFormed

/-- An entry point is a proper function of a known stage. -/
structure EntryPoint.IsWellFormed (entryPoint : EntryPoint) : Prop where
  /-- It is well-formed as a function. -/
  function : entryPoint.toFunction.IsWellFormed
  /-- Its stage is one of the pipeline. -/
  stage : ∃ stage : Stage, entryPoint.stage = stage.name

/-- All declarations of a program are well-formed. They may clash or refer to nothing. -/
structure Program.IsWellFormed (program : Program) : Prop where
  /-- Its resources are well-formed. -/
  resources : ∀ resource ∈ program.resources, resource.IsWellFormed
  /-- Its plain variables are well-formed. -/
  globals : ∀ declared ∈ program.globals, declared.IsWellFormed
  /-- Its helpers are well-formed. -/
  helpers : ∀ helper ∈ program.helpers, helper.IsWellFormed
  /-- Its entry points are well-formed. -/
  entryPoints : ∀ entryPoint ∈ program.entryPoints, entryPoint.IsWellFormed

/-! ## Images -/

/-- A name as a word without a position. -/
def wordImage (name : String) : Wgsl.Word :=
  ⟨name, .start⟩

/-- The attribute of a name that gives an index, if there is one. Only numbers have an image. -/
def indexImage (name : String) : Option Index → List Wgsl.Attribute
  | some (.number value) => [⟨wordImage name, [.number value.toNat]⟩]
  | _ => []

/-- The binding attributes: the group, then the binding number. -/
def bindingImage (group binding : Option Index) : List Wgsl.Attribute :=
  indexImage "group" group ++ indexImage "binding" binding

/-- A resource as a variable of a module. -/
def Resource.image (resource : Resource) : Wgsl.Variable :=
  ⟨bindingImage resource.group resource.binding, resource.kind.addressSpace?.toList,
    wordImage resource.name, resource.kind.storeType⟩

/-- A plain variable as a variable of a module. -/
def ModuleVariable.image (declared : ModuleVariable) : Wgsl.Variable :=
  ⟨bindingImage declared.group declared.binding, [declared.addressSpace], wordImage declared.name,
    declared.typeName⟩

/-- A local variable as a variable of a function. -/
def LocalVariable.image (declared : LocalVariable) : Wgsl.Variable :=
  ⟨bindingImage declared.group declared.binding, declared.addressSpace.toList,
    wordImage declared.name, declared.typeName⟩

/-- A statement as one of a module; a use reads a variable and drops its value. -/
def Statement.image? : Statement → Option Wgsl.Statement
  | use name => some (.drop (.reference (wordImage name)))
  | call name => some (.call (wordImage name))
  | declare localVariable => some (.declare localVariable.image)
  | unknown => none

/-- A function as one of a module at which no stage starts. -/
def Function.image (function : Function) : Wgsl.Function :=
  { name := wordImage function.name, body := function.body.filterMap Statement.image? }

namespace Stage

/-- The attributes of the entry points of a stage. -/
def attributeImages : Stage → List Wgsl.Attribute
  | vertex => [⟨wordImage "vertex", []⟩]
  | fragment => [⟨wordImage "fragment", []⟩]
  | compute => [⟨wordImage "compute", []⟩, ⟨wordImage "workgroup_size", [.number 1]⟩]

/-- The result of the entry points of a stage: a vertex entry point returns a position. -/
def resultImage : Stage → Option Wgsl.Result
  | vertex => some ⟨[⟨wordImage "builtin", [.word "position"]⟩], "vec4f"⟩
  | _ => none

/-- The statements at the end of the entry points of a stage. -/
def endImage : Stage → List Wgsl.Statement
  | vertex => [.leave (some (.call (wordImage "vec4f")))]
  | _ => []

/-- A function as the entry point of a stage. -/
def entryPointImage (stage : Stage) (function : Function) : Wgsl.Function :=
  ⟨stage.attributeImages, wordImage function.name, stage.resultImage,
    function.image.body ++ stage.endImage⟩

end Stage

/-- An entry point as a function of a module, if its stage is known. -/
def EntryPoint.image? (entryPoint : EntryPoint) : Option Wgsl.Function :=
  (Stage.ofName? entryPoint.stage).map fun stage => stage.entryPointImage entryPoint.toFunction

/-- The module that a program stands for: its resources and its plain variables, its helpers and its
entry points. -/
def Program.image (program : Program) : Wgsl.Module :=
  ⟨program.resources.map Resource.image ++ program.globals.map ModuleVariable.image,
    program.helpers.map Function.image ++ program.entryPoints.filterMap EntryPoint.image?⟩

end BindingSuite
