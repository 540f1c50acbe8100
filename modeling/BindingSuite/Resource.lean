import BindingSuite.Text.Quoted

/-! # Resources of a shader

What a shader can bind, and where.

* `ResourceKind` enumerates the kinds of bindable resource, with the name of each, its address
  space and its store type;
* `Index` is what a binding attribute can hold, and `Index.normal` what it amounts to;
* `BindingPoint` is a place to bind a resource: a group and a binding number in it;
* `Stage` enumerates the pipeline stages that an entry point can belong to. -/

namespace BindingSuite

/-! ## Kinds -/

/-- The kinds of resource that the scenarios bind. -/
inductive ResourceKind where
  | uniform
  | storage
  | texture1D
  | texture2D
  | texture2DArray
  | texture3D
  | textureCube
  | textureCubeArray
  | textureMultisampled2D
  | textureExternal
  | textureDepth2D
  | textureDepth2DArray
  | textureDepthCube
  | textureDepthCubeArray
  | textureDepthMultisampled2D
  | sampler
  | samplerComparison
  deriving DecidableEq

namespace ResourceKind

/-- Every kind, in the order in which the scenarios go through them. -/
def all : List ResourceKind :=
  [uniform, storage, texture1D, texture2D, texture2DArray, texture3D, textureCube,
    textureCubeArray, textureMultisampled2D, textureExternal, textureDepth2D, textureDepth2DArray,
    textureDepthCube, textureDepthCubeArray, textureDepthMultisampled2D, sampler,
    samplerComparison]

/-- The list of all kinds misses none. -/
theorem mem_all (kind : ResourceKind) : kind ∈ all := by
  cases kind <;> decide

/-- The name of a kind. -/
def name : ResourceKind → String
  | uniform => "uniform"
  | storage => "storage"
  | texture1D => "texture_1d"
  | texture2D => "texture_2d"
  | texture2DArray => "texture_2d_array"
  | texture3D => "texture_3d"
  | textureCube => "texture_cube"
  | textureCubeArray => "texture_cube_array"
  | textureMultisampled2D => "texture_multisampled_2d"
  | textureExternal => "texture_external"
  | textureDepth2D => "texture_depth_2d"
  | textureDepth2DArray => "texture_depth_2d_array"
  | textureDepthCube => "texture_depth_cube"
  | textureDepthCubeArray => "texture_depth_cube_array"
  | textureDepthMultisampled2D => "texture_depth_multisampled_2d"
  | sampler => "sampler"
  | samplerComparison => "sampler_comparison"

/-- The kind of a given name, if there is one. -/
def ofName? (name : String) : Option ResourceKind :=
  all.find? fun kind => kind.name = name

/-- A kind is found by its name. -/
@[simp] theorem ofName?_name (kind : ResourceKind) : ofName? kind.name = some kind := by
  cases kind <;> rfl

/-- What is said of a name that no kind has. -/
def unknownNameMessage (name : String) : String :=
  Text.quoted name ++ " is not a valid ResourceKind"

/-- The form in which a listing of parameters shows a kind: its constant and its name. -/
def label (kind : ResourceKind) : String :=
  "<ResourceKind." ++ kind.name.toUpper ++ ": " ++ Text.quoted kind.name ++ ">"

/-- The address space in which a resource of a kind is declared; textures and samplers have
none. -/
def addressSpace? : ResourceKind → Option String
  | uniform => some "uniform"
  | storage => some "storage"
  | _ => none

/-- The type of the variable that holds a resource of a kind. Storage is an array with the default
access, which every stage allows. -/
def storeType : ResourceKind → String
  | uniform => "vec4<f32>"
  | storage => "array<vec4<f32>, 4>"
  | texture1D => "texture_1d<f32>"
  | texture2D => "texture_2d<f32>"
  | texture2DArray => "texture_2d_array<f32>"
  | texture3D => "texture_3d<f32>"
  | textureCube => "texture_cube<f32>"
  | textureCubeArray => "texture_cube_array<f32>"
  | textureMultisampled2D => "texture_multisampled_2d<f32>"
  | textureExternal => "texture_external"
  | textureDepth2D => "texture_depth_2d"
  | textureDepth2DArray => "texture_depth_2d_array"
  | textureDepthCube => "texture_depth_cube"
  | textureDepthCubeArray => "texture_depth_cube_array"
  | textureDepthMultisampled2D => "texture_depth_multisampled_2d"
  | sampler => "sampler"
  | samplerComparison => "sampler_comparison"

end ResourceKind

/-- The types of textures and samplers, whose values are handles that no function can hold. -/
def isHandleType (typeName : String) : Bool :=
  "texture_".toList.isPrefixOf typeName.toList || typeName = "sampler"
    || typeName = "sampler_comparison"

/-! ## Places -/

/-- What a binding attribute can hold. A proper index is a number; anything else is there for a
compiler to reject. -/
inductive Index where
  /-- An integer. -/
  | number (value : Int)
  /-- A truth value. -/
  | truth (value : Bool)
  /-- An arbitrary text. -/
  | word (text : String)
  /-- A kind of resource. -/
  | kind (value : ResourceKind)
  deriving DecidableEq

/-- The spelling of a truth value. -/
def truthText (value : Bool) : String :=
  if value then "True" else "False"

namespace Index

instance (value : Nat) : OfNat Index value := ⟨number value⟩

/-- The text of an index between the parentheses of its attribute. -/
def text : Index → String
  | number value => value.repr
  | truth value => truthText value
  | word text => text
  | kind value => value.name

/-- What an index amounts to: a truth value amounts to zero or one, all else to itself. -/
def normal : Index → Index
  | truth value => number (if value then 1 else 0)
  | index => index

/-- A number amounts to itself. -/
@[simp] theorem normal_number (value : Int) : (number value).normal = number value := rfl

/-- What an index amounts to amounts to nothing else. -/
@[simp] theorem normal_normal (index : Index) : index.normal.normal = index.normal := by
  cases index <;> rfl

end Index

/-- The place where a resource is bound. -/
structure BindingPoint where
  /-- The bind group. -/
  group : Index
  /-- The number within the group. -/
  binding : Index
  deriving DecidableEq

namespace BindingPoint

/-- The attributes that declare a place. -/
def text (point : BindingPoint) : String :=
  "@group(" ++ point.group.text ++ ") @binding(" ++ point.binding.text ++ ")"

/-- What a place amounts to: two points are the same place when they amount to the same. -/
def normal (point : BindingPoint) : BindingPoint :=
  ⟨point.group.normal, point.binding.normal⟩

end BindingPoint

/-! ## Stages -/

/-- The pipeline stages. -/
inductive Stage where
  | vertex
  | fragment
  | compute
  deriving DecidableEq

namespace Stage

/-- Every stage, in the order in which the scenarios go through them. -/
def all : List Stage := [vertex, fragment, compute]

/-- The name of a stage, which is also the attribute that marks its entry points. -/
def name : Stage → String
  | vertex => "vertex"
  | fragment => "fragment"
  | compute => "compute"

/-- The stage of a given name, if there is one. -/
def ofName? (name : String) : Option Stage :=
  all.find? fun stage => stage.name = name

/-- A stage is found by its name. -/
@[simp] theorem ofName?_name (stage : Stage) : ofName? stage.name = some stage := by
  cases stage <;> rfl

end Stage

end BindingSuite
