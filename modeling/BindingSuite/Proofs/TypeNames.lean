import BindingSuite.Proofs.Spelling

/-! # Names of types

Reading gives every type one text, its name. The name is canonical: it keeps the tokens, it is its
own name, and types have the same name only when they have the same tokens.

* `TypeName.IsSpelledBy` says that a text lays out the tokens of a type, and `typeTokens` scans
  such a text;
* `text_eq_text_iff` tells types apart by their names;
* `declaredTypeName?` declares a variable of a type and reads the name of the type back;
* `TypePlace` is a place where a type stands in a module, and `typeName?_of_ofSource` finds the name
  of the type there, whatever the layout of the source text;
* `typeNames_canonical` puts together what is known of names. -/

namespace BindingSuite.Wgsl

namespace Tree

/-! ## Texts of types -/

/-- A text spells a type: it lays out the tokens of the type, with white space and comments anywhere
between, before and behind them. -/
def TypeName.IsSpelledBy (type : TypeName) (text : String) : Prop :=
  ∃ layout : Layout, layout.IsProper ∧ Layout.IsSeparated layout ∧ layout.text = text.toList ∧
    layout.tokens = type.yield

end Tree

/-- The tokens of a text that stands where a type does, behind a colon or an arrow. No word is a
keyword there. -/
def typeTokens (text : String) : List Token :=
  Parser.kinds (scanFrom ⟨false, .inside⟩ .start text.toList).tokens

namespace Tree

namespace TypeName

variable {type other : TypeName} {text : String}

/-- Only terminals can be spelled. -/
theorem IsSpelledBy.isTerminal (spelled : type.IsSpelledBy text) :
    ∀ token ∈ type.yield, token.IsTerminal := by
  obtain ⟨layout, proper, -, -, yields⟩ := spelled
  exact yields ▸ Layout.isTerminal_of_mem_tokens proper

/-- The tokens of a text that spells a type are those of the type. -/
theorem IsSpelledBy.typeTokens_eq (spelled : type.IsSpelledBy text) :
    typeTokens text = type.yield := by
  obtain ⟨layout, proper, separated, isText, yields⟩ := spelled
  -- No token of a type leaves the declaration, so every word in it is a name.
  have fits : Context.Fits ⟨false, .inside⟩ layout.tokens :=
    yields ▸ (Context.leads_inside type.inner_yield).1
  rw [typeTokens, ← isText, Parser.kinds, (scanFrom_text proper separated fits).1, yields]

/-- The name of a type spells it. -/
theorem isSpelledBy_text (terminals : ∀ token ∈ type.yield, token.IsTerminal) :
    type.IsSpelledBy type.text :=
  (writtenWord terminals).exists_layout

/-- Types with the same tokens are the same. -/
theorem eq_of_yield_eq (same : type.yield = other.yield) : type = other := by
  -- The parser takes one type only off the tokens, whatever positions they are given.
  obtain ⟨tokens, kinds⟩ : ∃ tokens, Parser.kinds tokens = type.yield ++ [] :=
    ⟨type.yield.map fun token => ⟨token, .start⟩, by simp [Parser.kinds, Function.comp_def]⟩
  have otherKinds : Parser.kinds tokens = other.yield ++ [] := same ▸ kinds
  have ends : ([] : List Token).head? ≠ some .less := by simp
  obtain ⟨read, rest, reads, isType, -⟩ := Parser.typeName_complete trivial kinds ends
  obtain ⟨again, left, readsAgain, isOther, -⟩ :=
    Parser.typeName_complete trivial otherKinds ends
  have one : (Except.ok (read, rest) : Except Unexpected _) = .ok (again, left) :=
    reads.symm.trans readsAgain
  cases one
  exact isType.symm.trans isOther

/-- Types of terminals have the same name exactly when they have the same tokens. -/
theorem text_eq_text_iff (terminals : ∀ token ∈ type.yield, token.IsTerminal)
    (otherTerminals : ∀ token ∈ other.yield, token.IsTerminal) :
    type.text = other.text ↔ type.yield = other.yield := by
  constructor
  · -- The tokens can be scanned off the name.
    intro same
    rw [← (isSpelledBy_text terminals).typeTokens_eq, same,
      (isSpelledBy_text otherTerminals).typeTokens_eq]
  · intro same
    rw [eq_of_yield_eq same]

end TypeName

end Tree

/-! ## Places of types -/

/-- The name of the type that a statement declares a variable of. -/
def Statement.typeName? : Statement → Option String
  | declare declared => some declared.typeName
  | _ => none

namespace Tree

/-- A declaration with a gap for a type. What its parts have for a type in the gap does not
count. -/
inductive TypeGap where
  /-- In a variable of the module. -/
  | ofVariable (declared : Variable)
  /-- In the result of a function. -/
  | ofResult (function : Function) (result : Result)
  /-- In a local variable of a function, between other statements. -/
  | ofLocal (function : Function) (before : List Statement) (declared : Variable)
    (after : List Statement)

/-- The declaration with a type in the gap. -/
def TypeGap.fill (type : TypeName) : TypeGap → Declaration
  | ofVariable declared => .ofVariable { declared with type }
  | ofResult function result => .ofFunction { function with result := some { result with type } }
  | ofLocal function before declared after =>
    .ofFunction { function with body := before ++ .declare { declared with type } :: after }

/-- A place for a type in a module: a declaration with a gap, between other declarations. -/
structure TypePlace where
  /-- The declarations before. -/
  before : Tree := []
  /-- The declaration with the gap. -/
  gap : TypeGap
  /-- The declarations behind. -/
  after : Tree := []

namespace TypePlace

/-- The tree with a type at the place. -/
def fill (place : TypePlace) (type : TypeName) : Tree :=
  place.before ++ place.gap.fill type :: place.after

/-- The name of the type that a module has at the place, found by counting the variables or
functions before it. -/
def typeName? (place : TypePlace) (module : Module) : Option String :=
  let globalsBefore := place.before.filterMap Declaration.variable?
  let functionsBefore := place.before.filterMap Declaration.function?
  match place.gap with
  | .ofVariable _ => module.globals[globalsBefore.length]?.map Wgsl.Variable.typeName
  | .ofResult _ _ => do
    let result ← (← module.functions[functionsBefore.length]?).result
    return result.typeName
  | .ofLocal _ before _ _ => do
    let statement ← (← module.functions[functionsBefore.length]?).body[before.length]?
    statement.typeName?

/-- The module that a tree with a type at the place stands for has the text of the type there. -/
theorem typeName?_toModule_fill (place : TypePlace) (type : TypeName) :
    place.typeName? (place.fill type).toModule = some type.text := by
  obtain ⟨before, gap, after⟩ := place
  -- As many variables, functions and statements stand before the gap in the module as in the tree.
  cases gap with
  | ofVariable declared =>
    simp [typeName?, fill, TypeGap.fill, toModule, Declaration.variable?, Variable.toVariable]
  | ofResult function result =>
    simp [typeName?, fill, TypeGap.fill, toModule, Declaration.function?, Function.toFunction,
      Result.toResult]
  | ofLocal function front declared back =>
    simp [typeName?, fill, TypeGap.fill, toModule, Declaration.function?, Function.toFunction,
      Statement.toStatement, Variable.toVariable, Wgsl.Statement.typeName?]

/-- The tokens of the type at a place are among those of the tree. -/
theorem mem_yield_fill (place : TypePlace) {type : TypeName} {token : Token}
    (member : token ∈ type.yield) : token ∈ (place.fill type).yield := by
  obtain ⟨before, gap, after⟩ := place
  cases gap with
  | ofVariable declared =>
    simp [fill, TypeGap.fill, Tree.yield, Declaration.yield, Variable.yield, member]
  | ofResult function result =>
    simp [fill, TypeGap.fill, Tree.yield, Declaration.yield, Function.yield, Result.yield, member]
  | ofLocal function front declared back =>
    simp [fill, TypeGap.fill, Tree.yield, Declaration.yield, Function.yield, Statement.yield,
      Variable.yield, member]

/-- Positions are no part of the name of a type. -/
theorem typeName?_unplaced (place : TypePlace) (module : Module) :
    place.typeName? module.unplaced = place.typeName? module := by
  have statement (statement : Wgsl.Statement) :
      statement.unplaced.typeName? = statement.typeName? := by
    cases statement <;> rfl
  obtain ⟨before, gap, after⟩ := place
  cases gap with
  | ofVariable declared =>
    simp [typeName?, Module.unplaced, Function.comp_def]
  | ofResult function result =>
    simp [typeName?, Module.unplaced, Option.bind_map, Function.comp_def, Wgsl.Function.unplaced,
      Wgsl.Result.unplaced]
  | ofLocal function front declared back =>
    simp [typeName?, Module.unplaced, Option.bind_map, Wgsl.Function.unplaced, statement]

/-- In every source text that can be read and holds a type at a place, the module has the text of
the type there. -/
theorem typeName?_of_ofSource {place : TypePlace} {type : TypeName} {source : String}
    {module : Module} (read : Module.ofSource source = .ok module)
    (tokens : tokensOf source = (place.fill type).yield)
    (derives : (place.fill type).IsDerivation) : place.typeName? module = some type.text := by
  obtain ⟨tree, yields, isDerivation, rfl⟩ := Module.exists_derivation_of_ofSource read
  -- The tree that was read can differ from the filled one in positions only, and no name has any.
  have same : tree.unplaced = (place.fill type).unplaced :=
    unplaced_eq_of_yield_eq isDerivation derives (yields.symm.trans tokens)
  rw [← typeName?_unplaced, ← toModule_unplaced, same, toModule_unplaced, typeName?_unplaced,
    typeName?_toModule_fill]

end TypePlace

end Tree

/-! ## Names of declared types -/

/-- The declaration of a variable of the type that a text spells. The line ends behind the text,
which may end in a comment. -/
def declarationText (text : String) : String :=
  "var a:" ++ text ++ "\n;"

/-- The name of the type that a text spells: the one that is read back from the declaration of a
variable. -/
def declaredTypeName? (text : String) : Option String :=
  match Module.ofSource (declarationText text) with
  | .ok module => module.globals.head?.map Variable.typeName
  | .error _ => none

namespace Tree.TypeName

variable {type : TypeName} {text : String}

/-- The declaration of a variable of a type. -/
def declaration (type : TypeName) : Tree :=
  [.ofVariable { name := ⟨"a", .start⟩, type }]

/-- With a text that spells a type, the declaration of a variable is laid out. -/
theorem IsSpelledBy.exists_layout_declaration (spelled : type.IsSpelledBy text) :
    ∃ layout : Layout, layout.IsProper ∧ Layout.IsSeparated layout ∧
      layout.text = (declarationText text).toList ∧ layout.tokens = type.declaration.yield := by
  obtain ⟨layout, proper, separated, isText, yields⟩ := spelled
  let front : Layout := [.token (.keyword .var), .space ' ', .token (.name "a"), .token .colon]
  let back : Layout := [.space '\n', .token .semicolon]
  refine ⟨front ++ (layout ++ back), ?_, ?_, ?_, ?_⟩
  · exact Layout.isProper_append.mpr
      ⟨by decide, Layout.isProper_append.mpr ⟨proper, by decide⟩⟩
  · -- Everything may follow the colon, and the end of the line may follow everything.
    refine List.isChain_append.mpr ⟨by decide, List.isChain_append.mpr ⟨separated, by decide, ?_⟩,
      ?_⟩
    · rintro last - _ ⟨⟩
      exact last.mayPrecede_newline
    · rintro _ ⟨⟩ first -
      exact Piece.mayPrecede_of_isClosed rfl first
  · simp [front, back, isText, declarationText, Piece.text, Token.text, Keyword.text]
  · simp [front, back, yields, declaration, Tree.yield, Declaration.yield, Variable.yield,
      templateYield]

/-- A text that spells a type can be declared, and the name that is read back is the text of the
type. -/
theorem IsSpelledBy.declaredTypeName?_eq (spelled : type.IsSpelledBy text) :
    declaredTypeName? text = some type.text := by
  obtain ⟨layout, proper, separated, isText, yields⟩ := spelled.exists_layout_declaration
  have derives : type.declaration.IsDerivation := by
    simp [declaration, Tree.IsDerivation, Declaration.IsDerivation, Variable.IsDerivation]
  have fits : type.declaration.NamesFit := List.forall_mem_singleton.mpr trivial
  have short : ∀ numeral ∈ type.declaration.numerals, numeral.isOversized = false :=
    List.forall_mem_nil _
  obtain ⟨module, read, same⟩ :=
    Module.ofSource_of_layout proper separated yields derives fits short
  rw [isText, String.ofList_toList] at read
  -- The type stands in the first variable of the module, positions aside.
  let place : TypePlace := { gap := .ofVariable { name := ⟨"a", .start⟩, type } }
  have name : place.typeName? module = some type.text := by
    rw [← place.typeName?_unplaced, same, place.typeName?_unplaced]
    exact place.typeName?_toModule_fill type
  simp only [declaredTypeName?, read, List.head?_eq_getElem?]
  exact name

/-- The text of a type of terminals spells the type, has its tokens, and is its own name. -/
theorem text_isCanonical (terminals : ∀ token ∈ type.yield, token.IsTerminal) :
    type.IsSpelledBy type.text ∧ typeTokens type.text = type.yield ∧
      declaredTypeName? type.text = some type.text := by
  have spelled := isSpelledBy_text terminals
  exact ⟨spelled, spelled.typeTokens_eq, spelled.declaredTypeName?_eq⟩

end Tree.TypeName

/-- Names of types are canonical. Every text that spells a type has a name, which spells the same
type in the same tokens and is its own name. Two such texts have the same name exactly when they
have the same tokens, where numerals are the same when they are spelled so. In every source text
that can be read, whatever its layout, a type has such a name at every place. -/
theorem typeNames_canonical :
    (∀ (text : String) (type : Tree.TypeName), type.IsSpelledBy text →
      ∃ name, declaredTypeName? text = some name ∧ type.IsSpelledBy name ∧
        typeTokens name = typeTokens text ∧ declaredTypeName? name = some name) ∧
    (∀ (text other : String) (type otherType : Tree.TypeName), type.IsSpelledBy text →
      otherType.IsSpelledBy other →
        (declaredTypeName? text = declaredTypeName? other ↔ typeTokens text = typeTokens other)) ∧
    ∀ (source : String) (module : Module) (place : Tree.TypePlace) (type : Tree.TypeName),
      Module.ofSource source = .ok module → tokensOf source = (place.fill type).yield →
        (place.fill type).IsDerivation →
          ∃ name, place.typeName? module = some name ∧ type.IsSpelledBy name ∧
            typeTokens name = type.yield ∧ declaredTypeName? name = some name := by
  refine ⟨fun text type spelled => ?_, fun text other type otherType spelled otherSpelled => ?_,
    fun source module place type read tokens derives => ?_⟩
  · rw [spelled.typeTokens_eq]
    exact ⟨type.text, spelled.declaredTypeName?_eq,
      Tree.TypeName.text_isCanonical spelled.isTerminal⟩
  · rw [spelled.declaredTypeName?_eq, otherSpelled.declaredTypeName?_eq, Option.some_inj,
      Tree.TypeName.text_eq_text_iff spelled.isTerminal otherSpelled.isTerminal,
      spelled.typeTokens_eq, otherSpelled.typeTokens_eq]
  · -- The tokens of the type come from the scanner, so they can be spelled.
    have terminals : ∀ token ∈ type.yield, token.IsTerminal := fun token member =>
      Module.isTerminal_of_mem_tokensOf read token (tokens ▸ place.mem_yield_fill member)
    exact ⟨type.text, Tree.TypePlace.typeName?_of_ofSource read tokens derives,
      Tree.TypeName.text_isCanonical terminals⟩

/-- An array is declared with a comment and a line break among its parameters. Its name has neither,
and is another one where the length is spelled without the leading zero. Behind an attribute, the
result of a function has the same name. -/
theorem typeNames_canonical_array :
    declaredTypeName? "array<vec4<f32>, // length\n04u>" = some "array<vec4<f32>, 04u>" ∧
      declaredTypeName? "array<vec4<f32>, 04u>" = some "array<vec4<f32>, 04u>" ∧
      declaredTypeName? "array<vec4<f32>, // length\n04u>" ≠
        declaredTypeName? "array<vec4<f32>,4u>" ∧
      ∃ module, Module.ofSource "fn f()->@location(0)array<vec4<f32>,04u>\x7b\x7d" = .ok module ∧
        module.functions.map (fun function => function.result.map Result.typeName) =
          [some "array<vec4<f32>, 04u>"] := by
  let array (length : String) : Tree.TypeName :=
    ⟨"array", [.type "vec4" [.type "f32" []], .numeral length]⟩
  let pieces (gap : Layout) (length : String) : Layout :=
    [.token (.name "array"), .token .less, .token (.name "vec4"), .token .less,
      .token (.name "f32"), .token .greater, .token .comma] ++ gap ++
        [.token (.numeral length), .token .greater]
  have wide : (array "04u").IsSpelledBy "array<vec4<f32>, // length\n04u>" :=
    ⟨pieces [.space ' ', .comment " length".toList, .space '\n'] "04u", by decide, by decide,
      by decide, rfl⟩
  have narrow : (array "4u").IsSpelledBy "array<vec4<f32>,4u>" :=
    ⟨pieces [] "4u", by decide, by decide, by decide, rfl⟩
  obtain ⟨name, declared, -, -, again⟩ := typeNames_canonical.1 _ _ wide
  obtain rfl : "array<vec4<f32>, 04u>" = name :=
    Option.some.inj (wide.declaredTypeName?_eq.symm.trans declared)
  have apart := typeNames_canonical.2.1 _ _ _ _ wide narrow
  rw [wide.typeTokens_eq, narrow.typeTokens_eq] at apart
  let word (text : String) (offset : Nat) : Word := ⟨text, ⟨offset, 1, offset + 1⟩⟩
  let function : Tree.Function := { name := word "f" 3 }
  let location : Tree.Attribute := { name := word "location" 9, arguments := [.numeral "0"] }
  let place : Tree.TypePlace := { gap := .ofResult function ⟨[location], array "04u"⟩ }
  let module : Module := (place.fill (array "04u")).toModule
  have read : Module.ofSource "fn f()->@location(0)array<vec4<f32>,04u>\x7b\x7d" = .ok module := by
    cbv
  have tokens : tokensOf "fn f()->@location(0)array<vec4<f32>,04u>\x7b\x7d" =
      (place.fill (array "04u")).yield := by
    cbv
  have derives : (place.fill (array "04u")).IsDerivation := by
    simp [place, function, location, Tree.TypePlace.fill, Tree.TypeGap.fill, Tree.IsDerivation,
      Tree.Declaration.IsDerivation, Tree.Function.IsDerivation, Tree.Result.IsDerivation,
      Tree.Attribute.IsDerivation]
  obtain ⟨result, found, -⟩ := typeNames_canonical.2.2 _ _ _ _ read tokens derives
  obtain rfl : "array<vec4<f32>, 04u>" = result := Option.some.inj found
  exact ⟨declared, again, fun same => absurd (apart.mp same) (by decide), module, read, rfl⟩

end BindingSuite.Wgsl
