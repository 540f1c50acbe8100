import BindingSuite.Proofs.Recognition
import BindingSuite.Proofs.Resemblance
import BindingSuite.Proofs.Writing

/-! # Spellings of numerals

A text is accepted for its tokens and for the numbers of its numerals. Layout has no say in it, and
neither have leading zeros and suffixes. They show in the texts of types, where the rules do not
look at them.

* `Token.SameValue` allows a numeral to be spelled in another way, and `standard` spells the
  numerals of tokens and trees in decimal;
* `Tree.yield_standard` says that trees are respelled token by token, and `unplaced_eq_of_yield_eq`
  that the grammar is unambiguous;
* `toModule_standard_resembles` says that a respelled tree stands for a module that looks alike to
  the rules;
* `accepted_of_respelling` concludes for the answers on two texts. -/

namespace BindingSuite.Wgsl

/-! ## Tokens -/

/-- The decimal spelling of a numeral, without leading zeros and without a suffix. -/
def standardNumeral (text : String) : String :=
  (numeralValue text).repr

/-- Respelled, a numeral has the same number. -/
@[simp] theorem numeralValue_standardNumeral (text : String) :
    numeralValue (standardNumeral text) = numeralValue text :=
  numeralValue_repr _

/-- A token with its numeral in decimal. -/
def Token.standard : Token → Token
  | numeral text => numeral (standardNumeral text)
  | token => token

/-- Two tokens are the same, except that numerals of the same number may be spelled differently. -/
inductive Token.SameValue : Token → Token → Prop where
  /-- The tokens are the same. -/
  | refl (token : Token) : SameValue token token
  /-- The tokens are numerals of the same number. -/
  | numeral {text other : String} (same : numeralValue text = numeralValue other) :
    SameValue (.numeral text) (.numeral other)

/-- Numerals have the same number exactly when they are the same in decimal. -/
theorem standardNumeral_eq_iff {text other : String} :
    standardNumeral text = standardNumeral other ↔ numeralValue text = numeralValue other := by
  constructor
  · intro same
    rw [← numeralValue_standardNumeral text, same, numeralValue_standardNumeral]
  · intro same
    rw [standardNumeral, standardNumeral, same]

/-- Only numerals are respelled. -/
theorem Token.standard_eq_self {token : Token} (noNumeral : ∀ text, token ≠ .numeral text) :
    token.standard = token := by
  cases token with
  | numeral text => exact absurd rfl (noNumeral text)
  | _ => rfl

/-- Tokens have the same value exactly when they are the same in decimal. -/
theorem Token.sameValue_iff {token other : Token} :
    token.SameValue other ↔ token.standard = other.standard := by
  constructor
  · rintro (_ | same)
    · rfl
    · exact congrArg Token.numeral (standardNumeral_eq_iff.mpr same)
  · intro same
    -- Either both tokens are numerals or none is.
    by_cases isNumeral : ∃ text, token = .numeral text <;>
      by_cases otherNumeral : ∃ text, other = .numeral text
    · obtain ⟨text, rfl⟩ := isNumeral
      obtain ⟨otherText, rfl⟩ := otherNumeral
      exact .numeral (standardNumeral_eq_iff.mp (Token.numeral.inj same))
    · obtain ⟨text, rfl⟩ := isNumeral
      rw [standard_eq_self (not_exists.mp otherNumeral)] at same
      exact absurd ⟨_, same.symm⟩ otherNumeral
    · obtain ⟨otherText, rfl⟩ := otherNumeral
      rw [standard_eq_self (not_exists.mp isNumeral)] at same
      exact absurd ⟨_, same⟩ isNumeral
    · rw [standard_eq_self (not_exists.mp isNumeral),
        standard_eq_self (not_exists.mp otherNumeral)] at same
      exact same ▸ .refl token

/-- Lists of tokens have the same values, one by one, exactly when they are the same in decimal. -/
theorem Token.forall₂_sameValue_iff {tokens others : List Token} :
    List.Forall₂ SameValue tokens others ↔ tokens.map standard = others.map standard := by
  rw [← List.forall₂_eq_eq_eq, List.forall₂_map_left_iff, List.forall₂_map_right_iff]
  exact ⟨fun same => same.imp fun _ _ => sameValue_iff.mp,
    fun same => same.imp fun _ _ => sameValue_iff.mpr⟩

/-! ## Trees -/

namespace Tree

/-- An argument with its numeral in decimal. -/
def Argument.standard : Argument → Argument
  | numeral text => numeral (standardNumeral text)
  | word text => word text

/-- An attribute with its numerals in decimal. -/
def Attribute.standard (given : Attribute) : Attribute :=
  { given with arguments := given.arguments.map Argument.standard }

mutual

/-- A parameter of a type with its numerals in decimal. -/
def Parameter.standard : Parameter → Parameter
  | .numeral text => .numeral (standardNumeral text)
  | .type name parameters => .type name (standardParameters parameters)

/-- Parameters of a type with their numerals in decimal. -/
def standardParameters : List Parameter → List Parameter
  | [] => []
  | first :: rest => first.standard :: standardParameters rest

end

/-- A type with its numerals in decimal. -/
def TypeName.standard (type : TypeName) : TypeName :=
  { type with parameters := standardParameters type.parameters }

/-- A variable with its numerals in decimal. -/
def Variable.standard (declared : Variable) : Variable :=
  { declared with
    attributes := declared.attributes.map Attribute.standard
    type := declared.type.standard }

/-- An expression with its numeral in decimal. -/
def Expression.standard : Expression → Expression
  | call name => call name
  | reference name => reference name
  | numeral text => numeral (standardNumeral text)

/-- A statement with its numerals in decimal. -/
def Statement.standard : Statement → Statement
  | drop value => drop value.standard
  | call name => call name
  | declare declared => declare declared.standard
  | leave value => leave (value.map Expression.standard)

/-- A result with its numerals in decimal. -/
def Result.standard (result : Result) : Result :=
  ⟨result.attributes.map Attribute.standard, result.type.standard⟩

/-- A function with its numerals in decimal. -/
def Function.standard (declared : Function) : Function :=
  { declared with
    attributes := declared.attributes.map Attribute.standard
    result := declared.result.map Result.standard
    body := declared.body.map Statement.standard }

/-- A declaration with its numerals in decimal. -/
def Declaration.standard : Declaration → Declaration
  | ofVariable declared => ofVariable declared.standard
  | ofFunction declared => ofFunction declared.standard

/-- A tree with its numerals in decimal. -/
def standard (tree : Tree) : Tree :=
  tree.map Declaration.standard

/-! ## Tokens of trees -/

/-- Respelling tokens respells a list of them with commas between. -/
theorem separated_map_standard (items : List (List Token)) :
    separated (items.map fun item => item.map Token.standard) =
      (separated items).map Token.standard := by
  induction items with
  | nil => rfl
  | cons first rest ih =>
    cases rest with
    | nil => rfl
    | cons second rest =>
      change first.map Token.standard ++ .comma :: separated ((second :: rest).map _) =
        (first ++ .comma :: separated (second :: rest)).map Token.standard
      rw [ih, List.map_append, List.map_cons]
      rfl

/-- Parts that are respelled token by token are so together. -/
theorem flatMap_map_standard {α : Type} {yield : α → List Token} {standard : α → α}
    (each : ∀ item, yield (standard item) = (yield item).map Token.standard) (items : List α) :
    (items.map standard).flatMap yield = (items.flatMap yield).map Token.standard := by
  rw [List.flatMap_map, List.map_flatMap]
  exact List.flatMap_congr fun item _ => each item

/-- The tokens of an attribute are respelled with it. -/
theorem Attribute.yield_standard (given : Attribute) :
    given.standard.yield = given.yield.map Token.standard := by
  obtain ⟨name, arguments, trailingComma⟩ := given
  have token (argument : Argument) : argument.standard.token = argument.token.standard := by
    cases argument <;> rfl
  have tokens : separated ((arguments.map Argument.standard).map fun argument =>
        [argument.token]) =
      (separated (arguments.map fun argument => [argument.token])).map Token.standard := by
    rw [← separated_map_standard, List.map_map, List.map_map]
    simp only [Function.comp_def, token, List.map_cons, List.map_nil]
  have bare : (arguments.map Argument.standard).isEmpty = arguments.isEmpty := List.isEmpty_map
  rw [standard, yield, yield, tokens, bare]
  cases arguments.isEmpty <;> cases trailingComma <;> simp [Token.standard]

mutual

/-- The tokens of a parameter are respelled with it. -/
theorem Parameter.yield_standard : (parameter : Parameter) →
    parameter.standard.yield = parameter.yield.map Token.standard
  | .numeral _ => rfl
  | .type name parameters => congrArg (Token.name name :: ·) (bracketYield_standard parameters)

/-- The tokens of a bracket are respelled with the parameters. -/
theorem bracketYield_standard : (parameters : List Parameter) →
    bracketYield (standardParameters parameters) = (bracketYield parameters).map Token.standard
  | [] => rfl
  | first :: rest => by
    rw [standardParameters, bracketYield, bracketYield, first.yield_standard,
      restYield_standard rest]
    simp [Token.standard]

/-- The tokens of the parameters behind the first are respelled with them. -/
theorem restYield_standard : (parameters : List Parameter) →
    restYield (standardParameters parameters) = (restYield parameters).map Token.standard
  | [] => rfl
  | next :: rest => by
    rw [standardParameters, restYield, restYield, next.yield_standard, restYield_standard rest]
    simp [Token.standard]

end

/-- The tokens of a type are respelled with it. -/
theorem TypeName.yield_standard (type : TypeName) :
    type.standard.yield = type.yield.map Token.standard :=
  congrArg (Token.name type.name :: ·) (bracketYield_standard type.parameters)

/-- The tokens of a template stay as they are. -/
theorem templateYield_standard (template : List String) :
    (templateYield template).map Token.standard = templateYield template := by
  have words : (separated (template.map fun word => [Token.name word])).map Token.standard =
      separated (template.map fun word => [Token.name word]) := by
    rw [← separated_map_standard, List.map_map]
    rfl
  rw [templateYield]
  split
  · rfl
  · simp [words, Token.standard]

/-- The tokens of a variable are respelled with it. -/
theorem Variable.yield_standard (declared : Variable) :
    declared.standard.yield = declared.yield.map Token.standard := by
  simp [yield, standard, flatMap_map_standard Attribute.yield_standard, templateYield_standard,
    TypeName.yield_standard, Token.standard]

/-- The token of an expression is respelled with it. -/
theorem Expression.yield_standard (value : Expression) :
    value.standard.yield = value.yield.map Token.standard := by
  cases value <;> rfl

/-- The tokens of a statement are respelled with it. -/
theorem Statement.yield_standard (statement : Statement) :
    statement.standard.yield = statement.yield.map Token.standard := by
  cases statement with
  | drop value => simp [yield, standard, value.yield_standard, Token.standard]
  | call name => rfl
  | declare declared => exact declared.yield_standard
  | leave value =>
    cases value with
    | none => rfl
    | some value => simp [yield, standard, value.yield_standard, Token.standard]

/-- The tokens of a result are respelled with it. -/
theorem Result.yield_standard (result : Result) :
    result.standard.yield = result.yield.map Token.standard := by
  simp [yield, standard, flatMap_map_standard Attribute.yield_standard, TypeName.yield_standard,
    Token.standard]

/-- The tokens of a function are respelled with it. -/
theorem Function.yield_standard (declared : Function) :
    declared.standard.yield = declared.yield.map Token.standard := by
  have result : (declared.result.map (Result.yield ∘ Result.standard)).getD [] =
      ((declared.result.map Result.yield).getD []).map Token.standard := by
    cases declared.result with
    | none => rfl
    | some result => exact result.yield_standard
  simp [yield, standard, flatMap_map_standard Attribute.yield_standard, result,
    flatMap_map_standard Statement.yield_standard, Token.standard]

/-- The tokens of a tree are respelled with it. -/
theorem yield_standard (tree : Tree) : tree.standard.yield = tree.yield.map Token.standard := by
  refine flatMap_map_standard (fun declaration => ?_) tree
  cases declaration with
  | ofVariable declared => exact declared.yield_standard
  | ofFunction declared => exact declared.yield_standard

/-! ## Derivations -/

/-- Respelling makes no attribute leave the grammar. -/
theorem forall_isDerivation_standard {attributes : List Attribute}
    (derives : ∀ given ∈ attributes, given.IsDerivation) :
    ∀ given ∈ attributes.map Attribute.standard, given.IsDerivation :=
  List.forall_mem_map.mpr fun given member bare =>
    derives given member (List.map_eq_nil_iff.mp bare)

/-- Respelling makes no variable leave the grammar. -/
theorem Variable.isDerivation_standard {declared : Variable} (derives : declared.IsDerivation) :
    declared.standard.IsDerivation :=
  ⟨forall_isDerivation_standard derives.1, derives.2⟩

/-- Respelling makes no function leave the grammar. -/
theorem Function.isDerivation_standard {declared : Function} (derives : declared.IsDerivation) :
    declared.standard.IsDerivation := by
  refine ⟨forall_isDerivation_standard derives.1, fun result isResult => ?_,
    List.forall_mem_map.mpr fun statement member => ?_⟩
  · obtain ⟨given, isGiven, rfl⟩ := Option.map_eq_some_iff.mp isResult
    exact forall_isDerivation_standard (derives.2.1 given isGiven)
  · cases statement with
    | declare inner => exact Variable.isDerivation_standard (derives.2.2 _ member)
    | _ => trivial

/-- Respelling makes no tree leave the grammar. -/
theorem isDerivation_standard {tree : Tree} (derives : tree.IsDerivation) :
    tree.standard.IsDerivation := by
  refine List.forall_mem_map.mpr fun declaration member => ?_
  cases declaration with
  | ofVariable declared => exact Variable.isDerivation_standard (derives _ member)
  | ofFunction declared => exact Function.isDerivation_standard (derives _ member)

/-- The grammar is unambiguous: derivations of the same tokens are the same, positions aside. -/
theorem unplaced_eq_of_yield_eq {tree other : Tree} (derives : tree.IsDerivation)
    (otherDerives : other.IsDerivation) (same : tree.yield = other.yield) :
    tree.unplaced = other.unplaced := by
  -- The parser finds one tree only, whatever positions the tokens are given.
  have kinds : Parser.kinds (tree.yield.map fun token => ⟨token, .start⟩) = tree.yield := by
    simp [Parser.kinds, Function.comp_def]
  obtain ⟨read, found, isTree⟩ := ofTokens_complete derives kinds
  obtain ⟨again, foundAgain, isOther⟩ := ofTokens_complete otherDerives (kinds.trans same)
  rw [found] at foundAgain
  cases foundAgain
  rw [← isTree, isOther]

/-! ## Types of textures and samplers -/

/-- What stands behind a character that a pattern lacks does not matter to the pattern. -/
theorem isPrefixOf_append_cons {pattern front back : List Char} {character : Char}
    (absent : character ∉ pattern) :
    pattern.isPrefixOf (front ++ character :: back) = pattern.isPrefixOf front := by
  induction pattern generalizing front with
  | nil => simp
  | cons first rest ih =>
    obtain ⟨other, absent⟩ := List.ne_and_not_mem_of_not_mem_cons absent
    cases front with
    | nil => simp [List.isPrefixOf, Ne.symm other]
    | cons next front => simp [List.isPrefixOf, ih absent]

/-- With parameters, the name in front decides whether a type is that of a texture or sampler. -/
theorem isHandleType_append_bracket (name rest : String) :
    isHandleType (name ++ ("<" ++ rest)) = "texture_".toList.isPrefixOf name.toList := by
  have spelled : (name ++ ("<" ++ rest)).toList = name.toList ++ '<' :: rest.toList := by
    simp
  have other {word : String} (absent : '<' ∉ word.toList) : name ++ ("<" ++ rest) ≠ word := by
    rintro rfl
    rw [spelled] at absent
    simp at absent
  rw [isHandleType, spelled, isPrefixOf_append_cons (by decide),
    decide_eq_false (other (by decide)), decide_eq_false (other (by decide)), Bool.or_false,
    Bool.or_false]

/-- The spelling of numerals is no part of whether a type is that of a texture or sampler. -/
theorem TypeName.isHandleType_standard (type : TypeName) :
    isHandleType type.standard.text = isHandleType type.text := by
  obtain ⟨name, _ | ⟨first, rest⟩⟩ := type
  · rfl
  · have text (first : Parameter) (rest : List Parameter) :
        TypeName.text ⟨name, first :: rest⟩ =
          name ++ ("<" ++ (first.text ++ restText rest ++ ">")) := by
      simp only [TypeName.text, bracketText, String.append_assoc]
    rw [text, isHandleType_append_bracket]
    change isHandleType (TypeName.text ⟨name, first.standard :: standardParameters rest⟩) = _
    rw [text, isHandleType_append_bracket]

/-! ## Meanings of trees -/

/-- Respelled attributes stand for the same attributes. -/
theorem map_toAttribute_standard (attributes : List Attribute) :
    (attributes.map Attribute.standard).map Attribute.toAttribute =
      attributes.map Attribute.toAttribute := by
  have argument (argument : Argument) : argument.standard.toArgument = argument.toArgument := by
    cases argument with
    | numeral text => exact congrArg Wgsl.Argument.number (numeralValue_standardNumeral text)
    | word text => rfl
  simp [Attribute.standard, Attribute.toAttribute, Function.comp_def, argument]

/-- A respelled expression stands for the same expression. -/
theorem Expression.toExpression_standard (value : Expression) :
    value.standard.toExpression = value.toExpression := by
  cases value with
  | numeral text => exact congrArg Wgsl.Expression.number (numeralValue_standardNumeral text)
  | _ => rfl

/-- A respelled variable looks like the variable. -/
theorem Variable.toVariable_standard_resembles (declared : Variable) :
    declared.standard.toVariable.Resembles declared.toVariable where
  attributes name := congrArg (hasAttribute · name) (map_toAttribute_standard declared.attributes)
  template := rfl
  name := rfl
  handle := declared.type.isHandleType_standard

/-- In a respelled variable the same groups and binding numbers count. -/
theorem Variable.leaders_standard (declared : Variable) :
    declared.standard.toVariable.leaders = declared.toVariable.leaders := by
  simp only [Wgsl.Variable.leaders, toVariable, standard, map_toAttribute_standard]

/-- A respelled statement looks like the statement. -/
theorem Statement.toStatement_standard_resembles (statement : Statement) :
    statement.standard.toStatement.Resembles statement.toStatement := by
  cases statement with
  | drop value =>
    rw [standard, toStatement, toStatement, value.toExpression_standard]
    exact .refl _
  | call name => exact .refl _
  | declare declared => exact .declare declared.toVariable_standard_resembles
  | leave value =>
    have same : (value.map Expression.standard).map Expression.toExpression =
        value.map Expression.toExpression := by
      cases value with
      | none => rfl
      | some value => exact congrArg some value.toExpression_standard
    rw [standard, toStatement, toStatement, same]
    exact .refl _

/-- A respelled function looks like the function. -/
theorem Function.toFunction_standard_resembles (declared : Function) :
    declared.standard.toFunction.Resembles declared.toFunction := by
  have attributes := map_toAttribute_standard declared.attributes
  refine ⟨fun name => congrArg (hasAttribute · name) attributes, ?_, rfl, ?_, ?_⟩
  · exact congrArg (List.findSome? fun given => Stage.ofName? given.name.text) attributes
  · change Option.Rel _ ((declared.result.map Result.standard).map Result.toResult)
      (declared.result.map Result.toResult)
    cases declared.result with
    | none => exact .none
    | some result =>
      exact .some fun name =>
        congrArg (hasAttribute · name) (map_toAttribute_standard result.attributes)
  · change List.Forall₂ _ ((declared.body.map Statement.standard).map Statement.toStatement)
      (declared.body.map Statement.toStatement)
    rw [List.map_map, List.forall₂_map_left_iff, List.forall₂_map_right_iff, List.forall₂_same]
    exact fun statement _ => statement.toStatement_standard_resembles

/-- A respelled tree stands for a module that looks like that of the tree. -/
theorem toModule_standard_resembles (tree : Tree) :
    tree.standard.toModule.Resembles tree.toModule := by
  have inStep : List.Forall₂ (fun respelled declaration => respelled = declaration.standard)
      tree.standard tree :=
    List.forall₂_map_left_iff.mpr (List.forall₂_same.mpr fun _ _ => rfl)
  constructor
  · refine List.rel_filterMap ?_ inStep
    rintro _ (declared | declared) rfl
    · exact .some ⟨declared.toVariable_standard_resembles, declared.leaders_standard⟩
    · exact .none
  · refine List.rel_filterMap ?_ inStep
    rintro _ (declared | declared) rfl
    · exact .none
    · exact .some declared.toFunction_standard_resembles

/-- Derivations whose tokens are the same, except that numerals of the same number may be spelled
differently, stand for modules that break the same rules in the same order. -/
theorem breaches_eq_of_sameValue {tree other : Tree} (derives : tree.IsDerivation)
    (otherDerives : other.IsDerivation)
    (same : List.Forall₂ Token.SameValue tree.yield other.yield) :
    tree.toModule.breaches.map Breach.outline = other.toModule.breaches.map Breach.outline := by
  have tokens : tree.standard.yield = other.standard.yield := by
    rw [yield_standard, yield_standard]
    exact Token.forall₂_sameValue_iff.mp same
  have trees : tree.standard.unplaced = other.standard.unplaced :=
    unplaced_eq_of_yield_eq (isDerivation_standard derives) (isDerivation_standard otherDerives)
      tokens
  -- Neither respelling nor leaving positions out changes the outlines of breaches.
  have outlines (tree : Tree) : tree.toModule.breaches.map Breach.outline =
      tree.standard.unplaced.toModule.breaches.map Breach.outline := by
    rw [← tree.toModule_standard_resembles.breaches_eq, toModule_unplaced,
      Module.breaches_unplaced, map_outline_unplaced]
  rw [outlines tree, outlines other, trees]

end Tree

/-! ## Texts -/

/-- The tokens of a text, as far as it can be scanned. -/
def tokensOf (source : String) : List Token :=
  Parser.kinds (scan source.toList).tokens

/-- Behind a module that is read from a text there is a derivation of the tokens of the text. -/
theorem Module.exists_derivation_of_ofSource {source : String} {module : Module}
    (read : ofSource source = .ok module) :
    ∃ tree : Tree, tokensOf source = tree.yield ∧ tree.IsDerivation ∧ tree.toModule = module := by
  obtain ⟨tree, found, meaning⟩ := exists_toTree_of_ofSource read
  obtain ⟨yields, derives⟩ := Tree.ofTokens_sound (Scan.ofTokens_of_toTree found).1
  exact ⟨tree, yields, derives, meaning⟩

/-- The tokens of a text that can be read are terminals. -/
theorem Module.isTerminal_of_mem_tokensOf {source : String} {module : Module}
    (read : Module.ofSource source = .ok module) :
    ∀ token ∈ tokensOf source, token.IsTerminal := by
  obtain ⟨tree, found, -⟩ := exists_toTree_of_ofSource read
  obtain ⟨layout, proper, -, tokens⟩ :=
    exists_layout_of_scanFrom (Scan.ofTokens_of_toTree found).2
  have same : tokensOf source = layout.tokens := tokens.symm
  exact same ▸ Layout.isTerminal_of_mem_tokens proper

/-- What the compiler accepts depends on tokens and on the numbers of numerals only. Two texts that
can both be read may differ in their white space and comments, and their numerals in leading zeros
and suffixes. Then there is an answer on both, and one is accepted exactly when the other is. -/
theorem accepted_of_respelling {source other : String} {module otherModule : Module}
    (read : Module.ofSource source = .ok module)
    (otherRead : Module.ofSource other = .ok otherModule)
    (same : List.Forall₂ Token.SameValue (tokensOf source) (tokensOf other)) :
    ∃ given otherGiven, answer source = .ok given ∧ answer other = .ok otherGiven ∧
      given.accepted = otherGiven.accepted := by
  refine ⟨module.answer, otherModule.answer, by rw [answer, read], by rw [answer, otherRead], ?_⟩
  obtain ⟨tree, yields, derives, rfl⟩ := Module.exists_derivation_of_ofSource read
  obtain ⟨otherTree, otherYields, otherDerives, rfl⟩ :=
    Module.exists_derivation_of_ofSource otherRead
  rw [yields, otherYields] at same
  exact Module.accepted_eq_of_outlines (Tree.breaches_eq_of_sameValue derives otherDerives same)

/-- Two resources of an entry point collide. They still do when their place is spelled in different
ways and a parameter of a type in another one, with a comment in between. -/
theorem accepted_of_respelling_collision :
    ∃ given otherGiven,
      answer ("@group(0)@binding(1)var<storage>a:array<4>;@group(0)@binding(1)var b:sampler;"
        ++ "@fragment fn f()\x7b_=a;_=b;\x7d") = .ok given ∧
      answer ("@group(00u) @binding(1i)var<storage>a:array<04>; // a\n"
        ++ "@group(0)@binding(01)var b:sampler;@fragment fn f()\x7b_=a;_=b;\x7d") = .ok otherGiven ∧
      given.accepted = false ∧ otherGiven.accepted = false := by
  let word (text : String) (offset : Nat) : Word := ⟨text, ⟨offset, 1, offset + 1⟩⟩
  let place (offset : Nat) : List Attribute :=
    [⟨word "group" offset, [.number 0]⟩, ⟨word "binding" (offset + 9), [.number 1]⟩]
  let buffer : Variable := ⟨place 1, ["storage"], word "a" 32, "array<4>"⟩
  let filter : Variable := ⟨place 44, [], word "b" 67, "sampler"⟩
  let main : Function := ⟨[⟨word "fragment" 78, []⟩], word "f" 90, none,
    [.drop (.reference (word "a" 96)), .drop (.reference (word "b" 100))]⟩
  let module : Module := ⟨[buffer, filter], [main]⟩
  have read : Module.ofSource
      ("@group(0)@binding(1)var<storage>a:array<4>;@group(0)@binding(1)var b:sampler;"
        ++ "@fragment fn f()\x7b_=a;_=b;\x7d") = .ok module := by
    cbv
  have isRead {source : String} (found : (Module.ofSource source).toOption.isSome = true) :
      ∃ module, Module.ofSource source = .ok module := by
    cases read : Module.ofSource source with
    | error failure => rw [read] at found; cases found
    | ok module => exact ⟨module, rfl⟩
  obtain ⟨otherModule, otherRead⟩ := @isRead
    ("@group(00u) @binding(1i)var<storage>a:array<04>; // a\n"
      ++ "@group(0)@binding(01)var b:sampler;@fragment fn f()\x7b_=a;_=b;\x7d") (by cbv)
  obtain ⟨given, otherGiven, isGiven, isOther, same⟩ :=
    accepted_of_respelling read otherRead (Token.forall₂_sameValue_iff.mpr (by cbv))
  -- The entry point reads both resources, which are at the same place.
  have rejected : module.answer.accepted = false := by
    rw [← Bool.not_eq_true, Module.accepted_answer_iff, Module.breaches_eq_nil_iff]
    intro rules
    have reads : main.ReadsName "a" ∧ main.ReadsName "b" :=
      ⟨⟨[], .drop (.reference (word "a" 96)), by simp [main], rfl, by simp⟩,
        ⟨[.drop (.reference (word "a" 96))], .drop (.reference (word "b" 100)), by simp [main],
          rfl, by simp [Statement.declaredNames]⟩⟩
    exact rules.places main (by simp [module]) rfl buffer filter
      ⟨by simp [module], .inr (.inl rfl), "f", .refl, main, by simp [module], rfl, reads.1⟩
      ⟨by simp [module], .inr (.inr ⟨rfl, by decide⟩), "f", .refl, main, by simp [module], rfl,
        reads.2⟩ (by decide) rfl
  have isAnswer : given = module.answer := by
    rw [answer, read] at isGiven
    exact (Except.ok.inj isGiven).symm
  rw [← isAnswer] at rejected
  exact ⟨given, otherGiven, isGiven, isOther, rejected, same ▸ rejected⟩

end BindingSuite.Wgsl
