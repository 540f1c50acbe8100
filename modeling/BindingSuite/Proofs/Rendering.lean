import BindingSuite.Program.Render
import BindingSuite.Proofs.Image
import BindingSuite.Proofs.Recognition
import BindingSuite.Proofs.Writing

/-! # Reading written programs

The text of a well-formed program is read back as the image of the program.

* `Phrase.Writes` says that a text writes a tree out that stands for a given part of a module;
* one lemma for each part of a program says that its text writes its image;
* `Program.exists_ofSource` puts the parts together, and `Program.ofSource_text` says that reading
  undoes writing. -/

namespace BindingSuite

open Wgsl (Written WrittenWord Token Tree)

/-! ## Phrases -/

/-- A sort of parts of a text: trees that yield tokens and stand for parts of a module. -/
structure Phrase (α β : Type) where
  /-- The tokens of a tree. -/
  yield : α → List Token
  /-- Which trees are read back from their tokens. -/
  IsReadable : α → Prop
  /-- What a tree stands for, positions aside. -/
  meaning : α → β

namespace Phrase

variable {α β γ : Type}

/-- A text writes a tree out that is read back as a given part of a module. -/
def Writes (phrase : Phrase α β) (text : String) (meaning : β) : Prop :=
  ∃ tree, Written text.toList (phrase.yield tree) ∧ phrase.IsReadable tree ∧
    phrase.meaning tree = meaning

/-- Texts that each write something write out a list of trees. -/
theorem exists_trees {phrase : Phrase α β} {texts : List String} {meanings : List β}
    (written : List.Forall₂ phrase.Writes texts meanings) :
    ∃ trees : List α, List.Forall₂ (fun text tokens => Written text.toList tokens) texts
        (trees.map phrase.yield) ∧
      (∀ tree ∈ trees, phrase.IsReadable tree) ∧ trees.map phrase.meaning = meanings := by
  induction written with
  | nil => exact ⟨[], .nil, nofun, rfl⟩
  | cons head _ ih =>
    obtain ⟨tree, written, readable, rfl⟩ := head
    obtain ⟨trees, others, othersReadable, rfl⟩ := ih
    exact ⟨tree :: trees, .cons written others, List.forall_mem_cons.mpr ⟨readable, othersReadable⟩,
      rfl⟩

/-- When each item has a text that writes its image, a list of items has texts that write the
images of the list. -/
theorem exists_texts {phrase : Phrase α β} {text : γ → Except RenderError String}
    {image? : γ → Option β} {items : List γ}
    (written : ∀ item ∈ items, ∃ written image, text item = .ok written ∧
      image? item = some image ∧ phrase.Writes written image) :
    ∃ texts, items.mapM text = .ok texts ∧
      List.Forall₂ phrase.Writes texts (items.filterMap image?) := by
  induction items with
  | nil => exact ⟨[], rfl, .nil⟩
  | cons first rest ih =>
    obtain ⟨⟨written, image, isText, isImage, writes⟩, others⟩ := List.forall_mem_cons.mp written
    obtain ⟨texts, areTexts, othersWrite⟩ := ih others
    refine ⟨written :: texts, ?_, ?_⟩
    · rw [List.mapM_cons, isText, areTexts]
      rfl
    · rw [List.filterMap_cons_some isImage]
      exact .cons writes othersWrite

end Phrase

/-- Variables. -/
def variablePhrase : Phrase Tree.Variable Wgsl.Variable where
  yield := Tree.Variable.yield
  IsReadable declared :=
    declared.IsDerivation ∧ ∀ numeral ∈ declared.numerals, numeral.isOversized = false
  meaning declared := declared.toVariable.unplaced

/-- Statements. -/
def statementPhrase : Phrase Tree.Statement Wgsl.Statement where
  yield := Tree.Statement.yield
  IsReadable statement := statement.IsDerivation ∧ statement.NamesFit ∧
    ∀ numeral ∈ statement.numerals, numeral.isOversized = false
  meaning statement := statement.toStatement.unplaced

/-- Functions. -/
def functionPhrase : Phrase Tree.Function Wgsl.Function where
  yield := Tree.Function.yield
  IsReadable declared := declared.IsDerivation ∧ declared.NamesFit ∧
    ∀ numeral ∈ declared.numerals, numeral.isOversized = false
  meaning declared := declared.toFunction.unplaced

/-! ## Attributes -/

/-- The text of an attribute with an index, up to its closing parenthesis. -/
def indexText (name : String) (index : Index) : List Char :=
  '@' :: name.toList ++ '(' :: index.text.toList

/-- The attribute of a name with an index, if there is one. -/
def indexTrees (name : String) (index : Option Index) : List Tree.Attribute :=
  index.toList.map fun index => ⟨wordImage name, [.numeral index.text], false⟩

/-- An attribute with a number as its index is written as its text. -/
theorem written_indexText {name : String} {index : Index} (identifier : IsIdentifier name)
    (natural : index.IsNatural) :
    Written (indexText name index ++ [')']) [.at, .name name, .openParenthesis,
      .numeral index.text, .closeParenthesis] := by
  obtain ⟨value, rfl, -⟩ := natural
  have sign : Written ['@'] [.at] := Wgsl.written_nil.word.1 .at rfl
  have named := sign.append_word (Wgsl.writtenWord_name identifier)
  have given := (named.1 .openParenthesis rfl).append_word (Wgsl.writtenWord_repr value)
  have whole := given.1 .closeParenthesis rfl
  simpa [indexText, Token.text, Index.text, Int.repr] using whole

/-- A letter is in the text of an attribute only if it is in the name. -/
theorem not_mem_indexText (name : String) {index : Index} (natural : index.IsNatural)
    (absent : 'v' ∉ name.toList) : 'v' ∉ indexText name index := by
  obtain ⟨value, rfl, -⟩ := natural
  have inDigits : 'v' ∉ value.repr.toList := fun member =>
    absurd (Wgsl.forall_isDigit_repr value _ member) (by decide)
  rw [Nat.toList_repr] at inDigits
  simp [indexText, absent, Index.text, Int.repr, inDigits]

/-- The attribute of an index is read back. -/
theorem readable_indexTrees (name : String) {index : Option Index}
    (natural : ∀ given ∈ index, given.IsNatural) :
    (∀ given ∈ indexTrees name index, given.IsDerivation) ∧
      (∀ numeral ∈ (indexTrees name index).flatMap Tree.Attribute.numerals,
        numeral.isOversized = false) ∧
      (indexTrees name index).map (fun given => given.toAttribute.unplaced) =
        indexImage name index := by
  cases index with
  | none => exact ⟨nofun, nofun, rfl⟩
  | some given =>
    obtain ⟨value, rfl, short⟩ := natural given rfl
    refine ⟨by simp [indexTrees, Tree.Attribute.IsDerivation], ?_, ?_⟩
    · have digits : Wgsl.numeralDigits value.repr = value.repr.toList :=
        Wgsl.numeralDigits_repr value
      simp only [indexTrees, Option.toList_some, List.map_cons, List.map_nil, List.flatMap_cons,
        List.flatMap_nil, List.append_nil, Tree.Attribute.numerals, List.filterMap_cons,
        Tree.Argument.numeral?, List.filterMap_nil, List.forall_mem_singleton,
        Wgsl.Numeral.isOversized, Index.text, Int.repr, digits, String.length_toList]
      exact decide_eq_false (Nat.not_lt.mpr short)
    · simp [indexTrees, indexImage, Tree.Attribute.toAttribute, Tree.Argument.toArgument,
        Wgsl.Attribute.unplaced, Wgsl.Word.unplaced, wordImage, Index.text, Int.repr,
        Wgsl.numeralValue_repr]

/-- The binding attributes of a variable. -/
def attributeTrees (group binding : Option Index) : List Tree.Attribute :=
  indexTrees "group" group ++ indexTrees "binding" binding

/-- The binding attributes of a variable are read back as their image. -/
theorem readable_attributeTrees {group binding : Option Index}
    (groupNatural : ∀ index ∈ group, index.IsNatural)
    (bindingNatural : ∀ index ∈ binding, index.IsNatural) :
    (∀ given ∈ attributeTrees group binding, given.IsDerivation) ∧
      (∀ numeral ∈ (attributeTrees group binding).flatMap Tree.Attribute.numerals,
        numeral.isOversized = false) ∧
      (attributeTrees group binding).map (fun given => given.toAttribute.unplaced) =
        bindingImage group binding := by
  obtain ⟨groupDerives, groupShort, groupImage⟩ :=
    readable_indexTrees "group" groupNatural
  obtain ⟨bindingDerives, bindingShort, bindingImage⟩ :=
    readable_indexTrees "binding" bindingNatural
  refine ⟨List.forall_mem_append.mpr ⟨groupDerives, bindingDerives⟩, ?_, ?_⟩
  · rw [attributeTrees, List.flatMap_append, List.forall_mem_append]
    exact ⟨groupShort, bindingShort⟩
  · rw [attributeTrees, List.map_append, groupImage, bindingImage]
    rfl

/-- The binding attributes of a variable are written as their text. There are none, or the text ends
behind a parenthesis with a space and has no letter that starts a keyword before. -/
theorem written_attributesText {group binding : Option Index}
    (groupNatural : ∀ index ∈ group, index.IsNatural)
    (bindingNatural : ∀ index ∈ binding, index.IsNatural) :
    (attributesText group binding = "" ∧ attributeTrees group binding = []) ∨
      ∃ front, (attributesText group binding).toList = front ++ [')', ' '] ∧ 'v' ∉ front ∧
        Written (front ++ [')']) ((attributeTrees group binding).flatMap Tree.Attribute.yield) := by
  have groupName : IsIdentifier "group" := by decide
  have bindingName : IsIdentifier "binding" := by decide
  rcases group with _ | group <;> rcases binding with _ | binding
  · exact .inl ⟨rfl, rfl⟩
  · have natural := bindingNatural binding rfl
    refine .inr ⟨indexText "binding" binding, ?_, not_mem_indexText _ natural (by decide),
      written_indexText bindingName natural⟩
    simp [attributesText, indexText]
  · have natural := groupNatural group rfl
    refine .inr ⟨indexText "group" group, ?_, not_mem_indexText _ natural (by decide),
      written_indexText groupName natural⟩
    simp [attributesText, indexText]
  · -- Only here is there a space within the text, behind the first of two parentheses.
    have first := groupNatural group rfl
    have second := bindingNatural binding rfl
    refine .inr ⟨indexText "group" group ++ [')', ' '] ++ indexText "binding" binding, ?_, ?_, ?_⟩
    · simp [attributesText, indexText]
    · have inFirst := not_mem_indexText "group" first (by decide)
      have inSecond := not_mem_indexText "binding" second (by decide)
      simp [inFirst, inSecond]
    · have blank : Written [' '] [] := Wgsl.written_space rfl
      have both := ((written_indexText groupName first).append blank).append
        (written_indexText bindingName second)
      simpa [attributeTrees, indexTrees, Tree.Attribute.yield, Tree.separated, Tree.Argument.token,
        wordImage] using both

/-! ## Variables -/

/-- The text of a variable behind its attributes. -/
def bareText (name typeName : String) (addressSpace : Option String) : String :=
  variableKeyword addressSpace ++ " " ++ name ++ " : " ++ typeName ++ ";"

/-- The text of a variable starts with its attributes. -/
theorem declarationText_eq (name typeName : String) (addressSpace : Option String)
    (group binding : Option Index) :
    declarationText name typeName addressSpace group binding =
      attributesText group binding ++ bareText name typeName addressSpace := by
  simp [declarationText, bareText, String.append_assoc]

/-- Behind its attributes a variable starts with its keyword. -/
theorem exists_bareText (name typeName : String) (addressSpace : Option String) :
    ∃ rest, (bareText name typeName addressSpace).toList = 'v' :: 'a' :: 'r' :: rest := by
  cases addressSpace with
  | none => simp [bareText, variableKeyword]
  | some addressSpace =>
    by_cases empty : addressSpace = "" <;> simp [bareText, variableKeyword, empty]

/-- An identifier is not empty. -/
theorem IsIdentifier.ne_empty {text : String} (identifier : IsIdentifier text) : text ≠ "" := by
  rintro rfl
  cases identifier

/-- An identifier contains no parenthesis. -/
theorem IsIdentifier.not_mem {text : String} (identifier : IsIdentifier text) :
    ')' ∉ text.toList :=
  show ')' ∉ (Token.name text).text.toList from Tree.not_mem_of_isTerminal identifier rfl

/-- The keyword of a variable is written with its address space. -/
theorem written_variableKeyword {addressSpace : Option String}
    (identifier : ∀ space ∈ addressSpace, IsIdentifier space) :
    Written ((variableKeyword addressSpace).toList ++ [' '])
      (.keyword .var :: Tree.templateYield addressSpace.toList) := by
  have keyword : WrittenWord "var".toList [.keyword .var] :=
    show WrittenWord (Token.keyword .var).text.toList _ from Wgsl.writtenWord_token trivial
  cases addressSpace with
  | none => exact keyword.2 ' ' rfl
  | some space =>
    have isIdentifier := identifier space rfl
    have named := (keyword.1 .less rfl).append_word (Wgsl.writtenWord_name isIdentifier)
    have blank : Written [' '] [] := Wgsl.written_space rfl
    have whole := (named.1 .greater rfl).append blank
    simpa [variableKeyword, isIdentifier.ne_empty, Tree.templateYield, Tree.separated, Token.text]
      using whole

/-- A variable is written as its text behind its attributes. -/
theorem written_bareText {name : String} {addressSpace : Option String} {type : Tree.TypeName}
    (attributes : List Tree.Attribute) (isName : IsIdentifier name)
    (identifier : ∀ space ∈ addressSpace, IsIdentifier space)
    (terminals : ∀ token ∈ type.yield, token.IsTerminal) :
    Written (bareText name type.text addressSpace).toList
      (Tree.Variable.bareYield ⟨attributes, addressSpace.toList, wordImage name, type⟩) := by
  have blank : Written [' '] [] := Wgsl.written_space rfl
  have named := (written_variableKeyword identifier).append_word (Wgsl.writtenWord_name isName)
  have colon := ((named.2 ' ' rfl).word.1 .colon rfl).append blank
  have whole := (colon.append_word (Tree.TypeName.writtenWord terminals)).1 .semicolon rfl
  simpa [bareText, Tree.Variable.bareYield, wordImage, Token.text] using whole

/-- A text that writes attributes and then a declaration behind them writes the image of the
variable. -/
theorem variable_writes {name typeName text : String} {addressSpace : Option String}
    {group binding : Option Index} {front : List Char} (isName : IsIdentifier name)
    (isType : IsTypeText typeName) (identifier : ∀ space ∈ addressSpace, IsIdentifier space)
    (groupNatural : ∀ index ∈ group, index.IsNatural)
    (bindingNatural : ∀ index ∈ binding, index.IsNatural)
    (attributes : Written front ((attributeTrees group binding).flatMap Tree.Attribute.yield))
    (split : text.toList = front ++ (bareText name typeName addressSpace).toList) :
    variablePhrase.Writes text
      ⟨bindingImage group binding, addressSpace.toList, wordImage name, typeName⟩ := by
  obtain ⟨type, terminals, rfl⟩ := isType
  obtain ⟨derive, short, image⟩ := readable_attributeTrees groupNatural bindingNatural
  refine ⟨⟨attributeTrees group binding, addressSpace.toList, wordImage name, type⟩, ?_,
    ⟨⟨derive, ?_⟩, short⟩, ?_⟩
  · change Written text.toList (Tree.Variable.yield _)
    rw [split, Tree.Variable.yield_eq_append]
    exact attributes.append
      (written_bareText (attributeTrees group binding) isName identifier terminals)
  · cases addressSpace with
    | none => exact Nat.zero_le 2
    | some space => exact Nat.le_succ 1
  · simpa [variablePhrase, Tree.Variable.toVariable, Wgsl.Variable.unplaced, Function.comp_def,
      wordImage, Wgsl.Word.unplaced] using image

/-- The text of a declaration writes the image of the variable. -/
theorem declaration_writes {name typeName : String} {addressSpace : Option String}
    {group binding : Option Index} (isName : IsIdentifier name) (isType : IsTypeText typeName)
    (identifier : ∀ space ∈ addressSpace, IsIdentifier space)
    (groupNatural : ∀ index ∈ group, index.IsNatural)
    (bindingNatural : ∀ index ∈ binding, index.IsNatural) :
    variablePhrase.Writes (declarationText name typeName addressSpace group binding)
      ⟨bindingImage group binding, addressSpace.toList, wordImage name, typeName⟩ := by
  rcases written_attributesText groupNatural bindingNatural with
    ⟨none, noTrees⟩ | ⟨front, attributes, -, written⟩
  · have written : Written [] ((attributeTrees group binding).flatMap Tree.Attribute.yield) := by
      rw [noTrees]
      exact Wgsl.written_nil
    refine variable_writes isName isType identifier groupNatural bindingNatural written ?_
    rw [declarationText_eq, none, String.toList_append]
    rfl
  · have blank : Written [' '] [] := Wgsl.written_space rfl
    have spaced := written.append blank
    rw [List.append_nil] at spaced
    refine variable_writes isName isType identifier groupNatural bindingNatural spaced ?_
    rw [declarationText_eq, String.toList_append, attributes]
    simp

/-- The text of a resource writes its image. -/
theorem Resource.writes {resource : Resource} (wellFormed : resource.IsWellFormed) :
    variablePhrase.Writes resource.text resource.image :=
  declaration_writes wellFormed.name.1 resource.kind.isTypeText_storeType
    resource.kind.isIdentifier_addressSpace wellFormed.group wellFormed.binding

/-- The text of a plain variable writes its image. -/
theorem ModuleVariable.writes {declared : ModuleVariable} (wellFormed : declared.IsWellFormed) :
    variablePhrase.Writes declared.text declared.image := by
  have identifier : ∀ space ∈ some declared.addressSpace, IsIdentifier space := by
    rintro space ⟨⟩
    exact wellFormed.addressSpace
  exact declaration_writes wellFormed.name.1 wellFormed.type identifier wellFormed.group
    wellFormed.binding

/-! ## Local variables -/

/-- No line is broken in a text without a closing parenthesis. -/
theorem breakBeforeVariable_eq_self {text : List Char} (absent : ')' ∉ text) :
    breakBeforeVariable text = text := by
  fun_induction breakBeforeVariable text with
  | case1 rest => simp at absent
  | case2 character rest _ ih => rw [ih fun member => absent (List.mem_cons_of_mem _ member)]
  | case3 => rfl

/-- A variable without attributes has no closing parenthesis. -/
theorem not_mem_bareText {name typeName : String} {addressSpace : Option String}
    (isName : IsIdentifier name) (isType : IsTypeText typeName)
    (identifier : ∀ space ∈ addressSpace, IsIdentifier space) :
    ')' ∉ (bareText name typeName addressSpace).toList := by
  obtain ⟨type, terminals, rfl⟩ := isType
  have inName := isName.not_mem
  have inType := Tree.TypeName.not_mem_text terminals
  have inKeyword : ')' ∉ (variableKeyword addressSpace).toList := by
    cases addressSpace with
    | none => decide
    | some given =>
      have isIdentifier := identifier given rfl
      simp [variableKeyword, isIdentifier.ne_empty, isIdentifier.not_mem]
  simp [bareText, inName, inType, inKeyword]

/-- The line is broken behind attributes, whose text has no letter that starts the keyword. -/
theorem breakBeforeVariable_append {front : List Char} (absent : 'v' ∉ front) (rest : List Char) :
    breakBeforeVariable (front ++ ')' :: ' ' :: 'v' :: 'a' :: 'r' :: rest) =
      front ++ ')' :: '\n' :: ' ' :: ' ' :: 'v' :: 'a' :: 'r' :: rest := by
  induction front with
  | nil => rfl
  | cons character others ih =>
    obtain ⟨-, inOthers⟩ := not_or.mp fun member => absent (List.mem_cons.mpr member)
    rw [List.cons_append, breakBeforeVariable, ih inOthers]
    · rfl
    · -- A match further in front would have the letter among the characters before the end.
      rintro rest' - same
      rcases others with _ | ⟨second, _ | ⟨third, others⟩⟩
      · cases same
      · cases same
      · rw [List.cons_append, List.cons_append, List.cons.injEq, List.cons.injEq] at same
        exact inOthers (by simp [same.2.1])

/-- The text of a local variable writes its image. -/
theorem LocalVariable.writes {declared : LocalVariable} (wellFormed : declared.IsWellFormed) :
    variablePhrase.Writes declared.text declared.image := by
  obtain ⟨⟨isName, -⟩, identifier, isType, groupNatural, bindingNatural⟩ := wellFormed
  rcases written_attributesText groupNatural bindingNatural with
    ⟨none, noTrees⟩ | ⟨front, attributes, absent, written⟩
  · have written : Written [] ((attributeTrees declared.group declared.binding).flatMap
        Tree.Attribute.yield) := by
      rw [noTrees]
      exact Wgsl.written_nil
    have absent := not_mem_bareText isName isType identifier
    -- Without attributes there is no parenthesis, so the line is not broken.
    refine variable_writes isName isType identifier groupNatural bindingNatural written ?_
    rw [LocalVariable.text, String.toList_ofList, declarationText_eq, none, String.toList_append,
      String.toList_empty, List.nil_append, breakBeforeVariable_eq_self absent]
  · obtain ⟨rest, keyword⟩ :=
      exists_bareText declared.name declared.typeName declared.addressSpace
    have blank : Written ['\n', ' ', ' '] [] := Wgsl.written_blank (List.all_eq_true.mp rfl)
    -- The line break and the indentation take the place of the space behind the attributes.
    have broken := written.append blank
    rw [List.append_nil] at broken
    refine variable_writes isName isType identifier groupNatural bindingNatural broken ?_
    rw [LocalVariable.text, String.toList_ofList, declarationText_eq, String.toList_append,
      attributes, keyword, List.append_assoc, List.cons_append, List.cons_append,
      List.nil_append, breakBeforeVariable_append absent]
    simp

/-! ## Statements -/

/-- A well-formed statement has a text that writes its image. -/
theorem Statement.writes {statement : Statement} (wellFormed : statement.IsWellFormed) :
    ∃ text image, statement.text = .ok text ∧ statement.image? = some image ∧
      statementPhrase.Writes text image := by
  cases statement with
  | use name =>
    obtain ⟨isName, -⟩ : IsPlainName name := wellFormed
    refine ⟨_, _, rfl, rfl, .drop (.reference (wordImage name)), ?_,
      ⟨trivial, trivial, List.forall_mem_nil _⟩, rfl⟩
    have underscore : WrittenWord ['_'] [.keyword .underscore] :=
      show WrittenWord (Token.keyword .underscore).text.toList _ from
        Wgsl.writtenWord_token trivial
    have blank : Written [' '] [] := Wgsl.written_space rfl
    have equals := ((underscore.2 ' ' rfl).word.1 .equals rfl).append blank
    have whole := (equals.append_word (Wgsl.writtenWord_name isName)).1 .semicolon rfl
    simpa [statementPhrase, Tree.Statement.yield, Tree.Expression.yield, wordImage, Token.text]
      using whole
  | call name =>
    obtain ⟨isName, isPlain⟩ : IsPlainName name := wellFormed
    -- At the start of a statement the scanner knows fewer keywords than names have to avoid.
    have fits : name ∉ ["return", "_", "var"] := by
      simp only [List.mem_cons, List.not_mem_nil, or_false, not_or] at isPlain ⊢
      exact ⟨isPlain.2.2.2, isPlain.1, isPlain.2.1⟩
    refine ⟨_, _, rfl, rfl, .call (wordImage name), ?_, ⟨trivial, fits, List.forall_mem_nil _⟩, rfl⟩
    have opened := (Wgsl.writtenWord_name isName).1 .openParenthesis rfl
    have whole := (opened.word.1 .closeParenthesis rfl).word.1 .semicolon rfl
    simpa [statementPhrase, Tree.Statement.yield, wordImage, Token.text] using whole
  | declare declared =>
    obtain ⟨tree, written, ⟨derives, short⟩, meaning⟩ := LocalVariable.writes wellFormed
    exact ⟨_, _, rfl, rfl, .declare tree, written, ⟨derives, trivial, short⟩,
      congrArg Wgsl.Statement.declare meaning⟩
  | unknown => cases wellFormed

/-- Well-formed statements have a text that writes their images. -/
theorem exists_bodyText {body : List Statement}
    (wellFormed : ∀ statement ∈ body, statement.IsWellFormed) :
    ∃ text, bodyText body = .ok text ∧ ∃ trees : List Tree.Statement,
      Written text.toList (trees.flatMap Tree.Statement.yield) ∧
        (∀ tree ∈ trees, statementPhrase.IsReadable tree) ∧
          trees.map (fun tree => tree.toStatement.unplaced) =
            body.filterMap Statement.image? := by
  obtain ⟨texts, areTexts, writes⟩ :=
    Phrase.exists_texts fun statement inBody =>
      Statement.writes (wellFormed statement inBody)
  obtain ⟨trees, written, readable, meaning⟩ := Phrase.exists_trees writes
  refine ⟨"\n  ".intercalate texts, ?_, trees, ?_, readable, meaning⟩
  · rw [bodyText, areTexts]
    rfl
  · have whole := Wgsl.written_intercalate "\n  " (List.all_eq_true.mp rfl) written
    simpa [List.flatMap_def, statementPhrase] using whole

/-! ## Functions -/

/-- A function is written with attributes in front, with a result and with its body. -/
theorem written_function {name : String} {attributes : List Tree.Attribute}
    {result : Option Tree.Result} {body : List Tree.Statement}
    {front resultText bodyText : List Char} (isName : IsIdentifier name)
    (attributesWritten : Written front (attributes.flatMap Tree.Attribute.yield))
    (resultWritten : Written resultText ((result.map Tree.Result.yield).getD []))
    (bodyWritten : Written bodyText (body.flatMap Tree.Statement.yield)) :
    Written (front ++ "fn ".toList ++ name.toList ++ "()".toList ++ resultText ++ ['\x7b']
        ++ bodyText ++ ['\x7d'])
      (Tree.Function.yield ⟨attributes, wordImage name, result, body⟩) := by
  have keyword : WrittenWord ['f', 'n'] [.keyword .fn] :=
    show WrittenWord (Token.keyword .fn).text.toList _ from Wgsl.writtenWord_token trivial
  have named := (keyword.2 ' ' rfl).append_word (Wgsl.writtenWord_name isName)
  have head := (named.1 .openParenthesis rfl).word.1 .closeParenthesis rfl
  have opened := (head.append resultWritten).word.1 .openBrace rfl
  have whole := attributesWritten.append ((opened.append bodyWritten).word.1 .closeBrace rfl)
  rw [Tree.Function.yield_eq_append]
  simpa [Tree.Function.bareYield, wordImage, Token.text] using whole

/-- A function is read back when its attributes, its result and its statements are. -/
theorem readable_function {name : Wgsl.Word} {attributes : List Tree.Attribute}
    {result : Option Tree.Result} {body : List Tree.Statement}
    (derive : ∀ given ∈ attributes, given.IsDerivation)
    (resultReadable : ∀ given ∈ result, given.IsDerivation ∧ given.NamesFit)
    (short : ∀ numeral ∈ attributes.flatMap Tree.Attribute.numerals ++
      (result.map Tree.Result.numerals).getD [], numeral.isOversized = false)
    (bodyReadable : ∀ statement ∈ body, statementPhrase.IsReadable statement) :
    functionPhrase.IsReadable ⟨attributes, name, result, body⟩ := by
  refine ⟨⟨derive, fun given isResult => (resultReadable given isResult).1,
    fun statement inBody => (bodyReadable statement inBody).1⟩,
    ⟨fun given isResult => (resultReadable given isResult).2,
      fun statement inBody => (bodyReadable statement inBody).2.1⟩, ?_⟩
  refine List.forall_mem_append.mpr ⟨short, fun numeral member => ?_⟩
  obtain ⟨statement, inBody, member⟩ := List.mem_flatMap.mp member
  exact (bodyReadable statement inBody).2.2 numeral member

/-- The text of a well-formed helper writes its image. -/
theorem Function.writes {function : Function} (wellFormed : function.IsWellFormed) :
    ∃ text, function.text = .ok text ∧ functionPhrase.Writes text function.image := by
  obtain ⟨body, isText, trees, written, readable, meaning⟩ := exists_bodyText wellFormed.body
  have blank : Written [' '] [] := Wgsl.written_space rfl
  -- Whatever white space is around the body, the text writes the image.
  have writes (gap gap' : List Char) {text : String} (before : Written gap [])
      (behind : Written gap' [])
      (split : text.toList = [] ++ "fn ".toList ++ function.name.toList ++ "()".toList ++ [' ']
        ++ ['\x7b'] ++ (gap ++ body.toList ++ gap') ++ ['\x7d']) :
      functionPhrase.Writes text function.image := by
    have inside := (before.append written).append behind
    rw [List.nil_append, List.append_nil] at inside
    refine ⟨⟨[], wordImage function.name, none, trees⟩, ?_,
      readable_function nofun nofun nofun readable, ?_⟩
    · rw [split]
      exact written_function wellFormed.name.1 Wgsl.written_nil blank inside
    · simp only [functionPhrase, Tree.Function.toFunction, Wgsl.Function.unplaced, List.map_map,
        Function.comp_def, meaning, Function.image]
      rfl
  rw [Function.text, isText]
  by_cases several : function.body.length > 1
  · refine ⟨_, if_pos several, writes ['\n', ' ', ' '] ['\n']
      (Wgsl.written_blank (List.all_eq_true.mp rfl)) (Wgsl.written_space rfl) ?_⟩
    simp
  · refine ⟨_, if_neg several, writes [' '] [' '] blank blank ?_⟩
    simp

/-! ## Entry points -/

namespace Stage

/-- The attributes of the entry points of a stage, as trees. -/
def attributeTrees : Stage → List Tree.Attribute
  | vertex => [⟨wordImage "vertex", [], false⟩]
  | fragment => [⟨wordImage "fragment", [], false⟩]
  | compute => [⟨wordImage "compute", [], false⟩,
      ⟨wordImage "workgroup_size", [.numeral "1"], false⟩]

/-- The result of the entry points of a stage, as a tree. -/
def resultTree : Stage → Option Tree.Result
  | vertex => some ⟨[⟨wordImage "builtin", [.word "position"], false⟩], ⟨"vec4f", []⟩⟩
  | _ => none

/-- The statements at the end of the entry points of a stage, as trees. -/
def endTrees : Stage → List Tree.Statement
  | vertex => [.leave (some (.call (wordImage "vec4f")))]
  | _ => []

/-- The text in front of the entry points of a stage. -/
def frontText : Stage → String
  | vertex => "@vertex\n"
  | fragment => "@fragment\n"
  | compute => "@compute @workgroup_size(1)\n"

/-- The text between the parentheses and the body of the entry points of a stage. -/
def resultText : Stage → String
  | vertex => " -> @builtin(position) vec4f "
  | _ => " "

/-- The text behind the body of the entry points of a stage. -/
def endText : Stage → String
  | vertex => "\n  return vec4f();\n"
  | _ => "\n"

/-- The text of an entry point is made of the texts of its stage around its name and its body. -/
theorem entryPointText_eq (stage : Stage) (name body : String) :
    stage.entryPointText name body =
      stage.frontText ++ "fn " ++ name ++ "()" ++ stage.resultText ++ "\x7b"
        ++ ("\n  " ++ body ++ stage.endText) ++ "\x7d" := by
  have opening : "() -> @builtin(position) vec4f \x7b\n  " =
      "()" ++ " -> @builtin(position) vec4f " ++ "\x7b" ++ "\n  " := by decide
  have plainOpening : "() \x7b\n  " = "()" ++ " " ++ "\x7b" ++ "\n  " := by decide
  have plainClosing : "\n\x7d" = "\n" ++ "\x7d" := by decide
  cases stage with
  | vertex =>
    have front : "@vertex\nfn " = "@vertex\n" ++ "fn " := by decide
    have closing : "\n  return vec4f();\n\x7d" = "\n  return vec4f();\n" ++ "\x7d" := by decide
    change "@vertex\nfn " ++ name ++ "() -> @builtin(position) vec4f \x7b\n  " ++ body
      ++ "\n  return vec4f();\n\x7d" = _
    rw [front, opening, closing]
    simp only [String.append_assoc]
    rfl
  | fragment =>
    have front : "@fragment\nfn " = "@fragment\n" ++ "fn " := by decide
    change "@fragment\nfn " ++ name ++ "() \x7b\n  " ++ body ++ "\n\x7d" = _
    rw [front, plainOpening, plainClosing]
    simp only [String.append_assoc]
    rfl
  | compute =>
    have front : "@compute @workgroup_size(1)\nfn " =
        "@compute @workgroup_size(1)\n" ++ "fn " := by decide
    change "@compute @workgroup_size(1)\nfn " ++ name ++ "() \x7b\n  " ++ body ++ "\n\x7d" = _
    rw [front, plainOpening, plainClosing]
    simp only [String.append_assoc]
    rfl

/-- The text in front of an entry point writes the attributes of its stage. -/
theorem written_frontText (stage : Stage) :
    Written stage.frontText.toList (stage.attributeTrees.flatMap Tree.Attribute.yield) := by
  cases stage with
  | vertex =>
    exact ⟨[.token .at, .token (.name "vertex"), .space '\n'], by decide, by decide,
      by simp [Wgsl.Piece.isClosed], rfl, rfl⟩
  | fragment =>
    exact ⟨[.token .at, .token (.name "fragment"), .space '\n'], by decide, by decide,
      by simp [Wgsl.Piece.isClosed], rfl, rfl⟩
  | compute =>
    exact ⟨[.token .at, .token (.name "compute"), .space ' ', .token .at,
      .token (.name "workgroup_size"), .token .openParenthesis, .token (.numeral "1"),
      .token .closeParenthesis, .space '\n'], by decide, by decide,
      by simp [Wgsl.Piece.isClosed], rfl, rfl⟩

/-- The text in front of the body of an entry point writes the result of its stage. -/
theorem written_resultText (stage : Stage) :
    Written stage.resultText.toList ((stage.resultTree.map Tree.Result.yield).getD []) := by
  cases stage with
  | vertex =>
    exact ⟨[.space ' ', .token .arrow, .space ' ', .token .at, .token (.name "builtin"),
      .token .openParenthesis, .token (.name "position"), .token .closeParenthesis, .space ' ',
      .token (.name "vec4f"), .space ' '], by decide, by decide, by simp [Wgsl.Piece.isClosed],
      rfl, rfl⟩
  | _ => exact Wgsl.written_space rfl

/-- The text behind the body of an entry point writes the statements that its stage adds. -/
theorem written_endText (stage : Stage) :
    Written stage.endText.toList (stage.endTrees.flatMap Tree.Statement.yield) := by
  cases stage with
  | vertex =>
    exact ⟨[.space '\n', .space ' ', .space ' ', .token (.keyword .returns), .space ' ',
      .token (.name "vec4f"), .token .openParenthesis, .token .closeParenthesis,
      .token .semicolon, .space '\n'], by decide, by decide, by simp [Wgsl.Piece.isClosed], rfl,
      rfl⟩
  | _ => exact Wgsl.written_space rfl

/-- What a stage adds to a body is read back with it. -/
theorem readable_entryPoint {stage : Stage} {name : Wgsl.Word} {body : List Tree.Statement}
    (readable : ∀ statement ∈ body, statementPhrase.IsReadable statement) :
    functionPhrase.IsReadable
      ⟨stage.attributeTrees, name, stage.resultTree, body ++ stage.endTrees⟩ := by
  refine readable_function ?_ ?_ ?_ (List.forall_mem_append.mpr ⟨readable, ?_⟩)
  · cases stage <;> simp [attributeTrees, Tree.Attribute.IsDerivation]
  · cases stage <;> simp [resultTree, Tree.Result.IsDerivation, Tree.Attribute.IsDerivation,
      Tree.Result.NamesFit]
  · have short : (stage.attributeTrees.flatMap Tree.Attribute.numerals ++
        (stage.resultTree.map Tree.Result.numerals).getD []).all
          (fun numeral => !numeral.isOversized) = true := by
      cases stage <;> decide
    simpa only [List.all_eq_true, Bool.not_eq_true'] using short
  · cases stage <;> simp [endTrees, statementPhrase, Tree.Statement.IsDerivation,
      Tree.Statement.NamesFit, Tree.Statement.numerals, Tree.Expression.numerals]

end Stage

/-- The text of a well-formed entry point writes its image. -/
theorem EntryPoint.writes {entryPoint : EntryPoint} (wellFormed : entryPoint.IsWellFormed) :
    ∃ text image, entryPoint.text = .ok text ∧ entryPoint.image? = some image ∧
      functionPhrase.Writes text image := by
  obtain ⟨body, isText, trees, written, readable, meaning⟩ :=
    exists_bodyText wellFormed.function.body
  obtain ⟨stage, isStage⟩ := wellFormed.stage
  refine ⟨stage.entryPointText entryPoint.name body, stage.entryPointImage entryPoint.toFunction,
    ?_, ?_, ⟨stage.attributeTrees, wordImage entryPoint.name, stage.resultTree,
      trees ++ stage.endTrees⟩, ?_, Stage.readable_entryPoint readable, ?_⟩
  · rw [EntryPoint.text, isText, isStage]
    change entryPointText entryPoint.name stage.name body = _
    rw [entryPointText, Stage.ofName?_name]
  · rw [EntryPoint.image?, isStage, Stage.ofName?_name]
    rfl
  · have blank : Written "\n  ".toList [] := Wgsl.written_blank (List.all_eq_true.mp rfl)
    have inside := (blank.append written).append stage.written_endText
    rw [List.nil_append, ← List.flatMap_append] at inside
    rw [Stage.entryPointText_eq]
    simp only [String.toList_append]
    exact written_function wellFormed.function.name.1 stage.written_frontText
      stage.written_resultText inside
  · simp only [functionPhrase, Tree.Function.toFunction, Wgsl.Function.unplaced, List.map_map,
      Function.comp_def, List.map_append, meaning, Stage.entryPointImage, Function.image]
    cases stage <;> rfl

/-! ## Programs -/

/-- A section writes what its declarations write. -/
theorem exists_sectionText {texts : List String} {parts : List (List Token)}
    (written : List.Forall₂ (fun text tokens => Written text.toList tokens) texts parts) :
    ∃ sections, List.Forall₂ (fun text tokens => Written text.toList tokens) (sectionText texts)
        sections ∧ sections.flatten = parts.flatten := by
  cases written with
  | nil => exact ⟨[], .nil, rfl⟩
  | cons head others =>
    have whole := Wgsl.written_intercalate "\n" (List.all_eq_true.mp rfl) (.cons head others)
    exact ⟨[_], .cons whole .nil, List.append_nil _⟩

/-- The declarations of variables and functions as one tree. -/
def treeOf (globals : List Tree.Variable) (functions : List Tree.Function) : Tree :=
  globals.map .ofVariable ++ functions.map .ofFunction

/-- A tree of variables and functions yields theirs one behind the other. -/
theorem yield_treeOf (globals : List Tree.Variable) (functions : List Tree.Function) :
    (treeOf globals functions).yield =
      globals.flatMap Tree.Variable.yield ++ functions.flatMap Tree.Function.yield := by
  simp [treeOf, Tree.yield, List.flatMap_map, Tree.Declaration.yield]

/-- A tree of variables and functions stands for the module of what they stand for. -/
theorem unplaced_toModule_treeOf (globals : List Tree.Variable) (functions : List Tree.Function) :
    (treeOf globals functions).toModule.unplaced =
      ⟨globals.map variablePhrase.meaning, functions.map functionPhrase.meaning⟩ := by
  simp [treeOf, Tree.toModule, Wgsl.Module.unplaced, variablePhrase, functionPhrase,
    List.filterMap_map, Function.comp_def, Tree.Declaration.variable?, Tree.Declaration.function?]

/-- A tree of readable variables and functions is a derivation with fitting names and short
numerals. -/
theorem readable_treeOf {globals : List Tree.Variable} {functions : List Tree.Function}
    (globalsReadable : ∀ declared ∈ globals, variablePhrase.IsReadable declared)
    (functionsReadable : ∀ declared ∈ functions, functionPhrase.IsReadable declared) :
    (treeOf globals functions).IsDerivation ∧ (treeOf globals functions).NamesFit ∧
      ∀ numeral ∈ (treeOf globals functions).numerals, numeral.isOversized = false := by
  have declarations : ∀ declaration ∈ treeOf globals functions,
      declaration.IsDerivation ∧ declaration.NamesFit ∧
        ∀ numeral ∈ declaration.numerals, numeral.isOversized = false := by
    refine List.forall_mem_append.mpr ⟨List.forall_mem_map.mpr fun declared member => ?_,
      List.forall_mem_map.mpr functionsReadable⟩
    obtain ⟨derives, short⟩ := globalsReadable declared member
    exact ⟨derives, trivial, short⟩
  refine ⟨fun declaration member => (declarations declaration member).1,
    fun declaration member => (declarations declaration member).2.1, fun numeral member => ?_⟩
  obtain ⟨declaration, inTree, member⟩ := List.mem_flatMap.mp member
  exact (declarations declaration inTree).2.2 numeral member

/-- The texts of a program's globals write their images. -/
theorem Program.variables_write {program : Program} (wellFormed : program.IsWellFormed) :
    List.Forall₂ variablePhrase.Writes
      (program.resources.map Resource.text ++ program.globals.map ModuleVariable.text)
      program.image.globals := by
  refine List.rel_append ?_ ?_
  · rw [List.forall₂_map_left_iff, List.forall₂_map_right_iff, List.forall₂_same]
    exact fun resource member => Resource.writes (wellFormed.resources resource member)
  · rw [List.forall₂_map_left_iff, List.forall₂_map_right_iff, List.forall₂_same]
    exact fun declared member => ModuleVariable.writes (wellFormed.globals declared member)

/-- The helpers of a program have texts that write their images. -/
theorem Program.helpers_write {program : Program} (wellFormed : program.IsWellFormed) :
    ∃ texts, program.helpers.mapM Function.text = .ok texts ∧
      List.Forall₂ functionPhrase.Writes texts (program.helpers.map Function.image) := by
  have each : ∀ helper ∈ program.helpers, ∃ text image, helper.text = .ok text ∧
      (some ∘ Function.image) helper = some image ∧ functionPhrase.Writes text image := by
    intro helper member
    obtain ⟨text, isText, writes⟩ := Function.writes (wellFormed.helpers helper member)
    exact ⟨text, _, isText, rfl, writes⟩
  rw [← List.filterMap_eq_map]
  exact Phrase.exists_texts each

/-- A well-formed program has a text, from which its image is read, positions aside. -/
theorem Program.exists_ofSource {program : Program} (wellFormed : program.IsWellFormed) :
    ∃ source module, program.text = .ok source ∧ Wgsl.Module.ofSource source = .ok module ∧
      module.unplaced = program.image := by
  obtain ⟨globals, globalsWritten, globalsReadable, globalImages⟩ :=
    Phrase.exists_trees (variables_write wellFormed)
  obtain ⟨helperTexts, areHelperTexts, helpersWrite⟩ := helpers_write wellFormed
  obtain ⟨helpers, helpersWritten, helpersReadable, helperImages⟩ :=
    Phrase.exists_trees helpersWrite
  obtain ⟨entryTexts, areEntryTexts, entriesWrite⟩ :=
    Phrase.exists_texts fun entryPoint member =>
      EntryPoint.writes (wellFormed.entryPoints entryPoint member)
  obtain ⟨entries, entriesWritten, entriesReadable, entryImages⟩ := Phrase.exists_trees entriesWrite
  obtain ⟨globalSections, globalSectionsWritten, globalTokens⟩ :=
    exists_sectionText globalsWritten
  obtain ⟨helperSections, helperSectionsWritten, helperTokens⟩ := exists_sectionText helpersWritten
  have sections := List.rel_append (List.rel_append globalSectionsWritten helperSectionsWritten)
    entriesWritten
  have newline : Written ['\n'] [] := Wgsl.written_space rfl
  -- The layout of the sections is separated by itself: between any two of them is white space.
  obtain ⟨layout, proper, separated, -, text, tokens⟩ :=
    (Wgsl.written_intercalate "\n\n" (List.all_eq_true.mp rfl) sections).append newline
  have same : layout.tokens = (treeOf globals (helpers ++ entries)).yield := by
    rw [tokens, yield_treeOf, List.flatten_append, List.flatten_append, globalTokens, helperTokens,
      List.append_nil, List.flatMap_append, List.append_assoc]
    rfl
  obtain ⟨derives, fits, short⟩ := readable_treeOf globalsReadable
    (List.forall_mem_append.mpr ⟨helpersReadable, entriesReadable⟩)
  obtain ⟨module, read, meaning⟩ :=
    Wgsl.Module.ofSource_of_layout proper separated same derives fits short
  have ends (whole : String) : String.ofList (whole.toList ++ ['\n']) = whole ++ "\n" :=
    String.toList_inj.mp (by simp)
  refine ⟨_, module, ?_, read, ?_⟩
  · rw [Program.text, areHelperTexts, areEntryTexts, text, ends]
    rfl
  · rw [meaning, unplaced_toModule_treeOf, globalImages, List.map_append, helperImages, entryImages]
    rfl

/-- Reading undoes writing. A well-formed program has a text, and from this text the module that the
program stands for is read, positions aside. -/
theorem Program.ofSource_text {program : Program} (wellFormed : program.IsWellFormed) :
    ∃ source, program.text = .ok source ∧
      (Wgsl.Module.ofSource source).map Wgsl.Module.unplaced = .ok program.image := by
  obtain ⟨source, module, isText, read, meaning⟩ := exists_ofSource wellFormed
  refine ⟨source, isText, ?_⟩
  rw [read, ← meaning]
  rfl

/-- A vertex entry point that declares a local variable with a group, reads a texture and calls a
helper without statements is read back with the position that it returns. -/
theorem Program.ofSource_text_vertex :
    ∃ source,
      Program.text
          ⟨[⟨"image", .texture2D, some 0, some 1⟩], [], [⟨"helper", []⟩],
            [⟨⟨"main", [.declare ⟨"size", "vec2<f32>", some "function", some 3, none⟩,
              .use "image", .call "helper"]⟩, "vertex"⟩]⟩ = .ok source ∧
        (Wgsl.Module.ofSource source).map Wgsl.Module.unplaced = .ok
          ⟨[⟨[⟨wordImage "group", [.number 0]⟩, ⟨wordImage "binding", [.number 1]⟩], [],
              wordImage "image", "texture_2d<f32>"⟩],
            [⟨[], wordImage "helper", none, []⟩,
              ⟨[⟨wordImage "vertex", []⟩], wordImage "main",
                some ⟨[⟨wordImage "builtin", [.word "position"]⟩], "vec4f"⟩,
                [.declare ⟨[⟨wordImage "group", [.number 3]⟩], ["function"], wordImage "size",
                    "vec2<f32>"⟩,
                  .drop (.reference (wordImage "image")), .call (wordImage "helper"),
                  .leave (some (.call (wordImage "vec4f")))]⟩]⟩ := by
  have natural (value : Nat) (short : value.repr.length ≤ Text.digitLimit) :
      ∀ index ∈ some (Index.number value), index.IsNatural := by
    rintro index ⟨⟩
    exact ⟨value, rfl, short⟩
  have image : Resource.IsWellFormed ⟨"image", .texture2D, some 0, some 1⟩ :=
    ⟨by decide, natural 0 (by decide), natural 1 (by decide)⟩
  have size : LocalVariable.IsWellFormed ⟨"size", "vec2<f32>", some "function", some 3, none⟩ :=
    ⟨by decide, by rintro space ⟨⟩; decide, ⟨⟨"vec2", [.type "f32" []]⟩, by decide, rfl⟩,
      natural 3 (by decide), nofun⟩
  have main : EntryPoint.IsWellFormed ⟨⟨"main", [.declare ⟨"size", "vec2<f32>", some "function",
      some 3, none⟩, .use "image", .call "helper"]⟩, "vertex"⟩ := by
    refine ⟨⟨by decide, ?_⟩, .vertex, rfl⟩
    rintro statement (_ | ⟨_, _ | ⟨_, _ | ⟨_, ⟨⟩⟩⟩⟩)
    · exact size
    · exact (by decide : IsPlainName "image")
    · exact (by decide : IsPlainName "helper")
  have helper : Function.IsWellFormed ⟨"helper", []⟩ := ⟨by decide, nofun⟩
  exact Program.ofSource_text ⟨List.forall_mem_singleton.mpr image, nofun,
    List.forall_mem_singleton.mpr helper, List.forall_mem_singleton.mpr main⟩

end BindingSuite
