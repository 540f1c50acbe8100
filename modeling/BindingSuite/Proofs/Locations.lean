import BindingSuite.Proofs.Positions
import BindingSuite.Proofs.Recognition

/-! # Locations

The positions that a module keeps of the names in its source text.

* `Variable.words` and `Function.words` are the names that a declaration keeps with their positions,
  in the order of the text;
* `Parser.Locates` says of a parser that it takes such words from its tokens, in their order, and
  there is a theorem for each parser of the grammar;
* `Module.words_areLocated` says that every position is where the source text has the name, and that
  the positions of each declaration grow. -/

namespace BindingSuite.Wgsl

/-! ## The words of a declaration -/

/-- The words of a variable: the names of its attributes, then its own. -/
def Variable.words (declared : Variable) : List Word :=
  declared.attributes.map Attribute.name ++ [declared.name]

/-- The words of an expression: the function that it calls, or the variable that it reads. -/
def Expression.words : Expression → List Word
  | call name => [name]
  | reference name => [name]
  | number _ => []

/-- The words of a statement. -/
def Statement.words : Statement → List Word
  | drop value => value.words
  | call name => [name]
  | declare declared => declared.words
  | leave value => (value.map Expression.words).getD []

/-- The words of a result: the names of its attributes. -/
def Result.words (result : Result) : List Word :=
  result.attributes.map Attribute.name

/-- The words of a function: the names of its attributes, its own, those of its result and those of
its statements. -/
def Function.words (declared : Function) : List Word :=
  declared.attributes.map Attribute.name ++
    (declared.name :: ((declared.result.map Result.words).getD []
      ++ declared.body.flatMap Statement.words))

/-- The words of a declaration are those of what it stands for. -/
def Tree.Declaration.words : Tree.Declaration → List Word
  | ofVariable declared => declared.toVariable.words
  | ofFunction declared => declared.toFunction.words

/-! ## Taking words -/

/-- The token of a word, where the word stands. -/
def Word.located (word : Word) : LocatedToken :=
  ⟨.name word.text, word.position⟩

/-- From some tokens those in front of the rest are taken, and words are among them in this
order. -/
def Takes (words : List Word) (tokens rest : List LocatedToken) : Prop :=
  ∃ taken, tokens = taken ++ rest ∧ (words.map Word.located).Sublist taken

section Takes

variable {words others : List Word} {tokens middle rest : List LocatedToken}

/-- Taking no tokens takes no words. -/
theorem takes_nil (rest : List LocatedToken) : Takes [] rest rest :=
  ⟨[], rfl, .slnil⟩

/-- A token in front may be passed. -/
theorem Takes.pass (takes : Takes words tokens rest) (token : LocatedToken) :
    Takes words (token :: tokens) rest := by
  obtain ⟨taken, rfl, among⟩ := takes
  exact ⟨token :: taken, rfl, among.cons token⟩

/-- A word in front is taken first. -/
theorem Takes.take (takes : Takes words tokens rest) (word : Word) :
    Takes (word :: words) (⟨.name word.text, word.position⟩ :: tokens) rest := by
  obtain ⟨taken, rfl, among⟩ := takes
  exact ⟨word.located :: taken, rfl, among.cons_cons word.located⟩

/-- Words taken in turn are taken together. -/
theorem Takes.append (front : Takes words tokens middle) (back : Takes others middle rest) :
    Takes (words ++ others) tokens rest := by
  obtain ⟨taken, rfl, among⟩ := front
  obtain ⟨taken', rfl, among'⟩ := back
  refine ⟨taken ++ taken', (List.append_assoc ..).symm, ?_⟩
  rw [List.map_append]
  exact among.append among'

/-- A token behind may be passed as well. -/
theorem Takes.passBehind {token : LocatedToken} (takes : Takes words tokens (token :: rest)) :
    Takes words tokens rest := by
  have both := takes.append ((takes_nil rest).pass token)
  rwa [List.append_nil] at both

end Takes

namespace Parser

variable {α : Type}

/-- A parser takes the words of its item from the tokens. -/
def Locates (parser : Parser α) (words : α → List Word) : Prop :=
  ∀ tokens, parser.Ensures tokens fun item rest => Takes (words item) tokens rest

/-- Taking many items takes the words of each. -/
theorem Locates.manyUpTo {parser : Parser α} {words : α → List Word}
    (locates : parser.Locates words) (starts : Token → Bool) (fuel : Nat) :
    (manyUpTo starts parser fuel).Locates fun items => items.flatMap words := by
  induction fuel with
  | zero => exact fun tokens => ensures_pure (takes_nil tokens)
  | succ fuel ih =>
    intro tokens
    refine Ensures.bind (ensures_peek ?_)
    split
    · exact ensures_pure (takes_nil tokens)
    · split
      · apply Ensures.bind
        intro first middle front
        apply Ensures.bind
        intro others rest back
        exact ensures_pure ((locates tokens front).append (ih middle back))
      · exact ensures_pure (takes_nil tokens)

/-- Taking as many items as there are takes the words of each. -/
theorem Locates.many {parser : Parser α} {words : α → List Word} (locates : parser.Locates words)
    (starts : Token → Bool) :
    (Parser.many starts parser).Locates fun items => items.flatMap words :=
  fun tokens => Ensures.bind (ensures_get (locates.manyUpTo starts tokens.length tokens))

/-! ## Attributes -/

/-- The arguments of an attribute have no words of their own. -/
theorem moreArguments_locates (fuel : Nat) : (moreArguments fuel).Locates fun _ => [] := by
  induction fuel with
  | zero => exact fun _ => ensures_fail
  | succ fuel ih =>
    intro tokens
    refine Ensures.bind (ensures_accept ?_ ?_)
    · rintro position middle rfl
      refine Ensures.bind (ensures_accept ?_ ?_)
      · rintro position rest rfl
        exact ensures_pure (takes_nil rest |>.pass _ |>.pass _)
      · intro other
        refine Ensures.bind (ensures_argument ?_)
        rintro next position middle rfl
        apply Ensures.bind
        intro others rest back
        exact ensures_pure (ih middle back |>.pass _ |>.pass _)
    · intro other
      refine Ensures.bind (ensures_expect ?_)
      rintro position rest rfl
      exact ensures_pure ((takes_nil rest).pass _)

/-- The word of an attribute is its name. -/
theorem singleAttribute_locates : singleAttribute.Locates fun given => [given.name] := by
  intro tokens
  refine Ensures.bind (ensures_expect ?_)
  rintro position tokens rfl
  refine Ensures.bind (ensures_word ?_)
  rintro name tokens rfl
  refine Ensures.bind (ensures_accept ?_ ?_)
  · rintro position tokens rfl
    refine Ensures.bind (ensures_argument ?_)
    rintro first position tokens rfl
    refine Ensures.bind (ensures_get (Ensures.bind ?_))
    intro others rest back
    have behind : Takes [] tokens rest := moreArguments_locates _ tokens back
    exact ensures_pure (behind |>.pass _ |>.pass _ |>.take name |>.pass _)
  · intro other
    exact ensures_pure (takes_nil tokens |>.take name |>.pass _)

/-- The words of attributes are their names. -/
theorem attributes_locates : attributes.Locates fun given => given.map Tree.Attribute.name := by
  intro tokens given rest reads
  show Takes (given.map Tree.Attribute.name) tokens rest
  rw [List.map_eq_flatMap]
  exact singleAttribute_locates.many _ tokens reads

/-! ## Types -/

/-- The parameters of types have no words of their own. -/
theorem parameters_locate (fuel : Nat) :
    (parameter fuel).Locates (fun _ => []) ∧ (parameters fuel).Locates (fun _ => []) ∧
      (moreParameters fuel).Locates fun _ => [] := by
  induction fuel with
  | zero => exact ⟨fun _ => ensures_fail, fun _ => ensures_fail, fun _ => ensures_fail⟩
  | succ fuel ih =>
    obtain ⟨parameterLocates, parametersLocate, moreLocate⟩ := ih
    -- Behind an opening bracket and behind a comma, the same row of parameters is taken.
    have row : (do let first ← parameter fuel; return first :: (← moreParameters fuel) :
        Parser (List Tree.Parameter)).Locates fun _ => [] := by
      intro tokens
      apply Ensures.bind
      intro first middle front
      apply Ensures.bind
      intro others rest back
      exact ensures_pure ((parameterLocates tokens front).append (moreLocate middle back))
    refine ⟨fun tokens => ?_, fun tokens => ?_, fun tokens => ?_⟩
    · refine Ensures.bind (ensures_peek ?_)
      split
      · refine Ensures.bind (ensures_expect ?_)
        rintro position rest rfl
        exact ensures_pure ((takes_nil rest).pass _)
      · refine Ensures.bind (ensures_word ?_)
        rintro name tokens rfl
        apply Ensures.bind
        intro inner rest back
        exact ensures_pure ((parametersLocate tokens back).pass _)
    · refine Ensures.bind (ensures_accept ?_ ?_)
      · rintro position tokens rfl
        exact fun _ _ taken => (row tokens taken).pass _
      · intro other
        exact ensures_pure (takes_nil tokens)
    · refine Ensures.bind (ensures_accept ?_ ?_)
      · rintro position tokens rfl
        exact fun _ _ taken => (row tokens taken).pass _
      · intro other
        refine Ensures.bind (ensures_expect ?_)
        rintro position rest rfl
        exact ensures_pure ((takes_nil rest).pass _)

/-- A type has no words of its own. -/
theorem typeName_locates : typeName.Locates fun _ => [] := by
  intro tokens
  refine Ensures.bind (ensures_word ?_)
  rintro name tokens rfl
  refine Ensures.bind (ensures_get (Ensures.bind ?_))
  intro inner rest back
  exact ensures_pure (((parameters_locate _).2.1 tokens back).pass _)

/-! ## Variables -/

/-- A template has no words of its own. -/
theorem template_locates : template.Locates fun _ => [] := by
  intro tokens
  refine Ensures.bind (ensures_accept ?_ ?_)
  · rintro position tokens rfl
    refine Ensures.bind (ensures_word ?_)
    rintro first tokens rfl
    refine Ensures.bind (ensures_accept ?_ ?_)
    · rintro position tokens rfl
      refine Ensures.bind (ensures_word ?_)
      rintro second tokens rfl
      refine Ensures.bind (ensures_expect ?_)
      rintro position rest rfl
      exact ensures_pure ((takes_nil rest |>.pass _ |>.pass _ |>.pass _).pass _ |>.pass _)
    · intro other
      refine Ensures.bind (ensures_expect ?_)
      rintro position rest rfl
      exact ensures_pure (takes_nil rest |>.pass _ |>.pass _ |>.pass _)
  · intro other
    exact ensures_pure (takes_nil tokens)

/-- Behind attributes, the word of a variable is its name. -/
theorem variableWith_locates (given : List Tree.Attribute) (tokens : List LocatedToken) :
    (variableWith given).Ensures tokens fun read rest =>
      read.attributes = given ∧ Takes [read.name] tokens rest := by
  refine Ensures.bind (ensures_expect ?_)
  rintro position tokens rfl
  apply Ensures.bind
  intro words middle front
  refine Ensures.bind (ensures_word ?_)
  rintro name middle rfl
  refine Ensures.bind (ensures_expect ?_)
  rintro position middle rfl
  apply Ensures.bind
  intro type rest back
  refine Ensures.bind (ensures_expect ?_)
  rintro position rest rfl
  have behind : Takes [] middle rest := (typeName_locates middle back).passBehind
  have ofName := (template_locates tokens front).append (behind |>.pass _ |>.take name)
  exact ensures_pure ⟨rfl, ofName.pass _⟩

/-- The words of a variable are those of its attributes and its name. -/
theorem words_toVariable (declared : Tree.Variable) :
    declared.toVariable.words =
      declared.attributes.map Tree.Attribute.name ++ [declared.name] := by
  rw [Variable.words, Tree.Variable.toVariable, List.map_map]
  rfl

/-! ## Functions -/

/-- The word of an expression is the name in it, if there is one. -/
theorem expression_locates : expression.Locates fun value => value.toExpression.words := by
  intro tokens
  refine Ensures.bind (ensures_peek ?_)
  split
  · refine Ensures.bind (ensures_expect ?_)
    rintro position rest rfl
    exact ensures_pure ((takes_nil rest).pass _)
  · refine Ensures.bind (ensures_word ?_)
    rintro name tokens rfl
    refine Ensures.bind (ensures_accept ?_ ?_)
    · rintro position tokens rfl
      refine Ensures.bind (ensures_expect ?_)
      rintro position rest rfl
      exact ensures_pure (takes_nil rest |>.pass _ |>.pass _ |>.take name)
    · intro other
      exact ensures_pure ((takes_nil tokens).take name)

/-- The words of a statement are those in it. -/
theorem statement_locates : statement.Locates fun taken => taken.toStatement.words := by
  intro tokens
  refine Ensures.bind (ensures_peek ?_)
  -- The next token tells whether a value is dropped or returned, a function called or a local
  -- declared.
  split
  · refine Ensures.bind (ensures_expect ?_)
    rintro position tokens rfl
    refine Ensures.bind (ensures_expect ?_)
    rintro position tokens rfl
    apply Ensures.bind
    intro value middle front
    refine Ensures.bind (ensures_expect ?_)
    rintro position rest rfl
    exact ensures_pure ((expression_locates tokens front).passBehind |>.pass _ |>.pass _)
  · refine Ensures.bind (ensures_expect ?_)
    rintro position tokens rfl
    refine Ensures.bind (ensures_accept ?_ ?_)
    · rintro position rest rfl
      exact ensures_pure (takes_nil rest |>.pass _ |>.pass _)
    · intro other
      apply Ensures.bind
      intro value middle front
      refine Ensures.bind (ensures_expect ?_)
      rintro position rest rfl
      exact ensures_pure ((expression_locates tokens front).passBehind.pass _)
  · refine Ensures.bind (ensures_word ?_)
    rintro name tokens rfl
    refine Ensures.bind (ensures_expect ?_)
    rintro position tokens rfl
    refine Ensures.bind (ensures_expect ?_)
    rintro position tokens rfl
    refine Ensures.bind (ensures_expect ?_)
    rintro position rest rfl
    exact ensures_pure (takes_nil rest |>.pass _ |>.pass _ |>.pass _ |>.take name)
  · apply Ensures.bind
    intro given middle front
    apply Ensures.bind
    intro declared rest back
    obtain ⟨rfl, ofName⟩ := variableWith_locates given middle back
    refine ensures_pure ?_
    show Takes declared.toVariable.words tokens rest
    rw [words_toVariable]
    exact (attributes_locates tokens front).append ofName

/-- The words of a result are the names of its attributes. -/
theorem result_locates : result.Locates fun taken =>
    (taken.map fun given => given.attributes.map Tree.Attribute.name).getD [] := by
  intro tokens
  refine Ensures.bind (ensures_accept ?_ ?_)
  · rintro position tokens rfl
    apply Ensures.bind
    intro given middle front
    apply Ensures.bind
    intro type rest back
    have ofAttributes := (attributes_locates tokens front).append (typeName_locates middle back)
    rw [List.append_nil] at ofAttributes
    exact ensures_pure (ofAttributes.pass _)
  · intro other
    exact ensures_pure (takes_nil tokens)

/-- Behind attributes, the words of a function are its name, those of its result and those of its
statements. -/
theorem functionWith_locates (given : List Tree.Attribute) (tokens : List LocatedToken) :
    (functionWith given).Ensures tokens fun read rest =>
      read.attributes = given ∧
        Takes (read.name ::
          ((read.result.map fun given => given.attributes.map Tree.Attribute.name).getD []
            ++ read.body.flatMap fun statement => statement.toStatement.words)) tokens rest := by
  refine Ensures.bind (ensures_expect ?_)
  rintro position tokens rfl
  refine Ensures.bind (ensures_word ?_)
  rintro name tokens rfl
  refine Ensures.bind (ensures_expect ?_)
  rintro position tokens rfl
  refine Ensures.bind (ensures_expect ?_)
  rintro position tokens rfl
  apply Ensures.bind
  intro read middle front
  refine Ensures.bind (ensures_expect ?_)
  rintro position middle rfl
  apply Ensures.bind
  intro body rest back
  refine Ensures.bind (ensures_expect ?_)
  rintro position rest rfl
  have ofBody := (statement_locates.many _ middle back).passBehind
  have behind := (result_locates tokens front).append (ofBody.pass _)
  exact ensures_pure ⟨rfl, behind |>.pass _ |>.pass _ |>.take name |>.pass _⟩

/-- The words of a function are those of its attributes, its name, those of its result and those of
its statements. -/
theorem words_toFunction (declared : Tree.Function) :
    declared.toFunction.words =
      declared.attributes.map Tree.Attribute.name ++ (declared.name ::
        ((declared.result.map fun given => given.attributes.map Tree.Attribute.name).getD []
          ++ declared.body.flatMap fun statement => statement.toStatement.words)) := by
  have ofResult : declared.toFunction.result.map Result.words =
      declared.result.map fun given => given.attributes.map Tree.Attribute.name := by
    rw [Tree.Function.toFunction, Option.map_map]
    refine congrArg (declared.result.map ·) (funext fun given => ?_)
    exact List.map_map
  rw [Function.words, ofResult, Tree.Function.toFunction, List.map_map, List.flatMap_map]
  rfl

/-- The words of a declaration are taken in their order. -/
theorem declaration_locates : declaration.Locates Tree.Declaration.words := by
  intro tokens
  apply Ensures.bind
  intro given middle front
  refine Ensures.bind (ensures_peek ?_)
  split
  · apply Ensures.bind
    intro declared rest back
    obtain ⟨rfl, behind⟩ := functionWith_locates given middle back
    refine ensures_pure ?_
    rw [Tree.Declaration.words, words_toFunction]
    exact (attributes_locates tokens front).append behind
  · apply Ensures.bind
    intro declared rest back
    obtain ⟨rfl, behind⟩ := variableWith_locates given middle back
    refine ensures_pure ?_
    rw [Tree.Declaration.words, words_toVariable]
    exact (attributes_locates tokens front).append behind

end Parser

/-! ## Modules -/

/-- The words of all declarations are among the tokens, in their order. -/
theorem Tree.words_sublist_of_ofTokens {tokens : List LocatedToken} {tree : Tree}
    (found : ofTokens tokens = .ok tree) :
    ((tree.flatMap Declaration.words).map Word.located).Sublist tokens := by
  obtain ⟨rest, reads⟩ := exists_reads_of_ofTokens found
  obtain ⟨taken, rfl, among⟩ := Parser.declaration_locates.many _ tokens reads
  exact among.trans (List.sublist_append_left taken rest)

/-- Words are located in a text: each stands where its position says, and the positions come one
after another. -/
structure AreLocated (words : List Word) (text : List Char) : Prop where
  /-- Each word stands where its position says. -/
  standsIn : ∀ word ∈ words, word.StandsIn text
  /-- The positions come one after another. -/
  inOrder : words.Pairwise fun first second => first.position.Precedes second.position

/-- Words that are among the tokens of a text, in their order, are located in it. -/
theorem areLocated_of_sublist {words : List Word} {text : List Char}
    (among : (words.map Word.located).Sublist (scan text).tokens) : AreLocated words text where
  standsIn word isWord := by
    have member : word.located ∈ (scan text).tokens := among.subset (List.mem_map_of_mem isWord)
    obtain ⟨terminal, before, after, split, placed⟩ := exists_split_of_mem_scanFrom member
    have oneLine : '\n' ∉ word.text.toList := fun isEnd =>
      absurd (forall_isWordRest_of_isName terminal _ isEnd) (by decide)
    rw [split]
    exact Word.standsIn_of_advanceOver oneLine placed
  inOrder := by
    have located := pairwise_precedes_scanFrom.sublist among
    rwa [List.pairwise_map] at located

/-- In a module that is read from a source text, the words of every declaration are located in the
text. -/
theorem Module.words_areLocated {source : String} {module : Module}
    (read : ofSource source = .ok module) :
    (∀ declared ∈ module.globals, AreLocated declared.words source.toList) ∧
      ∀ declared ∈ module.functions, AreLocated declared.words source.toList := by
  obtain ⟨tree, isTree, rfl⟩ := Module.exists_toTree_of_ofSource read
  have among := Tree.words_sublist_of_ofTokens (Scan.ofTokens_of_toTree isTree).1
  have ofDeclaration : ∀ declaration ∈ tree,
      AreLocated declaration.words source.toList := by
    intro declaration member
    refine areLocated_of_sublist (List.Sublist.trans (List.Sublist.map _ ?_) among)
    exact List.sublist_flatten_of_mem (List.mem_map_of_mem member)
  refine ⟨fun declared isGlobal => ?_, fun declared isFunction => ?_⟩
  · obtain ⟨declaration, member, isDeclared⟩ := List.mem_filterMap.mp isGlobal
    cases declaration with
    | ofVariable given =>
      cases isDeclared
      exact ofDeclaration _ member
    | ofFunction given => cases isDeclared
  · obtain ⟨declaration, member, isDeclared⟩ := List.mem_filterMap.mp isFunction
    cases declaration with
    | ofVariable given => cases isDeclared
    | ofFunction given =>
      cases isDeclared
      exact ofDeclaration _ member

/-- Six lines, with a keyword in front of a longer word, a comment behind a declaration, a carriage
return and a function over several lines. -/
def sixLines : String :=
  "varbuffer: f32; // one\r\n@group(0)\n  fn main()\n -> @location(0) vec4<f32> \x7b\n"
    ++ "  _ = helper();\n\treturn buffer; \x7d"

/-- The words of the two declarations in six lines are located there. -/
theorem Module.words_areLocated_sixLines :
    ∃ module, Module.ofSource sixLines = .ok module ∧
      module.globals.map Variable.words = [[⟨"buffer", ⟨3, 1, 4⟩⟩]] ∧
      module.functions.map Function.words = [[⟨"group", ⟨25, 2, 2⟩⟩, ⟨"main", ⟨39, 3, 6⟩⟩,
        ⟨"location", ⟨51, 4, 6⟩⟩, ⟨"helper", ⟨81, 5, 7⟩⟩, ⟨"buffer", ⟨99, 6, 9⟩⟩]] ∧
      (∀ declared ∈ module.globals, AreLocated declared.words sixLines.toList) ∧
      ∀ declared ∈ module.functions, AreLocated declared.words sixLines.toList := by
  have read : Module.ofSource sixLines = .ok
      ⟨[⟨[], [], ⟨"buffer", ⟨3, 1, 4⟩⟩, "f32"⟩],
        [⟨[⟨⟨"group", ⟨25, 2, 2⟩⟩, [.number 0]⟩], ⟨"main", ⟨39, 3, 6⟩⟩,
          some ⟨[⟨⟨"location", ⟨51, 4, 6⟩⟩, [.number 0]⟩], "vec4<f32>"⟩,
          [.drop (.call ⟨"helper", ⟨81, 5, 7⟩⟩),
            .leave (some (.reference ⟨"buffer", ⟨99, 6, 9⟩⟩))]⟩]⟩ := by
    cbv
  exact ⟨_, read, rfl, rfl, Module.words_areLocated read⟩

end BindingSuite.Wgsl
