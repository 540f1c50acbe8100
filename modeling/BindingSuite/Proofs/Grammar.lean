import BindingSuite.Proofs.Derivation
import BindingSuite.Proofs.Parsing
import BindingSuite.Proofs.Placement

/-! # Parsers of the grammar

Each parser of the grammar takes exactly the derivations of its symbol.

* the `Symbol`s of the grammar gather the yields, the derivations and the positions of the trees;
* for each there is a pair of theorems: its parser is `Sound`, and it is `Complete` where no token
  follows that continues the derivation;
* `Tree.ofTokens_sound` and `Tree.ofTokens_complete` say so of whole modules. -/

namespace BindingSuite.Wgsl

namespace Tree

/-- The symbol of attributes. -/
def Attribute.symbol : Symbol Attribute :=
  ⟨yield, IsDerivation, unplaced⟩

/-- The symbol of types, which have no positions. -/
def TypeName.symbol : Symbol TypeName :=
  ⟨yield, fun _ => True, id⟩

/-- The symbol of variables. -/
def Variable.symbol : Symbol Variable :=
  ⟨yield, IsDerivation, unplaced⟩

/-- The symbol of expressions. -/
def Expression.symbol : Symbol Expression :=
  ⟨yield, fun _ => True, unplaced⟩

/-- The symbol of statements. -/
def Statement.symbol : Symbol Statement :=
  ⟨yield, IsDerivation, unplaced⟩

/-- The symbol of results, which a function need not have. -/
def Result.symbol : Symbol (Option Result) where
  yield result := (result.map yield).getD []
  IsDerivation result := ∀ given ∈ result, given.IsDerivation
  unplaced result := result.map unplaced

/-- The symbol of functions. -/
def Function.symbol : Symbol Function :=
  ⟨yield, IsDerivation, unplaced⟩

/-- The symbol of declarations. -/
def Declaration.symbol : Symbol Declaration :=
  ⟨yield, IsDerivation, unplaced⟩

end Tree

namespace Parser

variable {tokens rest : List LocatedToken} {after : List Token}

/-! ## Attributes -/

/-- With commas between them, single tokens are a first one and commas before all others. -/
theorem separated_singletons {α : Type} (token : α → Token) (first : α) (others : List α) :
    Tree.separated ((first :: others).map fun item => [token item]) =
      token first :: others.flatMap fun item => [.comma, token item] := by
  induction others generalizing first with
  | nil => rfl
  | cons second others ih =>
    have split : Tree.separated ((first :: second :: others).map fun item => [token item]) =
        token first :: .comma ::
          Tree.separated ((second :: others).map fun item => [token item]) := rfl
    rw [split, ih]
    rfl

/-- The tokens behind the first argument of an attribute. -/
def argumentsYield (arguments : List Tree.Argument) (trailingComma : Bool) : List Token :=
  (arguments.flatMap fun argument => [.comma, argument.token])
    ++ (if trailingComma then [.comma] else []) ++ [.closeParenthesis]

/-- With a first argument, an attribute yields a parenthesis, that argument and what is behind
it. -/
theorem yield_attribute_cons {name : Word} {first : Tree.Argument} {others : List Tree.Argument}
    {trailingComma : Bool} :
    Tree.Attribute.yield ⟨name, first :: others, trailingComma⟩ =
      .at :: .name name.text :: .openParenthesis :: first.token ::
        argumentsYield others trailingComma := by
  simp only [Tree.Attribute.yield, List.isEmpty_cons, Bool.false_eq_true, if_false,
    separated_singletons, argumentsYield, List.cons_append]

/-- What is taken behind the first argument are arguments with commas, and their parenthesis. -/
theorem moreArguments_sound (fuel : Nat) (tokens : List LocatedToken) :
    (moreArguments fuel).Ensures tokens fun read rest =>
      kinds tokens = argumentsYield read.1 read.2 ++ kinds rest := by
  induction fuel generalizing tokens with
  | zero => exact ensures_fail
  | succ fuel ih =>
    refine Ensures.bind (ensures_accept ?_ ?_)
    · rintro position middle rfl
      refine Ensures.bind (ensures_accept ?_ ?_)
      · rintro position rest rfl
        exact ensures_pure rfl
      · intro other
        refine Ensures.bind (ensures_argument ?_)
        rintro next position middle rfl
        refine Ensures.bind ?_
        rintro ⟨others, trailingComma⟩ rest back
        refine ensures_pure ?_
        rw [kinds_cons, kinds_cons, ih middle back]
        rfl
    · intro other
      refine Ensures.bind (ensures_expect ?_)
      rintro position rest rfl
      exact ensures_pure rfl

/-- Arguments with commas before them are taken up to their parenthesis. -/
theorem moreArguments_complete {fuel : Nat} {arguments : List Tree.Argument} {trailingComma : Bool}
    (enough : arguments.length < fuel)
    (same : kinds tokens = argumentsYield arguments trailingComma ++ after) :
    (moreArguments fuel).Gives tokens fun read rest =>
      read = (arguments, trailingComma) ∧ kinds rest = after := by
  induction arguments generalizing fuel tokens with
  | nil =>
    obtain ⟨fuel, rfl⟩ := Nat.exists_eq_succ_of_ne_zero (Nat.ne_zero_of_lt enough)
    cases trailingComma with
    | true =>
      refine Gives.bind (gives_accept same fun _ same => ?_)
      exact Gives.bind (gives_accept same fun _ same => gives_pure ⟨rfl, same⟩)
    | false =>
      refine Gives.bind (gives_accept_false (by simp [same, argumentsYield]) ?_)
      exact Gives.bind (gives_expect same fun _ same => gives_pure ⟨rfl, same⟩)
  | cons next others ih =>
    obtain ⟨fuel, rfl⟩ := Nat.exists_eq_succ_of_ne_zero (Nat.ne_zero_of_lt enough)
    have fewer : others.length < fuel := Nat.lt_of_succ_lt_succ enough
    refine Gives.bind (gives_accept same fun _ same => ?_)
    refine Gives.bind (gives_accept_false ?_ ?_)
    · rw [same]
      cases next <;> exact nofun
    · refine Gives.bind (gives_argument same fun _ same => ?_)
      refine Gives.bind ((ih fewer same).imp ?_)
      rintro _ _ ⟨rfl, same⟩
      exact gives_pure ⟨rfl, same⟩

/-- What is taken as an attribute is one. -/
theorem singleAttribute_sound : singleAttribute.Sound Tree.Attribute.symbol := by
  intro tokens
  refine Ensures.bind (ensures_expect ?_)
  rintro position tokens rfl
  refine Ensures.bind (ensures_word ?_)
  rintro name tokens rfl
  refine Ensures.bind (ensures_accept ?_ ?_)
  · rintro position tokens rfl
    refine Ensures.bind (ensures_argument ?_)
    rintro first position tokens rfl
    refine Ensures.bind (ensures_get (Ensures.bind ?_))
    rintro ⟨others, trailingComma⟩ rest back
    refine ensures_pure ⟨?_, nofun⟩
    rw [kinds_cons, kinds_cons, kinds_cons, kinds_cons, moreArguments_sound _ _ back]
    exact congrArg (· ++ _) yield_attribute_cons.symm
  · intro other
    exact ensures_pure ⟨rfl, fun _ => rfl⟩

/-- An attribute is taken where no parenthesis follows. -/
theorem singleAttribute_complete :
    singleAttribute.Complete Tree.Attribute.symbol (· ≠ some .openParenthesis) := by
  rintro ⟨name, arguments, trailingComma⟩ tokens after derives same ends
  cases arguments with
  | nil =>
    obtain rfl : trailingComma = false := derives rfl
    refine Gives.bind (gives_expect same fun _ same => ?_)
    refine Gives.bind (gives_word same fun position _ same => ?_)
    refine Gives.bind (gives_accept_false ?_ (gives_pure ⟨rfl, same⟩))
    replace same : _ = after := same
    rwa [same]
  | cons first others =>
    replace same : kinds tokens = .at :: .name name.text :: .openParenthesis :: first.token ::
        (argumentsYield others trailingComma ++ after) := by
      rw [same]
      exact congrArg (· ++ after) yield_attribute_cons
    refine Gives.bind (gives_expect same fun _ same => ?_)
    refine Gives.bind (gives_word same fun position _ same => ?_)
    refine Gives.bind (gives_accept same fun _ same => ?_)
    refine Gives.bind (gives_argument same fun behind same => ?_)
    -- Each further argument takes two tokens, so the number of tokens left is fuel enough.
    have enough : others.length < behind.length + 1 := by
      have longer : others.length ≤ (argumentsYield others trailingComma).length := by
        simp only [argumentsYield, List.length_append, List.length_flatMap, List.length_cons,
          List.length_nil, List.map_const', List.sum_replicate_nat]
        omega
      rw [← length_kinds behind, same, List.length_append]
      omega
    refine Gives.bind (gives_get ?_)
    refine Gives.bind ((moreArguments_complete enough same).imp ?_)
    rintro _ _ ⟨rfl, same⟩
    exact gives_pure ⟨rfl, same⟩

/-- What is taken as attributes are attributes. -/
theorem attributes_sound : attributes.Sound Tree.Attribute.symbol.many :=
  singleAttribute_sound.many _

/-- Attributes are taken where no other follows and no parenthesis. -/
theorem attributes_complete : attributes.Complete Tree.Attribute.symbol.many fun next =>
    next ≠ some .openParenthesis ∧ ∀ token ∈ next, decide (token = .at) = false :=
  singleAttribute_complete.many fun _ _ => ⟨_, _, rfl, rfl, nofun⟩

/-! ## Types -/

/-- What is taken as parameters of types are such parameters. -/
theorem parameters_sound (fuel : Nat) :
    (∀ tokens, (parameter fuel).Ensures tokens fun read rest =>
      kinds tokens = read.yield ++ kinds rest) ∧
    (∀ tokens, (parameters fuel).Ensures tokens fun read rest =>
      kinds tokens = Tree.bracketYield read ++ kinds rest) ∧
    ∀ tokens, (moreParameters fuel).Ensures tokens fun read rest =>
      kinds tokens = Tree.restYield read ++ .greater :: kinds rest := by
  induction fuel with
  | zero => exact ⟨fun _ => ensures_fail, fun _ => ensures_fail, fun _ => ensures_fail⟩
  | succ fuel ih =>
    obtain ⟨parameterSound, parametersSound, moreSound⟩ := ih
    -- Behind an opening bracket and behind a comma, the same row of parameters is taken.
    have row (tokens : List LocatedToken) :
        (do let first ← parameter fuel; return first :: (← moreParameters fuel) :
          Parser (List Tree.Parameter)).Ensures tokens fun read rest =>
            ∃ first others, read = first :: others ∧
              kinds tokens = first.yield ++ (Tree.restYield others ++ .greater :: kinds rest) := by
      refine Ensures.bind ?_
      intro first middle front
      refine Ensures.bind ?_
      intro others rest back
      exact ensures_pure ⟨first, others, rfl, by
        rw [parameterSound tokens front, moreSound middle back]⟩
    refine ⟨fun tokens => ?_, fun tokens => ?_, fun tokens => ?_⟩
    · refine Ensures.bind (ensures_peek ?_)
      split
      · refine Ensures.bind (ensures_expect ?_)
        rintro position rest rfl
        exact ensures_pure rfl
      · refine Ensures.bind (ensures_word ?_)
        rintro name tokens rfl
        refine Ensures.bind ?_
        intro inner rest back
        refine ensures_pure ?_
        rw [kinds_cons, parametersSound tokens back]
        rfl
    · refine Ensures.bind (ensures_accept ?_ ?_)
      · rintro position tokens rfl
        intro read rest taken
        obtain ⟨first, others, rfl, yields⟩ := row tokens taken
        rw [kinds_cons, yields, Tree.bracketYield]
        simp only [List.cons_append, List.append_assoc, List.nil_append]
      · intro other
        exact ensures_pure rfl
    · refine Ensures.bind (ensures_accept ?_ ?_)
      · rintro position tokens rfl
        intro read rest taken
        obtain ⟨next, others, rfl, yields⟩ := row tokens taken
        rw [kinds_cons, yields, Tree.restYield]
        simp only [List.cons_append, List.append_assoc]
      · intro other
        refine Ensures.bind (ensures_expect ?_)
        rintro position rest rfl
        exact ensures_pure rfl

/-- Parameters of types are taken where no bracket follows. Every second step takes a token, which
bounds the steps. -/
theorem parameters_complete (fuel : Nat) :
    (∀ item tokens after, 2 * item.yield.length ≤ fuel → kinds tokens = item.yield ++ after →
      after.head? ≠ some .less → (parameter fuel).Gives tokens fun read rest =>
        read = item ∧ kinds rest = after) ∧
    (∀ items tokens after, 2 * (Tree.bracketYield items).length + 1 ≤ fuel →
      kinds tokens = Tree.bracketYield items ++ after → after.head? ≠ some .less →
        (parameters fuel).Gives tokens fun read rest => read = items ∧ kinds rest = after) ∧
    ∀ items tokens after, 2 * (Tree.restYield items).length + 1 ≤ fuel →
      kinds tokens = Tree.restYield items ++ .greater :: after →
        (moreParameters fuel).Gives tokens fun read rest => read = items ∧ kinds rest = after := by
  induction fuel with
  | zero =>
    refine ⟨fun item _ _ enough => ?_, fun _ _ _ enough => absurd enough (Nat.not_succ_le_zero _),
      fun _ _ _ enough => absurd enough (Nat.not_succ_le_zero _)⟩
    cases item <;> simp [Tree.Parameter.yield] at enough
  | succ fuel ih =>
    obtain ⟨parameterComplete, parametersComplete, moreComplete⟩ := ih
    -- Behind a parameter in a bracket stands a comma or the end of the bracket.
    have behind (items : List Tree.Parameter) (after : List Token) :
        (Tree.restYield items ++ .greater :: after).head? ≠ some .less := by
      cases items <;> exact nofun
    -- Behind an opening bracket and behind a comma, the same row of parameters is taken.
    have row (first : Tree.Parameter) (others : List Tree.Parameter) (tokens : List LocatedToken)
        (after : List Token)
        (enough : 2 * (first.yield.length + (Tree.restYield others).length) + 1 ≤ fuel)
        (same : kinds tokens = first.yield ++ (Tree.restYield others ++ .greater :: after)) :
        (do let first ← parameter fuel; return first :: (← moreParameters fuel) :
          Parser (List Tree.Parameter)).Gives tokens fun read rest =>
            read = first :: others ∧ kinds rest = after := by
      refine Gives.bind ((parameterComplete first _ _ (by omega) same (behind _ _)).imp ?_)
      rintro _ middle ⟨rfl, remains⟩
      refine Gives.bind ((moreComplete others _ _ (by omega) remains).imp ?_)
      rintro _ rest ⟨rfl, left⟩
      exact gives_pure ⟨rfl, left⟩
    refine ⟨fun item tokens after enough same ends => ?_,
      fun items tokens after enough same ends => ?_, fun items tokens after enough same => ?_⟩
    · refine Gives.bind (gives_peek ?_)
      cases item with
      | numeral text =>
        rw [same]
        exact Gives.bind (gives_expect same fun _ same => gives_pure ⟨rfl, same⟩)
      | type name inner =>
        rw [same]
        refine Gives.bind (gives_word same fun position _ same => ?_)
        rw [Tree.Parameter.yield, List.length_cons] at enough
        refine Gives.bind ((parametersComplete inner _ after (by omega) same ends).imp ?_)
        rintro _ _ ⟨rfl, remains⟩
        exact gives_pure ⟨rfl, remains⟩
    · cases items with
      | nil =>
        refine Gives.bind (gives_accept_false ?_ (gives_pure ⟨rfl, same⟩))
        replace same : kinds tokens = after := same
        rwa [same]
      | cons first others =>
        have split : kinds tokens = .less ::
            (first.yield ++ (Tree.restYield others ++ .greater :: after)) := by
          rw [same, Tree.bracketYield]
          simp only [List.cons_append, List.append_assoc, List.nil_append]
        simp only [Tree.bracketYield, List.length_cons, List.length_append, List.length_nil]
          at enough
        exact Gives.bind (gives_accept split fun _ same =>
          row first others _ after (by omega) same)
    · cases items with
      | nil =>
        refine Gives.bind (gives_accept_false (by simp [same, Tree.restYield]) ?_)
        exact Gives.bind (gives_expect same fun _ same => gives_pure ⟨rfl, same⟩)
      | cons next others =>
        have split : kinds tokens = .comma ::
            (next.yield ++ (Tree.restYield others ++ .greater :: after)) := by
          rw [same, Tree.restYield]
          simp only [List.cons_append, List.append_assoc]
        simp only [Tree.restYield, List.length_cons, List.length_append] at enough
        exact Gives.bind (gives_accept split fun _ same =>
          row next others _ after (by omega) same)

/-- What is taken as a type is one. -/
theorem typeName_sound : typeName.Sound Tree.TypeName.symbol := by
  intro tokens
  refine Ensures.bind (ensures_word ?_)
  rintro name tokens rfl
  refine Ensures.bind (ensures_get (Ensures.bind ?_))
  intro inner rest back
  refine ensures_pure ⟨?_, trivial⟩
  rw [kinds_cons, (parameters_sound _).2.1 tokens back]
  rfl

/-- A type is taken where no bracket follows. -/
theorem typeName_complete : typeName.Complete Tree.TypeName.symbol (· ≠ some .less) := by
  rintro ⟨name, inner⟩ tokens after - same ends
  refine Gives.bind (gives_word same fun position middle same => ?_)
  -- The parser of types starts with twice the tokens that are left, and two steps more.
  have enough : 2 * (Tree.bracketYield inner).length + 1 ≤ 2 * middle.length + 2 := by
    replace same : kinds middle = Tree.bracketYield inner ++ after := same
    rw [← length_kinds middle, same, List.length_append]
    omega
  refine Gives.bind (gives_get (Gives.bind ?_))
  refine ((parameters_complete _).2.1 inner middle after enough same ends).imp ?_
  rintro _ rest ⟨rfl, remains⟩
  exact gives_pure ⟨rfl, remains⟩

/-! ## Variables -/

/-- What is taken as a template is one of at most two words. -/
theorem template_sound (tokens : List LocatedToken) :
    template.Ensures tokens fun read rest =>
      kinds tokens = Tree.templateYield read ++ kinds rest ∧ read.length ≤ 2 := by
  refine Ensures.bind (ensures_accept ?_ ?_)
  · rintro position tokens rfl
    refine Ensures.bind (ensures_word ?_)
    rintro first tokens rfl
    refine Ensures.bind (ensures_accept ?_ ?_)
    · rintro position tokens rfl
      refine Ensures.bind (ensures_word ?_)
      rintro second tokens rfl
      refine Ensures.bind (ensures_expect ?_)
      rintro position rest rfl
      exact ensures_pure ⟨rfl, Nat.le_refl 2⟩
    · intro other
      refine Ensures.bind (ensures_expect ?_)
      rintro position rest rfl
      exact ensures_pure ⟨rfl, Nat.le_succ 1⟩
  · intro other
    exact ensures_pure ⟨rfl, Nat.zero_le 2⟩

/-- A template of at most two words is taken where no bracket follows. -/
theorem template_complete {words : List String} (few : words.length ≤ 2)
    (same : kinds tokens = Tree.templateYield words ++ after) (ends : after.head? ≠ some .less) :
    template.Gives tokens fun read rest => read = words ∧ kinds rest = after := by
  match words, few with
  | [], _ =>
    refine Gives.bind (gives_accept_false ?_ (gives_pure ⟨rfl, same⟩))
    replace same : kinds tokens = after := same
    rwa [same]
  | [first], _ =>
    refine Gives.bind (gives_accept same fun _ same => ?_)
    refine Gives.bind (gives_word same fun _ _ same => ?_)
    refine Gives.bind (gives_accept_false (by simp [same]) ?_)
    exact Gives.bind (gives_expect same fun _ same => gives_pure ⟨rfl, same⟩)
  | [first, second], _ =>
    refine Gives.bind (gives_accept same fun _ same => ?_)
    refine Gives.bind (gives_word same fun _ _ same => ?_)
    refine Gives.bind (gives_accept same fun _ same => ?_)
    refine Gives.bind (gives_word same fun _ _ same => ?_)
    exact Gives.bind (gives_expect same fun _ same => gives_pure ⟨rfl, same⟩)

/-- Attributes are taken off the front of a declaration. -/
theorem attributes_before_keyword {given : List Tree.Attribute} {word : Keyword}
    (derive : ∀ one ∈ given, one.IsDerivation)
    (same : kinds tokens = given.flatMap Tree.Attribute.yield ++ .keyword word :: after) :
    attributes.Gives tokens fun read rest =>
      read.map Tree.Attribute.unplaced = given.map Tree.Attribute.unplaced ∧
        kinds rest = .keyword word :: after :=
  attributes_complete derive same ⟨nofun, by rintro token ⟨⟩; rfl⟩

/-- What is taken behind attributes makes a variable with them. -/
theorem variableWith_sound (attributes : List Tree.Attribute) (tokens : List LocatedToken) :
    (variableWith attributes).Ensures tokens fun read rest =>
      kinds tokens = read.bareYield ++ kinds rest ∧ read.attributes = attributes ∧
        read.template.length ≤ 2 := by
  refine Ensures.bind (ensures_expect ?_)
  rintro position tokens rfl
  refine Ensures.bind ?_
  intro words middle front
  obtain ⟨templateYield, few⟩ := template_sound tokens front
  refine Ensures.bind (ensures_word ?_)
  rintro name middle rfl
  refine Ensures.bind (ensures_expect ?_)
  rintro position middle rfl
  refine Ensures.bind ?_
  intro type rest back
  obtain ⟨typeYield, -⟩ := typeName_sound middle back
  refine Ensures.bind (ensures_expect ?_)
  rintro position rest rfl
  refine ensures_pure ⟨?_, rfl, few⟩
  replace typeYield : kinds middle = type.yield ++ .semicolon :: kinds rest := typeYield
  rw [kinds_cons, templateYield, kinds_cons, kinds_cons, typeYield, Tree.Variable.bareYield]
  simp only [List.append_assoc, List.cons_append, List.nil_append]

/-- A variable is taken behind attributes that are its own, positions aside. -/
theorem variableWith_complete {item : Tree.Variable} {attributes : List Tree.Attribute}
    (few : item.template.length ≤ 2)
    (own : attributes.map Tree.Attribute.unplaced = item.attributes.map Tree.Attribute.unplaced)
    (same : kinds tokens = item.bareYield ++ after) :
    (variableWith attributes).Gives tokens fun read rest =>
      read.unplaced = item.unplaced ∧ kinds rest = after := by
  simp only [Tree.Variable.bareYield, List.append_assoc, List.cons_append, List.nil_append] at same
  refine Gives.bind (gives_expect same fun _ same => ?_)
  refine Gives.bind ((template_complete few same (by simp)).imp ?_)
  rintro _ _ ⟨rfl, same⟩
  refine Gives.bind (gives_word same fun position _ same => ?_)
  refine Gives.bind (gives_expect same fun _ same => ?_)
  refine Gives.bind ((typeName_complete trivial same (by simp)).imp ?_)
  rintro type _ ⟨sameType, same⟩
  obtain rfl : type = item.type := sameType
  refine Gives.bind (gives_expect same fun _ same => gives_pure ⟨?_, same⟩)
  simp only [Tree.Variable.unplaced, own, Word.unplaced]

/-! ## Functions -/

/-- What is taken as an expression is one. -/
theorem expression_sound : expression.Sound Tree.Expression.symbol := by
  intro tokens
  refine Ensures.bind (ensures_peek ?_)
  split
  · refine Ensures.bind (ensures_expect ?_)
    rintro position rest rfl
    exact ensures_pure ⟨rfl, trivial⟩
  · refine Ensures.bind (ensures_word ?_)
    rintro name tokens rfl
    refine Ensures.bind (ensures_accept ?_ ?_)
    · rintro position tokens rfl
      refine Ensures.bind (ensures_expect ?_)
      rintro position rest rfl
      exact ensures_pure ⟨rfl, trivial⟩
    · intro other
      exact ensures_pure ⟨rfl, trivial⟩

/-- An expression is taken where no parenthesis follows. -/
theorem expression_complete :
    expression.Complete Tree.Expression.symbol (· ≠ some .openParenthesis) := by
  intro item tokens after _ same ends
  refine Gives.bind (gives_peek ?_)
  cases item with
  | call name =>
    rw [same]
    refine Gives.bind (gives_word same fun position _ same => ?_)
    refine Gives.bind (gives_accept same fun _ same => ?_)
    exact Gives.bind (gives_expect same fun _ same => gives_pure ⟨rfl, same⟩)
  | reference name =>
    rw [same]
    refine Gives.bind (gives_word same fun position middle same => ?_)
    refine Gives.bind (gives_accept_false ?_ (gives_pure ⟨rfl, same⟩))
    replace same : kinds middle = after := same
    rwa [same]
  | numeral text =>
    rw [same]
    exact Gives.bind (gives_expect same fun _ same => gives_pure ⟨rfl, same⟩)

/-- What is taken as a statement is one. -/
theorem statement_sound : statement.Sound Tree.Statement.symbol := by
  intro tokens
  refine Ensures.bind (ensures_peek ?_)
  split
  · refine Ensures.bind (ensures_expect ?_)
    rintro position tokens rfl
    refine Ensures.bind (ensures_expect ?_)
    rintro position tokens rfl
    refine Ensures.bind ?_
    intro value middle front
    obtain ⟨yields, -⟩ := expression_sound tokens front
    refine Ensures.bind (ensures_expect ?_)
    rintro position rest rfl
    refine ensures_pure ⟨?_, trivial⟩
    rw [kinds_cons, kinds_cons, yields]
    simp only [Tree.Statement.symbol, Tree.Statement.yield, Tree.Expression.symbol, kinds_cons,
      List.append_assoc, List.cons_append, List.nil_append]
  · refine Ensures.bind (ensures_expect ?_)
    rintro position tokens rfl
    refine Ensures.bind (ensures_accept ?_ ?_)
    · rintro position rest rfl
      exact ensures_pure ⟨rfl, trivial⟩
    · intro other
      refine Ensures.bind ?_
      intro value middle front
      obtain ⟨yields, -⟩ := expression_sound tokens front
      refine Ensures.bind (ensures_expect ?_)
      rintro position rest rfl
      refine ensures_pure ⟨?_, trivial⟩
      rw [kinds_cons, yields]
      simp only [Tree.Statement.symbol, Tree.Statement.yield, Tree.Expression.symbol, kinds_cons,
        Option.map_some, Option.getD_some, List.append_assoc, List.cons_append, List.nil_append]
  · refine Ensures.bind (ensures_word ?_)
    rintro name tokens rfl
    refine Ensures.bind (ensures_expect ?_)
    rintro position tokens rfl
    refine Ensures.bind (ensures_expect ?_)
    rintro position tokens rfl
    refine Ensures.bind (ensures_expect ?_)
    rintro position rest rfl
    exact ensures_pure ⟨rfl, trivial⟩
  · refine Ensures.bind ?_
    intro given middle front
    obtain ⟨givenYield, derive⟩ := attributes_sound tokens front
    refine Ensures.bind ?_
    intro declared rest back
    obtain ⟨yields, rfl, few⟩ := variableWith_sound given middle back
    refine ensures_pure ⟨?_, derive, few⟩
    change _ = declared.yield ++ _
    rw [givenYield, yields, Tree.Variable.yield_eq_append, List.append_assoc]
    rfl

/-- A statement is taken, whatever follows. -/
theorem statement_complete : statement.Complete Tree.Statement.symbol fun _ => True := by
  intro item tokens after derives same _
  refine Gives.bind (gives_peek ?_)
  cases item with
  | drop value =>
    replace same : kinds tokens = .keyword .underscore :: .equals ::
        (value.yield ++ .semicolon :: after) := by
      simpa only [Tree.Statement.symbol, Tree.Statement.yield, List.append_assoc, List.cons_append,
        List.nil_append] using same
    rw [same]
    refine Gives.bind (gives_expect same fun _ same => ?_)
    refine Gives.bind (gives_expect same fun _ same => ?_)
    refine Gives.bind ((expression_complete trivial same nofun).imp ?_)
    rintro read _ ⟨sameValue, same⟩
    refine Gives.bind (gives_expect same fun _ same => gives_pure ⟨?_, same⟩)
    exact congrArg Tree.Statement.drop sameValue
  | call name =>
    rw [same]
    refine Gives.bind (gives_word same fun position _ same => ?_)
    refine Gives.bind (gives_expect same fun _ same => ?_)
    refine Gives.bind (gives_expect same fun _ same => ?_)
    exact Gives.bind (gives_expect same fun _ same => gives_pure ⟨rfl, same⟩)
  | declare declared =>
    replace same : kinds tokens = declared.attributes.flatMap Tree.Attribute.yield ++
        (declared.bareYield ++ after) := by
      rw [← List.append_assoc, ← Tree.Variable.yield_eq_append]
      exact same
    -- A variable starts with an attribute or with its keyword, and both lead to the same branch.
    have front : (kinds tokens).head? = some .at ∨
        (kinds tokens).head? = some (.keyword .var) := by
      rw [same]
      cases declared.attributes with
      | nil => exact .inr rfl
      | cons first others => exact .inl rfl
    have attributed : (do return .declare (← variableWith (← attributes)) :
        Parser Tree.Statement).Gives tokens fun read rest =>
          read.unplaced = (Tree.Statement.declare declared).unplaced ∧ kinds rest = after := by
      refine Gives.bind ((attributes_before_keyword derives.1 same).imp ?_)
      rintro given middle ⟨own, same⟩
      refine Gives.bind ((variableWith_complete derives.2 own same).imp ?_)
      rintro read rest ⟨sameVariable, same⟩
      exact gives_pure ⟨congrArg Tree.Statement.declare sameVariable, same⟩
    rcases front with front | front <;> rw [front] <;> exact attributed
  | leave value =>
    cases value with
    | none =>
      rw [same]
      refine Gives.bind (gives_expect same fun _ same => ?_)
      exact Gives.bind (gives_accept same fun _ same => gives_pure ⟨rfl, same⟩)
    | some value =>
      replace same : kinds tokens = .keyword .returns :: (value.yield ++ .semicolon :: after) := by
        simpa only [Tree.Statement.symbol, Tree.Statement.yield, Option.map_some,
          Option.getD_some, List.append_assoc, List.cons_append, List.nil_append] using same
      rw [same]
      refine Gives.bind (gives_expect same fun _ same => ?_)
      refine Gives.bind (gives_accept_false ?_ ?_)
      · rw [same]
        cases value <;> exact nofun
      · refine Gives.bind ((expression_complete trivial same nofun).imp ?_)
        rintro read _ ⟨sameValue, same⟩
        refine Gives.bind (gives_expect same fun _ same => gives_pure ⟨?_, same⟩)
        exact congrArg (fun value => Tree.Statement.leave (some value)) sameValue

/-- The first token of a statement does not close the body. -/
theorem exists_yield_statement (item : Tree.Statement) :
    ∃ token rest, item.yield = token :: rest ∧ decide (token ≠ .closeBrace) = true := by
  cases item with
  | drop value => exact ⟨_, _, rfl, rfl⟩
  | call name => exact ⟨_, _, rfl, rfl⟩
  | leave value => exact ⟨_, _, rfl, rfl⟩
  | declare declared =>
    obtain ⟨_ | ⟨first, others⟩, template, name, type⟩ := declared
    · exact ⟨_, _, rfl, rfl⟩
    · exact ⟨_, _, rfl, rfl⟩

/-- What is taken as a result is one, or nothing. -/
theorem result_sound : result.Sound Tree.Result.symbol := by
  intro tokens
  refine Ensures.bind (ensures_accept ?_ ?_)
  · rintro position tokens rfl
    refine Ensures.bind ?_
    intro given middle front
    obtain ⟨givenYield, derive⟩ := attributes_sound tokens front
    refine Ensures.bind ?_
    intro type rest back
    obtain ⟨typeYield, -⟩ := typeName_sound middle back
    refine ensures_pure ⟨?_, ?_⟩
    · rw [kinds_cons, givenYield, typeYield]
      exact congrArg (Token.arrow :: ·) (List.append_assoc ..).symm
    · rintro read ⟨⟩
      exact derive
  · intro other
    exact ensures_pure ⟨rfl, nofun⟩

/-- A result is taken before the body of a function. -/
theorem result_complete : result.Complete Tree.Result.symbol (· = some .openBrace) := by
  intro item tokens after derives same ends
  cases item with
  | none =>
    refine Gives.bind (gives_accept_false ?_ (gives_pure ⟨rfl, same⟩))
    replace same : kinds tokens = after := same
    rw [same, ends]
    exact nofun
  | some item =>
    replace same : kinds tokens = .arrow :: (item.attributes.flatMap Tree.Attribute.yield ++
        (item.type.yield ++ after)) :=
      same.trans (congrArg (Token.arrow :: ·) (List.append_assoc ..))
    refine Gives.bind (gives_accept same fun _ same => ?_)
    refine Gives.bind ((attributes_complete (derives item rfl) same
      ⟨nofun, by rintro token ⟨⟩; rfl⟩).imp ?_)
    rintro given _ ⟨own, same⟩
    refine Gives.bind ((typeName_complete trivial same (by rw [ends]; exact nofun)).imp ?_)
    rintro type _ ⟨sameType, same⟩
    obtain rfl : type = item.type := sameType
    refine gives_pure ⟨?_, same⟩
    replace own : given.map Tree.Attribute.unplaced = item.attributes.map Tree.Attribute.unplaced :=
      own
    simp only [Tree.Result.symbol, Option.map_some, Tree.Result.unplaced, own]

/-- What is taken behind attributes makes a function with them. -/
theorem functionWith_sound (attributes : List Tree.Attribute) (tokens : List LocatedToken) :
    (functionWith attributes).Ensures tokens fun read rest =>
      kinds tokens = read.bareYield ++ kinds rest ∧ read.attributes = attributes ∧
        (∀ given ∈ read.result, given.IsDerivation) ∧
          ∀ statement ∈ read.body, statement.IsDerivation := by
  refine Ensures.bind (ensures_expect ?_)
  rintro position tokens rfl
  refine Ensures.bind (ensures_word ?_)
  rintro name tokens rfl
  refine Ensures.bind (ensures_expect ?_)
  rintro position tokens rfl
  refine Ensures.bind (ensures_expect ?_)
  rintro position tokens rfl
  refine Ensures.bind ?_
  intro read middle front
  obtain ⟨resultYield, resultDerives⟩ := result_sound tokens front
  refine Ensures.bind (ensures_expect ?_)
  rintro position middle rfl
  refine Ensures.bind ?_
  intro body rest back
  obtain ⟨bodyYield, bodyDerives⟩ := statement_sound.many _ middle back
  refine Ensures.bind (ensures_expect ?_)
  rintro position rest rfl
  refine ensures_pure ⟨?_, rfl, resultDerives, bodyDerives⟩
  rw [kinds_cons, kinds_cons, kinds_cons, kinds_cons, resultYield, kinds_cons, bodyYield]
  simp only [Tree.Result.symbol, Tree.Statement.symbol, Symbol.many, Tree.Function.bareYield,
    kinds_cons, List.append_assoc, List.cons_append, List.nil_append]

/-- A function is taken behind attributes that are its own, positions aside. -/
theorem functionWith_complete {item : Tree.Function} {attributes : List Tree.Attribute}
    (resultDerives : ∀ given ∈ item.result, given.IsDerivation)
    (bodyDerives : ∀ statement ∈ item.body, statement.IsDerivation)
    (own : attributes.map Tree.Attribute.unplaced = item.attributes.map Tree.Attribute.unplaced)
    (same : kinds tokens = item.bareYield ++ after) :
    (functionWith attributes).Gives tokens fun read rest =>
      read.unplaced = item.unplaced ∧ kinds rest = after := by
  simp only [Tree.Function.bareYield, List.append_assoc, List.cons_append, List.nil_append] at same
  have bodyComplete : (many (· ≠ .closeBrace) statement).Complete Tree.Statement.symbol.many _ :=
    statement_complete.many fun item _ =>
      (exists_yield_statement item).imp fun _ => .imp fun _ both => ⟨both.1, both.2, trivial⟩
  refine Gives.bind (gives_expect same fun _ same => ?_)
  refine Gives.bind (gives_word same fun position _ same => ?_)
  refine Gives.bind (gives_expect same fun _ same => ?_)
  refine Gives.bind (gives_expect same fun _ same => ?_)
  refine Gives.bind ((result_complete resultDerives same rfl).imp ?_)
  rintro read _ ⟨sameResult, same⟩
  refine Gives.bind (gives_expect same fun _ same => ?_)
  refine Gives.bind ((bodyComplete bodyDerives same
    ⟨trivial, by rintro token ⟨⟩; rfl⟩).imp ?_)
  rintro body _ ⟨sameBody, same⟩
  refine Gives.bind (gives_expect same fun _ same => gives_pure ⟨?_, same⟩)
  replace sameResult : read.map Tree.Result.unplaced = item.result.map Tree.Result.unplaced :=
    sameResult
  replace sameBody : body.map Tree.Statement.unplaced = item.body.map Tree.Statement.unplaced :=
    sameBody
  simp only [Tree.Function.unplaced, own, Word.unplaced, sameResult, sameBody]

/-! ## Modules -/

/-- What is taken as a declaration is one. -/
theorem declaration_sound : declaration.Sound Tree.Declaration.symbol := by
  intro tokens
  refine Ensures.bind ?_
  intro given middle front
  obtain ⟨givenYield, derive⟩ := attributes_sound tokens front
  refine Ensures.bind (ensures_peek ?_)
  split
  · refine Ensures.bind ?_
    intro declared rest back
    obtain ⟨yields, rfl, resultDerives, bodyDerives⟩ := functionWith_sound given middle back
    refine ensures_pure ⟨?_, derive, resultDerives, bodyDerives⟩
    change _ = declared.yield ++ _
    rw [givenYield, yields, Tree.Function.yield_eq_append, List.append_assoc]
    rfl
  · refine Ensures.bind ?_
    intro declared rest back
    obtain ⟨yields, rfl, few⟩ := variableWith_sound given middle back
    refine ensures_pure ⟨?_, derive, few⟩
    change _ = declared.yield ++ _
    rw [givenYield, yields, Tree.Variable.yield_eq_append, List.append_assoc]
    rfl

/-- A declaration is taken, whatever follows. -/
theorem declaration_complete : declaration.Complete Tree.Declaration.symbol fun _ => True := by
  intro item tokens after derives same _
  cases item with
  | ofVariable declared =>
    replace same : kinds tokens = declared.attributes.flatMap Tree.Attribute.yield ++
        (declared.bareYield ++ after) := by
      rw [← List.append_assoc, ← Tree.Variable.yield_eq_append]
      exact same
    refine Gives.bind ((attributes_before_keyword derives.1 same).imp ?_)
    rintro given middle ⟨own, same⟩
    refine Gives.bind (gives_peek ?_)
    rw [same, if_neg nofun]
    refine Gives.bind ((variableWith_complete derives.2 own same).imp ?_)
    rintro read rest ⟨sameVariable, same⟩
    exact gives_pure ⟨congrArg Tree.Declaration.ofVariable sameVariable, same⟩
  | ofFunction declared =>
    replace same : kinds tokens = declared.attributes.flatMap Tree.Attribute.yield ++
        (declared.bareYield ++ after) := by
      rw [← List.append_assoc, ← Tree.Function.yield_eq_append]
      exact same
    refine Gives.bind ((attributes_before_keyword derives.1 same).imp ?_)
    rintro given middle ⟨own, same⟩
    refine Gives.bind (gives_peek ?_)
    rw [same, List.head?_cons, if_pos rfl]
    refine Gives.bind ((functionWith_complete derives.2.1 derives.2.2 own same).imp ?_)
    rintro read rest ⟨sameFunction, same⟩
    exact gives_pure ⟨congrArg Tree.Declaration.ofFunction sameFunction, same⟩

/-- The first token of a declaration. -/
theorem exists_yield_declaration (item : Tree.Declaration) :
    ∃ token rest, item.yield = token :: rest := by
  cases item with
  | ofVariable declared =>
    obtain ⟨_ | ⟨first, others⟩, template, name, type⟩ := declared <;> exact ⟨_, _, rfl⟩
  | ofFunction declared =>
    obtain ⟨_ | ⟨first, others⟩, name, result, body⟩ := declared <;> exact ⟨_, _, rfl⟩

end Parser

namespace Tree

variable {tokens : List LocatedToken} {tree : Tree}

/-- A tree that is found is what the parser of declarations takes. -/
theorem exists_reads_of_ofTokens (found : ofTokens tokens = .ok tree) :
    ∃ rest, Parser.declarations.Reads tokens tree rest := by
  rw [ofTokens] at found
  cases outcome : Parser.declarations.run tokens with
  | error unexpected => rw [outcome] at found; cases found
  | ok read =>
    rw [outcome] at found
    cases found
    exact ⟨read.2, outcome⟩

/-- A tree that is found is a derivation of all the tokens. -/
theorem ofTokens_sound (found : ofTokens tokens = .ok tree) :
    Parser.kinds tokens = tree.yield ∧ tree.IsDerivation := by
  obtain ⟨rest, reads⟩ := exists_reads_of_ofTokens found
  obtain ⟨yields, derives⟩ := Parser.declaration_sound.many _ tokens reads
  have nonempty (item : Declaration) : Declaration.symbol.yield item ≠ [] := by
    obtain ⟨token, others, yields⟩ := Parser.exists_yield_declaration item
    change item.yield ≠ []
    rw [yields]
    exact nofun
  -- The parser stops at no token, and no declaration is empty.
  have all : rest = [] := Parser.many_takes_all Parser.declaration_sound nonempty tokens reads
  refine ⟨?_, derives⟩
  rw [yields, all, Parser.kinds_nil, List.append_nil]
  rfl

/-- A derivation is found, positions aside, from the tokens that it yields. -/
theorem ofTokens_complete (derives : tree.IsDerivation) (same : Parser.kinds tokens = tree.yield) :
    ∃ read, ofTokens tokens = .ok read ∧ read.unplaced = tree.unplaced := by
  have complete : Parser.declarations.Complete Declaration.symbol.many _ :=
    Parser.declaration_complete.many fun item _ => by
      obtain ⟨token, rest, yields⟩ := Parser.exists_yield_declaration item
      exact ⟨token, rest, yields, rfl, trivial⟩
  obtain ⟨read, rest, reads, sameTree, -⟩ :=
    complete derives (same.trans (List.append_nil _).symm) ⟨trivial, nofun⟩
  refine ⟨read, ?_, sameTree⟩
  rw [ofTokens, Parser.declarations, show (Parser.many _ _).run tokens = _ from reads]
  rfl

end Tree

end BindingSuite.Wgsl
