import BindingSuite.Proofs.Layout
import BindingSuite.Wgsl.Tree

/-! # Derivations

Which trees are derivations of the grammar, and how their words stand in context.

* `bareYield` are the tokens of a variable or function behind its attributes;
* `Tree.IsDerivation` rules out the trees that no rule of the grammar gives: long templates, and
  commas behind arguments that are not there;
* `Tree.NamesFit` rules out the names that would be keywords where they stand: those of calls that
  are statements, and those of types behind the attributes of a result;
* `Context.Leads` follows fitting tokens from context to context, and `fits_yield` says that the
  tokens of a tree with fitting names fit the start of a text. -/

namespace BindingSuite.Wgsl

namespace Tree

/-! ## Behind the attributes -/

/-- The tokens of a variable behind its attributes. -/
def Variable.bareYield (declared : Variable) : List Token :=
  .keyword .var :: (templateYield declared.template ++
    .name declared.name.text :: .colon :: declared.type.yield ++ [.semicolon])

/-- A variable yields its attributes and what is behind them. -/
theorem Variable.yield_eq_append (declared : Variable) :
    declared.yield = declared.attributes.flatMap Attribute.yield ++ declared.bareYield := by
  simp only [yield, bareYield, List.append_assoc, List.cons_append]

/-- The tokens of a function behind its attributes. -/
def Function.bareYield (declared : Function) : List Token :=
  .keyword .fn :: ([.name declared.name.text, .openParenthesis, .closeParenthesis] ++
    (declared.result.map Result.yield).getD [] ++
      .openBrace :: (declared.body.flatMap Statement.yield ++ [.closeBrace]))

/-- A function yields its attributes and what is behind them. -/
theorem Function.yield_eq_append (declared : Function) :
    declared.yield = declared.attributes.flatMap Attribute.yield ++ declared.bareYield := by
  simp only [yield, bareYield, List.append_assoc, List.cons_append, List.nil_append]

/-! ## Derivations of the grammar -/

/-- An attribute without arguments has no comma behind them. -/
def Attribute.IsDerivation (given : Attribute) : Prop :=
  given.arguments = [] → given.trailingComma = false

/-- A variable has an address space and an access at most, and attributes of the grammar. -/
def Variable.IsDerivation (declared : Variable) : Prop :=
  (∀ given ∈ declared.attributes, given.IsDerivation) ∧ declared.template.length ≤ 2

/-- A statement that declares a variable declares one of the grammar. -/
def Statement.IsDerivation : Statement → Prop
  | declare declared => declared.IsDerivation
  | _ => True

/-- A result has attributes of the grammar. -/
def Result.IsDerivation (result : Result) : Prop :=
  ∀ given ∈ result.attributes, given.IsDerivation

/-- A function has attributes, a result and statements of the grammar. -/
def Function.IsDerivation (declared : Function) : Prop :=
  (∀ given ∈ declared.attributes, given.IsDerivation) ∧
    (∀ result ∈ declared.result, result.IsDerivation) ∧
      ∀ statement ∈ declared.body, statement.IsDerivation

/-- A declaration is a variable or a function of the grammar. -/
def Declaration.IsDerivation : Declaration → Prop
  | ofVariable declared => declared.IsDerivation
  | ofFunction declared => declared.IsDerivation

/-- A tree is a derivation of the grammar: all its declarations are. -/
def IsDerivation (tree : Tree) : Prop :=
  ∀ declaration ∈ tree, declaration.IsDerivation

/-! ## Names in their contexts -/

/-- A call that is a statement is not of a name that starts statements of other sorts. -/
def Statement.NamesFit : Statement → Prop
  | call name => name.text ∉ ["return", "_", "var"]
  | _ => True

/-- Behind attributes, the type of a result does not start with a keyword of declarations. -/
def Result.NamesFit (result : Result) : Prop :=
  result.attributes ≠ [] → result.type.name ∉ ["fn", "var"]

/-- The names of a function's result and statements fit. -/
def Function.NamesFit (declared : Function) : Prop :=
  (∀ result ∈ declared.result, result.NamesFit) ∧ ∀ statement ∈ declared.body, statement.NamesFit

/-- The names of a declaration fit; those of variables do anyway. -/
def Declaration.NamesFit : Declaration → Prop
  | ofVariable _ => True
  | ofFunction declared => declared.NamesFit

/-- The names of all declarations fit. -/
def NamesFit (tree : Tree) : Prop :=
  ∀ declaration ∈ tree, declaration.NamesFit

end Tree

/-! ## Tokens within a declaration -/

/-- Whether a token can stand within a declaration or statement without starting another part. -/
def Token.isInner : Token → Bool
  | .at | openBrace | closeBrace | semicolon | keyword _ => false
  | _ => true

namespace Context

/-- Tokens fit a context and lead to another. -/
def Leads (context : Context) (tokens : List Token) (target : Context) : Prop :=
  context.Fits tokens ∧ context.after tokens = target

variable {context middle target : Context} {inBody : Bool}

/-- No token leads nowhere else. -/
theorem leads_nil : context.Leads [] context :=
  ⟨trivial, rfl⟩

/-- A known token leads to the next context, and from there the others lead on. -/
theorem Leads.cons {token : Token} {rest : List Token} (known : context.Knows token)
    (others : (context.next token).Leads rest target) : context.Leads (token :: rest) target :=
  ⟨⟨known, others.1⟩, others.2⟩

/-- Where the first tokens lead, the second tokens lead on. -/
theorem Leads.append {first second : List Token} (front : context.Leads first middle)
    (back : middle.Leads second target) : context.Leads (first ++ second) target := by
  obtain ⟨firstFits, rfl⟩ := front
  obtain ⟨secondFits, rfl⟩ := back
  exact ⟨fits_append.mpr ⟨firstFits, secondFits⟩, after_append ..⟩

/-- Parts that all lead back to their context do so together. -/
theorem Leads.flatMap {α : Type} {items : List α} {yield : α → List Token}
    (back : ∀ item ∈ items, context.Leads (yield item) context) :
    context.Leads (items.flatMap yield) context := by
  induction items with
  | nil => exact leads_nil
  | cons first rest ih =>
    obtain ⟨firstBack, restBack⟩ := List.forall_mem_cons.mp back
    exact firstBack.append (ih restBack)

/-- Within a declaration, inner tokens lead nowhere else. -/
theorem leads_inside {tokens : List Token} (inner : ∀ token ∈ tokens, token.isInner = true) :
    Leads ⟨inBody, .inside⟩ tokens ⟨inBody, .inside⟩ := by
  induction tokens with
  | nil => exact leads_nil
  | cons token rest ih =>
    obtain ⟨isInner, others⟩ := List.forall_mem_cons.mp inner
    cases token with
    | name word => exact .cons ⟨nofun, rfl⟩ (ih others)
    | «at» | openBrace | closeBrace | semicolon | keyword => cases isInner
    | _ => exact .cons trivial (ih others)

/-- Inner tokens up to a semicolon lead from within a declaration to the start of the next. -/
theorem leads_to_semicolon {tokens : List Token} (inner : ∀ token ∈ tokens, token.isInner = true) :
    Leads ⟨inBody, .inside⟩ (tokens ++ [.semicolon]) ⟨inBody, .start⟩ :=
  (leads_inside inner).append (.cons trivial leads_nil)

/-- Within the arguments of an attribute, inner tokens but the closing parenthesis lead nowhere
else. -/
theorem leads_arguments {tokens : List Token}
    (inner : ∀ token ∈ tokens, token.isInner = true ∧ token ≠ .closeParenthesis) :
    Leads ⟨inBody, .attributeArguments⟩ tokens ⟨inBody, .attributeArguments⟩ := by
  induction tokens with
  | nil => exact leads_nil
  | cons token rest ih =>
    obtain ⟨⟨isInner, notClosing⟩, others⟩ := List.forall_mem_cons.mp inner
    cases token with
    | name word => exact .cons ⟨nofun, rfl⟩ (ih others)
    | «at» | openBrace | closeBrace | semicolon | keyword => cases isInner
    | closeParenthesis => contradiction
    | _ => exact .cons trivial (ih others)

/-- Behind the attributes of a declaration its keyword leads within it. A body declares no
functions. -/
theorem Leads.keyword {word : Keyword} {rest : List Token}
    (declares : word = .var ∨ inBody = false ∧ word = .fn)
    (behind : context = ⟨inBody, .start⟩ ∨ context = ⟨inBody, .attributeName⟩ ∨
      context = ⟨inBody, .attributeEnd⟩)
    (others : Leads ⟨inBody, .inside⟩ rest target) :
    context.Leads (.keyword word :: rest) target := by
  have known : context.Knows (.keyword word) := by
    rcases declares with rfl | ⟨rfl, rfl⟩ <;> rcases behind with rfl | rfl | rfl
    · cases inBody <;> simp [Knows, wordRule, WordRule.keywords]
    all_goals simp [Knows, wordRule, WordRule.keywords]
  have within : context.next (.keyword word) = ⟨inBody, .inside⟩ := by
    rcases behind with rfl | rfl | rfl <;> rfl
  exact .cons known (within ▸ others)

end Context

namespace Tree

/-- A list of arguments with commas between them holds inner tokens but no closing parenthesis. -/
theorem inner_separated_arguments (arguments : List Argument) :
    ∀ token ∈ separated (arguments.map fun argument => [argument.token]),
      token.isInner = true ∧ token ≠ .closeParenthesis := by
  have single (argument : Argument) :
      argument.token.isInner = true ∧ argument.token ≠ .closeParenthesis := by
    cases argument <;> exact ⟨rfl, nofun⟩
  induction arguments with
  | nil => nofun
  | cons first rest ih =>
    cases rest with
    | nil => simpa [separated] using single first
    | cons second rest =>
      rw [List.map_cons, List.map_cons, separated, List.forall_mem_append]
      · exact ⟨by simpa using single first, List.forall_mem_cons.mpr ⟨⟨rfl, nofun⟩, ih⟩⟩
      · nofun

mutual

/-- The tokens of a parameter are inner tokens. -/
theorem Parameter.inner_yield : (parameter : Parameter) → ∀ token ∈ parameter.yield,
    token.isInner = true
  | .numeral _ => List.forall_mem_singleton.mpr rfl
  | .type _ parameters => List.forall_mem_cons.mpr ⟨rfl, inner_bracketYield parameters⟩

/-- The tokens of a bracket are inner tokens. -/
theorem inner_bracketYield : (parameters : List Parameter) → ∀ token ∈ bracketYield parameters,
    token.isInner = true
  | [] => nofun
  | first :: rest => by
    rw [bracketYield, List.forall_mem_append, List.forall_mem_append, List.forall_mem_cons]
    exact ⟨⟨⟨rfl, first.inner_yield⟩, inner_restYield rest⟩,
      List.forall_mem_singleton.mpr rfl⟩

/-- The tokens of the parameters behind the first are inner tokens. -/
theorem inner_restYield : (parameters : List Parameter) → ∀ token ∈ restYield parameters,
    token.isInner = true
  | [] => nofun
  | next :: rest => by
    rw [restYield, List.forall_mem_append, List.forall_mem_cons]
    exact ⟨⟨rfl, next.inner_yield⟩, inner_restYield rest⟩

end

/-- The tokens of a type are inner tokens. -/
theorem TypeName.inner_yield (type : TypeName) : ∀ token ∈ type.yield, token.isInner = true :=
  List.forall_mem_cons.mpr ⟨rfl, inner_bracketYield type.parameters⟩

/-! ## Trees in their contexts -/

/-- The tokens of an attribute lead from every context behind an attribute. -/
theorem Attribute.leads_yield (given : Attribute) (context : Context) :
    ∃ behind, context.Leads given.yield behind ∧
      (behind = ⟨context.inBody, .attributeName⟩ ∨ behind = ⟨context.inBody, .attributeEnd⟩) := by
  have front {rest : List Token} {target : Context}
      (others : Context.Leads ⟨context.inBody, .attributeName⟩ rest target) :
      context.Leads (.at :: .name given.name.text :: rest) target :=
    .cons trivial (.cons ⟨nofun, rfl⟩ others)
  rw [Attribute.yield]
  by_cases bare : given.arguments.isEmpty
  · rw [if_pos bare]
    exact ⟨_, front Context.leads_nil, .inl rfl⟩
  · rw [if_neg bare]
    have arguments : Context.Leads ⟨context.inBody, .attributeArguments⟩
        (separated (given.arguments.map fun argument => [argument.token]))
        ⟨context.inBody, .attributeArguments⟩ :=
      Context.leads_arguments (inner_separated_arguments given.arguments)
    have comma : Context.Leads ⟨context.inBody, .attributeArguments⟩
        (if given.trailingComma then [.comma] else []) ⟨context.inBody, .attributeArguments⟩ :=
      Context.leads_arguments (by split <;> simp [Token.isInner])
    exact ⟨_, front (.cons trivial
      ((arguments.append comma).append (.cons trivial Context.leads_nil))), .inr rfl⟩

/-- The tokens of attributes lead behind an attribute, or nowhere else if there are none. -/
theorem leads_attributes (attributes : List Attribute) (context : Context) :
    ∃ behind, context.Leads (attributes.flatMap Attribute.yield) behind ∧
      (attributes = [] ∧ behind = context ∨ attributes ≠ [] ∧
        (behind = ⟨context.inBody, .attributeName⟩ ∨
          behind = ⟨context.inBody, .attributeEnd⟩)) := by
  induction attributes generalizing context with
  | nil => exact ⟨context, Context.leads_nil, .inl ⟨rfl, rfl⟩⟩
  | cons given rest ih =>
    obtain ⟨middle, front, middleEnds⟩ := given.leads_yield context
    obtain ⟨behind, back, ends⟩ := ih middle
    -- An attribute leaves no body and enters none.
    have same : middle.inBody = context.inBody := by
      rcases middleEnds with rfl | rfl <;> rfl
    refine ⟨behind, front.append back, .inr ⟨nofun, ?_⟩⟩
    rcases ends with ⟨-, rfl⟩ | ⟨-, ends⟩
    · exact middleEnds
    · rwa [same] at ends

/-- The tokens of a template are inner tokens. -/
theorem inner_templateYield (template : List String) :
    ∀ token ∈ templateYield template, token.isInner = true := by
  have words : ∀ token ∈ separated (template.map fun word => [Token.name word]),
      token.isInner = true := by
    induction template with
    | nil => nofun
    | cons first rest ih =>
      cases rest with
      | nil => exact List.forall_mem_singleton.mpr rfl
      | cons second rest =>
        exact List.forall_mem_cons.mpr ⟨rfl, List.forall_mem_cons.mpr ⟨rfl, ih⟩⟩
  rw [templateYield]
  split
  · nofun
  · rw [List.forall_mem_append, List.forall_mem_cons]
    exact ⟨⟨rfl, words⟩, List.forall_mem_singleton.mpr rfl⟩

/-- The tokens of a variable lead from the start of a declaration or statement to that of the
next. -/
theorem Variable.leads_yield (declared : Variable) (inBody : Bool) :
    Context.Leads ⟨inBody, .start⟩ declared.yield ⟨inBody, .start⟩ := by
  obtain ⟨behind, attributes, ends⟩ := leads_attributes declared.attributes ⟨inBody, .start⟩
  -- Behind the keyword, the context stays within the declaration up to the semicolon.
  have inner : ∀ token ∈ templateYield declared.template
      ++ .name declared.name.text :: .colon :: declared.type.yield, token.isInner = true := by
    rw [List.forall_mem_append]
    exact ⟨inner_templateYield declared.template, List.forall_mem_cons.mpr ⟨rfl,
      List.forall_mem_cons.mpr ⟨rfl, declared.type.inner_yield⟩⟩⟩
  rw [yield_eq_append]
  exact attributes.append (.keyword (.inl rfl) (ends.imp And.right And.right)
    (Context.leads_to_semicolon inner))

/-- The tokens of an expression are inner tokens. -/
theorem Expression.inner_yield (value : Expression) : ∀ token ∈ value.yield,
    token.isInner = true := by
  cases value <;> simp [Expression.yield, Token.isInner]

/-- The tokens of a statement with fitting names lead from the start of a statement to that of the
next. -/
theorem Statement.leads_yield {statement : Statement} (fits : statement.NamesFit) :
    Context.Leads ⟨true, .start⟩ statement.yield ⟨true, .start⟩ := by
  -- Only the first token depends on where a statement starts; the others are inner tokens.
  cases statement with
  | drop value =>
    have inner : ∀ token ∈ Token.equals :: value.yield, token.isInner = true :=
      List.forall_mem_cons.mpr ⟨rfl, value.inner_yield⟩
    have known : Context.Knows ⟨true, .start⟩ (.keyword .underscore) := by
      simp [Context.Knows, Context.wordRule, WordRule.keywords]
    exact .cons known (Context.leads_to_semicolon inner)
  | call name =>
    have plain : name.text ∉ ["return", "_", "var"] := fits
    have known : Context.Knows ⟨true, .start⟩ (.name name.text) := by
      simp only [List.mem_cons, List.not_mem_nil, or_false, not_or] at plain
      simp [Context.Knows, Context.wordRule, WordRule.token, WordRule.keywords, Keyword.text,
        List.find?, Ne.symm plain.1, Ne.symm plain.2.1, Ne.symm plain.2.2]
    have inner : ∀ token ∈ [Token.openParenthesis, .closeParenthesis], token.isInner = true := by
      simp [Token.isInner]
    exact .cons known (Context.leads_to_semicolon inner)
  | declare declared => exact declared.leads_yield true
  | leave value =>
    have inner : ∀ token ∈ (value.map Expression.yield).getD [], token.isInner = true := by
      cases value with
      | none => exact List.forall_mem_nil _
      | some value => exact value.inner_yield
    have known : Context.Knows ⟨true, .start⟩ (.keyword .returns) := by
      simp [Context.Knows, Context.wordRule, WordRule.keywords]
    exact .cons known (Context.leads_to_semicolon inner)

/-- The tokens of a result with fitting names lead nowhere else within a declaration. -/
theorem Result.leads_yield {result : Result} (fits : result.NamesFit) (inBody : Bool) :
    Context.Leads ⟨inBody, .inside⟩ result.yield ⟨inBody, .inside⟩ := by
  obtain ⟨behind, attributes, ends⟩ := leads_attributes result.attributes ⟨inBody, .inside⟩
  have parameters : Context.Leads ⟨inBody, .inside⟩ (bracketYield result.type.parameters)
      ⟨inBody, .inside⟩ :=
    Context.leads_inside (inner_bracketYield result.type.parameters)
  -- Directly behind attributes, `fn` and `var` would be read as keywords.
  have known : behind.Knows (.name result.type.name) := by
    rcases ends with ⟨-, rfl⟩ | ⟨some, ends⟩
    · exact ⟨nofun, rfl⟩
    · have plain := fits some
      simp only [List.mem_cons, List.not_mem_nil, or_false, not_or] at plain
      rcases ends with rfl | rfl
      all_goals
        simp [Context.Knows, Context.wordRule, WordRule.token, WordRule.keywords, Keyword.text,
          List.find?, Ne.symm plain.1, Ne.symm plain.2]
  have within : behind.next (.name result.type.name) = ⟨inBody, .inside⟩ := by
    rcases ends with ⟨-, rfl⟩ | ⟨-, rfl | rfl⟩ <;> rfl
  exact .cons trivial (attributes.append (.cons known (within ▸ parameters)))

/-- The tokens of a function with fitting names lead from the start of a declaration to that of the
next. -/
theorem Function.leads_yield {declared : Function} (fits : declared.NamesFit) :
    Context.initial.Leads declared.yield .initial := by
  obtain ⟨behind, attributes, ends⟩ := leads_attributes declared.attributes .initial
  have head : Context.Leads ⟨false, .inside⟩
      [.name declared.name.text, .openParenthesis, .closeParenthesis] ⟨false, .inside⟩ :=
    Context.leads_inside (by simp [Token.isInner])
  have result : Context.Leads ⟨false, .inside⟩ ((declared.result.map Result.yield).getD [])
      ⟨false, .inside⟩ := by
    cases given : declared.result with
    | none => exact Context.leads_nil
    | some result => exact Result.leads_yield (fits.1 result given) false
  have body : Context.Leads ⟨true, .start⟩ (declared.body.flatMap Statement.yield)
      ⟨true, .start⟩ :=
    .flatMap fun statement inBody => Statement.leads_yield (fits.2 statement inBody)
  rw [yield_eq_append]
  exact attributes.append (.keyword (.inr ⟨rfl, rfl⟩) (ends.imp And.right And.right)
    ((head.append result).append
      (.cons trivial (body.append (.cons trivial Context.leads_nil)))))

/-- The tokens of a declaration with fitting names lead from the start of one to that of the
next. -/
theorem Declaration.leads_yield {declaration : Declaration} (fits : declaration.NamesFit) :
    Context.initial.Leads declaration.yield .initial := by
  cases declaration with
  | ofVariable declared => exact declared.leads_yield false
  | ofFunction declared => exact Function.leads_yield fits

end Tree

/-- The tokens of a tree with fitting names fit the start of a text. -/
theorem Tree.fits_yield {tree : Tree} (fits : tree.NamesFit) : Context.initial.Fits tree.yield :=
  (Context.Leads.flatMap fun declaration declared =>
    Tree.Declaration.leads_yield (fits declaration declared)).1

end BindingSuite.Wgsl
