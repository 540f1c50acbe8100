import BindingSuite.Proofs.Grammar
import BindingSuite.Proofs.Layout

/-! # Recognition of modules

Reading recognises the language of the grammar.

* `Token.IsPlain` excludes the names that are keywords somewhere and the numerals with too many
  digits;
* `exists_layout_of_ofSource` finds a layout and a derivation behind every module that is read;
* `ofSource_of_layout` reads every separated layout of a derivation whose names fit, and
  `ofSource_recognises` puts both together. -/

namespace BindingSuite.Wgsl

/-- A token means the same wherever it stands: it is no name that is a keyword somewhere, and no
numeral with too many digits to count as a number. -/
def Token.IsPlain : Token → Prop
  | name text => text ∉ ["_", "var", "fn", "return"]
  | numeral text => (numeralDigits text).length ≤ Text.digitLimit
  | _ => True

instance : DecidablePred Token.IsPlain
  | .name text => inferInstanceAs (Decidable (text ∉ ["_", "var", "fn", "return"]))
  | .numeral text => inferInstanceAs (Decidable ((numeralDigits text).length ≤ Text.digitLimit))
  | .at | .openParenthesis | .closeParenthesis | .comma | .colon | .semicolon | .less | .greater
  | .openBrace | .closeBrace | .equals | .arrow | .keyword _ => .isTrue trivial

namespace Tree

/-! ## Names of plain tokens -/

/-- The names of a statement of plain tokens fit. -/
theorem Statement.namesFit_of_plain {statement : Statement}
    (plain : ∀ token ∈ statement.yield, token.IsPlain) : statement.NamesFit := by
  cases statement with
  | call name =>
    have text : name.text ∉ ["_", "var", "fn", "return"] :=
      plain (.name name.text) List.mem_cons_self
    simp only [List.mem_cons, List.not_mem_nil, or_false, not_or] at text
    simp only [NamesFit, List.mem_cons, List.not_mem_nil, or_false, not_or]
    exact ⟨text.2.2.2, text.1, text.2.1⟩
  | _ => trivial

/-- The names of a result of plain tokens fit. -/
theorem Result.namesFit_of_plain {result : Result}
    (plain : ∀ token ∈ result.yield, token.IsPlain) : result.NamesFit := by
  intro _
  have text : result.type.name ∉ ["_", "var", "fn", "return"] :=
    plain (.name result.type.name) (by simp [Result.yield, TypeName.yield])
  simp only [List.mem_cons, List.not_mem_nil, or_false, not_or] at text ⊢
  exact ⟨text.2.2.1, text.2.1⟩

/-- The names of a declaration of plain tokens fit. -/
theorem Declaration.namesFit_of_plain {declaration : Declaration}
    (plain : ∀ token ∈ declaration.yield, token.IsPlain) : declaration.NamesFit := by
  cases declaration with
  | ofVariable declared => trivial
  | ofFunction declared =>
    refine ⟨fun result given => Result.namesFit_of_plain fun token member => plain token ?_,
      fun statement inBody => Statement.namesFit_of_plain fun token member => plain token ?_⟩
    · replace given : declared.result = some result := given
      simp [yield, Function.yield, given, member]
    · have inYield : token ∈ declared.body.flatMap Statement.yield :=
        List.mem_flatMap.mpr ⟨statement, inBody, member⟩
      simp [yield, Function.yield, inYield]

/-- The names of a tree of plain tokens fit. -/
theorem namesFit_of_plain {tree : Tree} (plain : ∀ token ∈ tree.yield, token.IsPlain) :
    tree.NamesFit :=
  fun declaration declared => Declaration.namesFit_of_plain fun token member =>
    plain token (List.mem_flatMap.mpr ⟨declaration, declared, member⟩)

/-! ## Numerals among the tokens -/

/-- The numerals of attributes are among their tokens. -/
theorem numeral_mem_yield_attributes {attributes : List Attribute} {numeral : Numeral}
    (member : numeral ∈ attributes.flatMap Attribute.numerals) :
    .numeral numeral.text ∈ attributes.flatMap Attribute.yield := by
  obtain ⟨given, isGiven, member⟩ := List.mem_flatMap.mp member
  refine List.mem_flatMap.mpr ⟨given, isGiven, ?_⟩
  obtain ⟨argument, isArgument, counts⟩ := List.mem_filterMap.mp member
  have token : argument.token = .numeral numeral.text := by
    cases argument with
    | numeral text => cases counts; rfl
    | word text => cases counts
  obtain ⟨name, _ | ⟨first, others⟩, trailingComma⟩ := given
  · cases isArgument
  · have inYield : argument.token ∈ first.token ::
        others.flatMap fun argument => [.comma, argument.token] := by
      rcases List.mem_cons.mp isArgument with rfl | isOther
      · exact List.mem_cons_self
      · exact List.mem_cons_of_mem _ (List.mem_flatMap.mpr ⟨argument, isOther, by simp⟩)
    rw [Parser.yield_attribute_cons, Parser.argumentsYield, ← token, List.append_assoc]
    exact List.mem_cons_of_mem _ (List.mem_cons_of_mem _ (List.mem_cons_of_mem _
      (List.mem_append_left _ inYield)))

/-- The numerals of a statement are among its tokens. -/
theorem Statement.numeral_mem_yield {statement : Statement} {numeral : Numeral}
    (member : numeral ∈ statement.numerals) : .numeral numeral.text ∈ statement.yield := by
  have expression {value : Expression} (member : numeral ∈ value.numerals) :
      .numeral numeral.text ∈ value.yield := by
    cases value with
    | numeral text =>
      obtain rfl := List.mem_singleton.mp member
      exact List.mem_singleton.mpr rfl
    | _ => cases member
  cases statement with
  | drop value => simp [yield, expression member]
  | call name => cases member
  | declare declared => simp [yield, Variable.yield, numeral_mem_yield_attributes member]
  | leave value =>
    cases value with
    | none => cases member
    | some value => simp [yield, expression member]

/-- The numerals of a tree are among its tokens. -/
theorem numeral_mem_yield {tree : Tree} {numeral : Numeral} (member : numeral ∈ tree.numerals) :
    .numeral numeral.text ∈ tree.yield := by
  obtain ⟨declaration, inTree, member⟩ := List.mem_flatMap.mp member
  refine List.mem_flatMap.mpr ⟨declaration, inTree, ?_⟩
  cases declaration with
  | ofVariable declared =>
    simp [Declaration.yield, Variable.yield, numeral_mem_yield_attributes member]
  | ofFunction declared =>
    rcases List.mem_append.mp member with member | inBody
    · rcases List.mem_append.mp member with inAttributes | inResult
      · simp [Declaration.yield, Function.yield, numeral_mem_yield_attributes inAttributes]
      · cases given : declared.result with
        | none => rw [given] at inResult; cases inResult
        | some result =>
          rw [given] at inResult
          simp [Declaration.yield, Function.yield, given, Result.yield,
            numeral_mem_yield_attributes inResult]
    · obtain ⟨statement, inBody, member⟩ := List.mem_flatMap.mp inBody
      have inYield : .numeral numeral.text ∈ declared.body.flatMap Statement.yield :=
        List.mem_flatMap.mpr ⟨statement, inBody, statement.numeral_mem_yield member⟩
      simp [Declaration.yield, Function.yield, inYield]

end Tree

/-! ## Recognition -/

/-- A tree is found only where the parser finds it and the scan has come to the end. -/
theorem Scan.ofTokens_of_toTree {scan : Scan} {tree : Tree} (found : scan.toTree = .ok tree) :
    Tree.ofTokens scan.tokens = .ok tree ∧ scan.stray = none := by
  unfold toTree at found
  split at found
  · cases found
  · cases found
  · rename_i parsed
    split at found
    · cases found
    · rename_i complete
      cases found
      exact ⟨parsed, complete⟩

namespace Module

/-- A module is read only where a tree is found that stands for it. -/
theorem exists_toTree_of_ofSource {source : String} {module : Module}
    (read : ofSource source = .ok module) :
    ∃ tree, (scan source.toList).toTree = .ok tree ∧ tree.toModule = module := by
  unfold ofSource at read
  split at read
  · cases read
  · rename_i tree found
    split at read
    · cases read
    · cases read
      exact ⟨tree, found, rfl⟩

/-- Behind every tree that is found in a text there is a layout of the text with the tokens of the
tree, which is a derivation. -/
theorem exists_layout_of_toTree {text : List Char} {tree : Tree}
    (found : (scan text).toTree = .ok tree) :
    ∃ layout : Layout, layout.IsProper ∧ layout.text = text ∧ layout.tokens = tree.yield ∧
      tree.IsDerivation := by
  obtain ⟨parsed, complete⟩ := Scan.ofTokens_of_toTree found
  obtain ⟨layout, proper, spelled, tokens⟩ := exists_layout_of_scanFrom complete
  obtain ⟨yields, derives⟩ := Tree.ofTokens_sound parsed
  exact ⟨layout, proper, spelled, tokens.trans yields, derives⟩

/-- Behind every module that is read from a text there is a derivation of which the module is the
meaning and the text a layout. -/
theorem exists_layout_of_ofSource {source : String} {module : Module}
    (read : ofSource source = .ok module) :
    ∃ (layout : Layout) (tree : Tree), layout.IsProper ∧ layout.text = source.toList ∧
      layout.tokens = tree.yield ∧ tree.IsDerivation ∧ tree.toModule = module := by
  obtain ⟨tree, found, meaning⟩ := exists_toTree_of_ofSource read
  obtain ⟨layout, proper, spelled, tokens, derives⟩ := exists_layout_of_toTree found
  exact ⟨layout, tree, proper, spelled, tokens, derives, meaning⟩

/-- In a separated layout of a derivation whose names fit, the derivation is found, positions
aside. -/
theorem exists_toTree_of_layout {layout : Layout} {tree : Tree} (proper : layout.IsProper)
    (separated : Layout.IsSeparated layout) (same : layout.tokens = tree.yield)
    (derives : tree.IsDerivation) (fits : tree.NamesFit) :
    ∃ read, (scan (String.ofList layout.text).toList).toTree = .ok read ∧
      read.unplaced = tree.unplaced := by
  have tokensFit : Context.initial.Fits layout.tokens := same ▸ Tree.fits_yield fits
  obtain ⟨tokens, complete⟩ := scanFrom_text proper separated tokensFit
  obtain ⟨read, found, sameTree⟩ := Tree.ofTokens_complete derives (tokens.trans same)
  refine ⟨read, ?_, sameTree⟩
  rw [String.toList_ofList, Scan.toTree, scan, found, complete]

/-- From a separated layout of a derivation whose names fit and whose numerals are not too long,
the module that the derivation stands for is read, positions aside. -/
theorem ofSource_of_layout {layout : Layout} {tree : Tree} (proper : layout.IsProper)
    (separated : Layout.IsSeparated layout) (same : layout.tokens = tree.yield)
    (derives : tree.IsDerivation) (fits : tree.NamesFit)
    (short : ∀ numeral ∈ tree.numerals, numeral.isOversized = false) :
    ∃ module, ofSource (String.ofList layout.text) = .ok module ∧
      module.unplaced = tree.toModule.unplaced := by
  obtain ⟨read, toTree, sameTree⟩ := exists_toTree_of_layout proper separated same derives fits
  -- The tree that is read has other positions, but the same numerals.
  have none : read.numerals.find? Numeral.isOversized = none := by
    rw [List.find?_eq_none, ← Tree.numerals_unplaced, sameTree, Tree.numerals_unplaced]
    intro numeral member
    rw [short numeral member]
    exact Bool.false_ne_true
  refine ⟨read.toModule, ?_, ?_⟩
  · rw [ofSource, toTree]
    simp only [none]
  · rw [← Tree.toModule_unplaced, sameTree, Tree.toModule_unplaced]

/-- Reading recognises the language of the grammar. A text from which a module is read is a layout
of a derivation that stands for the module. Conversely, from every separated layout of a derivation
with plain tokens, what the derivation stands for is read, positions aside. -/
theorem ofSource_recognises :
    (∀ source module, ofSource source = .ok module →
      ∃ (layout : Layout) (tree : Tree), layout.IsProper ∧ layout.text = source.toList ∧
        layout.tokens = tree.yield ∧ tree.IsDerivation ∧ tree.toModule = module) ∧
    ∀ (layout : Layout) (tree : Tree), layout.IsProper → Layout.IsSeparated layout →
      layout.tokens = tree.yield → tree.IsDerivation → (∀ token ∈ tree.yield, token.IsPlain) →
        ∃ module, ofSource (String.ofList layout.text) = .ok module ∧
          module.unplaced = tree.toModule.unplaced := by
  refine ⟨fun source module read => exists_layout_of_ofSource read,
    fun layout tree proper separated same derives plain => ?_⟩
  refine ofSource_of_layout proper separated same derives (Tree.namesFit_of_plain plain) ?_
  intro numeral member
  exact decide_eq_false (Nat.not_lt.mpr (plain _ (Tree.numeral_mem_yield member)))

/-- The declaration of a buffer is read off a layout with a comma behind the group, a name that
starts like a keyword, and a comment at the end. -/
theorem ofSource_recognises_buffer :
    ∃ module, ofSource "@group(1,)var<storage> fn_ :array<u32,4>; // all" = .ok module ∧
      module.unplaced =
        ⟨[⟨[⟨⟨"group", .start⟩, [.number 1]⟩], ["storage"], ⟨"fn_", .start⟩, "array<u32, 4>"⟩],
          []⟩ := by
  let tree : Tree := [.ofVariable ⟨[⟨⟨"group", .start⟩, [.numeral "1"], true⟩], ["storage"],
    ⟨"fn_", .start⟩, ⟨"array", [.type "u32" [], .numeral "4"]⟩⟩]
  let layout : Layout := [.token .at, .token (.name "group"), .token .openParenthesis,
    .token (.numeral "1"), .token .comma, .token .closeParenthesis, .token (.keyword .var),
    .token .less, .token (.name "storage"), .token .greater, .space ' ', .token (.name "fn_"),
    .space ' ', .token .colon, .token (.name "array"), .token .less, .token (.name "u32"),
    .token .comma, .token (.numeral "4"), .token .greater, .token .semicolon, .space ' ',
    .comment " all".toList]
  have derives : tree.IsDerivation := by
    simp [tree, Tree.IsDerivation, Tree.Declaration.IsDerivation, Tree.Variable.IsDerivation,
      Tree.Attribute.IsDerivation]
  have plain : ∀ token ∈ tree.yield, token.IsPlain := by
    have yields : tree.yield = layout.tokens := rfl
    rw [yields]
    decide
  exact ofSource_recognises.2 layout tree (by decide) (by decide) rfl derives plain

end Module

end BindingSuite.Wgsl
