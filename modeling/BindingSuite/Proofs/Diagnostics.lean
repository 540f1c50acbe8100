import BindingSuite.Proofs.ModuleRules
import BindingSuite.Proofs.Recognition

/-! # Diagnostics

What the compiler says of a text. It accepts without diagnostics or rejects with a single one, but
has nothing to say where a numeral is too long.

* `HasOversizedNumeral` says that a text is of the grammar and has such a numeral;
* `answer_cases` lists the forms of an answer, and `answer_diagnoses` says which texts get which;
* `answer_of_layout_oversized` finds the first numeral that is too long in a layout. -/

namespace BindingSuite.Wgsl

variable {source : String}

/-! ## Forms of answers -/

/-- A text is of the grammar, and one of its numerals that count as numbers has too many digits. -/
def HasOversizedNumeral (source : String) : Prop :=
  ∃ tree, (scan source.toList).toTree = .ok tree ∧
    ∃ numeral ∈ tree.numerals, numeral.isOversized = true

namespace Module

variable {module : Module}

/-- A module is accepted without diagnostics or rejected with one. -/
theorem answer_cases :
    module.answer = ⟨true, []⟩ ∨ ∃ message, module.answer = ⟨false, [message]⟩ := by
  unfold answer
  split
  · exact .inl rfl
  · exact .inr ⟨_, rfl⟩

/-- A module is accepted without diagnostics exactly when it keeps the rules. -/
theorem answer_eq_accepted_iff : module.answer = ⟨true, []⟩ ↔ module.KeepsRules := by
  rw [← breaches_eq_nil_iff, ← accepted_answer_iff]
  rcases module.answer_cases with accepted | ⟨message, rejected⟩
  · simp [accepted]
  · simp [rejected]

end Module

/-- A text is accepted without diagnostics, rejected with one, or left without an answer. -/
theorem answer_cases :
    answer source = .ok ⟨true, []⟩ ∨ (∃ message, answer source = .ok ⟨false, [message]⟩) ∨
      ∃ numeral, answer source = .error numeral := by
  unfold answer
  split
  · exact .inr (.inl ⟨_, rfl⟩)
  · exact .inr (.inr ⟨_, rfl⟩)
  · rename_i module _
    rcases module.answer_cases with accepted | ⟨message, rejected⟩
    · exact .inl (congrArg _ accepted)
    · exact .inr (.inl ⟨message, congrArg _ rejected⟩)

/-- A text is accepted exactly when it declares a module that keeps the rules. -/
theorem answer_eq_accepted_iff :
    answer source = .ok ⟨true, []⟩ ↔
      ∃ module, Module.ofSource source = .ok module ∧ module.KeepsRules := by
  unfold answer
  split
  · rename_i position read
    simp [read]
  · rename_i numeral read
    simp [read]
  · rename_i module read
    simp only [read, Except.ok.injEq, exists_eq_left', Module.answer_eq_accepted_iff]

/-- An accepted text declares a module that keeps the rules. -/
theorem exists_keepsRules_of_accepted {answer : Answer} (answered : Wgsl.answer source = .ok answer)
    (accepted : answer.accepted = true) :
    ∃ module, Module.ofSource source = .ok module ∧ module.KeepsRules := by
  rcases answer_cases with onlyAccepted | ⟨message, rejected⟩ | ⟨numeral, unanswered⟩
  · exact answer_eq_accepted_iff.mp onlyAccepted
  · obtain rfl : answer = ⟨false, [message]⟩ := Except.ok.inj (answered.symm.trans rejected)
    cases accepted
  · cases answered.symm.trans unanswered

/-! ## Numerals without an answer -/

/-- Reading gives up on the first numeral of a tree that is too long. -/
theorem Module.ofSource_eq_oversized_iff {numeral : Numeral} :
    Module.ofSource source = .error (.oversized numeral) ↔
      ∃ tree, (scan source.toList).toTree = .ok tree ∧
        tree.numerals.find? Numeral.isOversized = some numeral := by
  unfold Module.ofSource
  split
  · rename_i position found
    simp [found]
  · rename_i tree found
    split
    · rename_i first isFirst
      simp [found, isFirst]
    · rename_i none
      simp [found, none]

/-- A text is left without an answer when reading gives up on a numeral in it. -/
theorem answer_eq_error_iff {numeral : Numeral} :
    answer source = .error numeral ↔ Module.ofSource source = .error (.oversized numeral) := by
  unfold answer
  split
  · rename_i position read
    simp [read]
  · rename_i other read
    simp [read]
  · rename_i module read
    simp [read]

/-- A text is left without an answer exactly when a numeral in it is too long. -/
theorem exists_answer_eq_error_iff :
    (∃ numeral, answer source = .error numeral) ↔ HasOversizedNumeral source := by
  simp only [answer_eq_error_iff, Module.ofSource_eq_oversized_iff]
  constructor
  · rintro ⟨numeral, tree, found, first⟩
    exact ⟨tree, found, numeral, List.mem_of_find?_eq_some first, List.find?_some first⟩
  · rintro ⟨tree, found, numeral, member, oversized⟩
    -- There is a first one when there is any.
    obtain ⟨first, isFirst⟩ := Option.isSome_iff_exists.mp
      (List.find?_isSome.mpr ⟨numeral, member, oversized⟩)
    exact ⟨first, tree, found, isFirst⟩

/-! ## All texts -/

/-- What the compiler says of any text. It accepts it, without diagnostics, exactly when it declares
a module that keeps the rules. It has no answer exactly when the text is of the grammar but has a
numeral that is too long. In all other cases it rejects it with exactly one diagnostic. -/
theorem answer_diagnoses (source : String) :
    (answer source = .ok ⟨true, []⟩ ↔
      ∃ module, Module.ofSource source = .ok module ∧ module.KeepsRules) ∧
    ((∃ numeral, answer source = .error numeral) ↔ HasOversizedNumeral source) ∧
    ((∃ message, answer source = .ok ⟨false, [message]⟩) ↔
      ¬HasOversizedNumeral source ∧
        ¬∃ module, Module.ofSource source = .ok module ∧ module.KeepsRules) := by
  refine ⟨answer_eq_accepted_iff, exists_answer_eq_error_iff, ?_⟩
  rw [← answer_eq_accepted_iff, ← exists_answer_eq_error_iff]
  constructor
  · rintro ⟨message, rejected⟩
    simp [rejected]
  · rintro ⟨answered, notAccepted⟩
    rcases answer_cases with accepted | rejected | unanswered
    · exact absurd accepted notAccepted
    · exact rejected
    · exact absurd unanswered answered

/-- In a separated layout of a derivation whose names fit, the compiler gives up on the first numeral
that is too long. -/
theorem answer_of_layout_oversized {layout : Layout} {tree : Tree} (proper : layout.IsProper)
    (separated : Layout.IsSeparated layout) (same : layout.tokens = tree.yield)
    (derives : tree.IsDerivation) (fits : tree.NamesFit) {numeral : Numeral}
    (first : tree.numerals.find? Numeral.isOversized = some numeral) :
    answer (String.ofList layout.text) = .error numeral := by
  obtain ⟨read, toTree, sameTree⟩ :=
    Module.exists_toTree_of_layout proper separated same derives fits
  rw [answer_eq_error_iff, Module.ofSource_eq_oversized_iff]
  refine ⟨read, toTree, ?_⟩
  -- Positions aside the tree that is read is the derivation, so that it has the same numerals.
  rwa [← Tree.numerals_unplaced, sameTree, Tree.numerals_unplaced]

/-- A function that only drops the value of a numeral with too many digits is left without an
answer. -/
theorem answer_of_long_expression {digits : List Char}
    (areDigits : ∀ character ∈ digits, isDigit character = true)
    (long : Text.digitLimit < digits.length) :
    answer (String.ofList ("fn f() \x7b _ = ".toList ++ digits ++ "; \x7d".toList)) =
      .error ⟨.expression, String.ofList digits⟩ := by
  let tree : Tree :=
    [.ofFunction ⟨[], ⟨"f", .start⟩, none, [.drop (.numeral (String.ofList digits))]⟩]
  let layout : Layout :=
    [.token (.keyword .fn), .space ' ', .token (.name "f"), .token .openParenthesis,
      .token .closeParenthesis, .space ' ', .token .openBrace, .space ' ',
      .token (.keyword .underscore), .space ' ', .token .equals, .space ' ',
      .token (.numeral (String.ofList digits)), .token .semicolon, .space ' ', .token .closeBrace]
  have nonempty : digits ≠ [] := List.ne_nil_of_length_pos (Nat.zero_lt_of_lt long)
  have isNumeral : isNumeral digits = true := by
    simpa using isNumeral_append nonempty areDigits (.inl rfl)
  have proper : layout.IsProper := by
    have isName : isName ['f'] = true := by decide
    simp [layout, Piece.IsProper, Token.IsTerminal, isSpace, isName, isNumeral]
  have separated : Layout.IsSeparated layout := by
    simp [layout, Layout.IsSeparated, Piece.MayPrecede, Token.isWordlike]
  have derives : tree.IsDerivation := by
    simp [tree, Tree.IsDerivation, Tree.Declaration.IsDerivation, Tree.Function.IsDerivation,
      Tree.Statement.IsDerivation]
  have fits : tree.NamesFit := by
    simp [tree, Tree.NamesFit, Tree.Declaration.NamesFit, Tree.Function.NamesFit,
      Tree.Statement.NamesFit]
  have oversized : Numeral.isOversized ⟨.expression, String.ofList digits⟩ = true := by
    rw [Numeral.isOversized, numeralDigits, String.toList_ofList,
      List.takeWhile_eq_self_iff.mpr areDigits]
    exact decide_eq_true long
  have first : tree.numerals.find? Numeral.isOversized =
      some ⟨.expression, String.ofList digits⟩ :=
    List.find?_cons_of_pos oversized
  have text : layout.text = "fn f() \x7b _ = ".toList ++ digits ++ "; \x7d".toList := by
    simp [layout, Piece.text, Token.text, Keyword.text]
  rw [← text]
  exact answer_of_layout_oversized proper separated rfl derives fits first

/-- One digit more than a numeral may have, and a text of the grammar is neither accepted nor
rejected. -/
theorem answer_of_long_expression_4301 :
    answer (String.ofList
        ("fn f() \x7b _ = ".toList ++ List.replicate 4301 '1' ++ "; \x7d".toList)) =
      .error ⟨.expression, String.ofList (List.replicate 4301 '1')⟩ := by
  refine answer_of_long_expression (fun character member => ?_) ?_
  · rw [List.eq_of_mem_replicate member]
    decide
  · rw [List.length_replicate]
    decide

end BindingSuite.Wgsl
