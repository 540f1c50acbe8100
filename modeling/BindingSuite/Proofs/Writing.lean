import BindingSuite.Proofs.Layout
import BindingSuite.Wgsl.Reading

/-! # Texts written from parts

How layouts are put together when a text is written part by part.

* `Written` says that a text lays tokens out such that anything may follow it, and `WrittenWord`
  that anything but another word may;
* both are closed under putting texts one behind the other, with separators or without;
* `Tree.TypeName.writtenWord` writes types, and `isNumeral_repr` and `numeralValue_repr` are about
  numbers. -/

namespace BindingSuite.Wgsl

/-- Every mark is a terminal. -/
theorem Token.isTerminal_of_isWordlike_eq_false {token : Token} (mark : token.isWordlike = false) :
    token.IsTerminal := by
  cases token <;> trivial

/-- Every piece may stand behind this one. -/
def Piece.isClosed : Piece → Bool
  | space _ => true
  | comment _ => false
  | token given => !given.isWordlike

/-- Every piece may stand behind a closed one. -/
theorem Piece.mayPrecede_of_isClosed {piece : Piece} (closed : piece.isClosed = true)
    (next : Piece) : piece.MayPrecede next := by
  cases piece with
  | space character => trivial
  | comment body => cases closed
  | token given =>
    cases next with
    | token other =>
      rintro ⟨wordlike, -⟩
      simp [isClosed, wordlike] at closed
    | _ => trivial

/-- A text lays tokens out, and any piece may follow it. -/
def Written (text : List Char) (tokens : List Token) : Prop :=
  ∃ layout : Layout, layout.IsProper ∧ Layout.IsSeparated layout ∧
    (∀ piece ∈ layout.getLast?, piece.isClosed = true) ∧
      layout.text = text ∧ layout.tokens = tokens

/-- A text lays tokens out, and any mark and any white space may follow it. -/
def WrittenWord (text : List Char) (tokens : List Token) : Prop :=
  (∀ mark : Token, mark.isWordlike = false →
    Written (text ++ mark.text.toList) (tokens ++ [mark])) ∧
      ∀ character, isSpace character = true → Written (text ++ [character]) tokens

/-! ## Putting texts together -/

section Together

variable {first second : List Char} {firstTokens secondTokens : List Token}

/-- A closed layout writes its tokens. -/
theorem written_of_layout {layout : Layout} (proper : layout.IsProper)
    (separated : Layout.IsSeparated layout)
    (closed : ∀ piece ∈ layout.getLast?, piece.isClosed = true) :
    Written layout.text layout.tokens :=
  ⟨layout, proper, separated, closed, rfl, rfl⟩

/-- Nothing writes no tokens. -/
theorem written_nil : Written [] [] :=
  written_of_layout Layout.isProper_nil .nil nofun

/-- White space writes no tokens. -/
theorem written_space {character : Char} (space : isSpace character = true) :
    Written [character] [] :=
  ⟨[.space character], Layout.isProper_cons.mpr ⟨space, Layout.isProper_nil⟩, .singleton _,
    by simp [Piece.isClosed], rfl, rfl⟩

/-- A text may follow one that anything may follow. -/
theorem Written.append (front : Written first firstTokens) (back : Written second secondTokens) :
    Written (first ++ second) (firstTokens ++ secondTokens) := by
  obtain ⟨frontLayout, frontProper, frontSeparated, frontClosed, rfl, rfl⟩ := front
  obtain ⟨backLayout, backProper, backSeparated, backClosed, rfl, rfl⟩ := back
  refine ⟨frontLayout ++ backLayout, Layout.isProper_append.mpr ⟨frontProper, backProper⟩, ?_, ?_,
    Layout.text_append .., Layout.tokens_append ..⟩
  · refine List.isChain_append.mpr ⟨frontSeparated, backSeparated, fun piece last next _ => ?_⟩
    exact Piece.mayPrecede_of_isClosed (frontClosed piece last) next
  · intro piece last
    rw [List.getLast?_append] at last
    -- The last piece is that of the second layout, unless this one is empty.
    cases final : backLayout.getLast? with
    | none => exact frontClosed piece (by simpa [final] using last)
    | some other =>
      obtain rfl : other = piece := by simpa [final] using last
      exact backClosed other final

/-- A run of white space writes no tokens. -/
theorem written_blank {blank : List Char} (space : ∀ character ∈ blank, isSpace character = true) :
    Written blank [] := by
  induction blank with
  | nil => exact written_nil
  | cons character rest ih =>
    obtain ⟨isSpace, others⟩ := List.forall_mem_cons.mp space
    exact (written_space isSpace).append (ih others)

/-- Where anything may follow, a mark and white space may. -/
theorem Written.word (whole : Written first firstTokens) : WrittenWord first firstTokens := by
  constructor
  · intro mark plain
    have terminal := Token.isTerminal_of_isWordlike_eq_false plain
    exact whole.append ⟨[.token mark], Layout.isProper_cons.mpr ⟨terminal, Layout.isProper_nil⟩,
      .singleton _, by simp [Piece.isClosed, plain], List.append_nil _, rfl⟩
  · intro character space
    simpa using whole.append (written_space space)

/-- A word may follow a text that anything may follow. -/
theorem Written.append_word (front : Written first firstTokens)
    (back : WrittenWord second secondTokens) :
    WrittenWord (first ++ second) (firstTokens ++ secondTokens) := by
  constructor
  · intro mark plain
    rw [List.append_assoc, List.append_assoc]
    exact front.append (back.1 mark plain)
  · intro character space
    rw [List.append_assoc]
    exact front.append (back.2 character space)

/-- A terminal is written as it is spelled. -/
theorem writtenWord_token {token : Token} (terminal : token.IsTerminal) :
    WrittenWord token.text.toList [token] := by
  constructor
  · intro mark plain
    have markTerminal := Token.isTerminal_of_isWordlike_eq_false plain
    refine ⟨[.token token, .token mark], ?_, ?_, by simp [Piece.isClosed, plain], ?_, rfl⟩
    · exact Layout.isProper_cons.mpr ⟨terminal,
        Layout.isProper_cons.mpr ⟨markTerminal, Layout.isProper_nil⟩⟩
    · simp [Layout.IsSeparated, Piece.MayPrecede, plain]
    · simp [Piece.text]
  · intro character space
    refine ⟨[.token token, .space character], ?_, ?_, by simp [Piece.isClosed],
      by simp [Piece.text], rfl⟩
    · exact Layout.isProper_cons.mpr ⟨terminal,
        Layout.isProper_cons.mpr ⟨space, Layout.isProper_nil⟩⟩
    · simp [Layout.IsSeparated, Piece.MayPrecede]

/-- A text that any mark may follow is a layout of its tokens. -/
theorem WrittenWord.exists_layout {text : List Char} {tokens : List Token}
    (written : WrittenWord text tokens) :
    ∃ layout : Layout, layout.IsProper ∧ Layout.IsSeparated layout ∧ layout.text = text ∧
      layout.tokens = tokens := by
  obtain ⟨layout, proper, separated, closed, spelled, yields⟩ := written.1 .semicolon rfl
  -- The last piece is the semicolon, and the pieces before it are those of the text.
  obtain rfl | ⟨front, last, rfl⟩ := List.eq_nil_or_concat' layout
  · simp at yields
  · obtain ⟨frontProper, lastProper⟩ := Layout.isProper_append.mp proper
    rw [Layout.text_append] at spelled
    rw [Layout.tokens_append] at yields
    cases last with
    | space character =>
      obtain ⟨-, same⟩ := List.append_inj' spelled rfl
      obtain rfl : character = ';' := by simpa [Piece.text, Token.text] using same
      exact absurd (Layout.isProper_cons.mp lastProper).1 (by decide)
    | comment body => simp [Piece.isClosed] at closed
    | token mark =>
      obtain ⟨sameTokens, same⟩ := List.append_inj' yields rfl
      obtain rfl : mark = .semicolon := by simpa using same
      obtain ⟨sameText, -⟩ := List.append_inj' spelled rfl
      exact ⟨front, frontProper, separated.left_of_append, sameText, sameTokens⟩

/-- A name is written as it is. -/
theorem writtenWord_name {name : String} (identifier : isName name.toList = true) :
    WrittenWord name.toList [.name name] :=
  show WrittenWord (Token.name name).text.toList _ from writtenWord_token identifier

/-- Texts with white space between them write their tokens one behind the other. -/
theorem written_intercalate (separator : String) {texts : List String} {parts : List (List Token)}
    (blank : ∀ character ∈ separator.toList, isSpace character = true)
    (written : List.Forall₂ (fun text tokens => Written text.toList tokens) texts parts) :
    Written (separator.intercalate texts).toList parts.flatten := by
  induction written with
  | nil => exact written_nil
  | cons head others ih =>
    cases others with
    | nil => simpa using head
    | cons second others =>
      rw [String.intercalate_cons_cons, String.toList_append, String.toList_append,
        List.flatten_cons]
      simpa using (head.append (written_blank blank)).append ih

end Together

/-! ## Types -/

namespace Tree

mutual

/-- A parameter is written as its text. -/
theorem Parameter.writtenWord : (parameter : Parameter) →
    (∀ token ∈ parameter.yield, token.IsTerminal) →
      WrittenWord parameter.text.toList parameter.yield
  | .numeral text, terminals => writtenWord_token (terminals (.numeral text) List.mem_cons_self)
  | .type name parameters, terminals => by
    obtain ⟨terminal, others⟩ := List.forall_mem_cons.mp terminals
    rw [Parameter.text, String.toList_append]
    exact writtenWord_bracket parameters (writtenWord_token terminal) others

/-- Behind a word, a bracket is written as its text. -/
theorem writtenWord_bracket : (parameters : List Parameter) → {text : List Char} →
    {tokens : List Token} → WrittenWord text tokens →
      (∀ token ∈ bracketYield parameters, token.IsTerminal) →
        WrittenWord (text ++ (bracketText parameters).toList) (tokens ++ bracketYield parameters)
  | [], _, _, front, _ => by simpa [bracketText, bracketYield] using front
  | first :: rest, text, tokens, front, terminals => by
    have firstTerminals : ∀ token ∈ first.yield, token.IsTerminal := fun token member =>
      terminals token (by simp [bracketYield, member])
    have restTerminals : ∀ token ∈ restYield rest, token.IsTerminal := fun token member =>
      terminals token (by simp [bracketYield, member])
    have opened := (front.1 .less rfl).append_word (first.writtenWord firstTerminals)
    have whole := (written_rest rest opened restTerminals).word
    simpa [bracketText, bracketYield, Token.text] using whole

/-- Behind a parameter, the other parameters and the closing bracket are written as their text. -/
theorem written_rest : (parameters : List Parameter) → {text : List Char} →
    {tokens : List Token} → WrittenWord text tokens →
      (∀ token ∈ restYield parameters, token.IsTerminal) →
        Written (text ++ (restText parameters).toList ++ ['>'])
          (tokens ++ restYield parameters ++ [.greater])
  | [], _, _, front, _ => by simpa [restText, restYield, Token.text] using front.1 .greater rfl
  | next :: rest, text, tokens, front, terminals => by
    have nextTerminals : ∀ token ∈ next.yield, token.IsTerminal := fun token member =>
      terminals token (by simp [restYield, member])
    have restTerminals : ∀ token ∈ restYield rest, token.IsTerminal := fun token member =>
      terminals token (by simp [restYield, member])
    have blank : Written [' '] [] := written_space rfl
    have comma := (front.1 .comma rfl).append blank
    have whole :=
      written_rest rest (comma.append_word (next.writtenWord nextTerminals)) restTerminals
    simpa [restText, restYield, Token.text] using whole

end

/-- A type is written as its text. -/
theorem TypeName.writtenWord {type : TypeName}
    (terminals : ∀ token ∈ type.yield, token.IsTerminal) :
    WrittenWord type.text.toList type.yield :=
  Parameter.writtenWord (.type type.name type.parameters) terminals

/-- Words and numerals contain no parenthesis. -/
theorem not_mem_of_isTerminal {token : Token} (terminal : token.IsTerminal)
    (wordlike : token.isWordlike = true) : ')' ∉ token.text.toList :=
  fun member => absurd (Token.forall_isWordRest terminal wordlike _ member) (by decide)

mutual

/-- The text of a parameter contains no parenthesis. -/
theorem Parameter.not_mem_text : (parameter : Parameter) →
    (∀ token ∈ parameter.yield, token.IsTerminal) → ')' ∉ parameter.text.toList
  | .numeral text, terminals =>
    not_mem_of_isTerminal (terminals (.numeral text) List.mem_cons_self) rfl
  | .type name parameters, terminals => by
    obtain ⟨terminal, others⟩ := List.forall_mem_cons.mp terminals
    rw [Parameter.text, String.toList_append, List.mem_append, not_or]
    exact ⟨not_mem_of_isTerminal terminal rfl, not_mem_bracketText parameters others⟩

/-- The text of a bracket contains no parenthesis. -/
theorem not_mem_bracketText : (parameters : List Parameter) →
    (∀ token ∈ bracketYield parameters, token.IsTerminal) →
      ')' ∉ (bracketText parameters).toList
  | [], _ => nofun
  | first :: rest, terminals => by
    have inFirst := first.not_mem_text fun token member =>
      terminals token (by simp [bracketYield, member])
    have inRest := not_mem_restText rest fun token member =>
      terminals token (by simp [bracketYield, member])
    simp [bracketText, inFirst, inRest]

/-- The text of the parameters behind the first contains no parenthesis. -/
theorem not_mem_restText : (parameters : List Parameter) →
    (∀ token ∈ restYield parameters, token.IsTerminal) → ')' ∉ (restText parameters).toList
  | [], _ => nofun
  | next :: rest, terminals => by
    have inNext := next.not_mem_text fun token member =>
      terminals token (by simp [restYield, member])
    have inRest := not_mem_restText rest fun token member =>
      terminals token (by simp [restYield, member])
    simp [restText, inNext, inRest]

end

/-- The text of a type contains no parenthesis. -/
theorem TypeName.not_mem_text {type : TypeName}
    (terminals : ∀ token ∈ type.yield, token.IsTerminal) : ')' ∉ type.text.toList :=
  Parameter.not_mem_text (.type type.name type.parameters) terminals

end Tree

/-! ## Numbers -/

/-- The digits of a number are digits. -/
theorem forall_isDigit_repr (value : Nat) :
    ∀ character ∈ value.repr.toList, isDigit character = true := by
  intro character member
  rw [Nat.toList_repr] at member
  have digit := Nat.isDigit_of_mem_toDigits (by decide) (by decide) member
  rw [Char.isDigit_iff_toNat] at digit
  rw [isDigit, Bool.and_eq_true, decide_eq_true_eq, decide_eq_true_eq]
  exact digit

/-- A number is spelled as a numeral. -/
theorem isNumeral_repr (value : Nat) : isNumeral value.repr.toList = true := by
  have nonempty : value.repr.toList ≠ [] := by
    rw [Nat.toList_repr]
    exact Nat.toDigits_ne_nil
  rw [← List.append_nil value.repr.toList]
  exact isNumeral_append nonempty (forall_isDigit_repr value) (.inl rfl)

/-- A number is written as it is spelled. -/
theorem writtenWord_repr (value : Nat) : WrittenWord value.repr.toList [.numeral value.repr] :=
  show WrittenWord (Token.numeral value.repr).text.toList _ from
    writtenWord_token (isNumeral_repr value)

/-- All of the spelling of a number are digits. -/
theorem numeralDigits_repr (value : Nat) : numeralDigits value.repr = value.repr.toList :=
  List.takeWhile_eq_self_iff.mpr (forall_isDigit_repr value)

/-- The numeral that spells a number stands for it. -/
theorem numeralValue_repr (value : Nat) : numeralValue value.repr = value := by
  rw [numeralValue, numeralDigits_repr, Nat.toList_repr, Nat.ofDigitChars_ten_toDigits]

end BindingSuite.Wgsl
