import Mathlib
import BindingSuite.Wgsl.Scan

/-! # Layouts

How tokens can be laid out as a text, and that scanning undoes it.

* `Token.IsTerminal` says which spellings a token of the grammar can have;
* a `Layout` is a list of `Piece`s: tokens, white space and comments. `Layout.text` writes it out
  and `Layout.tokens` forgets all but the tokens;
* `Layout.IsSeparated` keeps words apart and ends every comment with its line;
* `Context.Fits` says of a list of tokens that each word in it is the keyword or name that its
  context makes of it;
* `exists_layout_of_scanFrom` finds a layout behind every text that scans to its end, and
  `tokens_scanFrom_text` scans a separated layout to its tokens. -/

namespace BindingSuite.Wgsl

/-! ## Terminals -/

/-- Whether a text is a name: a character that starts words, then characters of words. -/
def isName : List Char → Bool
  | [] => false
  | first :: rest => isWordStart first && rest.all isWordRest

/-- Whether a text is a numeral: digits, at least one, then at most one suffix. -/
def isNumeral (text : List Char) : Bool :=
  let suffix := text.dropWhile isDigit
  !(text.takeWhile isDigit).isEmpty && (suffix = [] || suffix = ['i'] || suffix = ['u'])

namespace Token

/-- A token is spelled like a terminal of the grammar. -/
def IsTerminal : Token → Prop
  | name text => isName text.toList = true
  | numeral text => isNumeral text.toList = true
  | _ => True

instance : DecidablePred IsTerminal
  | name text => inferInstanceAs (Decidable (isName text.toList = true))
  | numeral text => inferInstanceAs (Decidable (isNumeral text.toList = true))
  | .at | openParenthesis | closeParenthesis | comma | colon | semicolon | less | greater
  | openBrace | closeBrace | equals | arrow | keyword _ => .isTrue trivial

/-- Whether a token is a word or a numeral, of which two must not touch. -/
def isWordlike : Token → Bool
  | keyword _ | name _ | numeral _ => true
  | _ => false

end Token

/-! ## Pieces -/

/-- A piece of a source text. -/
inductive Piece where
  /-- A character of white space. -/
  | space (character : Char)
  /-- A comment, from behind its two strokes to before the end of its line. -/
  | comment (body : List Char)
  /-- A token. -/
  | token (given : Token)
  deriving DecidableEq

namespace Piece

/-- The characters of a piece. -/
def text : Piece → List Char
  | space character => [character]
  | comment body => '/' :: '/' :: body
  | token given => given.text.toList

/-- The token that a piece is, if it is one. -/
def token? : Piece → Option Token
  | token given => some given
  | _ => none

/-- A piece is what it claims to be. -/
def IsProper : Piece → Prop
  | space character => isSpace character = true
  | comment body => '\n' ∉ body
  | token given => given.IsTerminal

instance : DecidablePred IsProper
  | space character => inferInstanceAs (Decidable (isSpace character = true))
  | comment body => inferInstanceAs (Decidable ('\n' ∉ body))
  | token given => inferInstanceAs (Decidable given.IsTerminal)

/-- One piece may stand directly before another: a comment only before the end of its line, and a
word or numeral not before another one. -/
def MayPrecede : Piece → Piece → Prop
  | comment _, next => next = space '\n'
  | token first, token second => ¬(first.isWordlike = true ∧ second.isWordlike = true)
  | _, _ => True

instance : DecidableRel MayPrecede
  | comment _, next => inferInstanceAs (Decidable (next = space '\n'))
  | token first, token second =>
    inferInstanceAs (Decidable ¬(first.isWordlike = true ∧ second.isWordlike = true))
  | space _, _ | token _, space _ | token _, comment _ => .isTrue trivial

/-- The end of a line may stand behind every piece. -/
theorem mayPrecede_newline (piece : Piece) : piece.MayPrecede (.space '\n') := by
  cases piece with
  | comment body => rfl
  | _ => trivial

end Piece

/-- A source text, piece by piece. -/
abbrev Layout := List Piece

namespace Layout

/-- The characters of a layout. -/
def text (layout : Layout) : List Char :=
  layout.flatMap Piece.text

/-- The tokens of a layout. -/
def tokens (layout : Layout) : List Token :=
  layout.filterMap Piece.token?

/-- Every piece is what it claims to be. -/
def IsProper (layout : Layout) : Prop :=
  ∀ piece ∈ layout, piece.IsProper

instance (layout : Layout) : Decidable layout.IsProper :=
  inferInstanceAs (Decidable (∀ piece ∈ layout, piece.IsProper))

/-- Every piece may stand before the next one. -/
def IsSeparated (layout : Layout) : Prop :=
  layout.IsChain Piece.MayPrecede

instance (layout : Layout) : Decidable (IsSeparated layout) :=
  inferInstanceAs (Decidable (layout.IsChain Piece.MayPrecede))

@[simp] theorem text_nil : text [] = [] := rfl

@[simp] theorem text_cons (piece : Piece) (layout : Layout) :
    text (piece :: layout) = piece.text ++ layout.text := rfl

@[simp] theorem text_append (first second : Layout) :
    text (first ++ second) = first.text ++ second.text := List.flatMap_append

@[simp] theorem tokens_nil : tokens [] = [] := rfl

@[simp] theorem tokens_space (character : Char) (layout : Layout) :
    tokens (.space character :: layout) = layout.tokens := rfl

@[simp] theorem tokens_comment (body : List Char) (layout : Layout) :
    tokens (.comment body :: layout) = layout.tokens := rfl

@[simp] theorem tokens_token (token : Token) (layout : Layout) :
    tokens (.token token :: layout) = token :: layout.tokens := rfl

@[simp] theorem tokens_append (first second : Layout) :
    tokens (first ++ second) = first.tokens ++ second.tokens := List.filterMap_append

@[simp] theorem isProper_nil : IsProper [] := nofun

@[simp] theorem isProper_cons {piece : Piece} {layout : Layout} :
    IsProper (piece :: layout) ↔ piece.IsProper ∧ layout.IsProper := List.forall_mem_cons

@[simp] theorem isProper_append {first second : Layout} :
    IsProper (first ++ second) ↔ first.IsProper ∧ second.IsProper := List.forall_mem_append

/-- The tokens of a layout are spelled like terminals. -/
theorem isTerminal_of_mem_tokens {layout : Layout} (proper : layout.IsProper) :
    ∀ token ∈ layout.tokens, token.IsTerminal := by
  intro token member
  obtain ⟨piece, inLayout, isToken⟩ := List.mem_filterMap.mp member
  cases piece with
  | token given =>
    cases isToken
    exact proper _ inLayout
  | _ => cases isToken

end Layout

/-! ## Contexts -/

namespace Context

/-- A word is the keyword or the name that its context makes of it. Other tokens are the same in
every context. -/
def Knows (context : Context) : Token → Prop
  | .keyword word =>
    word ∈ context.wordRule.keywords ∨ context.wordRule = .declaration ∧ (word = .fn ∨ word = .var)
  | .name word => context.wordRule ≠ .declaration ∧ context.wordRule.token word = .name word
  | _ => True

/-- Tokens fit a context: each word is what the context behind the tokens before it makes of it. -/
def Fits (context : Context) : List Token → Prop
  | [] => True
  | token :: rest => context.Knows token ∧ (context.next token).Fits rest

/-- The context after some tokens. -/
def after (context : Context) (tokens : List Token) : Context :=
  tokens.foldl next context

@[simp] theorem fits_nil (context : Context) : context.Fits [] := trivial

@[simp] theorem fits_cons {context : Context} {token : Token} {rest : List Token} :
    context.Fits (token :: rest) ↔ context.Knows token ∧ (context.next token).Fits rest := Iff.rfl

@[simp] theorem after_nil (context : Context) : context.after [] = context := rfl

@[simp] theorem after_cons (context : Context) (token : Token) (rest : List Token) :
    context.after (token :: rest) = (context.next token).after rest := rfl

@[simp] theorem after_append (context : Context) (first second : List Token) :
    context.after (first ++ second) = (context.after first).after second := List.foldl_append

/-- A list fits when its first part does and its second part does behind that. -/
@[simp] theorem fits_append {context : Context} {first second : List Token} :
    context.Fits (first ++ second) ↔ context.Fits first ∧ (context.after first).Fits second := by
  induction first generalizing context with
  | nil => simp
  | cons token rest ih => simp [ih, and_assoc]

end Context

/-! ## Characters -/

/-- White space is not part of a word. -/
theorem isWordRest_eq_false_of_isSpace {character : Char} (space : isSpace character = true) :
    isWordRest character = false := by
  simp only [isSpace, Bool.or_eq_true, decide_eq_true_eq] at space
  rcases space with (((rfl | rfl) | rfl) | rfl) | rfl <;> decide

/-- A character of a word is no punctuation. -/
theorem punctuation?_eq_none {character : Char} (inWord : isWordRest character = true) :
    punctuation? character = none := by
  unfold punctuation?
  split <;> first | rfl | exact absurd inWord (by decide)

/-- The longest run of a class is found behind which a character of another class stands. -/
theorem takeWhile_append_of_boundary {class? : Char → Bool} {run rest : List Char}
    (inside : ∀ character ∈ run, class? character = true)
    (boundary : ∀ character ∈ rest.head?, class? character = false) :
    (run ++ rest).takeWhile class? = run := by
  rw [List.takeWhile_append_of_pos inside]
  cases rest with
  | nil => simp
  | cons character rest => simp [boundary character rfl]

/-- What stands behind the longest run of a class is left. -/
theorem dropWhile_append_of_boundary {class? : Char → Bool} {run rest : List Char}
    (inside : ∀ character ∈ run, class? character = true)
    (boundary : ∀ character ∈ rest.head?, class? character = false) :
    (run ++ rest).dropWhile class? = rest := by
  rw [List.dropWhile_append_of_pos inside]
  cases rest with
  | nil => simp
  | cons character rest => simp [boundary character rfl]

/-! ## Reading back one token -/

/-- The characters of a name are characters of words. -/
theorem forall_isWordRest_of_isName {text : List Char} (name : isName text = true) :
    ∀ character ∈ text, isWordRest character = true := by
  cases text with
  | nil => nofun
  | cons first rest =>
    rw [isName, Bool.and_eq_true, List.all_eq_true] at name
    rw [List.forall_mem_cons]
    exact ⟨by simp [isWordRest, name.1], name.2⟩

/-- A numeral is a run of digits with at most one suffix. -/
theorem exists_digits_of_isNumeral {text : List Char} (numeral : isNumeral text = true) :
    ∃ digits suffix, text = digits ++ suffix ∧ digits ≠ [] ∧
      (∀ character ∈ digits, isDigit character = true) ∧
        (suffix = [] ∨ suffix = ['i'] ∨ suffix = ['u']) := by
  simp only [isNumeral, Bool.and_eq_true, Bool.or_eq_true, decide_eq_true_eq, Bool.not_eq_true',
    List.isEmpty_eq_false_iff, or_assoc] at numeral
  exact ⟨text.takeWhile isDigit, text.dropWhile isDigit, List.takeWhile_append_dropWhile.symm,
    numeral.1, fun character member => List.all_eq_true.mp List.all_takeWhile character member,
    numeral.2⟩

/-- Digits with at most one suffix are a numeral. -/
theorem isNumeral_append {digits suffix : List Char} (nonempty : digits ≠ [])
    (inside : ∀ character ∈ digits, isDigit character = true)
    (suffixed : suffix = [] ∨ suffix = ['i'] ∨ suffix = ['u']) :
    isNumeral (digits ++ suffix) = true := by
  have boundary : ∀ character ∈ suffix.head?, isDigit character = false := by
    rcases suffixed with rfl | rfl | rfl <;> simp <;> decide
  simp only [isNumeral, takeWhile_append_of_boundary inside boundary,
    dropWhile_append_of_boundary inside boundary]
  rcases suffixed with rfl | rfl | rfl <;> simp [nonempty]

/-- The characters of a numeral are characters of words. -/
theorem forall_isWordRest_of_isNumeral {text : List Char} (numeral : isNumeral text = true) :
    ∀ character ∈ text, isWordRest character = true := by
  obtain ⟨digits, suffix, rfl, -, inside, suffixed⟩ := exists_digits_of_isNumeral numeral
  rw [List.forall_mem_append]
  refine ⟨fun character member => by simp [isWordRest, inside character member], ?_⟩
  rcases suffixed with rfl | rfl | rfl <;> simp <;> decide

namespace Token

/-- The characters of words and numerals are characters of words. -/
theorem forall_isWordRest {token : Token} (terminal : token.IsTerminal)
    (wordlike : token.isWordlike = true) :
    ∀ character ∈ token.text.toList, isWordRest character = true := by
  cases token with
  | keyword word => cases word <;> exact List.all_eq_true.mp rfl
  | name text => exact forall_isWordRest_of_isName terminal
  | numeral text => exact forall_isWordRest_of_isNumeral terminal
  | _ => cases wordlike

/-- No token is empty. -/
theorem text_ne_nil {token : Token} (terminal : token.IsTerminal) : token.text.toList ≠ [] := by
  cases token with
  | keyword word => cases word <;> decide
  | name text =>
    rintro (empty : text.toList = [])
    rw [IsTerminal, empty] at terminal
    cases terminal
  | numeral text =>
    rintro (empty : text.toList = [])
    rw [IsTerminal, empty] at terminal
    cases terminal
  | _ => decide

/-- A token starts with a character that is no white space and starts no comment; that character is
in words only if the token is a word or a numeral. -/
theorem exists_first {token : Token} (terminal : token.IsTerminal) :
    ∃ first rest, token.text.toList = first :: rest ∧ isSpace first = false ∧ first ≠ '/' ∧
      (token.isWordlike = false → isWordRest first = false) := by
  cases wordlike : token.isWordlike with
  | true =>
    obtain ⟨first, rest, spelled⟩ := List.exists_cons_of_ne_nil (text_ne_nil terminal)
    have inWord := forall_isWordRest terminal wordlike first (by simp [spelled])
    refine ⟨first, rest, spelled, ?_, ?_, nofun⟩
    · refine Bool.eq_false_iff.mpr fun space => ?_
      rw [isWordRest_eq_false_of_isSpace space] at inWord
      cases inWord
    · rintro rfl
      exact absurd inWord (by decide)
  | false =>
    cases token with
    | keyword | name | numeral => cases wordlike
    | _ => exact ⟨_, _, rfl, by decide, by decide, fun _ => by decide⟩

end Token

/-- Where no word is taken from the front of a longer one, words are read whole. -/
theorem readWord_eq_readWholeWord {rule : WordRule} (whole : rule ≠ .declaration)
    (text : List Char) : readWord rule text = readWholeWord rule text := by
  unfold readWord
  split <;> first | rfl | contradiction

/-- A rule makes a keyword of the spelling of each that it knows. -/
theorem WordRule.token_text_of_mem {rule : WordRule} {word : Keyword}
    (known : word ∈ rule.keywords) : rule.token word.text = .keyword word := by
  revert known
  cases rule <;> cases word <;> decide

/-- The longest word at the front of a text is read whole. -/
theorem readWholeWord_append {rule : WordRule} {word rest : List Char}
    (inside : ∀ character ∈ word, isWordRest character = true)
    (boundary : ∀ character ∈ rest.head?, isWordRest character = false) :
    readWholeWord rule (word ++ rest) = (rule.token (String.ofList word), rest) := by
  rw [readWholeWord, takeWhile_append_of_boundary inside boundary,
    dropWhile_append_of_boundary inside boundary]

/-- A numeral is read back where no character of a word follows. -/
theorem readNumeral_append {numeral rest : List Char} (isNumeral : isNumeral numeral = true)
    (boundary : ∀ character ∈ rest.head?, isWordRest character = false) :
    readNumeral (numeral ++ rest) = (.numeral (String.ofList numeral), rest) := by
  obtain ⟨digits, suffix, rfl, -, inside, suffixed⟩ := exists_digits_of_isNumeral isNumeral
  -- The digits end at the suffix, or at what follows the numeral, which is no part of a word.
  have noDigit : ∀ character ∈ (suffix ++ rest).head?, isDigit character = false := by
    rcases suffixed with rfl | rfl | rfl
    · intro character first
      have apart := boundary character first
      rw [isWordRest, Bool.or_eq_false_iff] at apart
      exact apart.2
    · simp only [List.singleton_append, List.head?_cons, Option.mem_some_iff, forall_eq']
      decide
    · simp only [List.singleton_append, List.head?_cons, Option.mem_some_iff, forall_eq']
      decide
  rw [readNumeral, List.append_assoc, takeWhile_append_of_boundary inside noDigit,
    dropWhile_append_of_boundary inside noDigit]
  rcases suffixed with rfl | rfl | rfl
  · cases rest with
    | nil => simp
    | cons character rest =>
      have noSuffix : isNumeralSuffix character = false := by
        refine Bool.eq_false_iff.mpr fun suffix => ?_
        simp only [isNumeralSuffix, Bool.or_eq_true, decide_eq_true_eq] at suffix
        rcases suffix with rfl | rfl <;> exact absurd (boundary _ rfl) (by decide)
      simp [noSuffix]
  · rfl
  · rfl

/-- No digit starts a word. -/
theorem isDigit_eq_false_of_isWordStart {character : Char}
    (isStart : isWordStart character = true) : isDigit character = false := by
  refine Bool.eq_false_iff.mpr fun digit => ?_
  simp only [isDigit, Bool.and_eq_true, decide_eq_true_eq] at digit
  simp only [isWordStart, Bool.or_eq_true, Bool.and_eq_true, decide_eq_true_eq] at isStart
  rcases isStart with (⟨lower, -⟩ | ⟨upper, -⟩) | rfl
  · exact absurd (Char.le_trans lower digit.2) (by decide)
  · exact absurd (Char.le_trans upper digit.2) (by decide)
  · exact absurd digit.2 (by decide)

/-- A text that starts like a word is read as a word. -/
theorem readToken_eq_readWord {rule : WordRule} {character : Char} {rest : List Char}
    (isStart : isWordStart character = true) :
    readToken rule (character :: rest) = some (readWord rule (character :: rest)) := by
  have inWord : isWordRest character = true := by simp [isWordRest, isStart]
  have noDigit : isDigit character = false := isDigit_eq_false_of_isWordStart isStart
  unfold readToken
  split
  · contradiction
  · rename_i same
    cases same
    exact absurd isStart (by decide)
  · rename_i same
    cases same
    rw [punctuation?_eq_none inWord]
    simp [isStart, noDigit]

/-- A text that starts with a digit is read as a numeral. -/
theorem readToken_eq_readNumeral {rule : WordRule} {character : Char} {rest : List Char}
    (digit : isDigit character = true) :
    readToken rule (character :: rest) = some (readNumeral (character :: rest)) := by
  have inWord : isWordRest character = true := by simp [isWordRest, digit]
  unfold readToken
  split
  · contradiction
  · rename_i same
    cases same
    exact absurd digit (by decide)
  · rename_i same
    cases same
    rw [punctuation?_eq_none inWord]
    simp [digit]

/-- A token is read back where its context knows it and no longer word or numeral stands. -/
theorem readToken_append {context : Context} {token : Token} {rest : List Char}
    (terminal : token.IsTerminal) (known : context.Knows token)
    (boundary : token.isWordlike = true →
      ∀ character ∈ rest.head?, isWordRest character = false) :
    readToken context.wordRule (token.text.toList ++ rest) = some (token, rest) := by
  cases token with
  | keyword word =>
    have isStart : ∃ first others, word.text.toList = first :: others ∧
        isWordStart first = true := by
      cases word <;> exact ⟨_, _, rfl, by decide⟩
    obtain ⟨first, others, spelled, isStart⟩ := isStart
    have read : readWholeWord context.wordRule (word.text.toList ++ rest) =
        (context.wordRule.token (String.ofList word.text.toList), rest) :=
      readWholeWord_append (Token.forall_isWordRest terminal rfl) (boundary rfl)
    rw [String.ofList_toList] at read
    rw [Token.text, spelled, List.cons_append, readToken_eq_readWord isStart, ← List.cons_append,
      ← spelled]
    -- Either the rule knows the keyword as a whole word, or it takes `fn` and `var` off the front
    -- of any longer word.
    rcases known with known | ⟨declaration, rfl | rfl⟩
    · have whole : context.wordRule ≠ .declaration := by
        intro declaration
        rw [declaration] at known
        cases known
      rw [readWord_eq_readWholeWord whole, read, WordRule.token_text_of_mem known]
    · rw [declaration]
      rfl
    · rw [declaration]
      rfl
  | name text =>
    obtain ⟨whole, isName⟩ := known
    obtain ⟨first, others, spelled⟩ : ∃ first others, text.toList = first :: others :=
      List.exists_cons_of_ne_nil (Token.text_ne_nil terminal)
    have isStart : isWordStart first = true := by
      rw [Token.IsTerminal, spelled, Wgsl.isName, Bool.and_eq_true] at terminal
      exact terminal.1
    have read : readWholeWord context.wordRule (text.toList ++ rest) =
        (context.wordRule.token (String.ofList text.toList), rest) :=
      readWholeWord_append (Token.forall_isWordRest terminal rfl) (boundary rfl)
    rw [String.ofList_toList] at read
    rw [Token.text, spelled, List.cons_append, readToken_eq_readWord isStart, ← List.cons_append,
      ← spelled, readWord_eq_readWholeWord whole, read, isName]
  | numeral text =>
    obtain ⟨first, others, spelled⟩ : ∃ first others, text.toList = first :: others :=
      List.exists_cons_of_ne_nil (Token.text_ne_nil terminal)
    have digit : isDigit first = true := by
      obtain ⟨digits, suffix, split, nonempty, inside, -⟩ := exists_digits_of_isNumeral terminal
      obtain ⟨digit, digits, rfl⟩ := List.exists_cons_of_ne_nil nonempty
      rw [spelled, List.cons_append, List.cons.injEq] at split
      rw [split.1]
      exact inside digit List.mem_cons_self
    rw [Token.text, spelled, List.cons_append, readToken_eq_readNumeral digit, ← List.cons_append,
      ← spelled, readNumeral_append terminal (boundary rfl), String.ofList_toList]
  | _ => rfl

/-! ## Scanning layouts -/

section Scanning

variable {context : Context} {position : Position}

/-- Scanning drops white space. -/
theorem scanFrom_space {character : Char} (space : isSpace character = true) (rest : List Char) :
    scanFrom context position (character :: rest) =
      scanFrom context (position.advance character) rest := by
  rw [scanFrom.eq_def]
  split
  · contradiction
  · rename_i same
    cases same
    exact absurd space (by decide)
  · rename_i same
    cases same
    rw [if_pos space]

/-- Scanning drops a comment up to the end of its line. -/
theorem scanFrom_comment (rest : List Char) :
    scanFrom context position ('/' :: '/' :: rest) =
      scanFrom context (position.advanceOver ('/' :: '/' :: rest.takeWhile (· ≠ '\n')))
        (rest.dropWhile (· ≠ '\n')) := by
  rw [scanFrom.eq_def]
  rfl

/-- Scanning takes the token at the front of a text. -/
theorem scanFrom_token {first : Char} {others rest : List Char} {token : Token}
    (noSpace : isSpace first = false) (noStroke : first ≠ '/')
    (read : readToken context.wordRule (first :: others) = some (token, rest)) :
    scanFrom context position (first :: others) =
      { tokens := ⟨token, position⟩ ::
          (scanFrom (context.next token) (position.advanceOver token.text.toList) rest).tokens
        stray := (scanFrom (context.next token) (position.advanceOver token.text.toList)
          rest).stray } := by
  rw [scanFrom.eq_def]
  split
  · contradiction
  · rename_i same
    cases same
    contradiction
  · rename_i same
    cases same
    rw [if_neg (by simp [noSpace])]
    split
    · rename_i other left again
      rw [read, Option.some_inj, Prod.mk.injEq] at again
      rw [again.1, again.2]
    · rename_i again
      rw [read] at again
      cases again

/-- What follows a word or numeral in a separated layout is no part of a word. -/
theorem isWordRest_eq_false_of_follows {token : Token} {layout : Layout}
    (wordlike : token.isWordlike = true)
    (separated : Layout.IsSeparated (.token token :: layout)) (proper : layout.IsProper) :
    ∀ character ∈ layout.text.head?, isWordRest character = false := by
  cases layout with
  | nil => simp
  | cons next layout =>
    have apart := (List.isChain_cons_cons.mp separated).1
    obtain ⟨isProper, -⟩ := Layout.isProper_cons.mp proper
    cases next with
    | space character => simpa [Piece.text] using isWordRest_eq_false_of_isSpace isProper
    | comment body =>
      simp only [Layout.text_cons, Piece.text, List.cons_append, List.head?_cons,
        Option.mem_some_iff, forall_eq']
      decide
    | token other =>
      obtain ⟨first, rest, spelled, -, -, outside⟩ := Token.exists_first isProper
      have noWord : other.isWordlike = false :=
        Bool.eq_false_iff.mpr fun both => apart ⟨wordlike, both⟩
      simpa [Piece.text, spelled] using outside noWord

/-- Scanning a separated layout whose tokens fit the context gives these tokens, to the end of the
text. -/
theorem scanFrom_text {layout : Layout} (proper : layout.IsProper)
    (separated : layout.IsSeparated) (fits : context.Fits layout.tokens) :
    (scanFrom context position layout.text).tokens.map LocatedToken.token = layout.tokens ∧
      (scanFrom context position layout.text).stray = none := by
  induction layout generalizing context position with
  | nil => rw [Layout.text_nil, scanFrom.eq_def]; exact ⟨rfl, rfl⟩
  | cons piece layout ih =>
    obtain ⟨isProper, rest⟩ := Layout.isProper_cons.mp proper
    have separatedRest : Layout.IsSeparated layout := separated.tail
    cases piece with
    | space character =>
      rw [Layout.text_cons, Piece.text, List.singleton_append, scanFrom_space isProper]
      exact ih rest separatedRest fits
    | comment body =>
      have inside : ∀ character ∈ body, decide (character ≠ '\n') = true := by
        intro character member
        exact decide_eq_true fun same => isProper (same ▸ member)
      -- Behind the comment stands the end of its line or of the text.
      have boundary : ∀ character ∈ (Layout.text layout).head?,
          decide (character ≠ '\n') = false := by
        cases layout with
        | nil => simp
        | cons next layout =>
          obtain rfl : next = .space '\n' := (List.isChain_cons_cons.mp separated).1
          simp [Piece.text]
      rw [Layout.text_cons, Piece.text, List.cons_append, List.cons_append, scanFrom_comment,
        takeWhile_append_of_boundary inside boundary, dropWhile_append_of_boundary inside boundary]
      exact ih rest separatedRest fits
    | token token =>
      obtain ⟨first, others, spelled, noSpace, noStroke, -⟩ := Token.exists_first isProper
      have boundary (wordlike : token.isWordlike = true) :=
        isWordRest_eq_false_of_follows wordlike separated rest
      have read := readToken_append isProper fits.1 boundary
      rw [spelled, List.cons_append] at read
      rw [Layout.text_cons, Piece.text, spelled, List.cons_append,
        scanFrom_token noSpace noStroke read]
      obtain ⟨tokens, stray⟩ := ih rest separatedRest fits.2
      exact ⟨by rw [List.map_cons, tokens, Layout.tokens_token], stray⟩

end Scanning

/-! ## Layouts of scanned texts -/

/-- A word that is read whole is a keyword or a name. -/
theorem isTerminal_readWholeWord {rule : WordRule} {first : Char} {rest : List Char}
    (isStart : isWordStart first = true) :
    (readWholeWord rule (first :: rest)).1.IsTerminal := by
  have inWord : isWordRest first = true := by simp [isWordRest, isStart]
  have name : isName ((first :: rest).takeWhile isWordRest) = true := by
    rw [List.takeWhile_cons, if_pos inWord, isName, isStart, Bool.true_and]
    exact List.all_takeWhile
  rw [readWholeWord, WordRule.token]
  split
  · trivial
  · rwa [Token.IsTerminal, String.toList_ofList]

/-- A word that is read is a keyword or a name. -/
theorem isTerminal_readWord {rule : WordRule} {first : Char} {rest : List Char}
    (isStart : isWordStart first = true) : (readWord rule (first :: rest)).1.IsTerminal := by
  unfold readWord
  split
  · trivial
  · trivial
  · exact isTerminal_readWholeWord isStart

/-- A numeral that is read is one. -/
theorem isTerminal_readNumeral {first : Char} {rest : List Char} (digit : isDigit first = true) :
    (readNumeral (first :: rest)).1.IsTerminal := by
  have nonempty : (first :: rest).takeWhile isDigit ≠ [] := by
    rw [List.takeWhile_cons, if_pos digit]
    nofun
  have inside : ∀ character ∈ (first :: rest).takeWhile isDigit, isDigit character = true :=
    fun character member => List.all_eq_true.mp List.all_takeWhile character member
  have plain : isNumeral ((first :: rest).takeWhile isDigit ++ []) = true :=
    isNumeral_append nonempty inside (.inl rfl)
  rw [List.append_nil] at plain
  unfold readNumeral
  split
  · split
    · rename_i suffix _ _ isSuffix
      rw [Token.IsTerminal, String.toList_ofList]
      refine isNumeral_append nonempty inside (.inr ?_)
      simpa [isNumeralSuffix] using isSuffix
    · rwa [Token.IsTerminal, String.toList_ofList]
  · rwa [Token.IsTerminal, String.toList_ofList]

/-- A token that is read is a terminal. -/
theorem isTerminal_of_readToken {rule : WordRule} {text rest : List Char} {token : Token}
    (read : readToken rule text = some (token, rest)) : token.IsTerminal := by
  -- The cases are those of the reader: nothing, an arrow, punctuation, a numeral and a word.
  unfold readToken at read
  split at read
  · cases read
  · cases read
    trivial
  · rename_i first others _
    split at read
    · rename_i found
      cases read
      unfold punctuation? at found
      split at found <;> cases found <;> trivial
    · split at read
      · rename_i digit
        have terminal : (readNumeral (first :: others)).1.IsTerminal :=
          isTerminal_readNumeral digit
        rwa [Option.some.inj read] at terminal
      · split at read
        · rename_i isStart
          have terminal : (readWord rule (first :: others)).1.IsTerminal :=
            isTerminal_readWord isStart
          rwa [Option.some.inj read] at terminal
        · cases read

/-- A text that scans to its end is laid out in the tokens that the scan finds. -/
theorem exists_layout_of_scanFrom {context : Context} {position : Position} {text : List Char}
    (complete : (scanFrom context position text).stray = none) :
    ∃ layout : Layout, layout.IsProper ∧ layout.text = text ∧
      layout.tokens = (scanFrom context position text).tokens.map LocatedToken.token := by
  fun_induction scanFrom context position text with
  | case1 => exact ⟨[], Layout.isProper_nil, rfl, rfl⟩
  | case2 context position rest comment ih =>
    obtain ⟨layout, proper, spelled, tokens⟩ := ih complete
    refine ⟨.comment comment :: layout, Layout.isProper_cons.mpr ⟨?_, proper⟩, ?_, tokens⟩
    · -- The body of the comment was taken up to the end of the line.
      intro member
      have inside := List.all_eq_true.mp List.all_takeWhile _ member
      simp at inside
    · rw [Layout.text_cons, spelled, Piece.text, List.cons_append, List.cons_append,
        List.takeWhile_append_dropWhile]
  | case3 context position character rest _ space ih =>
    obtain ⟨layout, proper, spelled, tokens⟩ := ih complete
    exact ⟨.space character :: layout, Layout.isProper_cons.mpr ⟨space, proper⟩,
      by rw [Layout.text_cons, spelled]; rfl, tokens⟩
  | case4 context position character rest _ noSpace token remaining read scan ih =>
    obtain ⟨layout, proper, spelled, tokens⟩ := ih complete
    refine ⟨.token token :: layout,
      Layout.isProper_cons.mpr ⟨isTerminal_of_readToken read, proper⟩, ?_, ?_⟩
    · rw [Layout.text_cons, spelled]
      exact text_readToken read
    · rw [Layout.tokens_token, tokens]
      rfl
  | case5 => cases complete

end BindingSuite.Wgsl
