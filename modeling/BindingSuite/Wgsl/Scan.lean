import BindingSuite.Wgsl.Token

/-! # Scanning

How a source text divides into tokens. White space and comments separate tokens and are dropped.

Which words are keywords depends on where they stand. `Context` is what has to be remembered of the
tokens so far, and `Context.wordRule` is the rule for the next word:

* where a declaration may start, `fn` and `var` are taken even from the front of a longer word;
* where a statement may start, the whole words `return`, `_` and `var` are keywords;
* behind an attribute the whole words `fn` and `var` are;
* everywhere else no word is.

Main definitions:

* `readToken` reads one token;
* `scan` divides a text into a `Scan`: its tokens, and the character that starts no token, if
  there is one. -/

namespace BindingSuite.Wgsl

/-! ## Characters -/

/-- Characters between tokens. -/
def isSpace (character : Char) : Bool :=
  character = ' ' || character = '\t' || character = '\x0c' || character = '\r' || character = '\n'

/-- Decimal digits. -/
def isDigit (character : Char) : Bool :=
  '0' ≤ character && character ≤ '9'

/-- Characters that start a word. -/
def isWordStart (character : Char) : Bool :=
  ('a' ≤ character && character ≤ 'z') || ('A' ≤ character && character ≤ 'Z') || character = '_'

/-- Characters inside a word. -/
def isWordRest (character : Char) : Bool :=
  isWordStart character || isDigit character

/-! ## Context -/

/-- What the latest tokens were. -/
inductive Phase where
  /-- Nothing yet of the next declaration or statement. -/
  | start
  /-- The sign of an attribute. -/
  | attributeSign
  /-- The name of an attribute. -/
  | attributeName
  /-- Part of an attribute's arguments. -/
  | attributeArguments
  /-- The end of an attribute's arguments. -/
  | attributeEnd
  /-- Anything else within a declaration or statement. -/
  | inside
  deriving DecidableEq

/-- What the tokens so far say about the next word. -/
structure Context where
  /-- Whether a function's body is open. -/
  inBody : Bool
  /-- What the latest tokens were. -/
  phase : Phase
  deriving DecidableEq

/-- How words are told from keywords. -/
inductive WordRule where
  /-- At the start of a declaration. -/
  | declaration
  /-- At the start of a statement. -/
  | statement
  /-- Behind an attribute. -/
  | behindAttribute
  /-- Elsewhere. -/
  | plain
  deriving DecidableEq

namespace Context

/-- The context at the start of a text. -/
def initial : Context := ⟨false, .start⟩

/-- The context after one more token. -/
def next (context : Context) : Token → Context
  | .at => ⟨context.inBody, .attributeSign⟩
  | .openBrace => ⟨true, .start⟩
  | .closeBrace => ⟨false, .start⟩
  | .semicolon => ⟨context.inBody, .start⟩
  | token =>
    match context.phase, token with
    | .attributeSign, .name _ => ⟨context.inBody, .attributeName⟩
    | .attributeName, .openParenthesis => ⟨context.inBody, .attributeArguments⟩
    | .attributeArguments, .closeParenthesis => ⟨context.inBody, .attributeEnd⟩
    | .attributeArguments, _ => ⟨context.inBody, .attributeArguments⟩
    | _, _ => ⟨context.inBody, .inside⟩

/-- The rule for a word in a context. -/
def wordRule (context : Context) : WordRule :=
  match context.phase with
  | .start => if context.inBody then .statement else .declaration
  | .attributeName | .attributeEnd => .behindAttribute
  | _ => .plain

end Context

/-! ## Words -/

/-- The keywords that a rule knows as whole words. -/
def WordRule.keywords : WordRule → List Keyword
  | declaration => []
  | statement => [.returns, .underscore, .var]
  | behindAttribute => [.fn, .var]
  | plain => []

/-- The token that a whole word is under a rule. -/
def WordRule.token (rule : WordRule) (word : String) : Token :=
  match rule.keywords.find? fun keyword => keyword.text = word with
  | some keyword => .keyword keyword
  | none => .name word

/-- A word is spelled as a token the way it was read. -/
@[simp] theorem WordRule.text_token (rule : WordRule) (word : String) :
    (rule.token word).text = word := by
  unfold WordRule.token
  split
  · rename_i keyword found
    simpa [Token.text] using List.find?_some found
  · rfl

/-- Reads the longest word. -/
def readWholeWord (rule : WordRule) (text : List Char) : Token × List Char :=
  (rule.token (String.ofList (text.takeWhile isWordRest)), text.dropWhile isWordRest)

/-- Reads a word, of which only the front counts where a declaration starts. -/
def readWord (rule : WordRule) (text : List Char) : Token × List Char :=
  match rule, text with
  | .declaration, 'f' :: 'n' :: rest => (.keyword .fn, rest)
  | .declaration, 'v' :: 'a' :: 'r' :: rest => (.keyword .var, rest)
  | rule, text => readWholeWord rule text

/-! ## Tokens -/

/-- The characters that suffix a numeral. -/
def isNumeralSuffix (character : Char) : Bool :=
  character = 'i' || character = 'u'

/-- Reads digits and at most one suffix. -/
def readNumeral (text : List Char) : Token × List Char :=
  let digits := text.takeWhile isDigit
  match text.dropWhile isDigit with
  | character :: rest =>
    if isNumeralSuffix character then (.numeral (String.ofList (digits ++ [character])), rest)
    else (.numeral (String.ofList digits), character :: rest)
  | [] => (.numeral (String.ofList digits), [])

/-- The token that a single character is. -/
def punctuation? : Char → Option Token
  | '@' => some .at
  | '(' => some .openParenthesis
  | ')' => some .closeParenthesis
  | ',' => some .comma
  | ':' => some .colon
  | ';' => some .semicolon
  | '<' => some .less
  | '>' => some .greater
  | '\x7b' => some .openBrace
  | '\x7d' => some .closeBrace
  | '=' => some .equals
  | _ => none

/-- Reads the token at the front of a text, if one starts there. -/
def readToken (rule : WordRule) : List Char → Option (Token × List Char)
  | [] => none
  | '-' :: '>' :: rest => some (.arrow, rest)
  | character :: rest =>
    match punctuation? character with
    | some token => some (token, rest)
    | none =>
      if isDigit character then some (readNumeral (character :: rest))
      else if isWordStart character then some (readWord rule (character :: rest))
      else none

/-- What is read of a word and what is left of it make up the text. -/
theorem text_readWord (rule : WordRule) (text : List Char) :
    (readWord rule text).1.text.toList ++ (readWord rule text).2 = text := by
  unfold readWord
  split
  · simp [Token.text, Keyword.text]
  · simp [Token.text, Keyword.text]
  · simp [readWholeWord]

/-- What is read of a numeral and what is left of it make up the text. -/
theorem text_readNumeral (text : List Char) :
    (readNumeral text).1.text.toList ++ (readNumeral text).2 = text := by
  have parts := List.takeWhile_append_dropWhile (p := isDigit) (l := text)
  unfold readNumeral
  split
  · rename_i character rest remaining
    rw [remaining] at parts
    split <;> simpa [Token.text] using parts
  · rename_i remaining
    rw [remaining] at parts
    simpa [Token.text] using parts

/-- A punctuation mark is spelled by its character. -/
theorem text_of_punctuation? {character : Char} {token : Token}
    (found : punctuation? character = some token) : token.text.toList = [character] := by
  unfold punctuation? at found
  split at found <;> cases found <;> rfl

/-- A token that is read and what is left make up the text. -/
theorem text_readToken {rule : WordRule} {text rest : List Char} {token : Token}
    (read : readToken rule text = some (token, rest)) : token.text.toList ++ rest = text := by
  unfold readToken at read
  split at read
  · cases read
  · cases read
    rfl
  · rename_i character remaining _
    split at read
    · rename_i found
      cases read
      simp [text_of_punctuation? found]
    · split at read
      · have parts := text_readNumeral (character :: remaining)
        rwa [Option.some.inj read] at parts
      · split at read
        · have parts := text_readWord rule (character :: remaining)
          rwa [Option.some.inj read] at parts
        · cases read

/-- A whole word takes at least its first character from a text. -/
theorem length_readWholeWord_lt (rule : WordRule) {character : Char} {rest : List Char}
    (isStart : isWordStart character = true) :
    (readWholeWord rule (character :: rest)).2.length < (character :: rest).length := by
  have isRest : isWordRest character = true := by simp [isWordRest, isStart]
  simp only [readWholeWord, List.dropWhile_cons, isRest, if_true, List.length_cons]
  exact Nat.lt_succ_of_le (List.dropWhile_sublist _).length_le

/-- A word takes at least its first character from a text. -/
theorem length_readWord_lt (rule : WordRule) {character : Char} (rest : List Char)
    (isStart : isWordStart character = true) :
    (readWord rule (character :: rest)).2.length < (character :: rest).length := by
  unfold readWord
  split
  · rename_i same
    simp only [same, List.length_cons]
    omega
  · rename_i same
    simp only [same, List.length_cons]
    omega
  · exact length_readWholeWord_lt _ isStart

/-- A numeral takes at least its first digit from a text. -/
theorem length_readNumeral_lt {character : Char} (rest : List Char)
    (digit : isDigit character = true) :
    (readNumeral (character :: rest)).2.length < (character :: rest).length := by
  have dropped : (rest.dropWhile isDigit).length ≤ rest.length :=
    (List.dropWhile_sublist _).length_le
  simp only [readNumeral, List.dropWhile_cons, digit, if_true, List.length_cons]
  split
  · rename_i remaining
    rw [remaining, List.length_cons] at dropped
    split <;> simp only [List.length_cons] <;> omega
  · simp

/-- Reading a token leaves less of the text. -/
theorem length_lt_of_readToken {rule : WordRule} {text rest : List Char} {token : Token}
    (read : readToken rule text = some (token, rest)) : rest.length < text.length := by
  unfold readToken at read
  split at read
  · cases read
  · cases read
    simp only [List.length_cons]
    omega
  · rename_i character remaining _
    split at read
    · cases read
      simp
    · split at read
      · have shorter := length_readNumeral_lt remaining (by assumption)
        rwa [Option.some.inj read] at shorter
      · split at read
        · have shorter := length_readWord_lt rule remaining (by assumption)
          rwa [Option.some.inj read] at shorter
        · cases read

/-! ## Texts -/

/-- A text divided into tokens. -/
structure Scan where
  /-- The tokens. -/
  tokens : List LocatedToken
  /-- The position of the first character that starts no token; scanning stops there. -/
  stray : Option Position := none
  deriving DecidableEq

/-- Scans the text that remains at a position, in a context. -/
def scanFrom (context : Context) (position : Position) (text : List Char) : Scan :=
  match text with
  | [] => { tokens := [] }
  | '/' :: '/' :: rest =>
    let comment := rest.takeWhile (· ≠ '\n')
    scanFrom context (position.advanceOver ('/' :: '/' :: comment)) (rest.dropWhile (· ≠ '\n'))
  | character :: rest =>
    if isSpace character then scanFrom context (position.advance character) rest
    else
      match _ : readToken context.wordRule (character :: rest) with
      | some (token, remaining) =>
        let scan := scanFrom (context.next token)
          (position.advanceOver token.text.toList) remaining
        { scan with tokens := ⟨token, position⟩ :: scan.tokens }
      | none => { tokens := [], stray := some position }
termination_by text.length
decreasing_by
  · have shorter : (rest.dropWhile (· ≠ '\n')).length ≤ rest.length :=
      (List.dropWhile_sublist _).length_le
    simp only [List.length_cons]
    omega
  · simp
  · exact length_lt_of_readToken (by assumption)

/-- Scans a whole text. -/
def scan (text : List Char) : Scan :=
  scanFrom .initial .start text

end BindingSuite.Wgsl
