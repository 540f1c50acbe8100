import Mathlib
import BindingSuite.Wgsl.Parser

/-! # Parsers and symbols

What it means that a parser takes exactly the derivations of a symbol of a grammar.

* `Parser.Reads` is a run of a parser; `Parser.Ensures` says that the outcome, if there is one, has
  a property, and `Parser.Gives` that there is one and has it;
* `Symbol` collects what matters of the derivations of a symbol: what they yield and what they are
  without positions;
* `Parser.Sound` says that what a parser takes is a derivation of the tokens that it took, and
  `Parser.Complete` that it takes every derivation off its tokens, whatever follows that cannot
  continue it;
* `Sound.many` and `Complete.many` carry both over to repetitions. -/

namespace BindingSuite.Wgsl

namespace Parser

/-! ## Runs of parsers -/

/-- Tokens without their positions. -/
def kinds (tokens : List LocatedToken) : List Token :=
  tokens.map LocatedToken.token

@[simp] theorem kinds_nil : kinds [] = [] := rfl

@[simp] theorem kinds_cons (next : LocatedToken) (rest : List LocatedToken) :
    kinds (next :: rest) = next.token :: kinds rest := rfl

@[simp] theorem length_kinds (tokens : List LocatedToken) : (kinds tokens).length = tokens.length :=
  List.length_map ..

/-- A parser takes an item from the front of the tokens and leaves the rest. -/
def Reads {α : Type} (parser : Parser α) (tokens : List LocatedToken) (item : α)
    (rest : List LocatedToken) : Prop :=
  parser.run tokens = .ok (item, rest)

/-- Whatever a parser takes and leaves has a property. -/
def Ensures {α : Type} (parser : Parser α) (tokens : List LocatedToken)
    (holds : α → List LocatedToken → Prop) : Prop :=
  ∀ ⦃item rest⦄, parser.Reads tokens item rest → holds item rest

/-- A parser takes an item from the front of the tokens, and what it takes and leaves has a
property. -/
def Gives {α : Type} (parser : Parser α) (tokens : List LocatedToken)
    (holds : α → List LocatedToken → Prop) : Prop :=
  ∃ item rest, parser.Reads tokens item rest ∧ holds item rest

section Runs

variable {α β : Type} {tokens rest : List LocatedToken}

/-- A parser that takes nothing gives its item. -/
theorem reads_pure {given item : α} :
    (pure given : Parser α).Reads tokens item rest ↔ given = item ∧ tokens = rest := by
  simp [Reads, pure, StateT.pure, StateT.run, Except.pure]

/-- The item of a parser that takes nothing is read where it stands. -/
theorem reads_pure_self {item : α} : (pure item : Parser α).Reads tokens item tokens :=
  rfl

/-- Two parsers in turn take their items in turn. -/
theorem reads_bind {first : Parser α} {second : α → Parser β} {item : β} :
    (first >>= second).Reads tokens item rest ↔
      ∃ given middle, first.Reads tokens given middle ∧ (second given).Reads middle item rest := by
  simp only [Reads, StateT.run_bind]
  constructor
  · intro read
    cases taken : first.run tokens with
    | error unexpected => rw [taken] at read; cases read
    | ok outcome => exact ⟨outcome.1, outcome.2, rfl, by rwa [taken] at read⟩
  · rintro ⟨given, middle, taken, read⟩
    rw [taken]
    exact read

/-- The tokens that remain are there to be read. -/
theorem reads_get {item : List LocatedToken} :
    (get : Parser (List LocatedToken)).Reads tokens item rest ↔ item = tokens ∧ rest = tokens := by
  simp [Reads, get, getThe, MonadStateOf.get, StateT.get, StateT.run, pure, Except.pure, eq_comm]

/-- A parser that fails takes nothing. -/
theorem not_reads_fail {item : α} : ¬(fail : Parser α).Reads tokens item rest := by
  cases tokens <;> simp [Reads, fail, StateT.run]

/-- Looking ahead takes nothing. -/
theorem reads_peek {item : Option Token} :
    peek.Reads tokens item rest ↔ item = (kinds tokens).head? ∧ rest = tokens := by
  simp [Reads, peek, StateT.run, kinds, eq_comm]

/-- A given token is taken from the front. -/
theorem reads_expect {token : Token} {item : Unit} :
    (expect token).Reads tokens item rest ↔ ∃ position, tokens = ⟨token, position⟩ :: rest := by
  cases tokens with
  | nil => simp [Reads, expect, StateT.run]
  | cons next others =>
    obtain ⟨kind, position⟩ := next
    by_cases same : kind = token
    · simp [Reads, expect, StateT.run, same]
    · simp [Reads, expect, StateT.run, same]

/-- A token is taken if it is there. -/
theorem reads_accept {token : Token} {taken : Bool} :
    (accept token).Reads tokens taken rest ↔
      (taken = true ∧ ∃ position, tokens = ⟨token, position⟩ :: rest) ∨
        (taken = false ∧ rest = tokens ∧ (kinds tokens).head? ≠ some token) := by
  simp only [accept, reads_bind, reads_peek]
  constructor
  · rintro ⟨next, middle, ⟨rfl, rfl⟩, read⟩
    split at read
    · obtain ⟨given, others, took, rfl, rfl⟩ := by simpa only [reads_bind, reads_pure] using read
      exact .inl ⟨rfl, Iff.mp reads_expect took⟩
    · rename_i other
      rw [reads_pure] at read
      obtain ⟨rfl, rfl⟩ := read
      exact .inr ⟨rfl, rfl, other⟩
  · rintro (⟨rfl, position, rfl⟩ | ⟨rfl, rfl, other⟩)
    · refine ⟨_, _, ⟨rfl, rfl⟩, ?_⟩
      rw [kinds_cons, List.head?_cons, if_pos rfl]
      exact Iff.mpr reads_bind ⟨(), rest, Iff.mpr reads_expect ⟨position, rfl⟩, reads_pure_self⟩
    · refine ⟨_, _, ⟨rfl, rfl⟩, ?_⟩
      rw [if_neg other]
      exact reads_pure_self

/-- A word is taken from the front, with its position. -/
theorem reads_word {item : Word} :
    word.Reads tokens item rest ↔ tokens = ⟨.name item.text, item.position⟩ :: rest := by
  cases tokens with
  | nil => simp [Reads, word, StateT.run]
  | cons next others =>
    obtain ⟨kind, position⟩ := next
    obtain ⟨text, place⟩ := item
    cases kind <;> simp [Reads, word, StateT.run, and_assoc]

/-- An argument is taken from the front. -/
theorem reads_argument {item : Tree.Argument} :
    argument.Reads tokens item rest ↔ ∃ position, tokens = ⟨item.token, position⟩ :: rest := by
  cases tokens with
  | nil => simp [Reads, argument, StateT.run]
  | cons next others =>
    obtain ⟨kind, position⟩ := next
    cases item <;> cases kind <;>
      simp [Reads, argument, StateT.run, Tree.Argument.token]

end Runs

/-! ## What runs ensure -/

section Ensures

variable {α β : Type} {tokens : List LocatedToken}

/-- A parser that takes nothing ensures what holds of its item. -/
theorem ensures_pure {given : α} {holds : α → List LocatedToken → Prop}
    (holding : holds given tokens) : (pure given : Parser α).Ensures tokens holds := by
  intro item rest reads
  rw [reads_pure] at reads
  obtain ⟨rfl, rfl⟩ := reads
  exact holding

/-- Two parsers in turn ensure what the second ensures behind the first. -/
theorem Ensures.bind {first : Parser α} {second : α → Parser β}
    {holds : β → List LocatedToken → Prop}
    (ensured : first.Ensures tokens fun item middle => (second item).Ensures middle holds) :
    (first >>= second).Ensures tokens holds := by
  intro item rest reads
  rw [reads_bind] at reads
  obtain ⟨given, middle, front, back⟩ := reads
  exact ensured front back

/-- A parser that fails ensures everything. -/
theorem ensures_fail {holds : α → List LocatedToken → Prop} :
    (fail : Parser α).Ensures tokens holds :=
  fun _ _ reads => absurd reads not_reads_fail

/-- Looking ahead ensures what holds of the next token. -/
theorem ensures_peek {holds : Option Token → List LocatedToken → Prop}
    (holding : holds (kinds tokens).head? tokens) : peek.Ensures tokens holds := by
  intro item rest reads
  rw [reads_peek] at reads
  obtain ⟨rfl, rfl⟩ := reads
  exact holding

/-- Asking for the remaining tokens ensures what holds of them. -/
theorem ensures_get {holds : List LocatedToken → List LocatedToken → Prop}
    (holding : holds tokens tokens) : (get : Parser (List LocatedToken)).Ensures tokens holds := by
  intro item rest reads
  rw [reads_get] at reads
  obtain ⟨rfl, rfl⟩ := reads
  exact holding

/-- Expecting a token ensures what holds behind it. -/
theorem ensures_expect {token : Token} {holds : Unit → List LocatedToken → Prop}
    (holding : ∀ position rest, tokens = ⟨token, position⟩ :: rest → holds () rest) :
    (expect token).Ensures tokens holds := by
  intro item rest reads
  rw [reads_expect] at reads
  obtain ⟨position, same⟩ := reads
  exact holding position rest same

/-- Accepting a token ensures what holds behind it and, if it is not there, in front. -/
theorem ensures_accept {token : Token} {holds : Bool → List LocatedToken → Prop}
    (taken : ∀ position rest, tokens = ⟨token, position⟩ :: rest → holds true rest)
    (absent : (kinds tokens).head? ≠ some token → holds false tokens) :
    (accept token).Ensures tokens holds := by
  intro item rest reads
  rw [reads_accept] at reads
  obtain ⟨rfl, position, same⟩ | ⟨rfl, rfl, other⟩ := reads
  · exact taken position rest same
  · exact absent other

/-- Taking a word ensures what holds behind it. -/
theorem ensures_word {holds : Word → List LocatedToken → Prop}
    (holding : ∀ (item : Word) rest, tokens = ⟨.name item.text, item.position⟩ :: rest →
      holds item rest) : word.Ensures tokens holds :=
  fun item rest reads => holding item rest (Iff.mp reads_word reads)

/-- Taking an argument ensures what holds behind it. -/
theorem ensures_argument {holds : Tree.Argument → List LocatedToken → Prop}
    (holding : ∀ (item : Tree.Argument) position rest, tokens = ⟨item.token, position⟩ :: rest →
      holds item rest) : argument.Ensures tokens holds := by
  intro item rest reads
  rw [reads_argument] at reads
  obtain ⟨position, same⟩ := reads
  exact holding item position rest same

end Ensures

/-! ## What runs give -/

section Gives

variable {α β : Type} {tokens : List LocatedToken}

/-- What a parser gives has every property that follows. -/
theorem Gives.imp {parser : Parser α} {holds holds' : α → List LocatedToken → Prop}
    (given : parser.Gives tokens holds)
    (follows : ∀ item rest, holds item rest → holds' item rest) :
    parser.Gives tokens holds' := by
  obtain ⟨item, rest, reads, holding⟩ := given
  exact ⟨item, rest, reads, follows item rest holding⟩

/-- A parser that takes nothing gives its item. -/
theorem gives_pure {given : α} {holds : α → List LocatedToken → Prop}
    (holding : holds given tokens) :
    (pure given : Parser α).Gives tokens holds :=
  ⟨given, tokens, reads_pure_self, holding⟩

/-- Two parsers in turn give what the second gives behind the first. -/
theorem Gives.bind {first : Parser α} {second : α → Parser β}
    {holds : β → List LocatedToken → Prop}
    (given : first.Gives tokens fun item middle => (second item).Gives middle holds) :
    (first >>= second).Gives tokens holds := by
  obtain ⟨item, middle, front, last, rest, back, holding⟩ := given
  exact ⟨last, rest, Iff.mpr reads_bind ⟨item, middle, front, back⟩, holding⟩

/-- Looking ahead gives the next token. -/
theorem gives_peek {holds : Option Token → List LocatedToken → Prop}
    (holding : holds (kinds tokens).head? tokens) : peek.Gives tokens holds :=
  ⟨_, _, Iff.mpr reads_peek ⟨rfl, rfl⟩, holding⟩

/-- The tokens that remain are there to be read. -/
theorem gives_get {holds : List LocatedToken → List LocatedToken → Prop}
    (holding : holds tokens tokens) : (get : Parser (List LocatedToken)).Gives tokens holds :=
  ⟨_, _, Iff.mpr reads_get ⟨rfl, rfl⟩, holding⟩

/-- The first of some tokens has a position. -/
theorem exists_of_kinds_eq_cons {token : Token} {after : List Token}
    (same : kinds tokens = token :: after) :
    ∃ position rest, tokens = ⟨token, position⟩ :: rest ∧ kinds rest = after := by
  obtain ⟨next, rest, rfl, rfl, rfl⟩ := List.map_eq_cons_iff.mp same
  exact ⟨next.position, rest, rfl, rfl⟩

/-- A given token in front is taken. -/
theorem gives_expect {token : Token} {after : List Token}
    {holds : Unit → List LocatedToken → Prop} (same : kinds tokens = token :: after)
    (holding : ∀ rest, kinds rest = after → holds () rest) :
    (expect token).Gives tokens holds := by
  obtain ⟨position, rest, rfl, others⟩ := exists_of_kinds_eq_cons same
  exact ⟨(), rest, Iff.mpr reads_expect ⟨position, rfl⟩, holding rest others⟩

/-- A token that is there is taken. -/
theorem gives_accept {token : Token} {after : List Token}
    {holds : Bool → List LocatedToken → Prop} (same : kinds tokens = token :: after)
    (holding : ∀ rest, kinds rest = after → holds true rest) :
    (accept token).Gives tokens holds := by
  obtain ⟨position, rest, rfl, others⟩ := exists_of_kinds_eq_cons same
  exact ⟨true, rest, Iff.mpr reads_accept (.inl ⟨rfl, position, rfl⟩), holding rest others⟩

/-- A token that is not there is not taken. -/
theorem gives_accept_false {token : Token} {holds : Bool → List LocatedToken → Prop}
    (other : (kinds tokens).head? ≠ some token) (holding : holds false tokens) :
    (accept token).Gives tokens holds :=
  ⟨false, tokens, Iff.mpr reads_accept (.inr ⟨rfl, rfl, other⟩), holding⟩

/-- A word in front is taken. -/
theorem gives_word {text : String} {after : List Token} {holds : Word → List LocatedToken → Prop}
    (same : kinds tokens = .name text :: after)
    (holding : ∀ position rest, kinds rest = after → holds ⟨text, position⟩ rest) :
    word.Gives tokens holds := by
  obtain ⟨position, rest, rfl, others⟩ := exists_of_kinds_eq_cons same
  exact ⟨⟨text, position⟩, rest, Iff.mpr reads_word rfl, holding position rest others⟩

/-- An argument in front is taken. -/
theorem gives_argument {item : Tree.Argument} {after : List Token}
    {holds : Tree.Argument → List LocatedToken → Prop} (same : kinds tokens = item.token :: after)
    (holding : ∀ rest, kinds rest = after → holds item rest) : argument.Gives tokens holds := by
  obtain ⟨position, rest, rfl, others⟩ := exists_of_kinds_eq_cons same
  exact ⟨item, rest, Iff.mpr reads_argument ⟨position, rfl⟩, holding rest others⟩

end Gives

end Parser

/-! ## Symbols of the grammar -/

/-- What matters of the derivations of a symbol of the grammar. -/
structure Symbol (α : Type) where
  /-- The tokens that a derivation yields. -/
  yield : α → List Token
  /-- Which trees are derivations. -/
  IsDerivation : α → Prop
  /-- A derivation without its positions. -/
  unplaced : α → α

namespace Symbol

variable {α : Type}

/-- The symbol for any number of derivations of a symbol. -/
def many (symbol : Symbol α) : Symbol (List α) where
  yield items := items.flatMap symbol.yield
  IsDerivation items := ∀ item ∈ items, symbol.IsDerivation item
  unplaced items := items.map symbol.unplaced

theorem yield_many_cons (symbol : Symbol α) (first : α) (rest : List α) :
    symbol.many.yield (first :: rest) = symbol.yield first ++ symbol.many.yield rest := rfl

theorem unplaced_many_cons (symbol : Symbol α) (first : α) (rest : List α) :
    symbol.many.unplaced (first :: rest) =
      symbol.unplaced first :: symbol.many.unplaced rest := rfl

/-- Derivations that yield something are no more than the tokens that they yield. -/
theorem length_le_length_yield_many {symbol : Symbol α} {items : List α}
    (nonempty : ∀ item ∈ items, symbol.yield item ≠ []) :
    items.length ≤ (symbol.many.yield items).length := by
  induction items with
  | nil => exact Nat.le_refl 0
  | cons first rest ih =>
    obtain ⟨firstNonempty, restNonempty⟩ := List.forall_mem_cons.mp nonempty
    have one : 0 < (symbol.yield first).length := List.length_pos_iff.mpr firstNonempty
    have others := ih restNonempty
    rw [yield_many_cons, List.length_append, List.length_cons]
    omega

end Symbol

namespace Parser

variable {α : Type}

/-- What a parser takes is a derivation of the tokens that it took. -/
def Sound (parser : Parser α) (symbol : Symbol α) : Prop :=
  ∀ tokens, parser.Ensures tokens fun item rest =>
    kinds tokens = symbol.yield item ++ kinds rest ∧ symbol.IsDerivation item

/-- A parser takes every derivation, positions aside, off the tokens that it yields, provided that
the next token can end it. -/
def Complete (parser : Parser α) (symbol : Symbol α) (Ends : Option Token → Prop) : Prop :=
  ∀ ⦃item tokens after⦄, symbol.IsDerivation item → kinds tokens = symbol.yield item ++ after →
    Ends after.head? → parser.Gives tokens fun read rest =>
      symbol.unplaced read = symbol.unplaced item ∧ kinds rest = after

/-- Taking many items is sound when taking one is. -/
theorem Sound.manyUpTo {parser : Parser α} {symbol : Symbol α} (sound : parser.Sound symbol)
    (starts : Token → Bool) (fuel : Nat) : (manyUpTo starts parser fuel).Sound symbol.many := by
  have none (tokens : List LocatedToken) :
      (pure [] : Parser (List α)).Ensures tokens fun items rest =>
        kinds tokens = symbol.many.yield items ++ kinds rest ∧ symbol.many.IsDerivation items :=
    ensures_pure ⟨rfl, nofun⟩
  induction fuel with
  | zero => exact none
  | succ fuel ih =>
    intro tokens
    refine Ensures.bind (ensures_peek ?_)
    split
    · exact none tokens
    · split
      · refine Ensures.bind ?_
        intro first middle front
        obtain ⟨frontYield, frontDerives⟩ := sound tokens front
        refine Ensures.bind ?_
        intro others rest back
        obtain ⟨backYield, backDerives⟩ := ih middle back
        refine ensures_pure ⟨?_, List.forall_mem_cons.mpr ⟨frontDerives, backDerives⟩⟩
        rw [frontYield, backYield, Symbol.yield_many_cons, List.append_assoc]
      · exact none tokens

/-- Taking as many items as there are is sound when taking one is. -/
theorem Sound.many {parser : Parser α} {symbol : Symbol α} (sound : parser.Sound symbol)
    (starts : Token → Bool) : (Parser.many starts parser).Sound symbol.many :=
  fun tokens => Ensures.bind (ensures_get (sound.manyUpTo starts tokens.length tokens))

/-- As many items as there are take all tokens, if any token starts one and each takes some. -/
theorem many_takes_all {parser : Parser α} {symbol : Symbol α} (sound : parser.Sound symbol)
    (nonempty : ∀ item, symbol.yield item ≠ []) (tokens : List LocatedToken) :
    (many (fun _ => true) parser).Ensures tokens fun _ rest => rest = [] := by
  -- What remains behind an item is shorter, so the fuel outlasts the tokens.
  have steps (fuel : Nat) (tokens : List LocatedToken) (enough : tokens.length ≤ fuel) :
      (Parser.manyUpTo (fun _ => true) parser fuel).Ensures tokens fun _ rest => rest = [] := by
    induction fuel generalizing tokens with
    | zero => exact ensures_pure (List.length_eq_zero_iff.mp (Nat.le_zero.mp enough))
    | succ fuel ih =>
      refine Ensures.bind (ensures_peek ?_)
      split
      · rename_i absent
        refine ensures_pure ?_
        rwa [List.head?_eq_none_iff, kinds, List.map_eq_nil_iff] at absent
      · rw [if_pos rfl]
        refine Ensures.bind ?_
        intro first middle front
        have shorter := congrArg List.length (sound tokens front).1
        have some := List.length_pos_iff.mpr (nonempty first)
        rw [List.length_append, length_kinds, length_kinds] at shorter
        refine Ensures.bind ?_
        intro others rest back
        exact ensures_pure (ih middle (by omega) back)
  exact Ensures.bind (ensures_get (steps tokens.length tokens (Nat.le_refl _)))

/-- Items that each start with a token are taken one by one, up to a token that starts none. -/
theorem Complete.manyUpTo {parser : Parser α} {symbol : Symbol α} {Ends : Option Token → Prop}
    {starts : Token → Bool} (complete : parser.Complete symbol Ends)
    (begins : ∀ item, symbol.IsDerivation item →
      ∃ token rest, symbol.yield item = token :: rest ∧ starts token = true ∧ Ends (some token))
    {items : List α} {fuel : Nat} {tokens : List LocatedToken} {after : List Token}
    (enough : items.length ≤ fuel) (derives : symbol.many.IsDerivation items)
    (same : kinds tokens = symbol.many.yield items ++ after) (ends : Ends after.head?)
    (stops : ∀ token ∈ after.head?, starts token = false) :
    (manyUpTo starts parser fuel).Gives tokens fun read rest =>
      symbol.many.unplaced read = symbol.many.unplaced items ∧ kinds rest = after := by
  induction items generalizing fuel tokens with
  | nil =>
    have none : (Parser.manyUpTo starts parser fuel).Reads tokens [] tokens := by
      cases fuel with
      | zero => exact reads_pure_self
      | succ fuel =>
        refine Iff.mpr reads_bind ⟨_, _, Iff.mpr reads_peek ⟨rfl, rfl⟩, ?_⟩
        replace same : kinds tokens = after := same
        rw [same]
        split
        · exact reads_pure_self
        · rename_i token next
          rw [if_neg (by simp [stops token next])]
          exact reads_pure_self
    exact ⟨[], tokens, none, rfl, same⟩
  | cons first others ih =>
    obtain ⟨firstDerives, othersDerive⟩ := List.forall_mem_cons.mp derives
    obtain ⟨token, more, yields, isStart, -⟩ := begins first firstDerives
    -- There is an item left, hence fuel for it.
    obtain ⟨fuel, rfl⟩ : ∃ left, fuel = left + 1 :=
      Nat.exists_eq_succ_of_ne_zero (Nat.ne_of_gt (Nat.lt_of_lt_of_le (Nat.succ_pos _) enough))
    have split : kinds tokens = symbol.yield first ++ (symbol.many.yield others ++ after) := by
      rw [same, Symbol.yield_many_cons, List.append_assoc]
    have next : (kinds tokens).head? = some token := by
      rw [split, yields]
      rfl
    -- What follows the first item is the start of the second, or what follows them all.
    have firstEnds : Ends (symbol.many.yield others ++ after).head? := by
      cases others with
      | nil => exact ends
      | cons second others =>
        obtain ⟨head, tail, yields, -, ends⟩ :=
          begins second (othersDerive second List.mem_cons_self)
        have front : (symbol.many.yield (second :: others) ++ after).head? = some head := by
          rw [Symbol.yield_many_cons, yields]
          rfl
        rwa [front]
    refine Gives.bind (gives_peek ?_)
    simp only [next, isStart, if_true]
    refine Gives.bind ((complete firstDerives split firstEnds).imp ?_)
    rintro read middle ⟨readFirst, same⟩
    refine Gives.bind ((ih (Nat.le_of_succ_le_succ enough) othersDerive same).imp ?_)
    rintro readOthers rest ⟨readSame, same⟩
    refine gives_pure ⟨?_, same⟩
    rw [Symbol.unplaced_many_cons, Symbol.unplaced_many_cons, readFirst, readSame]

/-- Items that each start with a token are all taken, up to a token that starts none. -/
theorem Complete.many {parser : Parser α} {symbol : Symbol α} {Ends : Option Token → Prop}
    {starts : Token → Bool} (complete : parser.Complete symbol Ends)
    (begins : ∀ item, symbol.IsDerivation item →
      ∃ token rest, symbol.yield item = token :: rest ∧ starts token = true ∧ Ends (some token)) :
    (Parser.many starts parser).Complete symbol.many fun next =>
      Ends next ∧ ∀ token ∈ next, starts token = false := by
  intro items tokens after derives same ends
  have enough : items.length ≤ tokens.length := by
    have yields : items.length ≤ (symbol.many.yield items).length := by
      refine Symbol.length_le_length_yield_many fun item member => ?_
      obtain ⟨token, rest, yields, -⟩ := begins item (derives item member)
      simp [yields]
    rw [← length_kinds tokens, same, List.length_append]
    exact Nat.le_trans yields (Nat.le_add_right _ _)
  exact Gives.bind (gives_get (complete.manyUpTo begins enough derives same ends.1 ends.2))

end Parser

end BindingSuite.Wgsl
