import BindingSuite.Proofs.Layout
import BindingSuite.Proofs.Lists
import BindingSuite.Wgsl.Tree

/-! # Positions

Where the tokens of a text stand, by line and column.

* `Position.Precedes` orders positions, and `Position.precedes_advanceOver` says that a position
  after more text comes later;
* `Word.StandsIn` says of a word that its position is where a text has it, and
  `Word.standsIn_of_advanceOver` that it is so for the position after what comes before it;
* `exists_split_of_mem_scanFrom` finds each token of a scan in the text, at its position, and
  `pairwise_precedes_scanFrom` says that the tokens come in the order of their positions. -/

namespace BindingSuite.Wgsl

/-! ## Order -/

namespace Position

variable {position middle other : Position} {text : List Char}

/-- A position comes before another: on an earlier line, or earlier on the same line. -/
def Precedes (position other : Position) : Prop :=
  position.line < other.line ∨ position.line = other.line ∧ position.column < other.column

instance : DecidableRel Precedes := fun position other =>
  inferInstanceAs (Decidable (position.line < other.line ∨
    position.line = other.line ∧ position.column < other.column))

/-- What comes before an earlier position comes before a later one. -/
theorem Precedes.trans (first : position.Precedes middle) (second : middle.Precedes other) :
    position.Precedes other := by
  unfold Precedes at *
  omega

/-- One more character leads to a later position. -/
theorem precedes_advance (position : Position) (character : Char) :
    position.Precedes (position.advance character) := by
  unfold advance
  by_cases ends : character = '\n'
  · rw [if_pos ends]
    exact .inl (Nat.lt_succ_self _)
  · rw [if_neg ends]
    exact .inr ⟨rfl, Nat.lt_succ_self _⟩

/-- More text leads to a later position. -/
theorem precedes_advanceOver (position : Position) (nonempty : text ≠ []) :
    position.Precedes (position.advanceOver text) := by
  induction text generalizing position with
  | nil => exact absurd rfl nonempty
  | cons character rest ih =>
    have first := precedes_advance position character
    rw [advanceOver_cons]
    by_cases last : rest = []
    · rw [last]
      exact first
    · exact first.trans (ih _ last)

/-! ## Lines -/

/-- While a text is passed, the line number counts the lines that end, and the column the characters
of the line that has begun. Behind them stands what is left of the text. -/
theorem exists_begun_of_advanceOver (begun before after : List Char)
    (counted : position.column = begun.length + 1) :
    ∃ begun' : List Char, (position.advanceOver before).column = begun'.length + 1 ∧
      position.line ≤ (position.advanceOver before).line ∧
      (((before ++ after).splitOn '\n').modifyHead (begun ++ ·)).drop
          ((position.advanceOver before).line - position.line) =
        (after.splitOn '\n').modifyHead (begun' ++ ·) := by
  induction before generalizing position begun with
  | nil =>
    refine ⟨begun, counted, Nat.le_refl _, ?_⟩
    rw [advanceOver_nil, Nat.sub_self]
    rfl
  | cons character rest ih =>
    rw [advanceOver_cons, List.cons_append, List.splitOn_cons_eq_if_modifyHead]
    by_cases ends : character = '\n'
    · -- The line that has begun is passed, and the next one is empty so far.
      have next : position.advance character = ⟨position.offset + 1, position.line + 1, 1⟩ :=
        if_pos ends
      obtain ⟨begun', column, later, lines⟩ :=
        @ih (position.advance character) [] (by rw [next]; rfl)
      have passed : (position.advance character).line = position.line + 1 := by rw [next]
      rw [passed] at later lines
      refine ⟨begun', column, Nat.le_of_succ_le later, ?_⟩
      rw [← lines, if_pos (by simpa using ends), List.modifyHead_cons,
        show (([] : List Char) ++ ·) = id from rfl, List.modifyHead_id]
      obtain ⟨count, isCount⟩ := Nat.exists_eq_add_of_le later
      rw [isCount, Nat.add_sub_cancel_left, show position.line + 1 + count - position.line =
        count + 1 by omega]
      rfl
    · -- The line that has begun gets longer.
      have next : position.advance character =
          ⟨position.offset + 1, position.line, position.column + 1⟩ := if_neg ends
      obtain ⟨begun', column, later, lines⟩ :=
        @ih (position.advance character) (begun ++ [character])
          (by rw [next, List.length_append, counted]; rfl)
      have stays : (position.advance character).line = position.line := by rw [next]
      rw [stays] at later lines
      refine ⟨begun', column, later, ?_⟩
      rw [← lines, if_neg (by simpa using ends), List.modifyHead_modifyHead]
      refine congrArg (List.drop _) (congrArg (List.modifyHead · _) (funext fun line => ?_))
      exact (List.append_assoc begun [character] line).symm

end Position

/-! ## Words -/

/-- A word stands in a text where its position says: on the line of that number, from the column of
that number on. -/
def Word.StandsIn (word : Word) (text : List Char) : Prop :=
  0 < word.position.line ∧ 0 < word.position.column ∧
    ∃ line, (text.splitOn '\n')[word.position.line - 1]? = some line ∧
      word.text.toList <+: line.drop (word.position.column - 1)

/-- A word on one line stands where its position is the one after all that comes before it. -/
theorem Word.standsIn_of_advanceOver {word : Word} {before after : List Char}
    (oneLine : '\n' ∉ word.text.toList)
    (placed : word.position = Position.start.advanceOver before) :
    word.StandsIn (before ++ word.text.toList ++ after) := by
  obtain ⟨begun, column, later, lines⟩ :=
    @Position.exists_begun_of_advanceOver .start [] before (word.text.toList ++ after) rfl
  rw [← placed] at column later lines
  rw [show (([] : List Char) ++ ·) = id from rfl, List.modifyHead_id,
    splitOn_append_of_notMem oneLine, List.modifyHead_modifyHead] at lines
  obtain ⟨first, others, isFirst⟩ := List.exists_cons_of_ne_nil (List.splitOn_ne_nil '\n' after)
  refine ⟨later, by omega, begun ++ (word.text.toList ++ first), ?_, ?_⟩
  · have head := congrArg List.head? lines
    rw [List.head?_drop, isFirst] at head
    rw [List.append_assoc]
    exact head
  · rw [column, Nat.add_sub_cancel, List.drop_left]
    exact List.prefix_append _ _

/-! ## Tokens -/

section Scanned

variable {context : Context} {position : Position} {text : List Char}

/-- Every token that is scanned is one of the grammar. It is spelled in the text, and its position
is the one after all that comes before it. -/
theorem exists_split_of_mem_scanFrom {found : LocatedToken}
    (member : found ∈ (scanFrom context position text).tokens) :
    found.token.IsTerminal ∧ ∃ before after, text = before ++ found.token.text.toList ++ after ∧
      found.position = position.advanceOver before := by
  fun_induction scanFrom context position text with
  | case1 => cases member
  | case2 context position rest comment ih =>
    obtain ⟨terminal, before, after, split, placed⟩ := ih member
    refine ⟨terminal, '/' :: '/' :: comment ++ before, after, ?_, ?_⟩
    · rw [List.append_assoc, List.append_assoc, ← List.append_assoc before, ← split]
      exact congrArg ('/' :: '/' :: ·) List.takeWhile_append_dropWhile.symm
    · rw [placed, Position.advanceOver_append]
  | case3 context position character rest _ space ih =>
    obtain ⟨terminal, before, after, split, placed⟩ := ih member
    exact ⟨terminal, character :: before, after, by rw [split]; rfl, placed⟩
  | case4 context position character rest _ noSpace token remaining read scan ih =>
    have spelled : token.text.toList ++ remaining = character :: rest := text_readToken read
    rcases List.mem_cons.mp member with rfl | later
    · exact ⟨isTerminal_of_readToken read, [], remaining, spelled.symm, rfl⟩
    · obtain ⟨terminal, before, after, split, placed⟩ := ih later
      refine ⟨terminal, token.text.toList ++ before, after, ?_, ?_⟩
      · rw [← spelled, split]
        simp only [List.append_assoc]
      · rw [placed, Position.advanceOver_append]
  | case5 => cases member

/-- The tokens that are scanned come in the order of their positions. -/
theorem pairwise_precedes_scanFrom :
    (scanFrom context position text).tokens.Pairwise fun first second =>
      first.position.Precedes second.position := by
  fun_induction scanFrom context position text with
  | case1 => exact .nil
  | case2 context position rest comment ih => exact ih
  | case3 context position character rest _ space ih => exact ih
  | case4 context position character rest _ noSpace token remaining read scan ih =>
    refine .cons (fun later isLater => ?_) ih
    obtain ⟨-, before, -, -, placed⟩ := exists_split_of_mem_scanFrom isLater
    rw [placed, ← Position.advanceOver_append]
    refine Position.precedes_advanceOver position ?_
    exact List.append_ne_nil_of_left_ne_nil (Token.text_ne_nil (isTerminal_of_readToken read)) _
  | case5 => exact .nil

end Scanned

end BindingSuite.Wgsl
