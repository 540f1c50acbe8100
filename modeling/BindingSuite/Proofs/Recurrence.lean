import BindingSuite.Random.Twister
import Mathlib

/-! # Recurrence

Rejected draws come to an end. The words of the generator follow a linear recurrence, under
exclusive or, which no constant sequence follows but that of zeros. Rejected draws all have the same
highest bit, so there are no more of them in a row than the recurrence has bits.

* `XorWord` is the vector space of words over the field of two elements;
* `eq_zero_of_read_eq` says that a linear system without fixed vectors shows no value but zero for
  more steps in a row than it has dimensions;
* `Twister.step` is the linear system of the generator, and `Twister.eq_zero_of_step_eq` says that
  it has no fixed vector;
* `Twister.exists_draw_lt` concludes that some draw is below the bound. -/

namespace BindingSuite

/-! ## Words under exclusive or -/

/-- A word as an element of the group in which exclusive or is addition. -/
@[ext] structure XorWord where
  /-- The word. -/
  word : UInt32

namespace XorWord

instance : Zero XorWord := ⟨⟨0⟩⟩

instance : Add XorWord := ⟨fun first second => ⟨first.word ^^^ second.word⟩⟩

instance : Neg XorWord := ⟨id⟩

@[simp] theorem word_zero : (0 : XorWord).word = 0 := rfl

@[simp] theorem word_add (first second : XorWord) :
    (first + second).word = first.word ^^^ second.word := rfl

instance : AddCommGroup XorWord where
  add_assoc _ _ _ := XorWord.ext (UInt32.xor_assoc _ _ _)
  zero_add _ := XorWord.ext UInt32.zero_xor
  add_zero _ := XorWord.ext UInt32.xor_zero
  add_comm _ _ := XorWord.ext (UInt32.xor_comm _ _)
  neg_add_cancel _ := XorWord.ext UInt32.xor_self
  nsmul := nsmulRec
  zsmul := zsmulRec

instance : Module (ZMod 2) XorWord :=
  AddCommGroup.zmodModule fun word => by
    rw [two_nsmul]
    exact XorWord.ext UInt32.xor_self

/-- There are as many words as numbers of 32 bits. -/
def equivFin : XorWord ≃ Fin UInt32.size where
  toFun word := word.word.toFin
  invFun number := ⟨.ofFin number⟩
  left_inv _ := rfl
  right_inv _ := rfl

instance : Finite XorWord := .of_equiv _ equivFin.symm

/-- Words have 32 dimensions. -/
theorem finrank_eq : Module.finrank (ZMod 2) XorWord = 32 := by
  have card := Module.natCard_eq_pow_finrank (K := ZMod 2) (V := XorWord)
  rw [Nat.card_congr equivFin, Nat.card_eq_fintype_card, Nat.card_eq_fintype_card, Fintype.card_fin,
    ZMod.card] at card
  exact (Nat.pow_right_injective le_rfl card).symm

/-- The highest bit of a word. -/
def top : XorWord →+ ZMod 2 where
  toFun word := if word.word.toBitVec.msb then 1 else 0
  map_zero' := rfl
  map_add' first second := by
    rw [word_add, UInt32.toBitVec_xor, BitVec.msb_xor]
    cases first.word.toBitVec.msb <;> cases second.word.toBitVec.msb <;> rfl

/-- The highest bit is that of the upper half of all words. -/
theorem top_eq_one {word : XorWord} (high : 2 ^ 31 ≤ word.word.toNat) : word.top = 1 := by
  have msb : word.word.toBitVec.msb = true := by
    rw [BitVec.msb_eq_decide]
    exact decide_eq_true high
  exact if_pos msb

end XorWord

/-! ## Linear systems -/

section Systems

variable {K V : Type} [Field K] [AddCommGroup V] [Module K V] [FiniteDimensional K V]

/-- A value that is read off a linear system without fixed vectors, and that is the same for as many
steps as the system has dimensions, is zero. -/
theorem eq_zero_of_read_eq {step : Module.End K V}
    (noFixed : ∀ vector, step vector = vector → vector = 0) (read : V →ₗ[K] K) {start : V}
    {value : K} (constant : ∀ time ≤ Module.finrank K V, read ((step ^ time) start) = value) :
    value = 0 := by
  -- The system satisfies its characteristic polynomial, of which one is no root.
  have noRoot : step.charpoly.eval 1 ≠ 0 := by
    intro root
    obtain ⟨vector, isVector⟩ :=
      ((Module.End.hasEigenvalue_iff_isRoot_charpoly step 1).mpr root).exists_hasEigenvector
    refine isVector.2 (noFixed vector ?_)
    rw [isVector.apply_eq_smul, one_smul]
  have vanishes : step.charpoly.eval 1 * value = 0 := calc
    step.charpoly.eval 1 * value
        = ∑ time ∈ Finset.range (step.charpoly.natDegree + 1),
            step.charpoly.coeff time * read ((step ^ time) start) := by
      rw [Polynomial.eval_eq_sum_range, Finset.sum_mul]
      refine Finset.sum_congr rfl fun time inRange => ?_
      rw [LinearMap.charpoly_natDegree, Finset.mem_range, Nat.lt_succ_iff] at inRange
      rw [one_pow, mul_one, constant time inRange]
    _ = read ((Polynomial.aeval step step.charpoly) start) := by
      rw [Polynomial.aeval_eq_sum_range, LinearMap.sum_apply, map_sum]
      simp only [LinearMap.smul_apply, map_smul, smul_eq_mul]
    _ = 0 := by
      rw [LinearMap.aeval_self_charpoly, LinearMap.zero_apply, map_zero]
  exact (mul_eq_zero.mp vanishes).resolve_left noRoot

/-- Over the field of two elements, a system without fixed vectors has none for two steps either. -/
theorem eq_zero_of_sq_eq {V : Type} [AddCommGroup V] [Module (ZMod 2) V]
    {step : Module.End (ZMod 2) V} (noFixed : ∀ vector, step vector = vector → vector = 0)
    {vector : V} (fixed : (step ^ 2) vector = vector) : vector = 0 := by
  -- The sum of the vector and the next one is fixed.
  have sum : step vector + vector = 0 := by
    refine noFixed _ ?_
    rw [map_add, ← Module.End.mul_apply, ← sq, fixed, add_comm]
  refine noFixed vector ?_
  rw [eq_neg_of_add_eq_zero_left sum, ZModModule.neg_eq_self]

end Systems

namespace Twister

/-! ## The recurrence -/

/-- Masking is additive. -/
theorem xor_and (first second mask : UInt32) :
    (first ^^^ second) &&& mask = (first &&& mask) ^^^ (second &&& mask) := by
  refine UInt32.toBitVec_inj.mp (BitVec.eq_of_getLsbD_eq fun index _ => ?_)
  simp [Bool.and_xor_distrib_right]

/-- The highest bit of one word with the other bits of another. -/
def join (first second : UInt32) : UInt32 :=
  (first &&& 0x80000000) ||| (second &&& 0x7fffffff)

/-- What one of the two masks keeps the other one drops. -/
theorem getLsbD_lowMask {index : Nat} (inRange : index < 32) :
    (0x7fffffff : UInt32).toBitVec.getLsbD index =
      !(0x80000000 : UInt32).toBitVec.getLsbD index := by
  decide +revert

/-- A word is joined from itself. -/
theorem join_self (word : UInt32) : join word word = word := by
  refine UInt32.toBitVec_inj.mp (BitVec.eq_of_getLsbD_eq fun index inRange => ?_)
  simp only [join, UInt32.toBitVec_or, UInt32.toBitVec_and, BitVec.getLsbD_or, BitVec.getLsbD_and,
    getLsbD_lowMask inRange]
  cases (0x80000000 : UInt32).toBitVec.getLsbD index <;> simp

/-- Joining is addition, as no bit comes from both words. -/
theorem join_eq_xor (first second : UInt32) :
    join first second = (first &&& 0x80000000) ^^^ (second &&& 0x7fffffff) := by
  refine UInt32.toBitVec_inj.mp (BitVec.eq_of_getLsbD_eq fun index inRange => ?_)
  simp only [join, UInt32.toBitVec_or, UInt32.toBitVec_and, UInt32.toBitVec_xor, BitVec.getLsbD_or,
    BitVec.getLsbD_and, BitVec.getLsbD_xor, getLsbD_lowMask inRange]
  cases (0x80000000 : UInt32).toBitVec.getLsbD index <;> simp

/-- Joining is additive. -/
theorem join_xor (first second other otherSecond : UInt32) :
    join (first ^^^ other) (second ^^^ otherSecond) =
      join first second ^^^ join other otherSecond := by
  simp only [join_eq_xor, xor_and]
  ac_rfl

/-- A word without its lowest bit, with feedback if that bit is set. -/
def twist (word : UInt32) : UInt32 :=
  (word >>> 1) ^^^ (if word &&& 1 = 1 then 0x9908b0df else 0)

/-- The recurrence adds a twisted word to another. -/
theorem recur_eq (first second further : UInt32) :
    recur first second further = further ^^^ twist (join first second) :=
  UInt32.xor_assoc _ _ _

/-- The lowest bit is set or not. -/
theorem and_one (word : UInt32) : word &&& 1 = 0 ∨ word &&& 1 = 1 := by
  rw [← UInt32.toNat_inj, ← UInt32.toNat_inj, UInt32.toNat_and]
  change word.toNat &&& 1 = 0 ∨ word.toNat &&& 1 = 1
  rw [Nat.and_one_is_mod]
  exact Nat.mod_two_eq_zero_or_one _

/-- Twisting is additive. -/
theorem twist_xor (first second : UInt32) :
    twist (first ^^^ second) = twist first ^^^ twist second := by
  have feedback : (if first &&& 1 ^^^ second &&& 1 = 1 then 0x9908b0df else 0 : UInt32) =
      (if first &&& 1 = 1 then 0x9908b0df else 0) ^^^
        if second &&& 1 = 1 then 0x9908b0df else 0 := by
    rcases and_one first with even | odd <;> rcases and_one second with even' | odd' <;>
      simp only [*] <;> decide
  simp only [twist, UInt32.shiftRight_xor, xor_and, feedback]
  ac_rfl

/-- Twisting maps only zero to zero: the feedback has the highest bit. -/
theorem eq_zero_of_twist_eq_zero {word : UInt32} (vanishes : twist word = 0) : word = 0 := by
  unfold twist at vanishes
  split at vanishes
  · -- The feedback would have to be the word without its lowest bit, but is too large for that.
    have shifted := congrArg UInt32.toNat (UInt32.xor_eq_zero_iff.mp vanishes)
    rw [UInt32.toNat_shiftRight] at shifted
    have bounded := word.toNat_lt
    simp only [UInt32.reduceToNat, Nat.reduceMod, Nat.shiftRight_eq_div_pow] at shifted
    omega
  · -- Without feedback neither the lowest bit nor any other bit is set.
    rename_i notOdd
    have even := congrArg UInt32.toNat ((and_one word).resolve_right notOdd)
    have half := congrArg UInt32.toNat (UInt32.xor_zero.symm.trans vanishes)
    rw [UInt32.toNat_and] at even
    rw [UInt32.toNat_shiftRight] at half
    simp only [UInt32.reduceToNat, Nat.reduceMod, Nat.shiftRight_eq_div_pow, Nat.and_one_is_mod]
      at even half
    refine UInt32.toNat_inj.mp ?_
    rw [UInt32.toNat_zero]
    omega

/-! ## Tempering -/

/-- A word with its own bits added some places further down. -/
def foldDown (places word : UInt32) : UInt32 :=
  word ^^^ (word >>> places)

/-- A word with some of its own bits added some places further up. -/
def foldUp (places mask word : UInt32) : UInt32 :=
  word ^^^ ((word <<< places) &&& mask)

/-- Tempering adds the bits of a word to themselves. -/
theorem temper_eq (word : UInt32) : temper word =
    foldDown 18 (foldUp 15 0xefc60000 (foldUp 7 0x9d2c5680 (foldDown 11 word))) := rfl

/-- Tempering is additive. -/
theorem temper_xor (first second : UInt32) :
    temper (first ^^^ second) = temper first ^^^ temper second := by
  have down (places first second : UInt32) : foldDown places (first ^^^ second) =
      foldDown places first ^^^ foldDown places second := by
    simp only [foldDown, UInt32.shiftRight_xor]
    ac_rfl
  have up (places mask first second : UInt32) : foldUp places mask (first ^^^ second) =
      foldUp places mask first ^^^ foldUp places mask second := by
    simp only [foldUp, UInt32.shiftLeft_xor, xor_and]
    ac_rfl
  simp only [temper_eq, down, up]

/-! ## Windows -/

/-- The ring has a first word. -/
theorem degree_pos : 0 < degree := by
  decide

/-- The words that the recurrence looks at, the oldest first. -/
abbrev Window : Type := Fin degree → XorWord

/-- The words that a state holds. -/
def window (state : Twister) : Window :=
  fun index => ⟨state.words[around state.oldest index]⟩

/-- The state after one word. -/
def advance (state : Twister) : Twister :=
  state.next.2

/-- The word that the recurrence adds to a window. -/
def newWord (window : Window) : UInt32 :=
  recur (window ⟨0, degree_pos⟩).word (window ⟨1, by decide⟩).word (window ⟨397, by decide⟩).word

/-- The window without its oldest word and with a new one. -/
def shift (window : Window) : Window :=
  fun index => if later : index + 1 < degree then window ⟨index + 1, later⟩ else ⟨newWord window⟩

/-- New words are additive. -/
theorem newWord_add (first second : Window) :
    newWord (first + second) = newWord first ^^^ newWord second := by
  simp only [newWord, recur_eq, Pi.add_apply, XorWord.word_add, join_xor, twist_xor]
  ac_rfl

/-- The linear system of the generator. -/
def step : Module.End (ZMod 2) Window :=
  AddMonoidHom.toZModLinearMap 2
    { toFun := shift
      map_zero' := by
        funext index
        unfold shift
        split <;> rfl
      map_add' := fun first second => by
        funext index
        unfold shift
        rw [Pi.add_apply]
        split
        · rfl
        · exact XorWord.ext (newWord_add first second) }

/-- Going round the ring in two goes. -/
theorem around_around (index : Fin degree) (places more : Nat) :
    around (around index places) more = around index (places + more) := by
  refine Fin.ext ?_
  change ((index + places) % 624 + more) % 624 = (index + (places + more)) % 624
  omega

/-- Going round the whole ring. -/
theorem around_degree (index : Fin degree) : around index degree = index := by
  have inRange : (index : Nat) < 624 := index.isLt
  refine Fin.ext ?_
  change (index + 624) % 624 = (index : Nat)
  omega

/-- Less than the whole ring leads elsewhere. -/
theorem around_ne {index : Fin degree} {places : Nat} (positive : 0 < places)
    (less : places < degree) : around index places ≠ index := by
  have inRange : (index : Nat) < 624 := index.isLt
  have bounded : places < 624 := less
  rw [Ne, Fin.ext_iff]
  change (index + places) % 624 ≠ (index : Nat)
  omega

/-- The new word of a state's window is the one that the state goes on with. -/
theorem newWord_window (state : Twister) :
    newWord state.window = recur (state.words.get state.oldest)
      (state.words.get (around state.oldest 1)) (state.words.get (around state.oldest 397)) := by
  have here : around state.oldest 0 = state.oldest := Fin.ext (Nat.mod_eq_of_lt state.oldest.isLt)
  simp only [newWord, window, here]
  rfl

/-- The window of a state follows the system. -/
theorem window_advance (state : Twister) : state.advance.window = step state.window := by
  funext index
  refine XorWord.ext ?_
  have new : recur state.words[state.oldest] state.words[around state.oldest 1]
      state.words[around state.oldest 397] = newWord state.window := (newWord_window state).symm
  change (state.words.set state.oldest _)[around (around state.oldest 1) index] =
    (shift state.window index).word
  simp only [around_around, shift, new]
  -- Only the last index leads to the place of the oldest word, where the new one is.
  split
  · rename_i later
    have elsewhere : around state.oldest (1 + index) ≠ state.oldest :=
      around_ne (by omega) (by omega)
    rw [Fin.getElem_fin, Vector.getElem_set_ne _ _ (Fin.val_ne_of_ne elsewhere.symm)]
    simp only [window, Nat.add_comm, Fin.getElem_fin]
  · rename_i last
    have isLast : 1 + (index : Nat) = degree := by omega
    simp only [isLast, around_degree, Fin.getElem_fin, Vector.getElem_set_self]

/-- The system has no fixed window. -/
theorem eq_zero_of_step_eq {window : Window} (fixed : step window = window) : window = 0 := by
  have moved (index : Fin degree) : shift window index = window index := congrFun fixed index
  -- Every word equals the one after it, so that all of them equal the first one.
  have same (index : Nat) (inRange : index < degree) :
      window ⟨index, inRange⟩ = window ⟨0, degree_pos⟩ := by
    induction index with
    | zero => rfl
    | succ index ih =>
      have before := moved ⟨index, Nat.lt_of_succ_lt inRange⟩
      rw [shift, dif_pos inRange] at before
      rw [before, ih]
  -- So does the new word, which is the sum of that word and its twist.
  have zero : (window ⟨0, degree_pos⟩).word = 0 := by
    have last := congrArg XorWord.word (moved ⟨623, by decide⟩)
    rw [shift, dif_neg (by decide)] at last
    simp only [newWord, same, recur_eq, join_self] at last
    exact eq_zero_of_twist_eq_zero ((UInt32.xor_right_inj _).mp (last.trans UInt32.xor_zero.symm))
  funext index
  rw [same index index.isLt]
  exact XorWord.ext zero

/-- A window has as many dimensions as its words have bits. -/
theorem finrank_window : Module.finrank (ZMod 2) Window = 32 * degree := by
  rw [Module.finrank_pi_fintype, Finset.sum_const, Finset.card_univ, Fintype.card_fin,
    XorWord.finrank_eq, smul_eq_mul, Nat.mul_comm]

/-! ## Draws -/

/-- The highest bit of the next word that is given out, as a function of the window. -/
def topBit : Window →ₗ[ZMod 2] ZMod 2 :=
  AddMonoidHom.toZModLinearMap 2
    { toFun := fun window => XorWord.top ⟨temper (newWord window)⟩
      map_zero' := rfl
      map_add' := fun first second => by
        rw [← map_add, newWord_add, temper_xor]
        rfl }

/-- A word that is given out in the upper half of all words has this bit. -/
theorem topBit_window {state : Twister} (high : 2 ^ 31 ≤ state.next.1.toNat) :
    topBit state.window = 1 := by
  have given : state.next.1 = temper (newWord state.window) := by
    rw [newWord_window]
    rfl
  rw [given] at high
  exact XorWord.top_eq_one high

/-- The window after some words. -/
theorem window_iterate_advance (state : Twister) (count : Nat) :
    (advance^[count] state).window = (step ^ count) state.window := by
  induction count with
  | zero => rfl
  | succ count ih =>
    rw [Function.iterate_succ_apply', window_advance, ih, pow_succ', Module.End.mul_apply]

/-- Up to 32 bits come from one word. -/
theorem draw_of_le {bits : Nat} (few : bits ≤ 32) (state : Twister) :
    state.draw bits = (state.next.1.toNat >>> (32 - bits), state.advance) := by
  rw [draw]
  exact if_pos few

/-- More bits come from one word and those after it. -/
theorem draw_of_lt {bits : Nat} (many : 32 < bits) (state : Twister) :
    state.draw bits =
      (state.next.1.toNat + UInt32.size * (state.advance.draw (bits - 32)).1,
        (state.advance.draw (bits - 32)).2) := by
  rw [draw]
  exact if_neg (Nat.not_le.mpr many)

/-- A draw takes as many words as its bits need. A number with the highest bit has it from the last
word. -/
theorem draw_words {bits : Nat} (positive : 0 < bits) (state : Twister) :
    (state.draw bits).2 = advance^[(bits - 1) / 32 + 1] state ∧
      (2 ^ (bits - 1) ≤ (state.draw bits).1 →
        2 ^ 31 ≤ (advance^[(bits - 1) / 32] state).next.1.toNat) := by
  induction bits using Nat.strong_induction_on generalizing state with
  | _ bits ih =>
    by_cases few : bits ≤ 32
    · have single : (bits - 1) / 32 = 0 := by omega
      rw [draw_of_le few, single]
      refine ⟨rfl, fun high => ?_⟩
      rw [Nat.shiftRight_eq_div_pow, Nat.le_div_iff_mul_le (Nat.two_pow_pos _), ← pow_add] at high
      have exponent : bits - 1 + (32 - bits) = 31 := by omega
      rwa [exponent] at high
    · -- The first word is too small to matter.
      have more : (bits - 1) / 32 = (bits - 32 - 1) / 32 + 1 := by omega
      obtain ⟨after, isHigh⟩ := ih (bits - 32) (by omega) (by omega) state.advance
      rw [draw_of_lt (Nat.not_le.mp few), more]
      refine ⟨after, fun high => isHigh ?_⟩
      have exponent : bits - 1 = 32 + (bits - 32 - 1) := by omega
      rw [exponent, pow_add] at high
      have bounded : state.next.1.toNat < 2 ^ 32 := state.next.1.toNat_lt
      change 2 ^ 32 * _ ≤ _ + 2 ^ 32 * _ at high
      omega

/-- The state after some draws. -/
def afterDraws (bits count : Nat) (state : Twister) : Twister :=
  (fun state => (state.draw bits).2)^[count] state

/-- The state after some draws is the one after the words that they take. -/
theorem afterDraws_eq {bits : Nat} (positive : 0 < bits) (count : Nat) (state : Twister) :
    state.afterDraws bits count = advance^[((bits - 1) / 32 + 1) * count] state := by
  have each : (fun state : Twister => (state.draw bits).2) = advance^[(bits - 1) / 32 + 1] :=
    funext fun state => (draw_words positive state).1
  rw [afterDraws, each, Function.iterate_mul]

/-- The system has no fixed window for as many steps at once as a bound of up to 64 bits has words,
which are one or two. -/
theorem eq_zero_of_step_pow_eq {bound : Nat} (positive : 0 < bound) (bounded : bound < 2 ^ 64)
    {window : Window} (fixed : (step ^ (bound.log2 / 32 + 1)) window = window) : window = 0 := by
  have few : bound.log2 < 64 := (Nat.log2_lt positive.ne').mpr bounded
  obtain single | double : bound.log2 / 32 = 0 ∨ bound.log2 / 32 = 1 := by omega
  · rw [single, pow_one] at fixed
    exact eq_zero_of_step_eq fixed
  · rw [double] at fixed
    exact eq_zero_of_sq_eq (fun _ => eq_zero_of_step_eq) fixed

/-- Rejections end. Of as many draws as a generator makes at most, wherever it starts, some draw is
below a bound of up to 64 bits. -/
theorem exists_draw_lt {bound : Nat} (positive : 0 < bound) (bounded : bound < 2 ^ 64)
    (state : Twister) :
    ∃ count < drawLimit,
      ((state.afterDraws (bound.log2 + 1) count).draw (bound.log2 + 1)).1 < bound := by
  by_contra! rejected
  -- A rejected number has the highest bit of the bound, and with it the last word has its own.
  have constant (time : Nat) (early : time ≤ Module.finrank (ZMod 2) Window) :
      (topBit ∘ₗ (step ^ (bound.log2 / 32)))
        (((step ^ (bound.log2 / 32 + 1)) ^ time) state.window) = 1 := by
    rw [finrank_window] at early
    have high := (draw_words (Nat.succ_pos bound.log2) _).2
      ((Nat.log2_self_le positive.ne').trans (rejected time (Nat.lt_succ_of_le early)))
    have isOne := topBit_window high
    rw [afterDraws_eq (Nat.succ_pos _), window_iterate_advance, window_iterate_advance,
      Nat.succ_sub_one] at isOne
    rw [LinearMap.comp_apply, ← pow_mul]
    exact isOne
  exact one_ne_zero
    (eq_zero_of_read_eq (fun _ => eq_zero_of_step_pow_eq positive bounded) _ constant)

end Twister

end BindingSuite
