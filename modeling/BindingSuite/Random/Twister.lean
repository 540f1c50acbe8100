/-! # The Mersenne Twister

The generator of 32-bit words by which a seed decides the order of a run: a linear recurrence over
the last `degree` words, whose new words are tempered before they are given out.

* `Twister` is the state, `Twister.ofSeed` the state that a seed leads to;
* `Twister.next` gives the next word, and `Twister.draw` a number of some bits;
* `Twister.below` gives a number below a bound, every one as likely as another. -/

namespace BindingSuite

/-- How many words the recurrence reaches back. -/
def Twister.degree : Nat := 624

/-- The state of the generator. -/
structure Twister where
  /-- The last words, in a ring. -/
  words : Vector UInt32 Twister.degree
  /-- Where the ring's oldest word is. -/
  oldest : Fin Twister.degree

namespace Twister

/-! ## Seeding -/

/-- The words of a number, the least significant first; zero has one word. -/
def seedWords (seed : Nat) : List UInt32 :=
  if seed < UInt32.size then [seed.toUInt32]
  else (seed % UInt32.size).toUInt32 :: seedWords (seed / UInt32.size)
termination_by seed
decreasing_by exact Nat.div_lt_self (by simp only [UInt32.size] at *; omega) (by decide)

/-- A word folded with its own highest bits. -/
def fold (word : UInt32) : UInt32 :=
  word ^^^ (word >>> 30)

/-- The words that a single word spreads to, from the word at `index` on. -/
def spread : (count index : Nat) → (word : UInt32) → List UInt32
  | 0, _, _ => []
  | count + 1, index, word =>
    word :: spread count (index + 1) (1812433253 * fold word + (index + 1).toUInt32)

/-- The ring of words that a single word spreads to. -/
def ofWord (word : UInt32) : Vector UInt32 degree :=
  let words := (spread degree 0 word).toArray
  Vector.ofFn fun index => words.getD index 0

/-- A ring of words under mixing, with the index to mix next; word zero is never next. -/
structure Mixing where
  /-- The words. -/
  words : Vector UInt32 degree
  /-- The index to mix next. -/
  index : Nat

/-- Mixes the next word with the one before it. Past the end the last word goes to the front, and
the mixing to the word after it. -/
def Mixing.step (mixing : Mixing) (combine : UInt32 → UInt32 → UInt32) : Mixing :=
  let index := mixing.index
  let previous := mixing.words.toArray.getD (index - 1) 0
  let current := mixing.words.toArray.getD index 0
  let words := mixing.words.setIfInBounds index (combine current (fold previous))
  if index + 1 < degree then ⟨words, index + 1⟩
  else ⟨words.setIfInBounds 0 (words.toArray.getD index 0), 1⟩

/-- The state that a list of words leads to. -/
def ofWords (key : Array UInt32) : Twister :=
  let absorbed := (List.range (max degree key.size)).foldl
    (fun (mixing : Mixing) step =>
      let position := step % key.size
      mixing.step fun current previous =>
        (current ^^^ (previous * 1664525)) + key.getD position 0 + position.toUInt32)
    ⟨ofWord 19650218, 1⟩
  let mixed := (List.range (degree - 1)).foldl
    (fun (mixing : Mixing) _ =>
      mixing.step fun current previous =>
        (current ^^^ (previous * 1566083941)) - mixing.index.toUInt32)
    absorbed
  ⟨mixed.words.setIfInBounds 0 0x80000000, ⟨0, by decide⟩⟩

/-- The state that a seed leads to. Its sign does not matter. -/
def ofSeed (seed : Int) : Twister :=
  ofWords (seedWords seed.natAbs).toArray

/-! ## Drawing -/

/-- The index some places further round the ring. -/
def around (index : Fin degree) (places : Nat) : Fin degree :=
  ⟨(index + places) % degree, Nat.mod_lt _ (by decide)⟩

/-- The word that the recurrence makes of the highest bit of one word, the other bits of the word
after it, and a word further on. -/
def recur (first second further : UInt32) : UInt32 :=
  let joined := (first &&& 0x80000000) ||| (second &&& 0x7fffffff)
  further ^^^ (joined >>> 1) ^^^ (if joined &&& 1 = 1 then 0x9908b0df else 0)

/-- The word that is given out for a word of the recurrence. -/
def temper (word : UInt32) : UInt32 :=
  let word := word ^^^ (word >>> 11)
  let word := word ^^^ ((word <<< 7) &&& 0x9d2c5680)
  let word := word ^^^ ((word <<< 15) &&& 0xefc60000)
  word ^^^ (word >>> 18)

/-- The next word, which replaces the oldest in the ring. -/
def next (state : Twister) : UInt32 × Twister :=
  let word := recur state.words[state.oldest] state.words[around state.oldest 1]
    state.words[around state.oldest 397]
  (temper word, ⟨state.words.set state.oldest word, around state.oldest 1⟩)

/-- A number of so many bits. Its words are drawn from the lowest on, and of the last one the
highest bits are kept, as many as are still missing. -/
def draw (bits : Nat) (state : Twister) : Nat × Twister :=
  let (word, state) := state.next
  if bits ≤ 32 then (word.toNat >>> (32 - bits), state)
  else
    let (number, state) := draw (bits - 32) state
    (word.toNat + UInt32.size * number, state)
termination_by bits

/-- How many draws are made at most. That many are never all rejected, since they are one more than
the recurrence has bits. -/
def drawLimit : Nat := 32 * degree + 1

/-- Draws numbers of `bits` bits until one is below a bound, at most `fuel` times. -/
def drawBelow (bound bits : Nat) : (fuel : Nat) → Twister → Nat × Twister
  | 0, state => (0, state)
  | fuel + 1, state =>
    let (number, state) := state.draw bits
    if number < bound then (number, state) else drawBelow bound bits fuel state

/-- A number below a positive bound, of as many bits as the bound. -/
def below (state : Twister) (bound : Nat) : Nat × Twister :=
  drawBelow bound (bound.log2 + 1) drawLimit state

/-- A number drawn below a positive bound is below it. -/
theorem drawBelow_lt {bound : Nat} (positive : 0 < bound) (bits fuel : Nat) (state : Twister) :
    (drawBelow bound bits fuel state).1 < bound := by
  induction fuel generalizing state with
  | zero => exact positive
  | succ fuel ih =>
    rw [drawBelow]
    split
    split
    · assumption
    · exact ih _

/-- A number below a positive bound is below it. -/
theorem below_lt (state : Twister) {bound : Nat} (positive : 0 < bound) :
    (state.below bound).1 < bound :=
  drawBelow_lt positive _ _ _

end Twister

end BindingSuite
