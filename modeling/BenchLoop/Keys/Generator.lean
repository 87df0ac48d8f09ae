/-
BenchLoop/Keys/Generator.lean

The pseudo-random generator behind the key permutation.  Its state is one 64-bit
word that moves by an odd constant; an output is the product of the state with a
masked copy of itself, the high half folded onto the low half.

`Generator.below` draws a number below a bound without bias: it scales an output
by the bound and draws again when the low half of the product falls into the
partial block at the bottom.  The state visits all `2 ^ 64` words before it repeats,
so that many redraws are all a search can need, and `below` stops after them.

* `Generator.below_lt`: a draw below a positive bound is below it.
-/
import BenchLoop.Keys.WideProduct

namespace BenchLoop

/-- The state of the generator. -/
structure Generator where
  state : UInt64
deriving Repr, DecidableEq

namespace Generator

/-- How far the state moves with every output. -/
def stride : UInt64 := 0x2d358dccaa6c78a5

/-- The mask that tells the two factors of an output apart. -/
def mask : UInt64 := 0x8bb84b93962eacc9

/-- The next output and the generator after it. -/
def next (g : Generator) : UInt64 × Generator :=
  let state := g.state + stride
  let masked := state ^^^ mask
  (WideProduct.low state masked ^^^ WideProduct.high state masked, ⟨state⟩)

/-- High and low word of the product of an output and a bound. -/
def scale (output bound : UInt64) : UInt64 × UInt64 :=
  (WideProduct.high output bound, WideProduct.low output bound)

/-- Draws until the low word of the product reaches `least`, at most `redraws` times. -/
def drawAbove (bound least : UInt64) : (redraws : Nat) → Generator → UInt64 × Generator
  | 0, g => let (r, g) := g.next; ((scale r bound).1, g)
  | redraws + 1, g =>
    let (r, g) := g.next
    let (high, low) := scale r bound
    if low < least then drawAbove bound least redraws g else (high, g)

/-- A number below `bound`.  Outputs whose product falls into the partial block of
`2 ^ 64 mod bound` low words are drawn again. -/
def below (bound : UInt64) (g : Generator) : UInt64 × Generator :=
  let (r, g') := g.next
  let (high, low) := scale r bound
  if low < bound then
    let least := (0 - bound) % bound
    if low < least then drawAbove bound least UInt64.size g' else (high, g')
  else (high, g')

theorem scale_fst_lt {output bound : UInt64} (h : 0 < bound.toNat) :
    (scale output bound).1.toNat < bound.toNat := by
  have hprod : output.toNat * bound.toNat < UInt64.size * bound.toNat :=
    Nat.mul_lt_mul_of_pos_right output.toNat_lt_size h
  simpa only [scale, WideProduct.toNat_high] using Nat.div_lt_of_lt_mul hprod

theorem drawAbove_lt {bound least : UInt64} (h : 0 < bound.toNat) (redraws : Nat)
    (g : Generator) : (drawAbove bound least redraws g).1.toNat < bound.toNat := by
  induction redraws generalizing g with
  | zero => exact scale_fst_lt h
  | succ n ih =>
    simp only [drawAbove]
    split
    · exact ih _
    · exact scale_fst_lt h

/-- A draw below a positive bound is below it, redrawn or not. -/
theorem below_lt {bound : UInt64} (h : 0 < bound.toNat) (g : Generator) :
    (below bound g).1.toNat < bound.toNat := by
  simp only [below]
  split
  · split
    · exact drawAbove_lt h _ _
    · exact scale_fst_lt h
  · exact scale_fst_lt h

end Generator

end BenchLoop
