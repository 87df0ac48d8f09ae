/-
BenchLoop/Keys/Permutation.lean

The seeded order in which a random run visits its keys: a shuffle of the keys
`1, …, rows`, built once and shared by every iteration.

Seed 0 asks for a random seed; the seed in use is kept, so that a run can name it.

* `Permutation.perm_consecutive`: the shuffle only reorders the keys;
* `Permutation.size_keys`: there is one key per row.
-/
import BenchLoop.Keys.Generator

namespace BenchLoop

/-- The keys `1, …, rows` in order. -/
def consecutiveKeys (rows : UInt32) : Array UInt32 :=
  Array.ofFn fun i : Fin rows.toNat => UInt32.ofNat i + 1

/-- One exchange of the shuffle: the cell at `i` with one drawn from those up to `i`. -/
def shuffleStep (state : Array UInt32 × Generator) (i : Nat) : Array UInt32 × Generator :=
  let drawn := state.2.below (UInt64.ofNat (i + 1))
  (state.1.swapIfInBounds i drawn.1.toNat, drawn.2)

/-- Exchanges every cell but the first with one drawn from the cells up to it. -/
def shuffle (keys : Array UInt32) (g : Generator) : Array UInt32 :=
  ((List.range' 1 (keys.size - 1)).foldl shuffleStep (keys, g)).1

/-- A shuffled sequence of keys with the seed that gave it. -/
structure Permutation where
  seed : UInt64
  keys : Array UInt32
deriving Repr, DecidableEq

namespace Permutation

/-- Shuffles the keys of `rows` rows.  `drawn` is what the system's random source
delivers; it is used where the requested seed is 0. -/
def build (rows : UInt32) (requested drawn : UInt64) : Permutation :=
  let seed := if requested = 0 then drawn else requested
  { seed, keys := shuffle (consecutiveKeys rows) ⟨seed⟩ }

def size (p : Permutation) : Nat := p.keys.size

def isEmpty (p : Permutation) : Bool := p.keys.isEmpty

/-- The key at a row index, if the index is one of a row. -/
def key? (p : Permutation) (row : Nat) : Option UInt32 := p.keys[row]?

/-- What went wrong when a row has no key. -/
def outOfBounds (p : Permutation) (row : Nat) : String :=
  .join ["index out of bounds: the len is ", toString p.size, " but the index is ", toString row]

/-- Whether the keys are those of `rows` rows, each once: there are as many as rows, and
ticking them off leaves none. -/
def covers (p : Permutation) (rows : UInt32) : Bool :=
  let tickOff (ticks : Array Bool) (key : UInt32) : Array Bool :=
    ticks.setIfInBounds (key - 1).toNat true
  p.size == rows.toNat && (p.keys.foldl tickOff (Array.replicate rows.toNat false)).all id

end Permutation

theorem size_consecutiveKeys (rows : UInt32) : (consecutiveKeys rows).size = rows.toNat := by
  simp [consecutiveKeys]

theorem swapIfInBounds_perm (keys : Array UInt32) (i j : Nat) :
    (keys.swapIfInBounds i j).Perm keys := by
  rw [Array.swapIfInBounds_def]
  split
  · split
    · exact Array.swap_perm _ _
    · exact .refl _
  · exact .refl _

theorem shuffleStep_perm (state : Array UInt32 × Generator) (i : Nat) :
    (shuffleStep state i).1.Perm state.1 :=
  swapIfInBounds_perm ..

theorem shuffle_perm (keys : Array UInt32) (g : Generator) : (shuffle keys g).Perm keys := by
  have go (is : List Nat) (state : Array UInt32 × Generator) :
      (is.foldl shuffleStep state).1.Perm state.1 := by
    induction is generalizing state with
    | nil => exact .refl _
    | cons i is ih => exact (ih _).trans (shuffleStep_perm state i)
  exact go _ _

namespace Permutation

/-- The keys are `1, …, rows`, each once, whatever the seed. -/
theorem perm_consecutive (rows : UInt32) (requested drawn : UInt64) :
    (build rows requested drawn).keys.Perm (consecutiveKeys rows) :=
  shuffle_perm _ _

@[simp] theorem size_keys (rows : UInt32) (requested drawn : UInt64) :
    (build rows requested drawn).keys.size = rows.toNat :=
  (perm_consecutive rows requested drawn).size_eq.trans (size_consecutiveKeys rows)

end Permutation

end BenchLoop
