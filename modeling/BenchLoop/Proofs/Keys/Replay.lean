/-
BenchLoop/Proofs/Keys/Replay.lean

Replaying a permutation: building one again with the seed that the first one names.

A permutation is a function of its seed (`Permutation.build_eq_of_seed_eq`), and a seed other
than 0 is used as it is.  So a replay gives the same permutation as long as the seed is not 0;
seed 0 is read as a request for a random seed once more, and then the replay is the
permutation of whatever is drawn next:

    (p.replay rows drawn).seed = if p.seed = 0 then drawn else p.seed

Nothing keeps 0 from being drawn, and the generator does deliver it
(`Generator.next_beforeZero`).  `Permutation.replays_iff` says which permutations can be
replayed; `Permutation.replayAll_eq` follows replays of replays.
-/
import BenchLoop.Keys.Permutation

namespace BenchLoop

namespace Permutation

variable {rows : UInt32} {requested first second : UInt64} {p : Permutation}

/-! ### The seed decides -/

@[simp] theorem seed_build (rows : UInt32) (requested drawn : UInt64) :
    (build rows requested drawn).seed = if requested = 0 then drawn else requested := rfl

/-- The seed decides the keys, however it was come by. -/
theorem build_eq_of_seed_eq {requested' drawn drawn' : UInt64}
    (h : (build rows requested drawn).seed = (build rows requested' drawn').seed) :
    build rows requested drawn = build rows requested' drawn' := by
  rw [seed_build, seed_build] at h
  unfold build
  rw [h]

theorem seed_build_eq_zero_iff :
    (build rows requested first).seed = 0 ↔ requested = 0 ∧ first = 0 := by
  rw [seed_build]
  split
  · next h => exact ⟨fun h' => ⟨h, h'⟩, And.right⟩
  · next h => exact iff_of_false h fun h' => h h'.1

/-! ### One replay -/

/-- A permutation built again from the seed that `p` names, the random source delivering
`drawn` if it is asked. -/
def replay (rows : UInt32) (p : Permutation) (drawn : UInt64) : Permutation :=
  build rows p.seed drawn

/-- Every replay of a permutation is that permutation, whatever is drawn. -/
def Replays (rows : UInt32) (p : Permutation) : Prop :=
  ∀ drawn, p.replay rows drawn = p

theorem seed_replay (rows : UInt32) (p : Permutation) (drawn : UInt64) :
    (p.replay rows drawn).seed = if p.seed = 0 then drawn else p.seed := rfl

/-- A replay is right exactly if the seed is used as it is, or 0 is drawn once more. -/
theorem replay_build_eq_iff :
    (build rows requested first).replay rows second = build rows requested first ↔
      requested ≠ 0 ∨ first ≠ 0 ∨ second = 0 := by
  have hzero : (build rows requested first).seed = 0 ↔ requested = 0 ∧ first = 0 :=
    seed_build_eq_zero_iff
  have hseed := seed_replay rows (build rows requested first) second
  constructor
  · intro h
    rw [h] at hseed
    -- a seed of 0 asks for a draw when it is replayed, as no seed does
    by_cases h0 : (build rows requested first).seed = 0
    · rw [if_pos h0, h0] at hseed
      exact .inr (.inr hseed.symm)
    · rw [hzero, Decidable.not_and_iff_not_or_not] at h0
      exact h0.imp_right .inl
  · intro h
    refine build_eq_of_seed_eq ?_
    show ((build rows requested first).replay rows second).seed = _
    rw [hseed]
    split
    · next h0 =>
      obtain ⟨hrequested, hfirst⟩ := hzero.1 h0
      rw [h0]
      exact (h.resolve_left (not_not_intro hrequested)).resolve_left (not_not_intro hfirst)
    · rfl

/-- **Replays**: a permutation can be replayed if and only if its seed is not 0, that is
unless 0 was drawn for a random seed.  Then a replay is right only if 0 is drawn again. -/
theorem replays_iff (rows : UInt32) (requested first : UInt64) :
    ((build rows requested first).Replays rows ↔ requested ≠ 0 ∨ first ≠ 0) ∧
      ∀ second, (build rows requested first).replay rows second = build rows requested first ↔
        requested ≠ 0 ∨ first ≠ 0 ∨ second = 0 := by
  refine ⟨⟨fun h => ?_, fun h second => ?_⟩, fun second => replay_build_eq_iff⟩
  · -- a draw of 1 tells the two apart
    have hone := replay_build_eq_iff.1 (h 1)
    exact hone.imp_right fun h' => h'.resolve_right (by decide)
  · exact replay_build_eq_iff.2 (h.imp_right .inl)

/-! ### Replays of replays -/

/-- Replays one after another, each from the seed that the one before it names. -/
def replayAll (rows : UInt32) (p : Permutation) (draws : List UInt64) : Permutation :=
  draws.foldl (replay rows) p

/-- The first word of a list that is not 0, if there is one. -/
def firstNonzero (words : List UInt64) : UInt64 := (words.find? (· != 0)).getD 0

theorem firstNonzero_cons (word : UInt64) (words : List UInt64) :
    firstNonzero (word :: words) = if word = 0 then firstNonzero words else word := by
  by_cases h : word = 0 <;> simp [firstNonzero, h]

theorem firstNonzero_seed (rows : UInt32) (requested drawn : UInt64) (words : List UInt64) :
    firstNonzero ((build rows requested drawn).seed :: words)
      = firstNonzero (requested :: drawn :: words) := by
  rw [firstNonzero_cons requested, seed_build]
  split
  · rfl
  · next h => rw [firstNonzero_cons, if_neg h]

/-- A word that was not drawn stands for its own permutation. -/
theorem seed_build_zero (word : UInt64) : (build rows word 0).seed = word := by
  rw [seed_build]
  split
  · next h => exact h.symm
  · rfl

/-- Of any number of replays the last is the permutation of the first seed that was not 0:
once such a seed is drawn it stays. -/
theorem replayAll_eq (rows : UInt32) (requested first : UInt64) (draws : List UInt64) :
    (build rows requested first).replayAll rows draws
      = build rows (firstNonzero (requested :: first :: draws)) 0 := by
  rw [← firstNonzero_seed rows]
  induction draws generalizing requested first with
  | nil =>
    refine build_eq_of_seed_eq ?_
    rw [seed_build_zero, firstNonzero_cons]
    split
    · next h => exact h
    · rfl
  | cons drawn draws ih =>
    show (build rows (build rows requested first).seed drawn).replayAll rows draws = _
    rw [ih, firstNonzero_seed]

end Permutation

/-! ### A seed of 0 is drawn -/

/-- The state of a generator that delivers 0 next. -/
def Generator.beforeZero : Generator := ⟨0 - stride⟩

theorem Generator.next_beforeZero : Generator.beforeZero.next = (0, ⟨0⟩) := by decide

namespace Permutation

/-- A random permutation whose seed is drawn as 0, and what the next draw makes of it: other
keys under another seed. -/
theorem not_replays_zero_drawn :
    ¬ (build 10 0 Generator.beforeZero.next.1).Replays 10 ∧
      ((build 10 0 Generator.beforeZero.next.1).replay 10
          Generator.beforeZero.next.2.next.1).seed
        ≠ (build 10 0 Generator.beforeZero.next.1).seed ∧
      ((build 10 0 Generator.beforeZero.next.1).replay 10
          Generator.beforeZero.next.2.next.1).keys
        ≠ (build 10 0 Generator.beforeZero.next.1).keys := by
  have hkeys : ((build 10 0 Generator.beforeZero.next.1).replay 10
      Generator.beforeZero.next.2.next.1).keys
        ≠ (build 10 0 Generator.beforeZero.next.1).keys := by decide +kernel
  exact ⟨fun h => hkeys (congrArg keys (h _)), by decide +kernel, hkeys⟩

end Permutation

end BenchLoop
