/-
BenchLoop/Completion/Latch.lean

One-shot latches.  A latch is released at most once and stays released; every
release says whether it was the one that did it.

Seen from the outside each operation is one atomic step.  How the steps of a lock
and a condition variable make it one is the subject of `Latch/Waiting`.
-/

namespace BenchLoop

/-- A latch that waiters pass once it has been released. -/
structure Latch where
  released : Bool := false
deriving Repr, DecidableEq, Inhabited

namespace Latch

/-- Releases the latch, and says whether this call was the first to do so. -/
def release (l : Latch) : Bool × Latch := (!l.released, ⟨true⟩)

@[simp] theorem released_release (l : Latch) : l.release.2.released = true := rfl

@[simp] theorem release_fst (l : Latch) : l.release.1 = !l.released := rfl

end Latch

end BenchLoop
