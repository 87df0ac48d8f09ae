/-
BenchLoop/Proofs/Completion/Clock.lean

Readings of the clock as marks.  A reading is stored with 1 added, and readings past the
last word are stored as the largest one.  So exactly one reading looks like no reading at
all, that of the largest word (`Stopwatch.reading_eq_zero_iff`), and apart from it later
readings give later marks (`Stopwatch.reading_le`).
-/
import BenchLoop.Completion.Stopwatch
import Mathlib.Tactic.SplitIfs

namespace BenchLoop

namespace Stopwatch

/-- The word that is stored for a reading. -/
theorem toNat_reading (nanos : Nat) :
    (reading nanos).toNat
      = if nanos = UInt64.size - 1 then 0 else min nanos (UInt64.size - 2) + 1 := by
  have hsize : UInt64.size = 18446744073709551616 := rfl
  unfold reading
  split
  · next hlt =>
    rw [UInt64.toNat_add, UInt64.toNat_ofNat_of_lt' (by simpa using hlt), UInt64.toNat_one]
    split_ifs <;> omega
  · next hge =>
    have hlast : (UInt64.ofNat (UInt64.size - 2) + 1).toNat = UInt64.size - 1 := by decide
    rw [hlast]
    split_ifs <;> omega

/-- The reading of the largest word is the only one that looks unset. -/
theorem reading_eq_zero_iff {nanos : Nat} : reading nanos = 0 ↔ nanos = UInt64.size - 1 := by
  rw [← UInt64.toNat_inj, toNat_reading]
  split_ifs with h
  · exact iff_of_true rfl h
  · exact iff_of_false (Nat.succ_ne_zero _) h

/-- Later readings give later marks, short of the one that looks unset. -/
theorem reading_le {t t' : Nat} (h : t ≤ t') (hset : reading t' ≠ 0) :
    reading t ≤ reading t' := by
  rw [ne_eq, reading_eq_zero_iff] at hset
  rw [UInt64.le_iff_toNat_le, toNat_reading, toNat_reading, if_neg hset]
  split_ifs <;> omega

end Stopwatch

end BenchLoop
