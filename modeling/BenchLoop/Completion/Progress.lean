/-
BenchLoop/Completion/Progress.lean

How far an iteration has come, as the progress display shows it.  The display only
reads the pending counter; it changes nothing that a run depends on.

* `rowsFinished_le`: what is shown never exceeds the total.
-/

namespace BenchLoop

/-- The rows finished out of `total`.  A counter below zero counts as zero, and one
above the total as the total. -/
def rowsFinished (total : UInt64) (pending : Int64) : UInt64 :=
  UInt64.ofNat (total.toNat - pending.toNatClampNeg)

theorem toNat_rowsFinished (total : UInt64) (pending : Int64) :
    (rowsFinished total pending).toNat = total.toNat - pending.toNatClampNeg :=
  UInt64.toNat_ofNat_of_lt' (Nat.lt_of_le_of_lt (Nat.sub_le _ _) total.toNat_lt)

theorem rowsFinished_le (total : UInt64) (pending : Int64) :
    (rowsFinished total pending).toNat ≤ total.toNat := by
  rw [toNat_rowsFinished]
  exact Nat.sub_le _ _

end BenchLoop
