/-
BenchLoop/Proofs/Completion/Readings.lean

What a mark says of the clock reading that it stands for.  Readings that have no word of
their own are stored as the last offset, and 1 is added to every reading so that none looks
unset:

    Encodes nanos    the sum fits its word, is not 0, is not below the mark of an earlier
                     reading, and the marks give the reading back
    Loses nanos      the sum wraps to 0: the mark looks unset, before and after it is stored

The saturation goes by what fits the word before 1 is added, not after.  So it leaves one
reading between the two, that of the largest word: every other reading is encoded, and this
one is lost (`Stopwatch.encodes_iff_loses_iff`).
-/
import BenchLoop.Completion.Countdown
import BenchLoop.Proofs.Completion.Clock
import Mathlib.Order.Bounds.Defs

namespace BenchLoop

namespace Stopwatch

/-! ### Offsets and their words -/

/-- The nanoseconds of a reading as one word, to which 1 is added. -/
def saturated (nanos : Nat) : UInt64 :=
  if nanos < UInt64.size then UInt64.ofNat nanos else UInt64.ofNat (UInt64.size - 2)

theorem reading_eq_saturated (nanos : Nat) : reading nanos = saturated nanos + 1 := rfl

/-- The last offset that a mark can stand for. -/
def lastOffset : UInt64 := UInt64.ofNat (UInt64.size - 2)

/-- The offset that a mark should give back for a reading: its nanoseconds, or the last
offset if there are more. -/
def offset (nanos : Nat) : UInt64 :=
  if nanos ≤ lastOffset.toNat then UInt64.ofNat nanos else lastOffset

theorem toNat_lastOffset : lastOffset.toNat = UInt64.size - 2 := by decide

theorem isGreatest_lastOffset : IsGreatest {t | ∃ mark, offset? mark = some t} lastOffset := by
  refine ⟨⟨UInt64.ofNat (UInt64.size - 1), by decide⟩, ?_⟩
  rintro t ⟨mark, hmark⟩
  obtain ⟨hset, rfl⟩ : mark ≠ 0 ∧ mark - 1 = t := by
    simpa only [offset?, Option.ite_none_left_eq_some, Option.some.injEq] using hmark
  have hpos : 0 < mark.toNat := Nat.pos_of_ne_zero fun h0 => hset (UInt64.toNat_inj.1 h0)
  have hlt : mark.toNat < UInt64.size := mark.toNat_lt
  have hone : (1 : UInt64) ≤ mark := UInt64.le_iff_toNat_le.2 hpos
  rw [UInt64.le_iff_toNat_le, UInt64.toNat_sub_of_le _ _ hone, toNat_lastOffset, UInt64.toNat_one]
  omega

theorem toNat_saturated (nanos : Nat) :
    (saturated nanos).toNat = if nanos < UInt64.size then nanos else UInt64.size - 2 := by
  unfold saturated
  split
  · next hlt => exact UInt64.toNat_ofNat_of_lt' hlt
  · decide

/-- Only the largest word leaves no room for the 1 that is added. -/
theorem toNat_saturated_add_one_lt_iff {nanos : Nat} :
    (saturated nanos).toNat + 1 < UInt64.size ↔ nanos ≠ UInt64.size - 1 := by
  have hsize : UInt64.size = 18446744073709551616 := rfl
  rw [toNat_saturated]
  split <;> omega

/-- Short of the reading that looks unset, a mark gives its reading back. -/
theorem offset?_reading_eq_offset {nanos : Nat} (h : nanos ≠ UInt64.size - 1) :
    offset? (reading nanos) = some (offset nanos) := by
  have hsize : UInt64.size = 18446744073709551616 := rfl
  rcases Nat.lt_or_gt_of_ne h with hlt | hgt
  · rw [offset?_reading hlt, offset, if_pos (by rw [toNat_lastOffset]; omega)]
  · have hword : reading nanos = UInt64.ofNat (UInt64.size - 2) + 1 := by
      rw [reading, if_neg (by omega)]
    rw [hword, offset, if_neg (by rw [toNat_lastOffset]; omega)]
    decide

/-! ### Readings that are encoded, and readings that are lost -/

/-- A reading that its mark stands for: as the end of an iteration, and as its start where
the claim of it wins. -/
structure Encodes (nanos : Nat) : Prop where
  fits : (saturated nanos).toNat + 1 < UInt64.size
  set : reading nanos ≠ 0
  ordered : ∀ t ≤ nanos, reading t ≤ reading nanos
  finish : ∀ w : Stopwatch, (w.storeEnd (reading nanos)).isFinished = true ∧
    (w.storeEnd (reading nanos)).finish? = some (offset nanos)
  start : ∀ w : Stopwatch, (w.claimStart (reading nanos)).1 = true →
    (w.claimStart (reading nanos)).2.isStarted = true ∧
      (w.claimStart (reading nanos)).2.start? = some (offset nanos)

/-- A reading whose mark looks unset.  Stored as the end it unsets the end; a claim of the
start wins with it and sets nothing, so that the next claim wins as well. -/
structure Loses (nanos : Nat) : Prop where
  wraps : (saturated nanos).toNat + 1 = UInt64.size
  unset : reading nanos = 0
  disordered : ∀ t < nanos, reading nanos < reading t
  finish : ∀ w : Stopwatch, (w.storeEnd (reading nanos)).isFinished = false ∧
    (w.storeEnd (reading nanos)).finish? = none
  start : ∀ w : Stopwatch, w.isStarted = false →
    w.claimStart (reading nanos) = (true, w) ∧ w.start? = none ∧
      ∀ mark, ((w.claimStart (reading nanos)).2.claimStart mark).1 = true

variable {nanos : Nat}

theorem isStarted_eq_false_iff {w : Stopwatch} : w.isStarted = false ↔ w.startMark = 0 :=
  bne_eq_false_iff_eq

theorem claimStart_fst {w : Stopwatch} {mark : UInt64} :
    (w.claimStart mark).1 = true ↔ w.startMark = 0 := by
  unfold claimStart
  split
  · next h => exact iff_of_true rfl h
  · next h => exact iff_of_false Bool.false_ne_true h

theorem claimStart_of_unset {w : Stopwatch} (h : w.startMark = 0) (mark : UInt64) :
    w.claimStart mark = (true, { w with startMark := mark }) :=
  if_pos h

theorem encodes_of_ne (h : nanos ≠ UInt64.size - 1) : Encodes nanos := by
  have hset : reading nanos ≠ 0 := fun h0 => h (reading_eq_zero_iff.1 h0)
  refine ⟨toNat_saturated_add_one_lt_iff.2 h, hset, fun t ht => reading_le ht hset, ?_, ?_⟩
  · intro w
    exact ⟨bne_iff_ne.2 hset, offset?_reading_eq_offset h⟩
  · intro w hwon
    rw [claimStart_of_unset (claimStart_fst.1 hwon)]
    exact ⟨bne_iff_ne.2 hset, offset?_reading_eq_offset h⟩

theorem loses_last : Loses (UInt64.size - 1) := by
  have hunset : reading (UInt64.size - 1) = 0 := reading_eq_zero_iff.2 rfl
  refine ⟨by decide, hunset, ?_, ?_, ?_⟩
  · intro t ht
    have hset : reading t ≠ 0 := fun h0 => Nat.ne_of_lt ht (reading_eq_zero_iff.1 h0)
    rw [hunset]
    exact UInt64.pos_iff_ne_zero.2 hset
  · intro w
    rw [hunset]
    exact ⟨rfl, rfl⟩
  -- a claim that wins leaves the start as it was, so that the next one wins, too
  · intro w hw
    have hstart : w.startMark = 0 := isStarted_eq_false_iff.1 hw
    have hclaim : w.claimStart (reading (UInt64.size - 1)) = (true, w) := by
      rw [claimStart_of_unset hstart, hunset, ← hstart]
    refine ⟨hclaim, by rw [start?, hstart]; rfl, fun mark => ?_⟩
    rw [hclaim]
    exact claimStart_fst.2 hstart

/-- **Readings of the clock**: the mark of a reading stands for it, except for the reading of
the largest word, whose mark looks unset. -/
theorem encodes_iff_loses_iff (nanos : Nat) :
    (Encodes nanos ↔ nanos ≠ UInt64.size - 1) ∧ (Loses nanos ↔ nanos = UInt64.size - 1) := by
  refine ⟨⟨fun h h0 => h.set (reading_eq_zero_iff.2 h0), encodes_of_ne⟩,
    fun h => reading_eq_zero_iff.1 h.unset, ?_⟩
  rintro rfl
  exact loses_last

/-- Not every reading is encoded. -/
theorem not_encodes_last : ¬ Encodes (UInt64.size - 1) :=
  fun h => h.set (by decide)

end Stopwatch

/-! ### What it means for an iteration -/

namespace Countdown

variable {c : Countdown} {now : Nat}

/-- The notification that uses up the rows sets the end, unless its reading is lost. -/
theorem isFinished_notify_iff {count : UInt32} (hcount : count ≠ 0)
    (hlast : c.pending.toInt ≤ count.toNat) :
    (c.notify now count).watch.isFinished = true ↔ now ≠ UInt64.size - 1 := by
  rw [notify_eq, if_neg hcount, if_pos hlast]
  show (Stopwatch.reading now != 0) = true ↔ _
  rw [bne_iff_ne, ne_eq, Stopwatch.reading_eq_zero_iff]

/-- The first claim of the start sets it, unless its reading is lost. -/
theorem isStarted_markStarted_iff (hunset : c.watch.isStarted = false) :
    (c.markStarted now).2.watch.isStarted = true ↔ now ≠ UInt64.size - 1 := by
  rw [markStarted_eq,
    Stopwatch.claimStart_of_unset (Stopwatch.isStarted_eq_false_iff.1 hunset)]
  show (Stopwatch.reading now != 0) = true ↔ _
  rw [bne_iff_ne, ne_eq, Stopwatch.reading_eq_zero_iff]

end Countdown

end BenchLoop
