/-
BenchLoop/Proofs/Rows/Shares.lean

The shares of a partition as intervals of natural numbers.  The words in which the
bounds are computed never wrap (`toNat_share`), so the shares of `rows` rows among
`threads` threads follow one another from the first row to the last (`tiles_shares`), and
none is empty if there are as many rows as threads (`rowCount_pos`).  If there are fewer the
first one is.

What follows from the order alone is said of any ranges that follow one another (`Tiles`).
-/
import Mathlib
import BenchLoop.Rows.Partition

namespace BenchLoop

/-! ### Ranges that follow one another -/

/-- Bounds of ranges that follow one another from `start` to `stop`, none of which ends before
it starts. -/
inductive Tiles : UInt64 → List (UInt64 × UInt64) → UInt64 → Prop
  | nil (start : UInt64) : Tiles start [] start
  | cons {start next stop : UInt64} {ranges : List (UInt64 × UInt64)} :
      start ≤ next → Tiles next ranges stop → Tiles start ((start, next) :: ranges) stop

namespace Tiles

variable {start stop : UInt64} {ranges : List (UInt64 × UInt64)}

theorem le (h : Tiles start ranges stop) : start ≤ stop := by
  induction h with
  | nil => exact UInt64.le_refl _
  | cons hle _ ih => exact UInt64.le_trans hle ih

/-- Every range lies between the ends. -/
theorem bounds (h : Tiles start ranges stop) {range : UInt64 × UInt64} (hmem : range ∈ ranges) :
    start ≤ range.1 ∧ range.1 ≤ range.2 ∧ range.2 ≤ stop := by
  induction h with
  | nil => cases hmem
  | cons hle hrest ih =>
    rcases List.mem_cons.1 hmem with rfl | hmem
    · exact ⟨UInt64.le_refl _, hle, hrest.le⟩
    · obtain ⟨hstart, hbounds⟩ := ih hmem
      exact ⟨UInt64.le_trans hle hstart, hbounds⟩

/-- Each index between the ends lies in exactly one range. -/
theorem existsUnique (h : Tiles start ranges stop) {i : UInt64} (hstart : start ≤ i)
    (hstop : i < stop) :
    ∃! k : Nat, ∃ range, ranges[k]? = some range ∧ range.1 ≤ i ∧ i < range.2 := by
  induction h with
  | nil start => exact absurd hstop (UInt64.not_lt.2 hstart)
  | @cons start next stop ranges hle hrest ih =>
    rcases UInt64.lt_or_le i next with hlt | hge
    · -- the first range has the index, and all others start behind it
      refine ⟨0, ⟨_, rfl, hstart, hlt⟩, ?_⟩
      rintro (_ | k) ⟨range, hrange, hi, -⟩
      · rfl
      · have hnext := (hrest.bounds (List.mem_of_getElem? hrange)).1
        exact absurd (UInt64.le_trans hnext hi) (UInt64.not_le.2 hlt)
    · obtain ⟨k, hk, hunique⟩ := ih hge hstop
      refine ⟨k + 1, hk, ?_⟩
      rintro (_ | k') ⟨range, hrange, hi⟩
      · obtain rfl := Option.some.inj hrange
        exact absurd hi.2 (UInt64.not_lt.2 hge)
      · exact congrArg (· + 1) (hunique k' ⟨range, hrange, hi⟩)

/-- The rows of the ranges are those between the ends, in order. -/
theorem flatMap_rows (h : Tiles start ranges stop) (benchmark : String) :
    (ranges.map fun (first, last) => RowRange.ofBounds benchmark first last).flatMap RowRange.rows
      = List.range' start.toNat (stop.toNat - start.toNat) := by
  induction h with
  | nil => simp
  | @cons start next stop ranges hle hrest ih =>
    have hle := UInt64.le_iff_toNat_le.1 hle
    have hstop := UInt64.le_iff_toNat_le.1 hrest.le
    obtain ⟨n, hn⟩ := Nat.exists_eq_add_of_le hle
    obtain ⟨m, hm⟩ := Nat.exists_eq_add_of_le hstop
    rw [List.map_cons, List.flatMap_cons, ih]
    show List.range' start.toNat (next.toNat - start.toNat) ++ _ = _
    rw [hm, hn, Nat.add_sub_cancel_left, Nat.add_sub_cancel_left, List.range'_append_1,
      Nat.add_assoc, Nat.add_sub_cancel_left]

end Tiles

/-! ### The shares -/

/-- A list has room for the ranges of fewer than `2 ^ 59` threads. -/
theorem PartitionFault.ofThreads?_eq {threads : UInt64} (hthreads : threads ≠ 0) :
    ofThreads? threads = if threads.toNat < 2 ^ 59 then none else some .tooManyShares := by
  have hroom : Capacity.fitsList threads.toNat 16 = true ↔ threads.toNat < 2 ^ 59 := by
    have hsize : UInt64.size = 2 ^ 64 := rfl
    simp only [Capacity.fitsList, Capacity.blockSize, decide_eq_true_eq, hsize]
    omega
  simp only [ofThreads?, if_neg hthreads, hroom]

theorem PartitionFault.ofThreads?_eq_none_iff {threads : UInt64} (hthreads : threads ≠ 0) :
    ofThreads? threads = none ↔ threads.toNat < 2 ^ 59 := by
  rw [ofThreads?_eq hthreads]
  split
  · next h => exact iff_of_true rfl h
  · next h => exact iff_of_false nofun h

/-- No bound of a share lies behind the last row. -/
theorem mul_each_le (rows : UInt64) {threads : UInt64} {n : Nat} (hn : n ≤ threads.toNat) :
    n * (rows.toNat / threads.toNat) ≤ rows.toNat :=
  (Nat.mul_le_mul_right _ hn).trans (Nat.mul_div_le ..)

/-- The bounds of a share as numbers. -/
theorem toNat_share (rows : UInt64) {threads : UInt64} {i : Nat} (hi : i < threads.toNat) :
    (share rows threads (UInt64.ofNat i)).1.toNat = i * (rows.toNat / threads.toNat) ∧
      (share rows threads (UInt64.ofNat i)).2.toNat
        = if i + 1 = threads.toNat then rows.toNat
          else (i + 1) * (rows.toNat / threads.toNat) := by
  have hthreads := threads.toNat_lt
  have hrows := rows.toNat_lt
  have hword : (UInt64.ofNat i).toNat = i :=
    UInt64.toNat_ofNat_of_lt' (hi.trans threads.toNat_lt_size)
  have hlast : UInt64.ofNat i = threads - 1 ↔ i + 1 = threads.toNat := by
    have hone : (1 : UInt64) ≤ threads := by
      rw [UInt64.le_iff_toNat_le, UInt64.toNat_one]
      omega
    rw [← UInt64.toNat_inj, hword, UInt64.toNat_sub_of_le _ _ hone, UInt64.toNat_one]
    omega
  have hnext : (UInt64.ofNat i + 1).toNat = i + 1 := by
    rw [UInt64.toNat_add, hword, UInt64.toNat_one, Nat.mod_eq_of_lt (by omega)]
  refine ⟨?_, ?_⟩
  -- no product leaves the word, being at most the number of rows
  · have hle : i * (rows.toNat / threads.toNat) ≤ rows.toNat := mul_each_le rows hi.le
    show (UInt64.ofNat i * (rows / threads)).toNat = _
    rw [UInt64.toNat_mul, UInt64.toNat_div, hword, Nat.mod_eq_of_lt (by omega)]
  · show (if UInt64.ofNat i = threads - 1 then rows
      else (UInt64.ofNat i + 1) * (rows / threads)).toNat = _
    by_cases h : i + 1 = threads.toNat
    · rw [if_pos h, if_pos (hlast.2 h)]
    · have hle : (i + 1) * (rows.toNat / threads.toNat) ≤ rows.toNat := mul_each_le rows hi
      rw [if_neg h, if_neg (mt hlast.1 h), UInt64.toNat_mul, UInt64.toNat_div, hnext,
        Nat.mod_eq_of_lt (by omega)]

variable {benchmark : String} {rows threads : UInt64}

/-- **The shares follow one another** from row 0 to the last row. -/
theorem tiles_shares (rows : UInt64) (hthreads : 0 < threads.toNat) :
    Tiles 0 (shares rows threads) rows := by
  -- from the end: the last shares start where those before them end
  have htail (count first : Nat) (h : first + (count + 1) = threads.toNat) (start : UInt64)
      (hstart : start.toNat = first * (rows.toNat / threads.toNat)) :
      Tiles start ((List.range' first (count + 1)).map fun i =>
        share rows threads (UInt64.ofNat i)) rows := by
    induction count generalizing first start with
    | zero =>
      obtain ⟨hfst, hsnd⟩ := toNat_share rows (show first < threads.toNat by omega)
      rw [if_pos h] at hsnd
      have hle : first * (rows.toNat / threads.toNat) ≤ rows.toNat := mul_each_le rows (by omega)
      have hshare : share rows threads (UInt64.ofNat first) = (start, rows) :=
        Prod.ext (UInt64.toNat_inj.1 (hfst.trans hstart.symm)) (UInt64.toNat_inj.1 hsnd)
      rw [List.range'_one, List.map_singleton, hshare]
      exact .cons (UInt64.le_iff_toNat_le.2 (by rwa [hstart])) (.nil rows)
    | succ count ih =>
      obtain ⟨hfst, hsnd⟩ := toNat_share rows (show first < threads.toNat by omega)
      rw [if_neg (by omega)] at hsnd
      have hshare : share rows threads (UInt64.ofNat first)
          = (start, (share rows threads (UInt64.ofNat first)).2) :=
        Prod.ext (UInt64.toNat_inj.1 (hfst.trans hstart.symm)) rfl
      rw [List.range'_succ, List.map_cons, hshare]
      refine .cons (UInt64.le_iff_toNat_le.2 ?_) (ih (first + 1) (by omega) _ hsnd)
      rw [hstart, hsnd]
      exact Nat.mul_le_mul_right _ (Nat.le_succ first)
  have hall := htail (threads.toNat - 1) 0 (by omega) 0 (by simp)
  rwa [Nat.sub_add_cancel hthreads, ← List.range_eq_range'] at hall

theorem mem_taskRanges {range : RowRange} (h : range ∈ taskRanges benchmark rows threads) :
    range.name = s!"{benchmark}-{range.start}" ∧ ∃ i < threads.toNat,
      range.start.toNat = i * (rows.toNat / threads.toNat) ∧
      range.stop.toNat
        = if i + 1 = threads.toNat then rows.toNat
          else (i + 1) * (rows.toNat / threads.toNat) := by
  simp only [taskRanges, shares, List.map_map, List.mem_map, List.mem_range] at h
  obtain ⟨i, hi, rfl⟩ := h
  exact ⟨rfl, i, hi, toNat_share rows hi⟩

/-- A share lies within the rows. -/
theorem bounds_of_mem_taskRanges {range : RowRange}
    (h : range ∈ taskRanges benchmark rows threads) :
    range.start.toNat ≤ range.stop.toNat ∧ range.stop.toNat ≤ rows.toNat := by
  obtain ⟨-, i, hi, -⟩ := mem_taskRanges h
  obtain ⟨bounds, hbounds, rfl⟩ := List.mem_map.1 h
  obtain ⟨-, hle, hrows⟩ := (tiles_shares rows (Nat.zero_lt_of_lt hi)).bounds hbounds
  exact ⟨UInt64.le_iff_toNat_le.1 hle, UInt64.le_iff_toNat_le.1 hrows⟩

/-- No share is empty if there are as many rows as threads. -/
theorem rowCount_pos {range : RowRange} (h : range ∈ taskRanges benchmark rows threads)
    (hle : threads.toNat ≤ rows.toNat) : 0 < range.rowCount := by
  obtain ⟨-, i, hi, hstart, hstop⟩ := mem_taskRanges h
  have hpos : 0 < rows.toNat / threads.toNat := Nat.div_pos hle (by omega)
  have hnext : (i + 1) * (rows.toNat / threads.toNat) ≤ rows.toNat := mul_each_le rows hi
  have hsucc : (i + 1) * (rows.toNat / threads.toNat)
      = i * (rows.toNat / threads.toNat) + rows.toNat / threads.toNat := Nat.succ_mul ..
  rw [RowRange.rowCount, hstart, hstop]
  generalize rows.toNat / threads.toNat = each at *
  split <;> omega

/-- The first share is empty if there are fewer rows than threads. -/
theorem exists_taskRanges_eq_cons (benchmark : String) (hlt : rows.toNat < threads.toNat) :
    ∃ range ranges, taskRanges benchmark rows threads = range :: ranges ∧ range.rowCount = 0 := by
  obtain ⟨n, hn⟩ := Nat.exists_eq_succ_of_ne_zero (Nat.ne_zero_of_lt hlt)
  obtain ⟨hstart, hstop⟩ := toNat_share rows (show 0 < threads.toNat by omega)
  have hshares : shares rows threads = share rows threads (UInt64.ofNat 0) ::
      (List.range n).map fun i => share rows threads (UInt64.ofNat (i + 1)) := by
    rw [shares, hn, List.range_succ_eq_map, List.map_cons, List.map_map]
    rfl
  refine ⟨_, _, by rw [taskRanges, hshares, List.map_cons], ?_⟩
  show (share rows threads (UInt64.ofNat 0)).2.toNat - _ = 0
  rw [hstop, Nat.div_eq_of_lt hlt]
  split <;> omega

/-- The rows of all shares are all rows, in order and each once. -/
theorem flatMap_rows (benchmark : String) (hthreads : 0 < threads.toNat) :
    (taskRanges benchmark rows threads).flatMap RowRange.rows = List.range rows.toNat := by
  rw [taskRanges, (tiles_shares rows hthreads).flatMap_rows benchmark, List.range_eq_range']
  rfl

/-- The shares add up to the rows. -/
theorem sum_rowCount (hthreads : 0 < threads.toNat) :
    ((taskRanges benchmark rows threads).map RowRange.rowCount).sum = rows.toNat := by
  have hrows : (taskRanges benchmark rows threads).flatMap RowRange.rows = List.range rows.toNat :=
    flatMap_rows benchmark hthreads
  have hlength := congrArg List.length hrows
  rw [List.length_range, List.length_flatMap] at hlength
  simpa only [RowRange.length_rows] using hlength

end BenchLoop
