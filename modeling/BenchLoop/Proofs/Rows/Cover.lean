/-
BenchLoop/Proofs/Rows/Cover.lean

A partition covers the rows exactly: one range per thread, one after another from row 0 to
the last row (`ExactCover`), whatever the numbers of rows and threads are.  None of the
products in which the bounds are computed leaves the 64-bit words, because none of them is
greater than the number of rows (`mul_each_le`).

There is one limit, and it has nothing to do with rows: a list has no room for the ranges
of `2 ^ 59` threads or more.
-/
import BenchLoop.Proofs.Rows.Shares

namespace BenchLoop

/-- How ranges for some threads cover some rows. -/
structure ExactCover (rows threads : UInt64) (ranges : List (UInt64 × UInt64)) : Prop where
  /-- There is one range for each thread. -/
  count : ranges.length = threads.toNat
  /-- The first range starts at row 0, each of the others where the one before it ends, and the
  last one ends with the rows.  None ends before it starts. -/
  tiles : Tiles 0 ranges rows
  /-- Every row lies in exactly one range. -/
  once : ∀ row < rows, ∃! k : Nat,
    ∃ range, ranges[k]? = some range ∧ range.1 ≤ row ∧ row < range.2
  /-- Nothing but rows lies in a range. -/
  only : ∀ range ∈ ranges, ∀ row, range.1 ≤ row → row < range.2 → row < rows
  /-- All ranges are of the same length, but the last one also takes what the division leaves
  over. -/
  lengths : ∀ k range, ranges[k]? = some range → range.2 - range.1
    = if k + 1 = threads.toNat then rows / threads + rows % threads else rows / threads

/-- The length of a share. -/
theorem share_sub (rows : UInt64) {threads : UInt64} {i : Nat} (hi : i < threads.toNat) :
    (share rows threads (UInt64.ofNat i)).2 - (share rows threads (UInt64.ofNat i)).1
      = if i + 1 = threads.toNat then rows / threads + rows % threads else rows / threads := by
  obtain ⟨hstart, hstop⟩ := toNat_share rows hi
  have hmem : share rows threads (UInt64.ofNat i) ∈ shares rows threads :=
    List.mem_map_of_mem (List.mem_range.2 hi)
  have hle := ((tiles_shares rows (Nat.zero_lt_of_lt hi)).bounds hmem).2.1
  have hsucc : (i + 1) * (rows.toNat / threads.toNat)
      = i * (rows.toNat / threads.toNat) + rows.toNat / threads.toNat := Nat.succ_mul ..
  rw [← UInt64.toNat_inj, UInt64.toNat_sub_of_le _ _ hle, hstart, hstop]
  by_cases hlast : i + 1 = threads.toNat
  · -- the last share takes what the shares before it leave
    have hdiv : threads.toNat * (rows.toNat / threads.toNat) + rows.toNat % threads.toNat
        = rows.toNat := Nat.div_add_mod ..
    have hall : threads.toNat * (rows.toNat / threads.toNat)
        = i * (rows.toNat / threads.toNat) + rows.toNat / threads.toNat := by
      rw [← hsucc, hlast]
    have hrest : rows.toNat - i * (rows.toNat / threads.toNat)
        = rows.toNat / threads.toNat + rows.toNat % threads.toNat := by
      rw [hall, Nat.add_assoc] at hdiv
      exact Nat.sub_eq_of_eq_add' hdiv.symm
    rw [if_pos hlast, if_pos hlast, UInt64.toNat_add, UInt64.toNat_div, UInt64.toNat_mod, ← hrest,
      Nat.mod_eq_of_lt ((Nat.sub_le ..).trans_lt rows.toNat_lt)]
  · rw [if_neg hlast, if_neg hlast, UInt64.toNat_div, hsucc, Nat.add_sub_cancel_left]

theorem exactCover_shares (rows : UInt64) {threads : UInt64} (hthreads : 0 < threads.toNat) :
    ExactCover rows threads (shares rows threads) where
  count := length_shares rows threads
  tiles := tiles_shares rows hthreads
  once _ hrow := (tiles_shares rows hthreads).existsUnique UInt64.zero_le hrow
  only range hrange _ _ hrow :=
    UInt64.lt_of_lt_of_le hrow ((tiles_shares rows hthreads).bounds hrange).2.2
  lengths k range hrange := by
    rw [shares, List.getElem?_map] at hrange
    obtain ⟨i, hi, rfl⟩ := Option.map_eq_some_iff.1 hrange
    obtain ⟨hk, rfl⟩ := List.getElem?_eq_some_iff.1 hi
    rw [List.length_range] at hk
    rw [List.getElem_range]
    exact share_sub rows hk

/-- **A partition covers the rows exactly**, whatever the numbers of rows and threads are, as long
as a list has room for the ranges.  No product of the number of a range and the rows of each
leaves the words, with or without such room. -/
theorem partition?_exactCover (rows : UInt64) {threads : UInt64} (hthreads : threads ≠ 0) :
    (∀ i < threads.toNat, i * (rows / threads).toNat < UInt64.size ∧
      (i + 1) * (rows / threads).toNat < UInt64.size) ∧
    (threads.toNat < 2 ^ 59 →
      ∃ ranges, partition? rows threads = .ok ranges ∧ ExactCover rows threads ranges) ∧
    (2 ^ 59 ≤ threads.toNat → partition? rows threads = .error .tooManyShares) := by
  have hpos : 0 < threads.toNat :=
    Nat.pos_of_ne_zero fun h => hthreads (UInt64.toNat_inj.1 h)
  refine ⟨fun i hi => ?_, fun hfew => ?_, fun hmany => ?_⟩
  · rw [UInt64.toNat_div]
    exact ⟨(mul_each_le rows hi.le).trans_lt rows.toNat_lt_size,
      (mul_each_le rows hi).trans_lt rows.toNat_lt_size⟩
  · have hroom := (PartitionFault.ofThreads?_eq_none_iff hthreads).2 hfew
    exact ⟨shares rows threads, by rw [partition?, hroom], exactCover_shares rows hpos⟩
  · rw [partition?, PartitionFault.ofThreads?_eq hthreads, if_neg (Nat.not_lt.2 hmany)]

/-- The most rows there can be, among 17 threads. -/
theorem partition?_exactCover_max :
    (17 : UInt64) ≠ 0 ∧ ∃ ranges, partition? 18446744073709551615 17 = .ok ranges ∧
      ExactCover 18446744073709551615 17 ranges := by
  have hthreads : (17 : UInt64) ≠ 0 := by decide
  exact ⟨hthreads, (partition?_exactCover 18446744073709551615 hthreads).2.1 (by decide)⟩

/-- A single row cannot be shared among more threads than a list has room for. -/
theorem not_exactCover_of_crowded :
    partition? 1 1152921504606846976 = .error .tooManyShares ∧
      ¬ ∀ rows threads : UInt64, threads ≠ 0 →
        ∃ ranges, partition? rows threads = .ok ranges ∧ ranges.length = threads.toNat := by
  have hfault : partition? 1 1152921504606846976 = .error .tooManyShares := rfl
  refine ⟨hfault, fun h => ?_⟩
  obtain ⟨ranges, hranges, -⟩ := h 1 1152921504606846976 (by decide)
  rw [hfault] at hranges
  cases hranges

end BenchLoop
