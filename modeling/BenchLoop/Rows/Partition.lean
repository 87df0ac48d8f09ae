/-
BenchLoop/Rows/Partition.lean

Cutting the rows of an iteration into one contiguous range per thread.  Every
range but the last has `rows / threads` rows, and the last also takes what the
division leaves over, so the ranges follow one another from row 0 to the last row.

Bounds are computed in 64-bit words; `length_shares` counts the ranges.  Rows cannot be
shared among no thread, nor among more than a list has room for.
-/
import BenchLoop.Capacity
import BenchLoop.Rows.Range

namespace BenchLoop

/-- The bounds of the `i`-th of `threads` shares of `rows` rows. -/
def share (rows threads i : UInt64) : UInt64 × UInt64 :=
  let each := rows / threads
  (i * each, if i = threads - 1 then rows else (i + 1) * each)

/-- The bounds of all shares, in order.  No thread, no share. -/
def shares (rows threads : UInt64) : List (UInt64 × UInt64) :=
  (List.range threads.toNat).map fun i => share rows threads (UInt64.ofNat i)

@[simp] theorem length_shares (rows threads : UInt64) :
    (shares rows threads).length = threads.toNat := by
  simp [shares]

/-- Why rows cannot be shared. -/
inductive PartitionFault where
  /-- There is no thread to take a share. -/
  | noThread
  /-- There are more shares than a list has room for. -/
  | tooManyShares
deriving Repr, DecidableEq

namespace PartitionFault

/-- The panic over the fault. -/
def payload : PartitionFault → Payload
  | noThread => .text "attempt to divide by zero"
  | tooManyShares => .listOverflow

/-- What is wrong with a number of threads.  A share takes two words of 8 bytes. -/
def ofThreads? (threads : UInt64) : Option PartitionFault :=
  if threads = 0 then some .noThread
  else if Capacity.fitsList threads.toNat 16 then none
  else some .tooManyShares

end PartitionFault

/-- The shares, or why there are none. -/
def partition? (rows threads : UInt64) : Except PartitionFault (List (UInt64 × UInt64)) :=
  match PartitionFault.ofThreads? threads with
  | some fault => .error fault
  | none => .ok (shares rows threads)

/-- The named ranges that the tasks of one iteration get, in order. -/
def taskRanges (benchmark : String) (rows threads : UInt64) : List RowRange :=
  (shares rows threads).map fun (start, stop) => .ofBounds benchmark start stop

@[simp] theorem length_taskRanges (benchmark : String) (rows threads : UInt64) :
    (taskRanges benchmark rows threads).length = threads.toNat := by
  simp [taskRanges]

/-- The named ranges, or why there are none. -/
def taskRanges? (benchmark : String) (rows threads : UInt64) :
    Except PartitionFault (List RowRange) :=
  match PartitionFault.ofThreads? threads with
  | some fault => .error fault
  | none => .ok (taskRanges benchmark rows threads)

end BenchLoop
