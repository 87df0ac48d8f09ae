/-
BenchLoop/Rows/Range.lean

Ranges of row indices.  A range is half open, carries the name that its task and
its thread go by, and knows the rows it covers:

* `RowRange.rows`: the row indices of the range, in order;
* `RowRange.length_rows`: there are `rowCount` of them;
* `RowRange.mem_rows`: they are exactly the indices from `start` up to `stop`.
-/

namespace BenchLoop

/-- Row indices from `start` (included) up to `stop` (excluded), under a name. -/
structure RowRange where
  name : String
  start : UInt64
  stop : UInt64
deriving Repr, DecidableEq

namespace RowRange

/-- A range that a benchmark hands to one task is named after the benchmark and
the first row. -/
def ofBounds (benchmark : String) (start stop : UInt64) : RowRange where
  name := s!"{benchmark}-{start}"
  start := start
  stop := stop

/-- The number of rows as a machine word, for `start ≤ stop`. -/
def size (r : RowRange) : UInt64 := r.stop - r.start

def isEmpty (r : RowRange) : Bool := r.start == r.stop

/-- The number of rows; a range that ends before it starts has none. -/
def rowCount (r : RowRange) : Nat := r.stop.toNat - r.start.toNat

/-- The row indices of the range, in order. -/
def rows (r : RowRange) : List Nat := List.range' r.start.toNat r.rowCount

/-- The range as log lines show it: its name and its bounds. -/
def text (r : RowRange) : String := s!"{r.name} [{r.start}, {r.stop})"

@[simp] theorem length_rows (r : RowRange) : r.rows.length = r.rowCount := by
  simp [rows]

theorem mem_rows {r : RowRange} {i : Nat} :
    i ∈ r.rows ↔ r.start.toNat ≤ i ∧ i < r.stop.toNat := by
  simp only [rows, rowCount, List.mem_range'_1]
  omega

end RowRange

end BenchLoop
