/-
BenchLoop/Completion/Stopwatch.lean

Start and end marks of an iteration.  A mark is one 64-bit word, 0 while it is
unset; a clock reading is stored with 1 added, so that a reading of 0 nanoseconds
does not look unset.  Readings past the last word are stored as the largest one.

The first thread to claim the start sets it; every store of the end overwrites the
last one.

* `Stopwatch.offset?_reading`: a stored reading gives back its nanoseconds.
-/

namespace BenchLoop

/-- The mean time per thread; without threads the total counts as one share. -/
def averageMillis (total threads : UInt64) : UInt64 :=
  total / max threads 1

/-- The marks of an iteration, each 0 while it is unset. -/
structure Stopwatch where
  startMark : UInt64 := 0
  endMark : UInt64 := 0
deriving Repr, DecidableEq, Inhabited

namespace Stopwatch

/-- The word that stands for a clock reading: its nanoseconds, or the largest
offset but one if they do not fit, plus 1. -/
def reading (nanos : Nat) : UInt64 :=
  (if nanos < UInt64.size then UInt64.ofNat nanos else UInt64.ofNat (UInt64.size - 2)) + 1

/-- The nanoseconds that a mark stands for. -/
def offset? (mark : UInt64) : Option UInt64 :=
  if mark = 0 then none else some (mark - 1)

def clearStart (w : Stopwatch) : Stopwatch := { w with startMark := 0 }

def clearEnd (w : Stopwatch) : Stopwatch := { w with endMark := 0 }

/-- Sets the start unless it is set, and says whether this call set it. -/
def claimStart (w : Stopwatch) (mark : UInt64) : Bool × Stopwatch :=
  if w.startMark = 0 then (true, { w with startMark := mark }) else (false, w)

def storeEnd (w : Stopwatch) (mark : UInt64) : Stopwatch := { w with endMark := mark }

def isStarted (w : Stopwatch) : Bool := w.startMark != 0

def isFinished (w : Stopwatch) : Bool := w.endMark != 0

/-- Nanoseconds from the creation of the stopwatch to the start. -/
def start? (w : Stopwatch) : Option UInt64 := offset? w.startMark

/-- Nanoseconds from the creation of the stopwatch to the end. -/
def finish? (w : Stopwatch) : Option UInt64 := offset? w.endMark

/-- The time from `start` to `finish`; an end before the start counts as no time. -/
def span (start finish : UInt64) : UInt64 :=
  if start ≤ finish then finish - start else 0

/-- Nanoseconds between the marks, once both are set. -/
def elapsed? (w : Stopwatch) : Option UInt64 :=
  match w.start?, w.finish? with
  | some start, some finish => some (span start finish)
  | _, _ => none

/-- The elapsed time and its mean per thread in whole milliseconds, 0 while a mark
is unset. -/
def totalsMillis (w : Stopwatch) (threads : UInt64) : UInt64 × UInt64 :=
  let total := (w.elapsed?.getD 0) / 1000000
  (total, averageMillis total threads)

theorem offset?_reading {nanos : Nat} (h : nanos < UInt64.size - 1) :
    offset? (reading nanos) = some (UInt64.ofNat nanos) := by
  have hsize : UInt64.size = 18446744073709551616 := rfl
  have hlt : nanos < UInt64.size := by omega
  have hval : (UInt64.ofNat nanos + 1).toNat = nanos + 1 := by
    rw [UInt64.toNat_add, UInt64.toNat_ofNat_of_lt' (by simpa using hlt)]
    simp only [UInt64.toNat_one]
    omega
  have hne : UInt64.ofNat nanos + 1 ≠ 0 := by
    intro h0
    rw [h0] at hval
    simp at hval
  rw [offset?, reading, if_pos hlt, if_neg hne, UInt64.add_sub_cancel]

end Stopwatch

end BenchLoop
