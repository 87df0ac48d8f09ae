/-
BenchLoop/Completion/Countdown.lean

The completion state that all tasks of a benchmark share: a counter of the rows
that are still pending, the stopwatch, and the latch of the current iteration.

No lock guards the state as a whole.  What a thread does to it is a sequence of
atomic steps, `CountdownAction`, between which other threads may take theirs.
`Countdown.exec` is one such step; it says which step the same thread takes next.

* A notification subtracts its count.  If that leaves nothing pending it reads the
  clock, stores the end, takes the flag `claimed`, and releases the latch if it was
  the first to take the flag.
* A reset clears the marks, installs a new latch, clears the flag and arms the
  counter, each with a store of its own.
* `Countdown.run` takes a thread's steps with nobody in between; `reset`, `notify`
  and `markStarted` are such runs, in closed form by `reset_eq`, `notify_eq` and
  `markStarted_eq`.
-/
import BenchLoop.Table
import BenchLoop.Completion.Latch
import BenchLoop.Completion.Stopwatch

namespace BenchLoop

/-- The completion state of a benchmark.  Latches are numbered by the reset that
installed them; number 0 belongs to the state before the first reset. -/
structure Countdown where
  /-- Rows still to be notified; below zero if more were notified than there were. -/
  pending : Int64 := 0
  watch : Stopwatch := {}
  latches : Table Latch := {}
  /-- The number of the latch that notifications release. -/
  current : Nat := 0
  /-- Whether some notification has taken it on itself to release the latch. -/
  claimed : Bool := false
deriving Inhabited

/-- An atomic step on a countdown. -/
inductive CountdownAction where
  | clearStart
  | clearEnd
  | installLatch
  | armClaim (rows : UInt64)
  | armPending (rows : UInt64)
  /-- Read the clock in order to claim the start. -/
  | readStart
  | claimStart (mark : UInt64)
  | subtract (count : UInt32)
  /-- Read the clock in order to store the end. -/
  | readEnd
  | storeEnd (mark : UInt64)
  | claimRelease
  | release
deriving Repr, DecidableEq

/-- What an atomic step amounts to. -/
structure CountdownEffect where
  /-- Whether the step changed what only one of several threads can change. -/
  took : Bool := true
  /-- The step that the same thread takes next. -/
  next : Option CountdownAction := none
  after : Countdown

namespace Countdown

open CountdownAction

/-- Whether the current latch has been released. -/
def isComplete (c : Countdown) : Bool := (c.latches.get c.current).released

/-- Releases the latch with a given number, and says whether this released it. -/
def releaseLatch (c : Countdown) (i : Nat) : Bool × Countdown :=
  let (first, latch) := (c.latches.get i).release
  (first, { c with latches := c.latches.set i latch })

/-- One atomic step while the clock shows `now`.  The threshold test of `subtract`
compares exact integers: a counter that wraps below the least word counts as used up. -/
def exec (now : Nat) (c : Countdown) : CountdownAction → CountdownEffect
  | clearStart => { after := { c with watch := c.watch.clearStart } }
  | clearEnd => { after := { c with watch := c.watch.clearEnd } }
  | installLatch =>
    { after := { c with current := c.current + 1, latches := c.latches.set (c.current + 1) {} } }
  | armClaim rows => { after := { c with claimed := rows = 0 } }
  | armPending rows => { after := { c with pending := rows.toInt64 } }
  | readStart => { next := some (claimStart (Stopwatch.reading now)), after := c }
  | claimStart mark =>
    let (won, watch) := c.watch.claimStart mark
    { took := won, after := { c with watch } }
  | subtract count =>
    if count = 0 then { took := false, after := c }
    else
      { next := if c.pending.toInt ≤ count.toNat then some readEnd else none
        after := { c with pending := c.pending - Int64.ofNat count.toNat } }
  | readEnd => { next := some (storeEnd (Stopwatch.reading now)), after := c }
  | storeEnd mark =>
    { next := some claimRelease, after := { c with watch := c.watch.storeEnd mark } }
  | claimRelease =>
    { took := !c.claimed, next := if c.claimed then none else some release
      after := { c with claimed := true } }
  | release =>
    let (first, c) := c.releaseLatch c.current
    { took := first, after := c }

/-- How many steps an action can lead to, itself included. -/
def weight : CountdownAction → Nat
  | subtract _ => 5
  | readEnd => 4
  | storeEnd _ => 3
  | claimRelease | readStart => 2
  | clearStart | clearEnd | installLatch | armClaim _ | armPending _ | claimStart _ | release => 1

theorem weight_next {now : Nat} {c : Countdown} {a b : CountdownAction}
    (h : (c.exec now a).next = some b) : weight b < weight a := by
  cases a <;> grind [exec, weight]

/-- How many steps some actions can lead to. -/
def totalWeight : List CountdownAction → Nat
  | [] => 0
  | a :: rest => weight a + totalWeight rest

theorem totalWeight_append (as bs : List CountdownAction) :
    totalWeight (as ++ bs) = totalWeight as + totalWeight bs := by
  induction as with
  | nil => simp [totalWeight]
  | cons a as ih => simp [totalWeight, ih, Nat.add_assoc]

theorem weight_pos (a : CountdownAction) : 0 < weight a := by
  cases a <;> simp [weight]

/-- The steps that one step leads to weigh less than it does. -/
theorem totalWeight_next (now : Nat) (c : Countdown) (a : CountdownAction) :
    totalWeight (c.exec now a).next.toList < weight a := by
  cases h : (c.exec now a).next with
  | none => exact weight_pos a
  | some b => exact weight_next h

/-- The steps of one thread with nobody in between, the clock standing at `now`. -/
def run (now : Nat) (c : Countdown) : List CountdownAction → Countdown
  | [] => c
  | a :: rest => run now (c.exec now a).after ((c.exec now a).next.toList ++ rest)
termination_by actions => totalWeight actions
decreasing_by
  have := totalWeight_next now c a
  simp only [totalWeight_append, totalWeight]
  omega

/-- The stores that start an iteration of `rows` rows.  Without rows the new latch
is released at once. -/
def resetActions (rows : UInt64) : List CountdownAction :=
  [clearStart, clearEnd, installLatch, armClaim rows, armPending rows] ++
    if rows = 0 then [release] else []

/-- Starts an iteration. -/
def reset (c : Countdown) (rows : UInt64) : Countdown := c.run 0 (resetActions rows)

/-- Records `count` rows as done, the clock showing `now`. -/
def notify (c : Countdown) (now : Nat) (count : UInt32) : Countdown := c.run now [subtract count]

/-- Claims the start of the iteration, and says whether this call set it. -/
def markStarted (c : Countdown) (now : Nat) : Bool × Countdown :=
  (!c.watch.isStarted, c.run now [readStart])

theorem reset_eq (c : Countdown) (rows : UInt64) :
    c.reset rows =
      { pending := rows.toInt64
        latches := c.latches.set (c.current + 1) ⟨rows = 0⟩
        current := c.current + 1
        claimed := rows = 0 } := by
  by_cases h : rows = 0
  · simp [reset, resetActions, run, exec, h, releaseLatch, Stopwatch.clearStart,
      Stopwatch.clearEnd, Latch.release]
  · simp [reset, resetActions, run, exec, h, Stopwatch.clearStart, Stopwatch.clearEnd]

theorem notify_eq (c : Countdown) (now : Nat) (count : UInt32) :
    c.notify now count =
      if count = 0 then c
      else if c.pending.toInt ≤ count.toNat then
        { c with
          pending := c.pending - Int64.ofNat count.toNat
          watch := c.watch.storeEnd (Stopwatch.reading now)
          latches := if c.claimed then c.latches else c.latches.set c.current ⟨true⟩
          claimed := true }
      else { c with pending := c.pending - Int64.ofNat count.toNat } := by
  by_cases h0 : count = 0
  · simp [notify, run, exec, h0]
  · by_cases hle : c.pending.toInt ≤ count.toNat
    · cases hc : c.claimed <;>
        simp [notify, run, exec, h0, hle, hc, releaseLatch, Latch.release]
    · simp [notify, run, exec, h0, hle]

theorem markStarted_eq (c : Countdown) (now : Nat) :
    c.markStarted now =
      (!c.watch.isStarted,
        { c with watch := (c.watch.claimStart (Stopwatch.reading now)).2 }) := by
  simp [markStarted, run, exec]

end Countdown

end BenchLoop
