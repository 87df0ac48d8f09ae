/-
BenchLoop/Completion/Latch/Waiting.lean

A latch as its threads see it: a flag under a lock, and a condition variable on
which threads queue until somebody notifies them.

A thread that calls an operation takes the lock, looks at the flag and then either
returns, or sets the flag and notifies the queue, or joins the queue and drops the
lock in one step.  A queued thread is woken by a notification, by a spurious wake-up
or, if it waits for a limited time, because its time ran out; it takes the lock
again before it looks at the flag.

* `WaitingRoom`: the flag, the holder of the lock, and where each thread stands;
* `WaitingRoom.step?`: the next step of one thread, if it can take one;
* `WaitingRoom.move`: the same with the two kinds of wake-up, for schedules;
* `WaitingRoom.perform`: a whole call that nobody interrupts.
-/
import BenchLoop.Completion.Latch

namespace BenchLoop

/-- The operations of a latch. -/
inductive LatchCall where
  | release
  | isReleased
  | wait
  /-- Waits, but not longer than some limit. -/
  | waitAtMost
deriving Repr, DecidableEq

/-- Where a thread stands in its call. -/
inductive LatchPoint where
  /-- About to take the lock. -/
  | entering
  /-- Holding the lock, about to look at the flag. -/
  | testing
  /-- Holding the lock with the flag set, about to notify the queue. -/
  | notifying
  /-- In the queue of the condition variable, without the lock. -/
  | queued
  /-- Out of the queue, about to take the lock again. -/
  | woken (expired : Bool)
  /-- Holding the lock after the time ran out, about to look at the flag. -/
  | expired
  | returned (answer : Bool)
deriving Repr, DecidableEq

/-- A thread with its call on the latch. -/
structure Visitor where
  call : LatchCall
  point : LatchPoint := .entering
deriving Repr, DecidableEq

/-- A latch with its lock and the threads that call its operations. -/
structure WaitingRoom where
  latch : Latch := {}
  /-- The thread that holds the lock. -/
  holder : Option Nat := none
  visitors : List Visitor := []
deriving Repr, DecidableEq

namespace WaitingRoom

/-- Puts the `i`-th thread at another point of its call. -/
def place (room : WaitingRoom) (i : Nat) (point : LatchPoint) : WaitingRoom :=
  { room with visitors := room.visitors.modify i fun v => { v with point } }

/-- Gives the free lock to the `i`-th thread. -/
def lock? (room : WaitingRoom) (i : Nat) (point : LatchPoint) : Option WaitingRoom :=
  if room.holder.isNone then some { room.place i point with holder := some i } else none

/-- The `i`-th thread drops the lock and goes on to `point`. -/
def unlock (room : WaitingRoom) (i : Nat) (point : LatchPoint) : WaitingRoom :=
  { room.place i point with holder := none }

/-- Wakes every queued thread. -/
def notifyAll (room : WaitingRoom) : WaitingRoom :=
  let wake (v : Visitor) : Visitor :=
    if v.point = .queued then { v with point := .woken false } else v
  { room with visitors := room.visitors.map wake }

/-- What a thread does when it looks at the flag with the lock in its hands. -/
def test (room : WaitingRoom) (i : Nat) : LatchCall → WaitingRoom
  | .release =>
    if room.latch.released then room.unlock i (.returned false)
    else { room.place i .notifying with latch := room.latch.release.2 }
  | .isReleased => room.unlock i (.returned room.latch.released)
  | .wait | .waitAtMost =>
    if room.latch.released then room.unlock i (.returned true) else room.unlock i .queued

/-- The next step of the `i`-th thread; none if it is queued, has returned or has to
wait for the lock. -/
def step? (room : WaitingRoom) (i : Nat) : Option WaitingRoom :=
  match room.visitors[i]? with
  | none => none
  | some v =>
    match v.point with
    | .entering => room.lock? i .testing
    | .testing => some (room.test i v.call)
    | .notifying => some (room.notifyAll.unlock i (.returned true))
    | .queued => none
    | .woken expired => room.lock? i (if expired then .expired else .testing)
    | .expired => some (room.unlock i (.returned room.latch.released))
    | .returned _ => none

/-- A queued thread wakes without having been notified: for no reason, or because
its time ran out if it has a limit. -/
def wake? (room : WaitingRoom) (i : Nat) (expired : Bool) : Option WaitingRoom :=
  match room.visitors[i]? with
  | some ⟨call, .queued⟩ =>
    if expired && call != .waitAtMost then none else some (room.place i (.woken expired))
  | _ => none

/-- What the scheduler can let happen next. -/
inductive Move where
  | step (thread : Nat)
  | wake (thread : Nat) (expired : Bool)
deriving Repr, DecidableEq

/-- One move; an impossible one changes nothing. -/
def move (room : WaitingRoom) : Move → WaitingRoom
  | .step i => (room.step? i).getD room
  | .wake i expired => (room.wake? i expired).getD room

/-- A thread comes in with a call. -/
def enter (room : WaitingRoom) (call : LatchCall) : WaitingRoom :=
  { room with visitors := room.visitors ++ [{ call }] }

/-- More steps than any call takes between two times in the queue. -/
def longestCall : Nat := 4

/-- Lets the `i`-th thread go on until it has returned or is queued, the others
standing still. -/
def advance (room : WaitingRoom) (i : Nat) : WaitingRoom :=
  (List.replicate longestCall (Move.step i)).foldl move room

/-- Lets every thread go on in turn. -/
def settle (room : WaitingRoom) : WaitingRoom :=
  (List.range room.visitors.length).foldl advance room

/-- The answer of the `i`-th thread's call, once it has returned. -/
def answer? (room : WaitingRoom) (i : Nat) : Option Bool :=
  match room.visitors[i]? with
  | some ⟨_, .returned answer⟩ => some answer
  | _ => none

/-- A whole call that nobody interrupts; a limited wait that gets queued runs out of
time.  There is no answer if the call waits for ever. -/
def perform (room : WaitingRoom) (call : LatchCall) : Option Bool × WaitingRoom :=
  let i := room.visitors.length
  let room := (room.enter call).advance i
  let room := (room.move (.wake i true)).advance i
  (room.answer? i, room)

end WaitingRoom

end BenchLoop
