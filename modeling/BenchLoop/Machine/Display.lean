/-
BenchLoop/Machine/Display.lean

The progress display of an iteration.  It has a thread of its own, which waits on the latch
of the iteration for a while, and if the latch has not been released by then it reads the
counter and shows how many rows are finished.  That is one poll; it goes on until it finds
the latch released.

A poll reads the shared state twice and changes nothing.  So the threads that it shares the
state with appear here as the turns they take meanwhile.

* `World.polled` are the states in which the counter is read;
* `World.shown` is what the display makes of them.
-/
import BenchLoop.Completion.Progress
import BenchLoop.Machine.World

namespace BenchLoop

/-- What other threads do during a poll: until the latch is looked at, and from there until
the counter is read. -/
structure Poll where
  waiting : List Turn := []
  reading : List Turn := []
deriving Repr

namespace World

/-- The rows out of `total` that the display shows as finished. -/
def position (id : ContextId) (total : UInt64) (w : World) : UInt64 :=
  rowsFinished total (w.countdown id).pending

/-- Whether a latch of a countdown has been released. -/
def hasReleased (id : ContextId) (latch : Nat) (w : World) : Bool :=
  ((w.countdown id).latches.get latch).released

/-- The states in which the display reads the counter, the earliest first. -/
def polled (id : ContextId) (latch : Nat) (w : World) : List Poll → List World
  | [] => []
  | poll :: polls =>
    let waited := w.burst poll.waiting
    if waited.hasReleased id latch then []
    else
      let read := waited.burst poll.reading
      read :: read.polled id latch polls

/-- What the display shows, the earliest first. -/
def shown (id : ContextId) (latch : Nat) (total : UInt64) (w : World) (polls : List Poll) :
    List UInt64 :=
  (w.polled id latch polls).map (position id total)

end World

end BenchLoop
