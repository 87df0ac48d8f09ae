/-
BenchLoop/Machine/World.lean

The state that the coordinator and all threads share, and what one atomic step does
to it.

* `World.exec` takes one step of any actor and says which step follows it;
* `World.turn` lets one thread take its next step, or lets time pass;
* `World.burst` is a sequence of turns: any interleaving of the threads is one;
* `World.settle` is the burst in which every thread runs to its end in turn.
-/
import BenchLoop.Machine.Action

namespace BenchLoop

/-- A thread with the steps that it still has to take. -/
structure Thread where
  name : String
  todo : List Step := []
  /-- What it has been handed since its last step, the latest first. -/
  handed : List (List Step) := []
  /-- Whether the thread has panicked. -/
  crashed : Bool := false
deriving Repr, Inhabited

namespace Thread

/-- The steps that the thread still has to take, in order. -/
def remaining (t : Thread) : List Step :=
  match t.handed with
  | [] => t.todo
  | handed => t.todo ++ handed.reverse.flatten

/-- Hands the thread more to do. -/
def hand (t : Thread) (steps : List Step) : Thread := { t with handed := steps :: t.handed }

theorem remaining_eq (t : Thread) : t.remaining = t.todo ++ t.handed.reverse.flatten := by
  unfold remaining
  split
  · next h => simp [h]
  · rfl

@[simp] theorem remaining_hand (t : Thread) (steps : List Step) :
    (t.hand steps).remaining = t.remaining ++ steps := by
  simp [remaining_eq, hand]

/-- An upper bound on the steps that the thread will take. -/
def weight (t : Thread) : Nat := Step.totalWeight t.remaining

/-- The thread after a step that is followed by `next`, with `rest` behind that. -/
def proceed (step : Step) (next : Option Step) (rest : List Step) (t : Thread) : Thread :=
  match step.action with
  | .crash _ => { t with todo := [], handed := [], crashed := true }
  | _ => { t with todo := next.toList ++ rest, handed := [] }

end Thread

/-- The shared state of a benchmark. -/
structure World where
  /-- The countdown of each context. -/
  countdowns : Table Countdown := {}
  stores : Table Store := {}
  threads : Array Thread := #[]
  /-- Which jobs of a worker pool have been finished. -/
  finishedJobs : Table Bool := {}
  /-- How many tasks have been asked for. -/
  tasks : Nat := 0
  /-- The clock, in nanoseconds. -/
  now : Nat := 0
  /-- How far a step moves the clock. -/
  pace : Nat := 0
  /-- What has happened, the latest first. -/
  journal : List Entry := []
deriving Inhabited

/-- What a scheduler lets happen next. -/
inductive Turn where
  /-- A thread takes its next step, if it has one. -/
  | thread (i : ThreadId)
  /-- Time passes. -/
  | wait (nanos : Nat)
deriving Repr, DecidableEq

namespace World

/-- Enters an event into the journal. -/
def note (w : World) (actor : Actor) (event : Event) : World :=
  { w with journal := ⟨actor, event⟩ :: w.journal }

/-- What an action does to the shared state: whether it took effect, the action that
follows it, and the state after it. -/
def perform (w : World) : Action → Bool × Option Action × World
  | .count context a =>
    let effect := (w.countdowns.get context).exec w.now a
    (effect.took, effect.next.map (.count context),
      { w with countdowns := w.countdowns.set context effect.after })
  | .access store (.insert key row) =>
    (true, none, { w with stores := w.stores.modify store (·.insert key row) })
  | .access store (.lookup key) => ((w.stores.get store).contains key, none, w)
  | .finishJob job => (true, none, { w with finishedJobs := w.finishedJobs.set job true })
  | .visit .. | .log .. | .crash _ => (true, none, w)

/-- One step of an actor: the step that follows it on the same thread, and the state
after it. -/
def exec (w : World) (actor : Actor) (step : Step) : Option Step × World :=
  let (took, next, w) := w.perform step.action
  let event : Event :=
    match step.action with
    | .log level message => .logged level message
    | _ => .performed step took
  (next.map (⟨step.task, ·⟩), { w with now := w.now + w.pace }.note actor event)

theorem perform_weight (w : World) (a : Action) (task : Option TaskId) :
    Step.totalWeight ((w.perform a).2.1.toList.map (⟨task, ·⟩)) < Step.weight ⟨task, a⟩ := by
  cases a with
  | count context a =>
    have := Countdown.totalWeight_next w.now (w.countdowns.get context) a
    simp only [perform, Step.weight]
    cases h : ((w.countdowns.get context).exec w.now a).next <;>
      simpa [h, Step.totalWeight, Step.weight, Countdown.totalWeight] using this
  | access store a => cases a <;> simp [perform, Step.weight, Step.totalWeight]
  | _ => simp [perform, Step.weight, Step.totalWeight]

/-- What a step leads to weighs less than the step. -/
theorem exec_weight (w : World) (actor : Actor) (step : Step) :
    Step.totalWeight (w.exec actor step).1.toList < step.weight := by
  have := w.perform_weight step.action step.task
  simpa [exec, Option.toList_map] using this

/-- The steps that a thread still has to take. -/
def remaining (w : World) (i : ThreadId) : List Step :=
  (w.threads[i]?.map Thread.remaining).getD []

/-- One turn; a thread that has nothing to do lets it pass. -/
def turn (w : World) : Turn → World
  | .thread i =>
    match w.remaining i with
    | [] => w
    | step :: rest =>
      let (next, w) := w.exec (.thread i) step
      { w with threads := w.threads.modify i (.proceed step next rest) }
  | .wait nanos => { w with now := w.now + nanos }

/-- Turns one after the other. -/
def burst (w : World) (turns : List Turn) : World := turns.foldl turn w

/-- Turns enough for every thread to come to its end, one thread after the other. -/
def settlingTurns (w : World) : List Turn :=
  (List.range w.threads.size).flatMap fun i =>
    List.replicate (w.threads[i]?.getD default).weight (.thread i)

/-- Every thread runs to its end. -/
def settle (w : World) : World := w.burst w.settlingTurns

/-- Whether a thread has nothing left to do. -/
def isIdle (w : World) (i : ThreadId) : Bool := (w.remaining i).isEmpty

/-- Whether a thread has panicked. -/
def hasCrashed (w : World) (i : ThreadId) : Bool :=
  (w.threads[i]?.map Thread.crashed).getD false

/-- Starts a thread. -/
def spawn (w : World) (name : String) (todo : List Step) : ThreadId × World :=
  (w.threads.size, { w with threads := w.threads.push { name, todo } })

/-- Hands a running thread more to do. -/
def enqueue (w : World) (i : ThreadId) (steps : List Step) : World :=
  { w with threads := w.threads.modify i (·.hand steps) }

/-- The number of the next task. -/
def nextTask (w : World) : TaskId × World := (w.tasks, { w with tasks := w.tasks + 1 })

/-! ### Views of the journal, the earliest entry first -/

/-- The log entries of all actors. -/
def log (w : World) : List (Actor × LogLevel × String) :=
  w.journal.reverse.filterMap fun e =>
    match e.event with
    | .logged level message => some (e.actor, level, message)
    | _ => none

/-- The log entries of the coordinator. -/
def coordinatorLog (w : World) : List (LogLevel × String) :=
  w.log.filterMap fun (actor, entry) => if actor = .coordinator then some entry else none

/-- The lines on the output. -/
def output (w : World) : List String :=
  w.journal.reverse.filterMap fun e =>
    match e.event with
    | .printed line => some line
    | _ => none

/-- The calls of hooks. -/
def calls (w : World) : List HookCall :=
  w.journal.reverse.filterMap fun e =>
    match e.event with
    | .called hook => some hook
    | _ => none

/-- The bodies that noted their keys: the task, the actor that ran it, its range and
the keys, in the order of the tasks. -/
def visits (w : World) : List (TaskId × Actor × RowRange × List UInt32) :=
  let all := w.journal.reverse.filterMap fun e =>
    match e.event with
    | .performed ⟨some task, .visit range keys⟩ _ => some (task, e.actor, range, keys)
    | _ => none
  all.mergeSort fun a b => a.1 ≤ b.1

/-- The name of an actor's thread. -/
def threadName (w : World) : Actor → String
  | .coordinator => "main"
  | .thread i => (w.threads[i]?.map Thread.name).getD ""

/-- The countdown of a context. -/
def countdown (w : World) (context : ContextId) : Countdown := w.countdowns.get context

/-- Forgets what has happened so far. -/
def clearJournal (w : World) : World := { w with journal := [] }

end World

end BenchLoop
