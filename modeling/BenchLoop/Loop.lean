/-
BenchLoop/Loop.lean

The measured loop over a benchmark.  A benchmark is initialised once; then every
iteration arms the countdown, builds a task for each range of rows, starts those that
need a thread, waits until the rows have been counted down, tears the tasks down and
reports its measurement; at the end the benchmark is destroyed.

* A task that cannot be built ends the loop; the tasks built before it in the same
  iteration are torn down first.  Where the ranges cannot be made or a thread cannot be
  started, the loop panics.
* Once it has been initialised, a benchmark is destroyed exactly once, whether the
  loop finished, failed or panicked.  The error of the loop wins over that of
  destroying the benchmark.
-/
import BenchLoop.Rows.Partition
import BenchLoop.RowTask

namespace BenchLoop

/-- A system to be measured.  Hooks run on the coordinator's thread. -/
structure Benchmark (σ : Type) where
  name : String
  init : Context → Run σ (HookOutcome Unit) := fun _ => pure (.ok ())
  destroy : Run σ (HookOutcome Unit) := pure (.ok ())
  createTask : TaskId → RowRange → Context → Run σ (HookOutcome (RowTask σ))

namespace Benchmark

variable {σ : Type}

/-- Builds tasks for ranges of rows, behind those in `built`, the latest of which is the
first. -/
def createTasks (b : Benchmark σ) (ctx : Context) (built : List (RowTask σ)) :
    List RowRange → Run σ (Outcome HarnessError (List (RowTask σ)))
  | [] => return .ok built.reverse
  | range :: rest => do
    let id ← Run.step World.nextTask
    match ← b.createTask id range ctx with
    | .ok task => createTasks b ctx (task :: built) rest
    | .failed cause =>
      let _ ← RowTask.teardownAll built.reverse
      return .failed (.taskCreation range.start range.stop cause)
    | .panicked p => return .panicked p

/-- Starts the tasks that need a thread, up to the first one whose name is refused. -/
def startTasks (ctx : Context) : List (RowTask σ) → Run σ (Except Payload Unit)
  | [] => return .ok ()
  | task :: rest => do
    if task.needsThread then
      match ← task.spawn ctx with
      | .ok _ => startTasks ctx rest
      | .error payload => return .error payload
    else
      Run.log .debug s!"{task.range.text} runs on a background resource"
      startTasks ctx rest

/-- Builds the tasks of an iteration and starts them. -/
def dispatch (b : Benchmark σ) (ctx : Context) :
    Run σ (Outcome HarnessError (List (RowTask σ))) := do
  match taskRanges? b.name ctx.config.rows ctx.config.threads with
  | .error fault => return .panicked fault.payload
  | .ok ranges =>
    match ← b.createTasks ctx [] ranges with
    | .ok tasks =>
      match ← startTasks ctx tasks with
      | .ok () => return .ok tasks
      | .error payload => return .panicked payload
    | other => return other

/-- Arms the countdown for an iteration and gives the number of its latch. -/
def arm (ctx : Context) (loop : UInt32) : Run σ Nat := do
  Run.log .debug s!"loop {loop}: reset ({ctx.config.rows} rows pending)"
  Run.perform (ctx.reset ctx.config.rows)
  Run.look fun w => (w.countdown ctx.id).current

/-- Waits until the rows of the iteration have been counted down.  The progress
display, if there is one, only reads the counter meanwhile. -/
def await (ctx : Context) (loop : UInt32) (latch : Nat) : Run σ Unit := do
  Run.log .debug s!"loop {loop}: waiting for {ctx.config.rows} rows"
  Run.waitUntil (ctx.isReleased latch)
  Run.note (.released loop)

/-- Tears down the tasks of an iteration. -/
def teardown (loop : UInt32) (tasks : List (RowTask σ)) : Run σ Unit := do
  let failed ← RowTask.teardownAll tasks
  if 0 < failed then
    Run.log .warn s!"loop {loop}: {failed} of {tasks.length} tasks failed teardown"

/-- Reads the stopwatch mark by mark and prints the result line of an iteration. -/
def report (b : Benchmark σ) (ctx : Context) (loop : UInt32) : Run σ Measurement := do
  let started ← Run.look fun w => (w.countdown ctx.id).watch.isStarted
  if 0 < ctx.config.rows && !started then
    Run.log .warn s!"loop {loop}: no task recorded a start time; reporting 0 ms"
  let startMark ← Run.look fun w => (w.countdown ctx.id).watch.startMark
  let endMark ← Run.look fun w => (w.countdown ctx.id).watch.endMark
  let (total, average) := Stopwatch.totalsMillis { startMark, endMark } ctx.config.threads
  let measurement := Measurement.ofConfig b.name loop ctx.config total average
  Run.note (.printed (measurement.render ctx.config.format))
  return measurement

/-- The first part of an iteration, up to the end of the wait: the tasks that took part. -/
def engage (b : Benchmark σ) (ctx : Context) (loop : UInt32) :
    Run σ (Outcome HarnessError (List (RowTask σ))) := do
  let latch ← arm ctx loop
  match ← b.dispatch ctx with
  | .ok tasks =>
    await ctx loop latch
    return .ok tasks
  | other => return other

/-- One iteration. -/
def iterate (b : Benchmark σ) (ctx : Context) (loop : UInt32) :
    Run σ (Outcome HarnessError Measurement) := do
  match ← b.engage ctx loop with
  | .ok tasks =>
    teardown loop tasks
    return .ok (← b.report ctx loop)
  | .failed e => return .failed e
  | .panicked p => return .panicked p

/-- `count` iterations from number `loop` on.  The first one that fails is the last. -/
def iterateFrom (b : Benchmark σ) (ctx : Context) (loop : UInt32) :
    (count : Nat) → Run σ (Outcome HarnessError (List Measurement))
  | 0 => return .ok []
  | count + 1 => do
    match ← b.iterate ctx loop with
    | .ok result => return (← iterateFrom b ctx (loop + 1) count).map (result :: ·)
    | .failed e =>
      Run.log .error s!"{b.name}: loop {loop} failed: {e.message}"
      return .failed e
    | .panicked p => return .panicked p

/-- Destroys the benchmark after its loop has ended as told. -/
def conclude (b : Benchmark σ) (outcome : Outcome HarnessError (List Measurement)) :
    Run σ (Outcome HarnessError (List Measurement)) := do
  let destroyed ← b.destroy
  match outcome, destroyed with
  | .panicked p, .failed f =>
    Run.log .error s!"Benchmark {b.name} destroy failed: {f.text}"
    return .panicked p
  | .panicked p, _ => return .panicked p
  | _, .panicked p => return .panicked p
  | .ok results, .ok () => return .ok results
  | .ok _, .failed f => return .failed (.destroy f)
  | .failed e, .ok () => return .failed e
  | .failed e, .failed f =>
    Run.log .error s!"{b.name}: destroy failed: {f.text}"
    return .failed e

/-- Initialises the benchmark, runs every iteration and destroys it. -/
def run (b : Benchmark σ) (ctx : Context) : Run σ (Outcome HarnessError (List Measurement)) := do
  let c := ctx.config
  if !c.quiet then
    Run.log .info s!"{b.name}: {c.loops} loops, {c.rows} rows, {c.threads} threads"
  match ← b.init ctx with
  | .failed cause => return .failed (.init cause)
  | .panicked p => return .panicked p
  | .ok () => b.conclude (← b.iterateFrom ctx 1 c.loops.toNat)

end Benchmark

end BenchLoop
