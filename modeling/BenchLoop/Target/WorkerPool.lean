/-
BenchLoop/Target/WorkerPool.lean

A target with a pool of background workers.  The workers are started with the
benchmark and outlive its iterations.  Building a task queues its range to the next
worker in turn, which works through its queue from the front and keeps the rows in a
store of its own.

The turn goes on from where it was when workers are stopped and started again.
Destroying the benchmark lets every worker empty its queue; a worker that panicked has
lost what it had queued, and takes no more.
-/
import BenchLoop.Target.MemoryMap

namespace BenchLoop

/-- What a worker pool keeps for itself. -/
structure WorkerPool where
  /-- The number of workers to start; 0 asks for one per thread of the run. -/
  size : UInt64
  /-- The threads of the running workers. -/
  workers : Array ThreadId := #[]
  /-- Counts the ranges queued, and so says whose turn it is. -/
  cursor : UInt64 := 0
  /-- How many jobs have been made. -/
  jobs : Nat := 0
deriving Repr

namespace WorkerPool

def name : String := TargetKind.pool.benchmarkName

/-- The worker whose turn it is. -/
def nextWorker? (p : WorkerPool) : Option ThreadId :=
  p.workers[p.cursor.toNat % p.workers.size]?

/-- The steps of a worker for one job, with the worker's own store.  The worker panics at
the first row without a key. -/
def jobSteps (job : JobId) (worker : ThreadId) (id : TaskId) (range : RowRange)
    (ctx : Context) : List Step :=
  let last : Action :=
    match ctx.keyFault? range with
    | some payload => .crash payload
    | none => .finishJob job
  ctx.markStarted id :: MemoryMap.rowSteps ctx worker id range ++ [⟨some id, last⟩]

/-- Starts the workers from number `number` on. -/
def startWorkers (number : Nat) : (count : Nat) → Run WorkerPool Unit
  | 0 => return ()
  | count + 1 => do
    let worker ← Run.spawn s!"pool-worker-{number}" []
    modify fun s => { s with target.workers := s.target.workers.push worker }
    startWorkers (number + 1) count

def init (ctx : Context) : Run WorkerPool (HookOutcome Unit) := do
  let pool := (← get).target
  let size := if pool.size = 0 then ctx.config.threads else pool.size
  startWorkers 0 size.toNat
  Run.log .info s!"Started {size} pool workers"
  return .ok ()

/-- Waits until each worker has emptied its queue, and counts those that panicked. -/
def joinWorkers : List ThreadId → Run WorkerPool Nat
  | [] => return 0
  | worker :: rest => do
    Run.waitUntil (·.isIdle worker)
    let crashed ← Run.look fun w => w.hasCrashed worker
    return (← joinWorkers rest) + crashed.toNat

def destroy : Run WorkerPool (HookOutcome Unit) := do
  let panicked ← joinWorkers (← get).target.workers.toList
  modify fun s => { s with target.workers := #[] }
  if 0 < panicked then
    return .failed { headline := s!"{panicked} pool workers panicked" }
  return .ok ()

/-- Queues a job to a worker, unless that has panicked; only a job that is queued is laid
out. -/
def send (worker : ThreadId) (job : Unit → List Step) (w : World) : Bool × World :=
  if w.hasCrashed worker then (false, w) else (true, w.enqueue worker (job ()))

/-- The teardown of a task whose range went to a worker as job `job`. -/
def stop (job : JobId) (range : RowRange) : Run WorkerPool (HookOutcome Unit) := do
  let finished ← Run.look fun w => w.finishedJobs.get job
  if !finished then
    Run.log .debug s!"{range.text} stopped before its worker marked it finished"
  return .ok ()

/-- The task for a queued range.  It has no body that a thread could run. -/
def task (job : JobId) (id : TaskId) (range : RowRange) : RowTask WorkerPool where
  id
  range
  body _ :=
    { outcome := .failed
        { headline := s!"{range.name} is driven by the worker pool, not a harness thread" } }
  stop := stop job range
  needsThread := false

def createTask (id : TaskId) (range : RowRange) (ctx : Context) :
    Run WorkerPool (HookOutcome (RowTask WorkerPool)) := do
  let pool := (← get).target
  match pool.nextWorker? with
  | none => return .failed { headline := "worker pool is not running" }
  | some worker =>
    let job := pool.jobs
    modify fun s => { s with target := { pool with cursor := pool.cursor + 1, jobs := job + 1 } }
    if ← Run.step (send worker fun _ => jobSteps job worker id range ctx) then
      return .ok (task job id range)
    else
      return .failed { headline := s!"pool worker for {range.name} has exited" }

/-- The benchmark over the pool. -/
def benchmark : Benchmark WorkerPool where
  name
  init
  destroy
  createTask

end WorkerPool

end BenchLoop
