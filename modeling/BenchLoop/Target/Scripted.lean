/-
BenchLoop/Target/Scripted.lean

Benchmarks that do what a script says.  Every hook records that it was called and then
ends as scripted; a task reports its rows as scripted and is driven by a thread of its
own, by a background thread, or right when it is built.

No target is simpler, and any sequence of outcomes of hooks, bodies and teardowns is
that of some script.
-/
import BenchLoop.Loop

namespace BenchLoop

/-- How a body notifies the rows of its range. -/
inductive Reporting where
  /-- One notification per row. -/
  | eachRow
  /-- One notification for all rows. -/
  | batch
  /-- Notifications of these counts, whatever the range. -/
  | counts (counts : List UInt32)
deriving Repr, DecidableEq

/-- The counts of the notifications for a range. -/
def Reporting.countsFor (r : Reporting) (range : RowRange) : List UInt32 :=
  match r with
  | eachRow => List.replicate range.rowCount 1
  | batch => [range.size.toUInt32]
  | counts cs => cs

/-- What drives a task that has no thread of its own. -/
inductive Drive where
  | backgroundThread
  /-- The hook that builds it. -/
  | builder
deriving Repr, DecidableEq

/-- What one task does. -/
structure TaskScript where
  /-- How the body ends after its notifications. -/
  start : HookOutcome Unit := .ok ()
  stop : HookOutcome Unit := .ok ()
  reporting : Reporting := .eachRow
  /-- What drives the task once it is built; without, it needs a thread of its own. -/
  drive? : Option Drive := none
  /-- Whether a task so driven claims the start of the iteration. -/
  claimsStart : Bool := true
  /-- Whether the teardown records that it was called. -/
  recordsStop : Bool := true

/-- What a benchmark does. -/
structure Script where
  name : String
  init : HookOutcome Unit := .ok ()
  destroy : HookOutcome Unit := .ok ()
  /-- Whether the hooks around the loop record that they were called. -/
  recordsHooks : Bool := true
  /-- How building each task ends. -/
  create : TaskId → HookOutcome Unit := fun _ => .ok ()
  task : TaskId → TaskScript := fun _ => {}

namespace TaskScript

/-- The body of a scripted task: it notes the keys of its rows and notifies them.  If they
cannot be listed it panics before it has done anything. -/
def body (s : TaskScript) (id : TaskId) (range : RowRange) (ctx : Context) : Body :=
  match ctx.keyList range with
  | .error payload => { outcome := .panicked payload }
  | .ok keys =>
    { steps := ⟨some id, .visit range keys⟩ ::
        (s.reporting.countsFor range).map (ctx.notify id)
      outcome := s.start }

def stopHook (s : TaskScript) (range : RowRange) : Run Unit (HookOutcome Unit) := do
  if s.recordsStop then
    Run.note (.called (.stop range))
  return s.stop

/-- The task itself. -/
def toTask (s : TaskScript) (id : TaskId) (range : RowRange) : RowTask Unit where
  id
  range
  body := s.body id range
  stop := s.stopHook range
  needsThread := s.drive?.isNone

/-- The steps of whatever drives the task when it is built. -/
def drivenSteps (s : TaskScript) (id : TaskId) (range : RowRange) (ctx : Context) : List Step :=
  (if s.claimsStart then [ctx.markStarted id] else []) ++ (s.body id range ctx).steps

end TaskScript

namespace Script

/-- Drives a task that has been built. -/
def drive (s : TaskScript) (id : TaskId) (range : RowRange) (ctx : Context) : Run Unit Unit :=
  match s.drive? with
  | none => return ()
  | some .builder => Run.perform (s.drivenSteps id range ctx)
  | some .backgroundThread => do
    let _ ← Run.spawn "background" (s.drivenSteps id range ctx)

def createTask (s : Script) (id : TaskId) (range : RowRange) (ctx : Context) :
    Run Unit (HookOutcome (RowTask Unit)) := do
  Run.note (.called (.create range))
  match s.create id with
  | .failed f => return .failed f
  | .panicked p => return .panicked p
  | .ok () =>
    drive (s.task id) id range ctx
    return .ok ((s.task id).toTask id range)

/-- The benchmark that follows the script. -/
def benchmark (s : Script) : Benchmark Unit where
  name := s.name
  init ctx := do
    if s.recordsHooks then
      let pending ← Run.look fun w => (w.countdown ctx.id).pending.toInt
      Run.note (.called (.init pending))
    return s.init
  destroy := do
    if s.recordsHooks then
      Run.note (.called .destroy)
    return s.destroy
  createTask := s.createTask

end Script

end BenchLoop
