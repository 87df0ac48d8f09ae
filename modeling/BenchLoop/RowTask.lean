/-
BenchLoop/RowTask.lean

A task works on one range of rows in one iteration.  Its body follows from the context
that it runs in: the steps that it takes, and how it ends after them.  It is laid out
when it is run, so a task that is never run may have any range.

A task that needs a thread gets one of its own; the others are driven by something that
the benchmark has running already.

However a body or a teardown ends, failures and panics are logged and go no further.
-/
import BenchLoop.Context
import BenchLoop.Machine.ThreadName

namespace BenchLoop

/-- The work of a task: its steps, and how it ends after the last of them. -/
structure Body where
  steps : List Step := []
  outcome : HookOutcome Unit := .ok ()

/-- A task over a target with state `σ`. -/
structure RowTask (σ : Type) where
  id : TaskId
  range : RowRange
  /-- The work that the task does in a context. -/
  body : Context → Body
  stop : Run σ (HookOutcome Unit) := pure (.ok ())
  needsThread : Bool := true

namespace RowTask

variable {σ : Type}

/-- What is logged when a body has ended. -/
def ending (range : RowRange) : HookOutcome Unit → LogLevel × String
  | .ok () => (.debug, s!"Task {range.text} finished")
  | .failed f => (.error, s!"Task {range.text} failed: {f.text}")
  | .panicked p => (.error, s!"Task {range.text} panicked: {p.shown}")

/-- The steps of a thread that runs the task: it claims the start of the iteration, does
the work and logs how it ended. -/
def steps (t : RowTask σ) (ctx : Context) : List Step :=
  let body := t.body ctx
  let (level, message) := ending t.range body.outcome
  ctx.markStarted t.id :: body.steps ++ [⟨some t.id, .log level message⟩]

/-- Runs the task on the coordinator's own thread. -/
def run (t : RowTask σ) (ctx : Context) : Run σ Unit := Run.perform (t.steps ctx)

/-- Starts a thread that runs the task and bears the name of its range, unless that is no
name for a thread. -/
def spawn (t : RowTask σ) (ctx : Context) : Run σ (Except Payload ThreadId) := do
  match ThreadName.refusal? t.range.name with
  | some payload => return .error payload
  | none => return .ok (← Run.spawn t.range.name (t.steps ctx))

/-- Does the work alone, on the coordinator's own thread. -/
def work (t : RowTask σ) (ctx : Context) : Run σ (HookOutcome Unit) := do
  let body := t.body ctx
  Run.perform body.steps
  return body.outcome

/-- Tears the task down and says whether that went well. -/
def teardown (t : RowTask σ) : Run σ Bool := do
  match ← t.stop with
  | .ok () => return true
  | .failed f =>
    Run.log .error s!"Task {t.range.text} teardown failed: {f.text}"
    return false
  | .panicked p =>
    Run.log .error s!"Task {t.range.text} teardown panicked: {p.shown}"
    return false

/-- Tears tasks down, each whatever the others did, and counts those that failed. -/
def teardownAll : List (RowTask σ) → Run σ Nat
  | [] => return 0
  | t :: rest => do
    let ok ← t.teardown
    let failed ← teardownAll rest
    return failed + (!ok).toNat

end RowTask

end BenchLoop
