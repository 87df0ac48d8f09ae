/-
BenchLoop/Proofs/Loop/Onward.lean

The loop of a scripted benchmark, taken apart for a comparison with another one.  Its tasks are
those for its duties (`Script.tasksOf`), a teardown is a few notes of the coordinator
(`Script.teardown_taskOf`), and no part of it takes anything back that is in the journal
(`Script.forward_runLoop` and the lemmas before it).
-/
import BenchLoop.Proofs.Loop.Rounds
import BenchLoop.Proofs.Machine.Coupling
import BenchLoop.Target.Scripted

namespace BenchLoop

/-! ### Tasks and their teardowns -/

namespace TaskScript

/-- Whether the teardown of the task fails. -/
def fails (t : TaskScript) : Bool :=
  match t.stop with
  | .ok () => false
  | _ => true

/-- What is logged when the teardown has failed. -/
def complaint (t : TaskScript) (range : RowRange) : List Event :=
  match t.stop with
  | .ok () => []
  | .failed f => [.logged .error s!"Task {range.text} teardown failed: {f.text}"]
  | .panicked p => [.logged .error s!"Task {range.text} teardown panicked: {p.shown}"]

/-- The call of the teardown, if it is recorded. -/
def stopCall (t : TaskScript) (range : RowRange) : List Event :=
  if t.recordsStop then [.called (.stop range)] else []

end TaskScript

namespace Script

/-- The task that is built for a duty. -/
def taskOf (s : Script) (d : Duty) : RowTask Unit := (s.task d.2).toTask d.2 d.1

def tasksOf (s : Script) (duties : List Duty) : List (RowTask Unit) := duties.map s.taskOf

/-- How many teardowns fail. -/
def failures (s : Script) (duties : List Duty) : Nat := duties.countP fun d => (s.task d.2).fails

/-- What the coordinator notes while tasks are torn down: each call, and a line for each
teardown that fails. -/
def stops (s : Script) (duties : List Duty) : List Event :=
  duties.flatMap fun d => (s.task d.2).stopCall d.1 ++ (s.task d.2).complaint d.1

/-- What it logs afterwards: a line with the number of failures, if there are any. -/
def warning (s : Script) (loop : UInt32) (duties : List Duty) : List Event :=
  if 0 < s.failures duties then
    [.logged .warn s!"loop {loop}: {s.failures duties} of {duties.length} tasks failed teardown"]
  else []

section Views

-- what is told beside the log
variable {s : Script} {α : Type} {f : Event → Option α}

theorem filterMap_stops (hf : ∀ level message, f (.logged level message) = none)
    (duties : List Duty) :
    (s.stops duties).filterMap f
      = duties.flatMap fun d => ((s.task d.2).stopCall d.1).filterMap f := by
  unfold stops
  rw [List.filterMap_flatMap]
  refine List.flatMap_congr fun d _ => ?_
  have hcomplaint : ((s.task d.2).complaint d.1).filterMap f = [] := by
    unfold TaskScript.complaint
    split <;> simp [hf]
  rw [List.filterMap_append, hcomplaint, List.append_nil]

theorem filterMap_warning (hf : ∀ level message, f (.logged level message) = none) (loop : UInt32)
    (duties : List Duty) : (s.warning loop duties).filterMap f = [] := by
  unfold warning
  split <;> simp [hf]

end Views

end Script

/-! ### Nothing is taken back -/

namespace Run

/-- The coordinator notes one thing after the other. -/
def notes {σ : Type} : List Event → Run σ Unit
  | [] => pure ()
  | e :: es => do
    Run.note e
    notes es

theorem Forward.notes {σ : Type} (es : List Event) : Forward (Run.notes es : Run σ Unit) := by
  induction es with
  | nil => exact .pure _
  | cons e es ih => exact .bind .note fun _ => ih

end Run

open Run (Forward)

namespace RowTask

theorem forward_spawn {σ : Type} (t : RowTask σ) (ctx : Context) : Forward (t.spawn ctx) := by
  unfold spawn
  split
  · exact .pure _
  · exact .bind .spawn fun _ => .pure _

theorem forward_teardown {σ : Type} (t : RowTask σ) (h : Forward t.stop) : Forward t.teardown := by
  refine .bind h fun outcome => ?_
  cases outcome with
  | ok u => exact .pure _
  | failed f => exact .bind .log fun _ => .pure _
  | panicked p => exact .bind .log fun _ => .pure _

end RowTask

namespace Benchmark

variable {σ : Type}

/-- What follows once it is known whether a task has been built. -/
def proceed (b : Benchmark σ) (ctx : Context) (built : List (RowTask σ)) (range : RowRange)
    (rest : List RowRange) :
    HookOutcome (RowTask σ) → Run σ (Outcome HarnessError (List (RowTask σ)))
  | .ok task => b.createTasks ctx (task :: built) rest
  | .failed cause => do
    let _ ← RowTask.teardownAll built.reverse
    return .failed (.taskCreation range.start range.stop cause)
  | .panicked p => return .panicked p

theorem createTasks_cons (b : Benchmark σ) (ctx : Context) (built : List (RowTask σ))
    (range : RowRange) (rest : List RowRange) :
    b.createTasks ctx built (range :: rest) = Run.step World.nextTask >>= fun id =>
      b.createTask id range ctx >>= b.proceed ctx built range rest := by
  rw [createTasks]
  refine congrArg _ (funext fun id => congrArg _ (funext fun o => ?_))
  cases o <;> rfl

theorem forward_startTasks (ctx : Context) (ts : List (RowTask σ)) :
    Forward (startTasks ctx ts) := by
  induction ts with
  | nil => exact .pure _
  | cons t ts ih =>
    unfold startTasks
    split
    · refine .bind (t.forward_spawn ctx) fun outcome => ?_
      cases outcome with
      | ok i => exact ih
      | error payload => exact .pure _
    · exact .bind .log fun _ => ih

theorem forward_await (ctx : Context) (loop : UInt32) (latch : Nat) :
    Forward (await ctx loop latch : Run σ Unit) :=
  .bind .log fun _ => .bind (.waitUntil _) fun _ => .note

theorem forward_arm (ctx : Context) (loop : UInt32) : Forward (arm ctx loop : Run σ Nat) :=
  .bind .log fun _ => .bind (.perform _) fun _ => .look

theorem forward_readOut (b : Benchmark σ) (ctx : Context) (loop : UInt32) :
    Forward (b.readOut ctx loop) :=
  .bind .look fun _ => .bind .look fun _ => .bind .note fun _ => .pure _

theorem forward_report (b : Benchmark σ) (ctx : Context) (loop : UInt32) :
    Forward (b.report ctx loop) := by
  refine .bind .look fun started => ?_
  split
  · exact .bind .log fun _ => b.forward_readOut ctx loop
  · exact b.forward_readOut ctx loop

/-- What is left of a run once its first line has been logged. -/
def runLoop (b : Benchmark σ) (ctx : Context) :
    Run σ (Outcome HarnessError (List Measurement)) := do
  match ← b.init ctx with
  | .failed cause => return .failed (.init cause)
  | .panicked p => return .panicked p
  | .ok () => b.conclude (← b.iterateFrom ctx 1 ctx.config.loops.toNat)

theorem run_eq_runLoop (b : Benchmark σ) (ctx : Context) :
    b.run ctx = (do
      if !ctx.config.quiet then
        Run.log .info
          s!"{b.name}: {ctx.config.loops} loops, {ctx.config.rows} rows, {ctx.config.threads} threads"
      b.runLoop ctx) := rfl

end Benchmark

namespace Script

variable (s : Script) (ctx : Context)

theorem forward_drive (t : TaskScript) (id : TaskId) (range : RowRange) :
    Forward (drive t id range ctx) := by
  unfold drive
  split
  · exact .pure _
  · exact .perform _
  · exact .bind .spawn fun _ => .pure _

theorem forward_createTask (id : TaskId) (range : RowRange) :
    Forward (s.createTask id range ctx) := by
  refine .bind .note fun _ => ?_
  split
  · exact .pure _
  · exact .pure _
  · exact .bind (forward_drive ctx _ _ _) fun _ => .pure _

/-- A task that is built is the one for its duty. -/
theorem eq_taskOf_of_yields {id : TaskId} {range : RowRange} {t : RowTask Unit}
    (h : (s.createTask id range ctx).Yields (.ok t)) : t = s.taskOf (range, id) := by
  obtain ⟨-, -, h⟩ := h.of_bind
  cases hcreate : s.create id with
  | failed f | panicked p =>
    simp only [hcreate] at h
    cases h.eq_of_pure
  | ok u =>
    simp only [hcreate] at h
    obtain ⟨-, -, h⟩ := h.of_bind
    cases h.eq_of_pure
    rfl

theorem forward_stopHook (t : TaskScript) (range : RowRange) : Forward (t.stopHook range) := by
  unfold TaskScript.stopHook
  split
  · exact .bind .note fun _ => .pure _
  · exact .pure _

/-! ### Tearing tasks down -/

/-- A teardown notes that it was called, and complains if it fails. -/
theorem teardown_taskOf (d : Duty) :
    (s.taskOf d).teardown = do
      Run.notes ((s.task d.2).stopCall d.1)
      Run.notes ((s.task d.2).complaint d.1)
      return !(s.task d.2).fails := by
  show (do
    match ← (s.task d.2).stopHook d.1 with
    | .ok () => return true
    | .failed f =>
      Run.log .error s!"Task {d.1.text} teardown failed: {f.text}"
      return false
    | .panicked p =>
      Run.log .error s!"Task {d.1.text} teardown panicked: {p.shown}"
      return false) = _
  unfold TaskScript.stopHook TaskScript.stopCall TaskScript.complaint TaskScript.fails
  cases (s.task d.2).recordsStop <;> cases (s.task d.2).stop <;>
    simp [Run.notes, Run.log]

theorem forward_teardownAll (duties : List Duty) :
    Forward (RowTask.teardownAll (s.tasksOf duties)) := by
  induction duties with
  | nil => exact .pure _
  | cons d duties ih =>
    refine .bind ?_ fun _ => .bind ih fun _ => .pure _
    exact (s.taskOf d).forward_teardown (forward_stopHook (s.task d.2) d.1)

/-- What follows once it is known whether a task has been built. -/
theorem forward_proceed (built : List Duty) {ranges : List RowRange} {id : TaskId}
    {range : RowRange} {o : HookOutcome (RowTask Unit)}
    (ho : (s.createTask id range ctx).Yields o)
    (hrest : Forward (s.benchmark.createTasks ctx (s.tasksOf (built ++ [(range, id)])).reverse
      ranges)) :
    Forward (s.benchmark.proceed ctx (s.tasksOf built).reverse range ranges o) := by
  cases o with
  | ok t =>
    obtain rfl := s.eq_taskOf_of_yields ctx ho
    have hcons : s.taskOf (range, id) :: (s.tasksOf built).reverse
        = (s.tasksOf (built ++ [(range, id)])).reverse := by
      simp [tasksOf]
    show Forward (s.benchmark.createTasks ctx (_ :: _) ranges)
    rw [hcons]
    exact hrest
  | failed cause =>
    show Forward (RowTask.teardownAll (s.tasksOf built).reverse.reverse >>= _)
    -- the tasks built before it are listed backwards, and are torn down in their order
    rw [List.reverse_reverse]
    exact .bind (s.forward_teardownAll built) fun _ => .pure _
  | panicked p => exact .pure _

theorem forward_createTasks (built : List Duty) (ranges : List RowRange) :
    Forward (s.benchmark.createTasks ctx (s.tasksOf built).reverse ranges) := by
  induction ranges generalizing built with
  | nil => exact .pure _
  | cons range ranges ih =>
    rw [Benchmark.createTasks_cons]
    refine .bind (.step fun _ => List.suffix_rfl) fun id => ?_
    exact .bind_of (forward_createTask s ctx id range) fun o ho =>
      forward_proceed s ctx built ho (ih _)

theorem forward_dispatch : Forward (s.benchmark.dispatch ctx) := by
  unfold Benchmark.dispatch
  split
  · exact .pure _
  · refine .bind (forward_createTasks s ctx [] _) fun outcome => ?_
    cases outcome with
    | ok ts =>
      refine .bind (Benchmark.forward_startTasks ctx ts) fun started => ?_
      cases started with
      | ok u => exact .pure _
      | error payload => exact .pure _
    | failed e => exact .pure _
    | panicked p => exact .pure _

theorem forward_teardown (loop : UInt32) (duties : List Duty) :
    Forward (Benchmark.teardown loop (s.tasksOf duties)) := by
  refine .bind (s.forward_teardownAll duties) fun failed => ?_
  split
  · exact .log
  · exact .pure _

theorem forward_engage (loop : UInt32) : Forward (s.benchmark.engage ctx loop) := by
  refine .bind (Benchmark.forward_arm ctx loop) fun i => .bind (forward_dispatch s ctx) fun o => ?_
  cases o with
  | ok ts => exact .bind (Benchmark.forward_await ctx _ _) fun _ => .pure _
  | failed e => exact .pure _
  | panicked p => exact .pure _

/-- The tasks that take part in an iteration are those for some duties. -/
theorem exists_tasksOf_of_createTasks (built : List Duty) {ranges : List RowRange}
    {ts : List (RowTask Unit)}
    (h : (s.benchmark.createTasks ctx (s.tasksOf built).reverse ranges).Yields (.ok ts)) :
    ∃ duties, ts = s.tasksOf duties := by
  -- the tasks that have been built grow by one with every range
  induction ranges generalizing built with
  | nil =>
    cases h.eq_of_pure
    exact ⟨built, List.reverse_reverse _⟩
  | cons range ranges ih =>
    rw [Benchmark.createTasks_cons] at h
    obtain ⟨id, -, h⟩ := h.of_bind
    obtain ⟨o, ho, h⟩ := h.of_bind
    cases o with
    | ok t =>
      obtain rfl := s.eq_taskOf_of_yields ctx ho
      refine ih (built ++ [(range, id)]) ?_
      have hcons : (s.tasksOf (built ++ [(range, id)])).reverse
          = s.taskOf (range, id) :: (s.tasksOf built).reverse := by
        simp [tasksOf]
      rw [hcons]
      exact h
    | failed cause =>
      obtain ⟨-, -, h⟩ := h.of_bind
      cases h.eq_of_pure
    | panicked p => cases h.eq_of_pure

theorem exists_tasksOf_of_engage {loop : UInt32} {ts : List (RowTask Unit)}
    (h : (s.benchmark.engage ctx loop).Yields (.ok ts)) : ∃ duties, ts = s.tasksOf duties := by
  obtain ⟨latch, -, h⟩ := h.of_bind (p := Benchmark.arm ctx loop)
  obtain ⟨o, ho, h⟩ := h.of_bind
  cases o with
  | failed e => cases h.eq_of_pure
  | panicked p => cases h.eq_of_pure
  | ok ts' =>
    obtain ⟨-, -, h⟩ := h.of_bind
    cases h.eq_of_pure
    -- tasks that were started have all been built before
    unfold Benchmark.dispatch at ho
    split at ho
    · cases ho.eq_of_pure
    · obtain ⟨o, hbuilt, ho⟩ := ho.of_bind
      cases o with
      | failed e => cases ho.eq_of_pure
      | panicked p => cases ho.eq_of_pure
      | ok built =>
        obtain ⟨started, -, ho⟩ := ho.of_bind
        cases started with
        | error payload => cases ho.eq_of_pure
        | ok u =>
          cases ho.eq_of_pure
          exact s.exists_tasksOf_of_createTasks ctx [] hbuilt

theorem forward_iterate (loop : UInt32) : Forward (s.benchmark.iterate ctx loop) := by
  refine .bind_of (s.forward_engage ctx loop) fun o ho => ?_
  cases o with
  | ok ts =>
    obtain ⟨duties, rfl⟩ := s.exists_tasksOf_of_engage ctx ho
    exact .bind (s.forward_teardown loop duties) fun _ =>
      .bind (s.benchmark.forward_report ctx loop) fun _ => .pure _
  | failed e => exact .pure _
  | panicked p => exact .pure _

theorem forward_iterateFrom (loop : UInt32) (count : Nat) :
    Forward (s.benchmark.iterateFrom ctx loop count) := by
  induction count generalizing loop with
  | zero => exact .pure _
  | succ count ih =>
    refine .bind (s.forward_iterate ctx loop) fun o => ?_
    cases o with
    | ok m => exact .bind (ih _) fun _ => .pure _
    | failed e => exact .bind .log fun _ => .pure _
    | panicked p => exact .pure _

theorem forward_conclude (outcome : Outcome HarnessError (List Measurement)) :
    Forward (s.benchmark.conclude outcome) := by
  have hdestroy : Forward s.benchmark.destroy := by
    show Forward (do
      if s.recordsHooks then
        Run.note (.called .destroy)
      return s.destroy)
    split
    · exact .bind .note fun _ => .pure _
    · exact .pure _
  refine .bind hdestroy fun destroyed => ?_
  cases outcome <;> cases destroyed <;>
    first
    | exact .pure _
    | exact .bind .log fun _ => .pure _

theorem forward_runLoop : Forward (s.benchmark.runLoop ctx) := by
  have hinit : Forward (s.benchmark.init ctx) := by
    show Forward (do
      if s.recordsHooks then
        let pending ← Run.look fun w => (w.countdown ctx.id).pending.toInt
        Run.note (.called (.init pending))
      return s.init)
    split
    · exact .bind .look fun _ => .bind .note fun _ => .pure _
    · exact .pure _
  refine .bind hinit fun o => ?_
  cases o with
  | ok u => exact .bind (s.forward_iterateFrom ctx _ _) fun _ => s.forward_conclude _
  | failed f => exact .pure _
  | panicked p => exact .pure _

end Script

end BenchLoop
