/-
BenchLoop/Proofs/Target/Serving.lean

The worker pool in the hands of anybody.  `serve` makes any calls of the pool, one after the
other, and keeps a list of the jobs that have been queued, with the workers they were queued
to.  Between two calls

    Serving initial jobs w p

says of the pool what it is worth knowing:

* the script of each worker consists of the steps of the jobs queued to it, in that order;
* each countdown has lost what the jobs of its context have subtracted so far, and nothing
  else ever happens to it;
* no worker has panicked, and whoever is no worker any more has nothing left to do.

A call leads from there to there (`ends_init`, `ends_create`, `ends_destroy`), and so do any
calls (`ends_serve`).  When the workers have been joined nothing is left of their scripts.
-/
import BenchLoop.Proofs.Completion.Labour
import BenchLoop.Proofs.Target.Shards

namespace BenchLoop

open CountdownAction

namespace WorkerPool

/-! ### Calls and jobs -/

/-- A call of the pool. -/
inductive Call where
  | init (ctx : Context)
  | create (id : TaskId) (range : RowRange) (ctx : Context)
  | destroy

/-- Ranges lie within the rows of their contexts, whose configurations have been checked. -/
def Call.Fits : Call → Prop
  | create _ range ctx => ∃ id config drawn, config.fault? = none ∧
      ctx = .ofConfig id config drawn ∧ range.stop ≤ config.rows
  | init _ | destroy => True

/-- A job with the worker that it was queued to. -/
structure Job where
  number : JobId
  worker : ThreadId
  task : TaskId
  range : RowRange
  ctx : Context

namespace Job

/-- What the worker does for the job. -/
def steps (j : Job) : List Step := jobSteps j.number j.worker j.task j.range j.ctx

/-- The jobs that were queued to a worker, in order. -/
def queue (jobs : List Job) (i : ThreadId) : List Job := jobs.filter fun j => j.worker = i

/-- The rows of all jobs of a context. -/
def rows (jobs : List Job) (id : ContextId) : Nat :=
  ((jobs.filter fun j => j.ctx.id = id).map fun j => j.range.rowCount).sum

end Job

/-- Makes calls one after the other, and lists the jobs that have been queued. -/
def serve (queued : List Job) : List Call → Run WorkerPool (List Job)
  | [] => return queued
  | .init ctx :: calls => do
    let _ ← benchmark.init ctx
    serve queued calls
  | .create id range ctx :: calls => do
    let pool := (← get).target
    match ← benchmark.createTask id range ctx, pool.nextWorker? with
    | .ok _, some worker =>
      serve (queued ++ [{ number := pool.jobs, worker, task := id, range, ctx }]) calls
    | _, _ => serve queued calls
  | .destroy :: calls => do
    let _ ← benchmark.destroy
    serve queued calls

/-! ### The steps of a job -/

namespace Job

variable {j : Job} {s : Step}

theorem mem_steps (h : s ∈ j.steps) : s.task = some j.task ∧ s.isLabour = true ∧
    ∀ id a, s.on? id = some a → id = j.ctx.id ∧ a.isWork = true := by
  simp only [steps, jobSteps, List.cons_append, List.mem_cons, List.mem_append,
    List.not_mem_nil, or_false] at h
  have hcount (a : CountdownAction) (ha : a.isWork = true) (id : ContextId) (a' : CountdownAction)
      (hon : Step.on? id ⟨some j.task, .count j.ctx.id a⟩ = some a') :
      id = j.ctx.id ∧ a'.isWork = true := by
    rw [Step.on?_eq_some, Action.count.injEq] at hon
    obtain ⟨rfl, rfl⟩ := hon
    exact ⟨rfl, ha⟩
  rcases h with rfl | h | rfl
  · exact ⟨rfl, rfl, hcount readStart rfl⟩
  · obtain ⟨row, -, h⟩ := List.mem_flatMap.1 h
    simp only [List.mem_cons, List.not_mem_nil, or_false] at h
    rcases h with rfl | rfl
    · exact ⟨rfl, rfl, nofun⟩
    · exact ⟨rfl, rfl, hcount (subtract 1) rfl⟩
  · cases j.ctx.keyFault? j.range <;> exact ⟨rfl, rfl, nofun⟩

theorem filter_steps (j : Job) : j.steps.filter Step.isLabour = j.steps :=
  List.filter_eq_self.2 fun _ hs => (mem_steps hs).2.1

/-- A job that fits walks through its rows. -/
theorem walks (j : Job) : j.ctx.Walks (· = j.worker) (j.range, j.task) j.steps :=
  walks_jobSteps j.number j.worker j.task j.range j.ctx

/-- All rows of the job have keys. -/
def Fits (j : Job) : Prop :=
  j.ctx.reach j.range = j.range.rowCount ∧ j.ctx.keyFault? j.range = none

/-- A job subtracts its rows from the counter of its own context, and none from any other. -/
theorem tally_steps (h : j.Fits) (id : ContextId) : Step.tally id units (j.steps : List Step)
    = if j.ctx.id = id then j.range.rowCount else 0 := by
  split
  · next hid =>
    rw [← hid, j.walks.tally]
    exact h.1
  · next hid =>
    exact Step.tally_eq_zero id _ fun s hs a ha => absurd ((mem_steps hs).2.2 id a ha).1.symm hid

theorem isWork_steps (h : j.Fits) (hs : s ∈ j.steps) (id : ContextId) : s.isWork id = true := by
  have hcrash : s.isCrash = false :=
    Step.isCrash_of_isWork (Step.isWork_of_isOpening (j.walks.isOpening h.2 s hs).1)
  cases hon : s.on? id with
  | none => simp [Step.isWork, hcrash, hon]
  | some a => simp [Step.isWork, hcrash, hon, ((mem_steps hs).2.2 id a hon).2]

variable {jobs : List Job}

theorem queue_append (j : Job) (i : ThreadId) :
    queue (jobs ++ [j]) i = if j.worker = i then queue jobs i ++ [j] else queue jobs i := by
  rw [queue, List.filter_append, List.filter_cons]
  by_cases h : j.worker = i <;> simp [h, queue]

theorem rows_append (j : Job) (id : ContextId) :
    rows (jobs ++ [j]) id = rows jobs id + if j.ctx.id = id then j.range.rowCount else 0 := by
  rw [rows, List.filter_append, List.filter_cons]
  by_cases h : j.ctx.id = id <;> simp [h, rows]

/-- What a thread may do: the work of its jobs, each on the countdown of its own context. -/
def rule (jobs : List Job) (i : ThreadId) (s : Step) : Prop :=
  (∀ id, s.isWork id = true) ∧ ∀ id a, s.on? id = some a →
    ∃ j ∈ jobs, j.worker = i ∧ j.ctx.id = id ∧ s.task = some j.task

theorem rule_next {w : World} {i : ThreadId} {t : Step} (h : rule jobs i s)
    (ht : t ∈ (w.exec (.thread i) s).1) : rule jobs i t := by
  refine ⟨fun id => World.isWork_exec ht, fun id b hb => ?_⟩
  rw [World.exec_task ht]
  cases hon : s.on? id with
  | none =>
    rw [(World.exec_off w _ hon).1 t ht] at hb
    cases hb
  | some a => exact h.2 id a hon

end Job

/-! ### Between two calls -/

/-- What is known of the pool between two calls, the countdowns being `initial` in the
beginning. -/
structure Serving (initial : Table Countdown) (jobs : List Job) (w : World) (p : WorkerPool) :
    Prop where
  numbers : jobs.map (·.number) = List.range p.jobs
  fits : ∀ j ∈ jobs, j.Fits
  queued : ∀ j ∈ jobs, j.worker < w.threads.size
  script : ∀ i, w.script i = (Job.queue jobs i).flatMap Job.steps
  account : ∀ id, (Account.balance id (initial.get id)).inv (Job.rows jobs id) [] w
  obeys : w.Obeys (Job.rule jobs)
  workers : ∀ i ∈ p.workers, i < w.threads.size
  sound : ∀ i, w.hasCrashed i = false
  retired : ∀ i, i ∉ p.workers → w.remaining i = []

namespace Serving

variable {initial : Table Countdown} {jobs : List Job} {w : World} {p : WorkerPool}

theorem calm (h : Serving initial jobs w p) : ∀ s ∈ w.inFlight, s.isCrash = false :=
  fun s hs => (Account.balance 0 (initial.get 0)).sound (h.account 0) s
    (Multiset.mem_add.2 (.inl hs))

protected theorem fresh (countdowns : Table Countdown) (now pace : Nat) (size : UInt64) :
    Serving countdowns [] { countdowns, now, pace } { size } where
  numbers := rfl
  fits := nofun
  queued := nofun
  script _ := rfl
  account _ := ⟨nofun, rfl, (Int64.sub_zero _).symm, fun _ => rfl⟩
  obeys := ⟨fun _ _ => nofun, nofun⟩
  workers _ h := absurd h (Array.not_mem_empty _)
  sound _ := rfl
  retired _ _ := rfl

protected theorem turn (h : Serving initial jobs w p) (t : Turn) :
    Serving initial jobs (w.turn t) p where
  numbers := h.numbers
  fits := h.fits
  queued j hj := by rw [World.size_threads_turn]; exact h.queued j hj
  script i := (World.script_turn t h.calm i).trans (h.script i)
  account id := Balance.inv_turn (h.account id) t
  obeys := h.obeys.turn t fun w i s t hs ht => Job.rule_next hs ht
  workers i hi := by rw [World.size_threads_turn]; exact h.workers i hi
  sound i := (World.hasCrashed_turn t h.calm i).trans (h.sound i)
  retired i hi := World.remaining_turn_of_nil (h.retired i hi)

theorem stable : Stable (Serving initial jobs) := fun _ _ t h => h.turn t

protected theorem note (h : Serving initial jobs w p) {event : Event}
    (he : event.isStep = false) : Serving initial jobs (w.note .coordinator event) p where
  numbers := h.numbers
  fits := h.fits
  queued := h.queued
  script i := (World.script_note event i).trans (h.script i)
  account id := (Account.balance id (initial.get id)).note (h.account id) event he
  obeys := h.obeys.note he
  workers := h.workers
  sound := h.sound
  retired := h.retired

/-- A thread that is started with nothing to do changes nothing. -/
protected theorem spawn (h : Serving initial jobs w p) (name : String) :
    Serving initial jobs (w.spawn name []).2 p where
  numbers := h.numbers
  fits := h.fits
  queued j hj := (h.queued j hj).trans_le (by simp)
  script i := (World.script_spawn name i).trans (h.script i)
  account id := by
    rw [Balance.inv, World.inFlight_spawn, Multiset.coe_nil, add_zero]
    exact (Account.balance id (initial.get id)).frame (h.account id) _ _
  obeys := h.obeys.spawn name
  workers i hi := (h.workers i hi).trans_le (by simp)
  sound := World.hasCrashed_spawn name [] h.sound
  retired i hi := by
    rw [World.remaining_spawn]
    split
    · rfl
    · exact h.retired i hi

/-- The pool gets workers. -/
protected theorem hire (h : Serving initial jobs w p) {worker : ThreadId}
    (hworker : worker < w.threads.size) :
    Serving initial jobs w { p with workers := p.workers.push worker } where
  numbers := h.numbers
  fits := h.fits
  queued := h.queued
  script := h.script
  account := h.account
  obeys := h.obeys
  workers i hi := by
    rcases Array.mem_push.1 hi with hi | rfl
    · exact h.workers i hi
    · exact hworker
  sound := h.sound
  retired i hi := h.retired i fun hmem => hi (Array.mem_push.2 (.inl hmem))

/-- A job goes to the end of the queue of its worker. -/
protected theorem enqueue (h : Serving initial jobs w p) {j : Job} (hj : j.Fits)
    (hworker : j.worker ∈ p.workers) (hnumber : j.number = p.jobs) (cursor : UInt64) :
    Serving initial (jobs ++ [j]) (w.enqueue j.worker j.steps)
      { p with cursor, jobs := p.jobs + 1 } := by
  have hlt := h.workers j.worker hworker
  have hmem {j' : Job} (hj' : j' ∈ jobs ++ [j]) : j' ∈ jobs ∨ j' = j := by
    simpa using hj'
  exact
    { numbers := by
        rw [List.map_append, h.numbers, List.range_succ, List.map_singleton, hnumber]
      fits := fun j' hj' => by
        rcases hmem hj' with hj' | rfl
        · exact h.fits j' hj'
        · exact hj
      queued := fun j' hj' => by
        rw [World.size_threads_enqueue]
        rcases hmem hj' with hj' | rfl
        · exact h.queued j' hj'
        · exact hlt
      script := fun i => by
        rw [World.script_enqueue hlt, h.script, j.filter_steps, Job.queue_append]
        by_cases hi : i = j.worker
        · rw [if_pos hi, if_pos hi.symm, List.flatMap_append, List.flatMap_singleton]
        · rw [if_neg hi, if_neg (Ne.symm hi)]
      -- the rows of the job are due from now on, and its steps are in flight to count them down
      account := fun id => by
        have haccount := h.account id
        rw [Balance.inv, Multiset.coe_nil, add_zero] at haccount
        rw [Balance.inv, World.inFlight_enqueue hlt, Multiset.coe_nil, add_zero, Job.rows_append,
          ← Job.tally_steps hj]
        obtain ⟨hwork, htotal, hpending, huntouched⟩ := haccount
        refine ⟨fun s hs => (Multiset.mem_add.1 hs).elim (hwork s) fun hs =>
          Job.isWork_steps hj (Multiset.mem_coe.1 hs) id, ?_, hpending, huntouched⟩
        rw [Step.tally_add, ← htotal, Nat.add_assoc]
        rfl
      obeys := by
        have hobeys : w.Obeys (Job.rule (jobs ++ [j])) := h.obeys.mono fun i s hs =>
          ⟨hs.1, fun id a ha => by
            obtain ⟨j', hj', hrest⟩ := hs.2 id a ha
            exact ⟨j', List.mem_append_left _ hj', hrest⟩⟩
        refine hobeys.enqueue hlt fun s hs => ⟨Job.isWork_steps hj hs, fun id a ha => ?_⟩
        obtain ⟨htask, -, hon⟩ := Job.mem_steps hs
        exact ⟨j, by simp, rfl, (hon id a ha).1.symm, htask⟩
      workers := fun i hi => by
        rw [World.size_threads_enqueue]
        exact h.workers i hi
      sound := fun i => by
        rw [World.hasCrashed_enqueue]
        exact h.sound i
      retired := fun i hi => by
        have hne : i ≠ j.worker := fun heq => hi (heq ▸ hworker)
        rw [World.remaining_enqueue hlt, if_neg hne]
        exact h.retired i hi }

/-- When all workers have come to their ends they can be dismissed. -/
protected theorem dismiss (h : Serving initial jobs w p)
    (hidle : ∀ i ∈ p.workers, w.remaining i = []) :
    Serving initial jobs w { p with workers := #[] } where
  numbers := h.numbers
  fits := h.fits
  queued := h.queued
  script := h.script
  account := h.account
  obeys := h.obeys
  workers _ hi := absurd hi (Array.not_mem_empty _)
  sound := h.sound
  retired i _ := by
    by_cases hi : i ∈ p.workers
    · exact hidle i hi
    · exact h.retired i hi

/-! ### Calls -/

theorem ends_log (level : LogLevel) (message : String) :
    Run.Ends (Serving initial jobs) (Run.log level message) fun _ => Serving initial jobs :=
  .log stable fun _ _ h => h.note rfl

theorem ends_startWorkers (number count : Nat) :
    Run.Ends (Serving initial jobs) (startWorkers number count)
      fun _ => Serving initial jobs := by
  induction count generalizing number with
  | zero => exact .pure fun _ _ h => h
  | succ count ih =>
    refine Run.Ends.bind (Run.Ends.spawn (Q := fun worker w p => Serving initial jobs w p ∧
      worker < w.threads.size) stable fun w p h => ⟨h.spawn _, by simp [World.spawn]⟩)
      fun worker => ?_
    exact Run.Ends.bind (Run.Ends.modify fun s h => h.1.hire h.2) fun _ => ih (number + 1)

theorem ends_init (ctx : Context) :
    Run.Ends (Serving initial jobs) (benchmark.init ctx) fun outcome w p =>
      outcome = .ok () ∧ Serving initial jobs w p := by
  refine Run.Ends.get_bind fun s hs => ?_
  refine ((ends_startWorkers 0 _).pre ?_).bind fun _ => (ends_log _ _).bind fun _ =>
    .pure fun _ _ h => ⟨rfl, h⟩
  rintro w p ⟨rfl, rfl⟩
  exact hs

theorem ends_destroy :
    Run.Ends (Serving initial jobs) benchmark.destroy fun outcome w p =>
      outcome = .ok () ∧ p.workers = #[] ∧ Serving initial jobs w p := by
  refine (ends_dismiss stable fun _ _ h => h.sound).post ?_
  rintro outcome w p ⟨rfl, p', h, hidle, rfl⟩
  exact ⟨rfl, rfl, h.dismiss hidle⟩

end Serving

/-- It is no one's turn exactly if there are no workers. -/
theorem nextWorker?_eq_none_iff {p : WorkerPool} : p.nextWorker? = none ↔ p.workers = #[] := by
  rw [nextWorker?, Array.getElem?_eq_none_iff, ← Array.size_eq_zero_iff]
  constructor
  · intro h
    rcases Nat.eq_zero_or_pos p.workers.size with hzero | hpos
    · exact hzero
    · exact absurd (Nat.mod_lt _ hpos) (Nat.not_lt.2 h)
  · intro h
    omega

/-- Without workers a job is refused, and nothing changes. -/
theorem createTask_of_nil {s : Session WorkerPool} (h : s.target.workers = #[]) (id : TaskId)
    (range : RowRange) (ctx : Context) : benchmark.createTask id range ctx s
      = .ok (.failed { headline := "worker pool is not running" }) s := by
  have hnext := nextWorker?_eq_none_iff.2 h
  simp only [benchmark, createTask, bind, EStateM.bind, get, getThe, MonadStateOf.get, EStateM.get,
    hnext]
  rfl

/-- A call is queued to the worker whose turn it is, unless that has panicked.  The turn passes on
in any case. -/
theorem createTask_apply {s : Session WorkerPool} {worker : ThreadId}
    (hnext : s.target.nextWorker? = some worker) (id : TaskId) (range : RowRange) (ctx : Context) :
    benchmark.createTask id range ctx s =
      let w := s.interleave.world
      let target : WorkerPool :=
        { s.target with cursor := s.target.cursor + 1, jobs := s.target.jobs + 1 }
      if w.hasCrashed worker then
        .ok (.failed { headline := s!"pool worker for {range.name} has exited" })
          ⟨w, s.interleave.schedule, target⟩
      else
        .ok (.ok (task s.target.jobs id range))
          ⟨w.enqueue worker (jobSteps s.target.jobs worker id range ctx),
            s.interleave.schedule, target⟩ := by
  -- the pool is changed before threads take turns, which do not look at it
  have hinterleave (target : WorkerPool) :
      ({ s with target } : Session WorkerPool).interleave = { s.interleave with target } := by
    obtain ⟨world, schedule, target⟩ := s
    cases schedule <;> rfl
  simp only [benchmark, createTask, bind, EStateM.bind, get, getThe, MonadStateOf.get,
    EStateM.get, hnext, modify, modifyGet, MonadStateOf.modifyGet, EStateM.modifyGet, Run.step,
    Session.step]
  rw [hinterleave]
  simp only [send]
  cases s.interleave.world.hasCrashed worker <;> rfl

section Create

variable {initial : Table Countdown} {jobs : List Job} {s : Session WorkerPool}
variable {p : WorkerPool}

/-- While the pool is serving no worker has panicked, so the job is queued. -/
theorem exists_createTask (hs : Serving initial jobs s.world s.target) {worker : ThreadId}
    (hnext : s.target.nextWorker? = some worker) (id : TaskId) (range : RowRange)
    (ctx : Context) : ∃ s', benchmark.createTask id range ctx s
        = .ok (.ok (task s.target.jobs id range)) s' ∧
      (∃ w, Serving initial jobs w s.target ∧
        s'.world = w.enqueue worker (jobSteps s.target.jobs worker id range ctx)) ∧
      s'.target = { s.target with cursor := s.target.cursor + 1, jobs := s.target.jobs + 1 } := by
  have hserving := Serving.stable.interleave hs
  rw [s.target_interleave] at hserving
  have hsound : ¬ s.interleave.world.hasCrashed worker = true := by simp [hserving.sound worker]
  exact ⟨_, (createTask_apply hnext id range ctx).trans (if_neg hsound), ⟨_, hserving, rfl⟩, rfl⟩

/-- A pool without workers refuses a call. -/
theorem ends_createTask_of_nil (hnext : p.nextWorker? = none) (id : TaskId) (range : RowRange)
    (ctx : Context) :
    Run.Ends (fun w p' => p' = p ∧ Serving initial jobs w p') (benchmark.createTask id range ctx)
      fun outcome w p' => (∀ t, outcome ≠ .ok t) ∧ Serving initial jobs w p' := by
  intro s hs
  obtain ⟨rfl, hs⟩ := hs
  exact ⟨_, s, createTask_of_nil (nextWorker?_eq_none_iff.1 hnext) id range ctx, nofun, hs⟩

/-- The worker whose turn it is gets the job, if its range fits. -/
theorem ends_createTask {worker : ThreadId} (hnext : p.nextWorker? = some worker) {id : TaskId}
    {range : RowRange} {ctx : Context} (hcall : (Call.create id range ctx).Fits) :
    Run.Ends (fun w p' => p' = p ∧ Serving initial jobs w p') (benchmark.createTask id range ctx)
      fun outcome w p' => (∃ t, outcome = .ok t) ∧
        Serving initial (jobs ++ [{ number := p.jobs, worker, task := id, range, ctx }]) w p' := by
  intro s hs
  obtain ⟨rfl, hs⟩ := hs
  obtain ⟨context, config, drawn, hvalid, rfl, hle⟩ := hcall
  rw [UInt64.le_iff_toNat_le] at hle
  let job : Job := ⟨s.target.jobs, worker, id, range, .ofConfig context config drawn⟩
  have hfits : job.Fits :=
    ⟨Context.reach_of_le _ _ hvalid hle, Context.keyFault?_of_le _ _ hvalid hle⟩
  have hworker : worker ∈ s.target.workers := Array.mem_of_getElem? hnext
  obtain ⟨s', hrun, ⟨w, hw, hworld⟩, htarget⟩ := exists_createTask hs hnext id range _
  refine ⟨_, s', hrun, ⟨_, rfl⟩, ?_⟩
  rw [hworld, htarget]
  exact hw.enqueue (j := job) hfits hworker rfl _

/-- Any calls whose ranges fit leave the pool serving. -/
theorem ends_serve (queued : List Job) {calls : List Call} (hcalls : ∀ call ∈ calls, call.Fits) :
    Run.Ends (Serving initial queued) (serve queued calls) fun jobs => Serving initial jobs := by
  induction calls generalizing queued with
  | nil => exact .pure fun _ _ h => h
  | cons call calls ih =>
    obtain ⟨hcall, hrest⟩ := List.forall_mem_cons.1 hcalls
    cases call with
    | init ctx =>
      exact (Serving.ends_init ctx).bind fun _ => (ih queued hrest).pre fun _ _ h => h.2
    | destroy =>
      exact Serving.ends_destroy.bind fun _ => (ih queued hrest).pre fun _ _ h => h.2.2
    | create id range ctx =>
      refine Run.Ends.get_bind fun s hs => ?_
      have hsame (w : World) (p : WorkerPool) (h : w = s.world ∧ p = s.target) :
          p = s.target ∧ Serving initial queued w p := by
        rw [h.1, h.2]
        exact ⟨rfl, hs⟩
      dsimp only
      cases hnext : s.target.nextWorker? with
      | none =>
        refine ((ends_createTask_of_nil hnext id range ctx).pre hsame).bind fun outcome =>
          Run.Ends.lift fun hrefused => ?_
        cases outcome with
        | ok t => exact absurd rfl (hrefused t)
        | failed cause | panicked payload => exact ih queued hrest
      | some worker =>
        refine ((ends_createTask hnext hcall).pre hsame).bind fun outcome => Run.Ends.lift ?_
        rintro ⟨t, rfl⟩
        exact ih _ hrest

end Create

/-! ### What the pool does -/

/-- How the jobs queued so far are worked on. -/
structure Served (initial : Table Countdown) (jobs : List Job) (w : World) : Prop where
  /-- What a worker has done and what it has still to do are its jobs, each once, in the order in
  which they were queued to it. -/
  order : ∀ i, w.labour i ++ (w.remaining i).filter Step.isLabour
    = (Job.queue jobs i).flatMap Job.steps
  /-- Whatever happens to the countdown of a context is done for a job of that context, by the
  worker to which it was queued. -/
  own : ∀ e ∈ w.journal, ∀ id, e.on? id ≠ none → ∃ j ∈ jobs, j.ctx.id = id ∧
    ∃ s took, e = ⟨.thread j.worker, .performed s took⟩ ∧ s.task = some j.task
  /-- A counter has lost what the workers have subtracted from it. -/
  pending : ∀ id, (w.countdown id).pending = (initial.get id).pending
    - Int64.ofNat (∑ i ∈ Finset.range w.threads.size, Step.tally id units (w.labour i : List Step))
  untouched : ∀ id, (∀ j ∈ jobs, j.ctx.id ≠ id) → w.countdown id = initial.get id

/-- All jobs queued so far have been worked off. -/
structure Finished (initial : Table Countdown) (jobs : List Job) (w : World) : Prop where
  idle : ∀ i, w.remaining i = []
  labour : ∀ i, w.labour i = (Job.queue jobs i).flatMap Job.steps
  pending : ∀ id, (w.countdown id).pending
    = (initial.get id).pending - Int64.ofNat (Job.rows jobs id)

namespace Serving

variable {initial : Table Countdown} {jobs : List Job} {w : World} {p : WorkerPool}

theorem own (h : Serving initial jobs w p) {e : Entry} (he : e ∈ w.journal) {id : ContextId}
    (hon : e.on? id ≠ none) : ∃ j ∈ jobs, j.ctx.id = id ∧
      ∃ s took, e = ⟨.thread j.worker, .performed s took⟩ ∧ s.task = some j.task := by
  obtain ⟨actor, event⟩ := e
  cases event with
  | performed s took =>
    obtain ⟨i, rfl, -, hrule⟩ := h.obeys.done _ he s took rfl
    cases ha : s.on? id with
    | none => exact absurd (by simp [Entry.on?, ha]) hon
    | some a =>
      obtain ⟨j, hj, rfl, hid, htask⟩ := hrule id a ha
      exact ⟨j, hj, hid, s, took, rfl, htask⟩
  | _ => exact absurd rfl hon

theorem served (h : Serving initial jobs w p) : Served initial jobs w where
  order := h.script
  own _ he _ hon := h.own he hon
  pending id := by
    rw [(h.account id).pending, World.tally_spent fun e he hon => ?_]
    obtain ⟨j, hj, -, s, took, rfl, -⟩ := h.own he hon
    exact ⟨j.worker, h.queued j hj, rfl⟩
  untouched id hid := (h.account id).untouched fun e he => by
    by_contra hon
    obtain ⟨j, hj, hj', -⟩ := h.own he hon
    exact hid j hj hj'

theorem finished (h : Serving initial jobs w p) (hnone : p.workers = #[]) :
    Finished initial jobs w := by
  have hidle (i : ThreadId) : w.remaining i = [] :=
    h.retired i (by rw [hnone]; exact Array.not_mem_empty i)
  have hflight : w.inFlight = 0 :=
    World.inFlight_eq_zero fun i => List.isEmpty_iff.2 (hidle i)
  refine ⟨hidle, fun i => ?_, fun id => ?_⟩
  · have hscript := h.script i
    rwa [World.script, hidle, List.filter_nil, List.append_nil] at hscript
  · have htotal := (h.account id).total
    rw [hflight, Multiset.coe_nil, add_zero, Step.tally_zero, Nat.add_zero] at htotal
    rw [(h.account id).pending, htotal]

end Serving

/-- What becomes of the jobs that have been queued up to a session. -/
structure Kept (initial : Table Countdown) (jobs : List Job) (s : Session WorkerPool) : Prop where
  numbers : jobs.map (·.number) = List.range jobs.length
  /-- Working on a job subtracts its rows from the counter of its own context. -/
  units : ∀ j ∈ jobs, ∀ id, Step.tally id units (j.steps : List Step)
    = if j.ctx.id = id then j.range.rowCount else 0
  served : s.world.Remains (Served initial jobs)
  /-- Workers are threads that have not panicked. -/
  running : ∀ i ∈ s.target.workers, i < s.world.threads.size ∧ s.world.hasCrashed i = false
  /-- Without workers a job is refused, and nothing changes. -/
  refused : s.target.workers = #[] → ∀ id range ctx, benchmark.createTask id range ctx s
    = .ok (.failed { headline := "worker pool is not running" }) s
  accepted : s.target.workers ≠ #[] → ∀ id range ctx, ∃ t s',
    benchmark.createTask id range ctx s = .ok (.ok t) s'
  /-- Destroying the pool works off all jobs. -/
  destroyed : ∃ s', benchmark.destroy s = .ok (.ok ()) s' ∧
    s'.world.Remains (Finished initial jobs)

theorem Serving.kept {initial : Table Countdown} {jobs : List Job} {s : Session WorkerPool}
    (h : Serving initial jobs s.world s.target) : Kept initial jobs s where
  numbers := by
    have hnumbers := h.numbers
    have hlength := congrArg List.length hnumbers
    rw [List.length_map, List.length_range] at hlength
    rwa [← hlength] at hnumbers
  units j hj := Job.tally_steps (h.fits j hj)
  served turns := (Stable.burst Serving.stable h turns).served
  running i hi := ⟨h.workers i hi, h.sound i⟩
  refused hnone := createTask_of_nil hnone
  accepted hsome id range ctx := by
    obtain ⟨worker, hnext⟩ := Option.ne_none_iff_exists'.1 fun hnone =>
      hsome (nextWorker?_eq_none_iff.1 hnone)
    obtain ⟨s', hrun, -⟩ := exists_createTask h hnext id range ctx
    exact ⟨_, s', hrun⟩
  destroyed := by
    obtain ⟨outcome, s', hrun, rfl, hnone, h'⟩ := Serving.ends_destroy s h
    exact ⟨s', hrun, fun turns => (Stable.burst Serving.stable h' turns).finished hnone⟩

/-- **The pool loses and duplicates no job.**

* In the hands of anybody each worker works on the jobs that were queued to it in that order,
  each once, for the counter of the job's own context and no other; a job is refused exactly
  if no worker is running; and when the pool has been destroyed all jobs have been worked off.
* In write runs, after any number of them, the workers together have each row in store under
  its key, and nothing else, whenever the wait of an iteration is over. -/
theorem keeps_jobs (size : UInt64) (now pace : Nat) (schedule : Schedule) :
    (∀ countdowns calls, (∀ call ∈ calls, call.Fits) → ∃ jobs s,
      serve [] calls ⟨{ countdowns, now, pace }, schedule, { size }⟩ = .ok jobs s ∧
        Kept countdowns jobs s) ∧
      ∀ config id drawn, config.fault? = none → config.isWrite = true → ∀ count,
        let ctx := Context.ofConfig id config drawn
        ∃ s₀, benchmark.runs ctx count ⟨{ now, pace }, schedule, { size }⟩ = .ok () s₀ ∧
          ∃ s₁, benchmark.start ctx s₀ = .ok (.ok ()) s₁ ∧ Fills ctx s₁ := by
  refine ⟨fun countdowns calls hcalls => ?_, fun config id drawn hvalid hwrite count =>
    exists_shards hvalid hwrite id drawn size count now pace schedule⟩
  obtain ⟨jobs, s, hrun, h⟩ := ends_serve [] hcalls ⟨{ countdowns, now, pace }, schedule, { size }⟩
    (.fresh countdowns now pace size)
  exact ⟨jobs, s, hrun, h.kept⟩

/-- One worker serves two contexts.  A job that comes too early is refused; of the others one
subtracts two rows from the first counter, and one a row from the second.  In a write run with
three workers for two ranges the third row is in the store of one of them, under its key. -/
theorem keeps_jobs_of_two_contexts :
    (let config : Config := { rows := 3, threads := 1 }
     let ctx (id : ContextId) := Context.ofConfig id config 7
     let calls : List Call := [.create 0 (.ofBounds "b" 0 3) (ctx 0), .init (ctx 0),
       .create 1 (.ofBounds "b" 0 2) (ctx 0), .create 2 (.ofBounds "b" 2 3) (ctx 1)]
     (∀ call ∈ calls, call.Fits) ∧
       ∃ jobs s s', serve [] calls ⟨{}, [[], [.thread 0]], { size := 1 }⟩ = .ok jobs s ∧
         benchmark.destroy s = .ok (.ok ()) s' ∧ s'.world.Remains fun w =>
           (w.countdown 0).pending = -2 ∧ (w.countdown 1).pending = -1) ∧
    (let config : Config := { rows := 3, threads := 2, write? := some true }
     let ctx := Context.ofConfig 0 config 7
     config.fault? = none ∧ config.isWrite = true ∧ ∃ s₀ s₁ s₂ tasks,
       benchmark.start ctx ⟨{}, [[], [.thread 0]], { size := 3 }⟩ = .ok (.ok ()) s₀ ∧
         benchmark.iterateFrom ctx 1 0 s₀ = .ok (.ok []) s₁ ∧
         benchmark.engage ctx 1 s₁ = .ok (.ok tasks) s₂ ∧ s₂.world.Remains fun w =>
           ∃ worker ∈ s₂.target.workers, w.row? worker 3 = some 2) := by
  constructor
  · intro config ctx calls
    have hcalls : ∀ call ∈ calls, call.Fits := by
      have hvalid : config.fault? = none := by decide
      simp only [calls, List.forall_mem_cons]
      exact ⟨⟨0, config, 7, hvalid, rfl, by decide⟩, trivial,
        ⟨0, config, 7, hvalid, rfl, by decide⟩, ⟨1, config, 7, hvalid, rfl, by decide⟩, nofun⟩
    obtain ⟨jobs, s, hrun, hkept⟩ := (keeps_jobs 1 0 0 [[], [.thread 0]]).1 {} calls hcalls
    obtain ⟨s', hdestroy, hfinished⟩ := hkept.destroyed
    have hrows : (match serve [] calls ⟨{}, [[], [.thread 0]], { size := 1 }⟩ with
        | .ok jobs _ => (Job.rows jobs 0, Job.rows jobs 1)
        | .error _ _ => (0, 0)) = (2, 1) := by decide +kernel
    rw [hrun] at hrows
    obtain ⟨hfirst, hsecond⟩ := Prod.mk.inj hrows
    refine ⟨hcalls, jobs, s, s', hrun, hdestroy, fun turns => ⟨?_, ?_⟩⟩
    · rw [(hfinished turns).pending, hfirst]
      rfl
    · rw [(hfinished turns).pending, hsecond]
      rfl
  · intro config ctx
    have hvalid : config.fault? = none := by decide
    have hroom : PartitionFault.ofThreads? config.threads = none := by decide
    obtain ⟨s, hruns, s₀, hstart, hfills⟩ :=
      (keeps_jobs 3 0 0 [[], [.thread 0]]).2 config 0 7 hvalid rfl 0
    obtain ⟨-, rfl⟩ := EStateM.Result.ok.inj hruns
    obtain ⟨outcome, s₁, hloop, -, hnext⟩ := hfills 0
    obtain ⟨rfl, rfl⟩ := EStateM.Result.ok.inj hloop
    obtain ⟨outcome, s₂, hengage, htasks, hfilled⟩ := hnext [] rfl 1
    obtain ⟨tasks, rfl⟩ := htasks hroom
    refine ⟨hvalid, rfl, s₀, s₀, s₂, tasks, hstart, rfl, hengage, fun turns => ?_⟩
    exact ((hfilled tasks rfl).2 turns 3 2).2 ⟨by decide, rfl⟩

end WorkerPool

end BenchLoop
