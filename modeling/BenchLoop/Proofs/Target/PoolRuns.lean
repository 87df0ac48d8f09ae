/-
BenchLoop/Proofs/Target/PoolRuns.lean

The tasks that a run asks the worker pool for.

    Run.Calls p Q

says of a program `p` of the coordinator that it takes the pool through a stretch of its life
(`WorkerPool.Stretch`), if it comes to its end, and that `Q` holds of its result and of the calls
in that stretch.  There is a rule for each way to build a program, and so a lemma for each part of
an iteration.  Nothing but `createTask` calls the pool there: iterations in a row are one stretch,
with a call for each thread of each of them (`WorkerPool.calls_iterateFrom`).

Starting and stopping the workers is no part of a stretch, but leaves the cursor where it is
(`WorkerPool.cursor_init`, `WorkerPool.cursor_destroy`).  So the next stretch begins with the turn
at which the last one ended, and its calls are dealt out as evenly: `WorkerPool.queues_evenly`.
-/
import BenchLoop.Proofs.Target.RoundRobin

namespace BenchLoop

open WorkerPool (Creation Stretch)

variable {α β : Type}

namespace Run

/-- If the program ends it has gone through a stretch, and `Q` holds of its result and the calls. -/
def Calls (p : Run WorkerPool α) (Q : α → List Creation → Prop) : Prop :=
  ∀ s a s', p s = .ok a s' → ∃ calls, Stretch s calls s' ∧ Q a calls

/-- The pool is not called. -/
abbrev Spares (p : Run WorkerPool α) : Prop := Calls p fun _ calls => calls = []

namespace Calls

variable {p : Run WorkerPool α} {f : α → Run WorkerPool β}
variable {Q Q' : α → List Creation → Prop} {R : β → List Creation → Prop}

theorem post (h : Calls p Q) (hQ : ∀ a calls, Q a calls → Q' a calls) : Calls p Q' := by
  intro s a s' hrun
  obtain ⟨calls, hstretch, hpost⟩ := h s a s' hrun
  exact ⟨calls, hstretch, hQ a calls hpost⟩

protected theorem pure {a : α} (h : Q a []) : Calls (pure a : Run WorkerPool α) Q := by
  intro s a' s' hrun
  cases hrun
  exact ⟨[], .rest s, h⟩

protected theorem bind (hp : Calls p Q)
    (hf : ∀ a calls, Q a calls → Calls (f a) fun b more => R b (calls ++ more)) :
    Calls (p >>= f) R := by
  intro s b s'' hrun
  rw [Run.bind_apply] at hrun
  cases ha : p s with
  | ok a s' =>
    rw [ha] at hrun
    obtain ⟨calls, hstretch, hpost⟩ := hp s a s' ha
    obtain ⟨more, hmore, hpost'⟩ := hf a calls hpost s' b s'' hrun
    exact ⟨calls ++ more, hstretch.append hmore, hpost'⟩
  | error e s' =>
    rw [ha] at hrun
    cases hrun

/-- Behind a program that spares the pool everything is as if it were the first. -/
theorem bind_spares (hp : Spares p) (hf : ∀ a, Calls (f a) R) : Calls (p >>= f) R := by
  refine Calls.bind hp ?_
  rintro a _ rfl
  exact hf a

end Calls

/-! ### What spares the pool -/

theorem spares_step {g : World → α × World} (h : ∀ w : World, w.Precedes (g w).2) :
    Spares (Run.step g : Run WorkerPool α) := by
  intro s a s' hrun
  have hok : EStateM.Result.ok (s.step g).1 (s.step g).2 = .ok a s' := hrun
  obtain ⟨rfl, rfl⟩ := EStateM.Result.ok.inj hok
  refine ⟨[], .other ?_ ?_ (.rest _), rfl⟩
  · rw [(Session.step_snd g s).2, s.target_interleave]
  · rw [(Session.step_snd g s).1]
    exact (World.precedes_lasting.interleave s).trans (h _)

theorem spares_look (f : World → α) : Spares (Run.look f : Run WorkerPool α) :=
  spares_step fun w => .refl w

theorem spares_note (event : Event) : Spares (Run.note event : Run WorkerPool Unit) :=
  spares_step fun _ => World.precedes_note _ _

theorem spares_log (level : LogLevel) (message : String) :
    Spares (Run.log level message : Run WorkerPool Unit) :=
  spares_note _

theorem spares_spawn (name : String) (todo : List Step) :
    Spares (Run.spawn name todo : Run WorkerPool ThreadId) :=
  spares_step fun _ => World.precedes_spawn name todo

theorem spares_perform (steps : List Step) :
    Spares (Run.perform steps : Run WorkerPool Unit) := by
  intro s a s' hrun
  cases hrun
  obtain ⟨hworld, htarget⟩ := World.precedes_lasting.perform s steps
  exact ⟨[], .other htarget hworld (.rest _), rfl⟩

theorem spares_waitUntil (cond : World → Bool) :
    Spares (Run.waitUntil cond : Run WorkerPool Unit) := by
  intro s a s' hrun
  unfold Run.waitUntil at hrun
  cases hwait : s.waitUntil cond with
  | none =>
    rw [hwait] at hrun
    cases hrun
  | some s'' =>
    rw [hwait] at hrun
    cases hrun
    obtain ⟨hworld, htarget⟩ := World.precedes_lasting.waitUntil hwait
    exact ⟨[], .other htarget hworld (.rest _), rfl⟩

end Run

/-! ### Tasks -/

namespace RowTask

variable {t : RowTask WorkerPool} {ts : List (RowTask WorkerPool)}

theorem spares_teardown (h : Run.Spares t.stop) : Run.Spares t.teardown := by
  refine .bind_spares h fun stopped => ?_
  cases stopped with
  | ok u => exact .pure rfl
  | failed f => exact .bind_spares (Run.spares_log _ _) fun _ => .pure rfl
  | panicked p => exact .bind_spares (Run.spares_log _ _) fun _ => .pure rfl

theorem spares_teardownAll (h : ∀ t ∈ ts, Run.Spares t.stop) : Run.Spares (teardownAll ts) := by
  induction ts with
  | nil => exact .pure rfl
  | cons t ts ih =>
    obtain ⟨ht, hts⟩ := List.forall_mem_cons.1 h
    exact .bind_spares (spares_teardown ht) fun _ => .bind_spares (ih hts) fun _ => .pure rfl

theorem spares_spawn (t : RowTask WorkerPool) (ctx : Context) : Run.Spares (t.spawn ctx) := by
  unfold spawn
  split
  · exact .pure rfl
  · exact .bind_spares (Run.spares_spawn _ _) fun _ => .pure rfl

end RowTask

namespace WorkerPool

variable {ctx : Context}

theorem spares_stop (job : JobId) (range : RowRange) : Run.Spares (stop job range) := by
  refine .bind_spares (Run.spares_look _) fun finished => ?_
  dsimp only
  split
  · exact .bind_spares (Run.spares_log _ _) fun _ => .pure rfl
  · exact .pure rfl

/-- A call for a task is one, and the task spares the pool from then on. -/
theorem calls_createTask (id : TaskId) (range : RowRange) (ctx : Context) :
    Run.Calls (benchmark.createTask id range ctx) fun outcome calls =>
      calls.length = 1 ∧ ∀ t, outcome = .ok t → Run.Spares t.stop := by
  intro s outcome s' hrun
  refine ⟨_, .call hrun (.rest s'), rfl, ?_⟩
  rintro t rfl
  cases hnext : s.target.nextWorker? with
  | none =>
    rw [createTask_of_nil (nextWorker?_eq_none_iff.1 hnext)] at hrun
    cases hrun
  | some worker =>
    rw [createTask_apply hnext] at hrun
    dsimp only at hrun
    split at hrun <;> cases hrun
    exact spares_stop _ _

/-! ### The parts of an iteration -/

/-- Building the tasks for some ranges calls the pool for each of them, unless one fails. -/
theorem calls_createTasks {built : List (RowTask WorkerPool)}
    (hbuilt : ∀ t ∈ built, Run.Spares t.stop) (ranges : List RowRange) :
    Run.Calls (benchmark.createTasks ctx built ranges) fun outcome calls =>
      ∀ ts, outcome = .ok ts → calls.length = ranges.length ∧ ∀ t ∈ ts, Run.Spares t.stop := by
  induction ranges generalizing built with
  | nil =>
    refine .pure ?_
    rintro ts ⟨rfl⟩
    exact ⟨rfl, fun t ht => hbuilt t (List.mem_reverse.1 ht)⟩
  | cons range ranges ih =>
    refine .bind_spares (Run.spares_step fun _ => World.precedes_of_threads rfl) fun id => ?_
    refine .bind (calls_createTask id range ctx) ?_
    rintro outcome calls ⟨hcalls, htask⟩
    cases outcome with
    | ok t =>
      refine (ih (List.forall_mem_cons.2 ⟨htask t rfl, hbuilt⟩)).post ?_
      rintro outcome more hmore ts rfl
      obtain ⟨hlength, hts⟩ := hmore ts rfl
      exact ⟨by rw [List.length_append, hcalls, hlength, List.length_cons, Nat.add_comm], hts⟩
    | failed f =>
      -- the calls so far have been made, but they are no calls of an iteration with a result
      have hdown : Run.Spares (RowTask.teardownAll built.reverse) :=
        RowTask.spares_teardownAll fun t ht => hbuilt t (List.mem_reverse.1 ht)
      exact .bind_spares hdown fun _ => .pure nofun
    | panicked p => exact .pure nofun

theorem spares_startTasks (ts : List (RowTask WorkerPool)) :
    Run.Spares (Benchmark.startTasks ctx ts) := by
  induction ts with
  | nil => exact .pure rfl
  | cons t ts ih =>
    unfold Benchmark.startTasks
    split
    · refine .bind_spares (t.spares_spawn ctx) fun spawned => ?_
      cases spawned with
      | ok i => exact ih
      | error payload => exact .pure rfl
    · exact .bind_spares (Run.spares_log _ _) fun _ => ih

theorem calls_dispatch :
    Run.Calls (benchmark.dispatch ctx) fun outcome calls => ∀ ts, outcome = .ok ts →
      calls.length = ctx.config.threads.toNat ∧ ∀ t ∈ ts, Run.Spares t.stop := by
  unfold Benchmark.dispatch taskRanges?
  cases PartitionFault.ofThreads? ctx.config.threads with
  | some fault => exact .pure nofun
  | none =>
    refine .bind (calls_createTasks (List.forall_mem_nil _) _) fun outcome calls hts => ?_
    cases outcome with
    | ok ts =>
      obtain ⟨hlength, htasks⟩ := hts ts rfl
      rw [length_taskRanges] at hlength
      refine .bind_spares (spares_startTasks ts) fun started => ?_
      cases started with
      | ok u =>
        refine .pure ?_
        rintro _ ⟨rfl⟩
        rw [List.append_nil]
        exact ⟨hlength, htasks⟩
      | error payload => exact .pure nofun
    | failed e => exact .pure nofun
    | panicked p => exact .pure nofun

theorem calls_engage (loop : UInt32) :
    Run.Calls (benchmark.engage ctx loop) fun outcome calls => ∀ ts, outcome = .ok ts →
      calls.length = ctx.config.threads.toNat ∧ ∀ t ∈ ts, Run.Spares t.stop := by
  have harm : Run.Spares (Benchmark.arm ctx loop : Run WorkerPool Nat) :=
    .bind_spares (Run.spares_log _ _) fun _ =>
      .bind_spares (Run.spares_perform _) fun _ => Run.spares_look _
  have hawait (latch : Nat) : Run.Spares (Benchmark.await ctx loop latch : Run WorkerPool Unit) :=
    .bind_spares (Run.spares_log _ _) fun _ =>
      .bind_spares (Run.spares_waitUntil _) fun _ => Run.spares_note _
  refine .bind_spares harm fun latch => .bind calls_dispatch fun outcome calls hts => ?_
  cases outcome with
  | ok ts =>
    refine .bind_spares (hawait latch) fun _ => .pure ?_
    rw [List.append_nil]
    exact hts
  | failed e => exact .pure nofun
  | panicked p => exact .pure nofun

theorem spares_report (loop : UInt32) : Run.Spares (benchmark.report ctx loop) := by
  have hread : Run.Spares (benchmark.readOut ctx loop) :=
    .bind_spares (Run.spares_look _) fun _ => .bind_spares (Run.spares_look _) fun _ =>
      .bind_spares (Run.spares_note _) fun _ => .pure rfl
  rw [Benchmark.report_eq]
  refine .bind_spares (Run.spares_look _) fun started => ?_
  split
  · exact .bind_spares (Run.spares_log _ _) fun _ => hread
  · exact hread

/-- An iteration calls the pool once for each of its threads. -/
theorem calls_iterate (loop : UInt32) :
    Run.Calls (benchmark.iterate ctx loop) fun outcome calls => ∀ x, outcome = .ok x →
      calls.length = ctx.config.threads.toNat := by
  refine .bind (calls_engage loop) fun outcome calls hts => ?_
  cases outcome with
  | ok ts =>
    obtain ⟨hlength, htasks⟩ := hts ts rfl
    have hdown : Run.Spares (Benchmark.teardown loop ts) := by
      refine .bind_spares (RowTask.spares_teardownAll htasks) fun failed => ?_
      split
      · exact Run.spares_log _ _
      · exact .pure rfl
    refine .bind_spares hdown fun _ => .bind_spares (spares_report loop) fun x => .pure ?_
    rw [List.append_nil]
    exact fun _ _ => hlength
  | failed e => exact .pure nofun
  | panicked p => exact .pure nofun

/-- **Iterations in a row are one stretch**, unless one of them fails. -/
theorem calls_iterateFrom (loop : UInt32) (count : Nat) :
    Run.Calls (benchmark.iterateFrom ctx loop count) fun outcome calls =>
      ∀ results, outcome = .ok results → calls.length = count * ctx.config.threads.toNat := by
  induction count generalizing loop with
  | zero => exact .pure fun _ _ => (Nat.zero_mul _).symm
  | succ count ih =>
    refine .bind (calls_iterate loop) fun outcome calls hcalls => ?_
    cases outcome with
    | ok x =>
      refine .bind (ih (loop + 1)) fun outcome more hmore => .pure ?_
      cases outcome with
      | ok results =>
        rintro _ -
        rw [List.append_nil, List.length_append, hcalls x rfl, hmore results rfl, Nat.succ_mul,
          Nat.add_comm]
      | failed e => exact nofun
      | panicked p => exact nofun
    | failed e => exact .bind_spares (Run.spares_log _ _) fun _ => .pure nofun
    | panicked p => exact .pure nofun

/-! ### Starting and stopping the workers -/

/-- The workers are threads, each another one. -/
structure Manned (w : World) (p : WorkerPool) : Prop where
  distinct : p.workers.toList.Nodup
  threads : ∀ i ∈ p.workers, i < w.threads.size

variable {s s' : Session WorkerPool} {w w' : World} {p : WorkerPool}

theorem Manned.mono (h : Manned w p) (hle : w.Precedes w') : Manned w' p :=
  ⟨h.distinct, fun i hi => Nat.lt_of_lt_of_le (h.threads i hi) hle.threads⟩

theorem Manned.of_nil (w : World) (hp : p.workers = #[]) : Manned w p := by
  refine ⟨?_, ?_⟩ <;> rw [hp]
  · exact List.nodup_nil
  · exact fun i hi => absurd hi (Array.not_mem_empty i)

/-- A thread that is new becomes a worker. -/
theorem Manned.push (h : Manned w p) {worker : ThreadId} (hnew : worker ∉ p.workers)
    (hworker : worker < w.threads.size) :
    Manned w { p with workers := p.workers.push worker } where
  distinct := by
    rw [Array.toList_push, ← List.concat_eq_append]
    exact h.distinct.concat fun hmem => hnew (Array.mem_toList_iff.1 hmem)
  threads i hi := by
    rcases Array.mem_push.1 hi with hi | rfl
    · exact h.threads i hi
    · exact hworker

/-- Any part of calls in a row is in a row. -/
theorem Stretch.split {calls more : List Creation} (h : Stretch s (calls ++ more) s') :
    ∃ s₁, Stretch s calls s₁ ∧ Stretch s₁ more s' := by
  generalize hall : calls ++ more = all at h
  induction h generalizing calls with
  | rest s =>
    obtain ⟨rfl, rfl⟩ := List.append_eq_nil_iff.1 hall
    exact ⟨s, .rest s, .rest s⟩
  | other htarget hworld _ ih =>
    obtain ⟨s₁, hcalls, hmore⟩ := ih hall
    exact ⟨s₁, .other htarget hworld hcalls, hmore⟩
  | @call s _ s' rest _ _ _ _ hcall hrest ih =>
    -- the cut is before this call, or behind it
    cases calls with
    | nil =>
      obtain rfl : more = _ := hall
      exact ⟨s, .rest s, .call hcall hrest⟩
    | cons first calls =>
      obtain ⟨rfl, hrest'⟩ := List.cons.inj hall
      obtain ⟨s₁, hcalls, hmore⟩ := ih hrest'
      exact ⟨s₁, .call hcall hcalls, hmore⟩

theorem Stretch.target_of_nil (h : Stretch s [] s') : s'.target = s.target := by
  generalize hcalls : ([] : List Creation) = calls at h
  induction h with
  | rest s => rfl
  | other htarget _ _ ih => exact (ih hcalls).trans htarget
  | call => cases hcalls

theorem Stretch.manned {calls : List Creation} (h : Stretch s calls s')
    (hs : Manned s.world s.target) : Manned s'.world s'.target := by
  obtain ⟨hworkers, hworld⟩ := h.workers
  refine ⟨?_, ?_⟩ <;> rw [hworkers]
  · exact hs.distinct
  · exact (hs.mono hworld).threads

/-- Whether or not the pool was in order before, starting workers does not move the cursor. -/
theorem ends_init_cursor (cursor : UInt64) (orderly : Prop) (ctx : Context) :
    let known (w : World) (p : WorkerPool) : Prop := p.cursor = cursor ∧ (orderly → Manned w p)
    Run.Ends known (benchmark.init ctx) fun _ => known := by
  intro known
  have hknown : Stable known := fun w p t h => ⟨h.1, fun ho => (h.2 ho).mono (w.precedes_turn t)⟩
  have hstart (number count : Nat) : Run.Ends known (startWorkers number count) fun _ => known := by
    induction count generalizing number with
    | zero => exact .pure fun _ _ h => h
    | succ count ih =>
      refine Run.Ends.bind (Run.Ends.spawn (Q := fun worker w p => known w p ∧
        worker < w.threads.size ∧ (orderly → worker ∉ p.workers)) hknown fun w p h => ?_)
        fun worker => ?_
      · -- a new thread has the next number, so it is none of the workers
        refine ⟨⟨h.1, fun ho => (h.2 ho).mono (World.precedes_spawn _ _)⟩, by simp [World.spawn],
          fun ho hmem => ?_⟩
        exact Nat.lt_irrefl _ ((h.2 ho).threads _ hmem)
      · refine Run.Ends.bind (Q := fun _ => known) (Run.Ends.modify fun s h => ?_) fun _ => ih _
        exact ⟨h.1.1, fun ho => (h.1.2 ho).push (h.2.2 ho) h.2.1⟩
  refine Run.Ends.get_bind fun s hs => ?_
  refine ((hstart 0 _).pre ?_).bind fun _ => (Run.Ends.log hknown fun w p h => ?_).bind fun _ =>
    .pure fun _ _ h => h
  · rintro w p ⟨rfl, rfl⟩
    exact hs
  · exact ⟨h.1, fun ho => (h.2 ho).mono (World.precedes_note _ _)⟩

theorem spares_joinWorkers (workers : List ThreadId) : Run.Spares (joinWorkers workers) := by
  induction workers with
  | nil => exact .pure rfl
  | cons worker workers ih =>
    exact .bind_spares (Run.spares_waitUntil _) fun _ => .bind_spares (Run.spares_look _) fun _ =>
      .bind_spares ih fun _ => .pure rfl

/-- Stopping the workers dismisses them, and changes nothing else of the pool. -/
theorem target_destroy {outcome : HookOutcome Unit}
    (h : benchmark.destroy s = .ok outcome s') : s'.target = { s.target with workers := #[] } := by
  simp only [benchmark, destroy, Run.bind_apply, get, getThe, MonadStateOf.get, EStateM.get] at h
  cases hjoin : joinWorkers s.target.workers.toList s with
  | error e s'' =>
    rw [hjoin] at h
    cases h
  | ok panicked s'' =>
    rw [hjoin] at h
    obtain ⟨calls, hstretch, rfl⟩ := spares_joinWorkers _ _ _ _ hjoin
    simp only [modify, modifyGet, MonadStateOf.modifyGet, EStateM.modifyGet,
      hstretch.target_of_nil] at h
    split at h <;> cases h <;> rfl

/-- **The pool deals out its tasks evenly.**  Of calls in a row that ask `w` workers for tasks none
fails as long as all workers run, and each worker is handed as many of their ranges as any other,
or one more, wherever the cursor is at first and if it does not wrap on the way.

* Any part of calls in a row is in a row, and the calls of the iterations of a run are.
* Starting and stopping the workers leaves the cursor where it is. -/
theorem queues_evenly :
    (∀ s calls s', Stretch s calls s' → Manned s.world s.target →
      let w := s.target.workers.size
      0 < w → (∀ i ∈ s.target.workers, s'.world.hasCrashed i = false) →
      s.target.cursor.toNat + calls.length ≤ UInt64.size →
        ∃ queue : List ThreadId, List.Forall₂ Creation.QueuedTo calls queue ∧
          (∀ i ∈ queue, i ∈ s.target.workers) ∧ ∀ i ∈ s.target.workers,
            queue.count i = calls.length / w ∨ queue.count i = (calls.length + w - 1) / w) ∧
    (∀ s calls more s', Stretch s (calls ++ more) s' →
      ∃ s₁, Stretch s calls s₁ ∧ Stretch s₁ more s') ∧
    (∀ ctx loop count s outcome s', benchmark.iterateFrom ctx loop count s = .ok outcome s' →
      ∃ calls, Stretch s calls s' ∧ (Manned s.world s.target → Manned s'.world s'.target) ∧
        ∀ results, outcome = .ok results → calls.length = count * ctx.config.threads.toNat) ∧
    (∀ ctx s outcome s', benchmark.init ctx s = .ok outcome s' →
      s'.target.cursor = s.target.cursor ∧
        (Manned s.world s.target → Manned s'.world s'.target)) ∧
    ∀ s outcome s', benchmark.destroy s = .ok outcome s' →
      s'.target.cursor = s.target.cursor ∧ Manned s'.world s'.target := by
  refine ⟨?_, fun _ _ _ _ => Stretch.split, ?_, ?_, ?_⟩
  · intro s calls s' h hs w hw hrunning hle
    exact h.balanced hw hs.distinct hrunning hle
  · intro ctx loop count s outcome s' hrun
    obtain ⟨calls, hstretch, hlength⟩ := calls_iterateFrom loop count s outcome s' hrun
    exact ⟨calls, hstretch, hstretch.manned, hlength⟩
  · intro ctx s outcome s' hrun
    exact (ends_init_cursor s.target.cursor (Manned s.world s.target) ctx).of_eq ⟨rfl, id⟩ hrun
  · intro s outcome s' hrun
    have htarget := target_destroy hrun
    exact ⟨by rw [htarget], .of_nil _ (by rw [htarget])⟩

/-- Of two calls each of three workers is handed one or none.  Two iterations with three threads
make six calls. -/
theorem queues_evenly_among_three :
    let config : Config := { rows := 4, threads := 3, write? := some true }
    let ctx := Context.ofConfig 0 config 7
    let workers : Array ThreadId := #[0, 1, 2]
    let threads : Array Thread :=
      #[{ name := "pool-worker-0" }, { name := "pool-worker-1" }, { name := "pool-worker-2" }]
    let s : Session WorkerPool := ⟨{ threads }, [], { size := 0, workers, cursor := 5 }⟩
    (∃ calls s' queue, Stretch s calls s' ∧ calls.length = 2 ∧
      List.Forall₂ Creation.QueuedTo calls queue ∧
      ∀ i ∈ workers, queue.count i = 0 ∨ queue.count i = 1) ∧
    (∃ s₁ s₂ results calls, benchmark.iterateFrom ctx 1 2 s₁ = .ok (.ok results) s₂ ∧
      Stretch s₁ calls s₂ ∧ calls.length = 6 ∧
        ∃ s₃, Stretch s₁ (calls.take 4) s₃ ∧ Stretch s₃ (calls.drop 4) s₂) ∧
    (∃ s', benchmark.init ctx s = .ok (.ok ()) s' ∧ s'.target.cursor = 5 ∧
      Manned s'.world s'.target) ∧
    ∃ s₁ s₂, benchmark.destroy s₁ = .ok (.ok ()) s₂ ∧ s₂.target.cursor = s₁.target.cursor := by
  obtain ⟨hevenly, hsplit, hiterations, hinit, hdestroy⟩ := queues_evenly
  intro config ctx workers threads s
  have hmanned : Manned s.world s.target := ⟨by decide, by decide⟩
  refine ⟨?_, ?_, ?_, ?_⟩
  · let range := RowRange.ofBounds "pool" 0 4
    let s₁ : Session WorkerPool :=
      ⟨s.world.enqueue 2 (jobSteps 0 2 0 range ctx), [],
        { size := 0, workers, cursor := 6, jobs := 1 }⟩
    let s₂ : Session WorkerPool :=
      ⟨s₁.world.enqueue 0 (jobSteps 1 0 1 range ctx), [],
        { size := 0, workers, cursor := 7, jobs := 2 }⟩
    have hnext : s.target.nextWorker? = some 2 := by decide
    have hnext₁ : s₁.target.nextWorker? = some 0 := by decide
    have h₁ : benchmark.createTask 0 range ctx s = .ok (.ok (task 0 0 range)) s₁ :=
      (createTask_apply hnext _ _ _).trans (if_neg (by decide))
    have h₂ : benchmark.createTask 1 range ctx s₁ = .ok (.ok (task 1 1 range)) s₂ :=
      (createTask_apply hnext₁ _ _ _).trans (if_neg (by decide))
    have hrunning : ∀ i ∈ workers, s₂.world.hasCrashed i = false := by decide +kernel
    obtain ⟨calls, hlength, hstretch⟩ : ∃ calls, calls.length = 2 ∧ Stretch s calls s₂ :=
      ⟨_, rfl, .call h₁ (.call h₂ (.rest s₂))⟩
    have hsize : s.target.workers.size = 3 := rfl
    obtain ⟨queue, hqueued, -, hcount⟩ :=
      hevenly s calls s₂ hstretch hmanned (by decide) hrunning (by rw [hlength]; decide)
    rw [hlength, hsize] at hcount
    exact ⟨calls, s₂, queue, hstretch, hlength, hqueued, hcount⟩
  · have hvalid : config.fault? = none := by decide
    obtain ⟨-, -, s₁, -, hfills⟩ := exists_shards hvalid rfl 0 7 0 0 0 0 []
    obtain ⟨outcome, s₂, hrun, hok, -⟩ := hfills 2
    obtain ⟨results, rfl⟩ := hok (by decide)
    obtain ⟨calls, hstretch, -, hlength⟩ := hiterations ctx 1 2 s₁ _ s₂ hrun
    refine ⟨s₁, s₂, results, calls, hrun, hstretch, hlength results rfl, hsplit _ _ _ _ ?_⟩
    rwa [List.take_append_drop]
  · obtain ⟨s', hs'⟩ : ∃ s', benchmark.init ctx s = .ok (.ok ()) s' := ⟨_, rfl⟩
    obtain ⟨hcursor, hkept⟩ := hinit ctx s _ s' hs'
    exact ⟨s', hs', hcursor, hkept hmanned⟩
  · obtain ⟨outcome, s₂, hrun, rfl, -⟩ :=
      Serving.ends_destroy ⟨{}, [], { size := 3 }⟩ (.fresh {} 0 0 3)
    exact ⟨_, s₂, hrun, (hdestroy _ _ s₂ hrun).1⟩

end WorkerPool

end BenchLoop
