/-
BenchLoop/Proofs/Target/Builtin.lean

The built-in targets follow conducts of their own.  A task of either claims the start,
works through the rows of its range one by one and notifies each; it never runs out of
keys in a checked configuration.  The tasks of the map in memory have threads of their
own, those of the worker pool are handed to its workers, none of which ever panics.
-/
import BenchLoop.Target.WorkerPool
import BenchLoop.Proofs.Target.Punctual

namespace BenchLoop

open CountdownAction

/-! ### Rows one by one -/

namespace MemoryMap

variable {ctx : Context} {store : StoreId} {id : TaskId} {range : RowRange}

/-- The steps for the rows of a range are those of a task, none of them a claim. -/
theorem mem_rowSteps {s : Step} (h : s ∈ rowSteps ctx store id range) :
    s.isOpening ctx.id = true ∧ s.task = some id ∧ s.isStart ctx.id = false := by
  obtain ⟨row, -, hs⟩ := List.mem_flatMap.1 h
  simp only [List.mem_cons, List.not_mem_nil, or_false] at hs
  rcases hs with rfl | rfl
  · exact ⟨rfl, rfl, rfl⟩
  · exact ⟨Context.isOpening_notify, rfl, Context.isStart_notify⟩

theorem counts_rowSteps (store : StoreId) (id : TaskId) (h : 0 < ctx.reach range) :
    ∃ s ∈ rowSteps ctx store id range, s.counts ctx.id = true := by
  rw [← ctx.length_keyed range, List.length_pos_iff_exists_mem] at h
  obtain ⟨row, hrow⟩ := h
  exact ⟨ctx.notify id 1, List.mem_flatMap.2 ⟨row, hrow, by simp⟩, Context.counts_notify⟩

theorem tally_rowSteps :
    Step.tally ctx.id units (rowSteps ctx store id range : List Step) = ctx.reach range := by
  rw [← ctx.length_keyed range, rowSteps]
  induction ctx.keyed range with
  | nil => rfl
  | cons row rows ih =>
    have hrow : Step.tally ctx.id units
        ([⟨some id, .access store (access ctx row)⟩, ctx.notify id 1] : List Step) = 1 := by
      simp [Step.tally, Context.notify, Context.count, Step.on?, units]
    rw [List.flatMap_cons, ← Multiset.coe_add, Step.tally_add, ih, hrow, List.length_cons,
      Nat.add_comm]

end MemoryMap

/-- The steps of a task that claims the start, works through the rows of its range in one of some
stores, and takes one more step at its end, a panic at most if it has run out of keys. -/
def Context.Walks (ctx : Context) (p : StoreId → Prop) (d : Duty) (steps : List Step) : Prop :=
  ∃ store last, p store ∧
    steps = ctx.markStarted d.2 :: (MemoryMap.rowSteps ctx store d.2 d.1 ++ [last]) ∧
    last.task = some d.2 ∧ last.on? ctx.id = none ∧ last.access? = none ∧
    (ctx.keyFault? d.1 = none → last.isCrash = false)

theorem Context.Walks.mono {ctx : Context} {p q : StoreId → Prop} {d : Duty} {steps : List Step}
    (h : ctx.Walks p d steps) (hpq : ∀ store, p store → q store) : ctx.Walks q d steps := by
  obtain ⟨store, last, hstore, h⟩ := h
  exact ⟨store, last, hpq store hstore, h⟩

/-- A benchmark all of whose tasks can be built and do so. -/
def Conduct.walking (ctx : Context) (threaded : Bool) (p : StoreId → Prop) : Conduct where
  threaded _ := threaded
  line := ctx.Walks p
  notified d := ctx.reach d.1

namespace Context.Walks

variable {ctx : Context} {p : StoreId → Prop} {d : Duty} {steps : List Step}

theorem tally (h : ctx.Walks p d steps) : Step.tally ctx.id units steps = ctx.reach d.1 := by
  obtain ⟨store, last, -, rfl, -, hlast, -⟩ := h
  have hstart : (ctx.markStarted d.2).on? ctx.id = some .readStart :=
    Step.on?_count ctx.id (some d.2) .readStart
  rw [← Multiset.cons_coe, ← Multiset.coe_add, Multiset.coe_singleton, ← Multiset.cons_zero,
    Step.tally_cons, Step.tally_add, Step.tally_cons, MemoryMap.tally_rowSteps, hstart, hlast]
  exact Nat.zero_add _

theorem isOpening (h : ctx.Walks p d steps) (hkeys : ctx.keyFault? d.1 = none) :
    ∀ s ∈ steps, s.isOpening ctx.id = true ∧ s.task = some d.2 := by
  obtain ⟨store, last, -, rfl, htask, hlast, -, hcrash⟩ := h
  rintro s (_ | ⟨_, hs⟩)
  · exact ⟨isOpening_markStarted, rfl⟩
  rcases List.mem_append.1 hs with hs | hs
  · obtain ⟨hopening, hown, -⟩ := MemoryMap.mem_rowSteps hs
    exact ⟨hopening, hown⟩
  · obtain rfl := List.mem_singleton.1 hs
    exact ⟨by simp [Step.isOpening, Step.isWork, hcrash hkeys, hlast], htask⟩

theorem paced (h : ctx.Walks p d steps) (hkeys : ctx.keyFault? d.1 = none)
    (hpos : 0 < ctx.reach d.1) : Step.Paced ctx.id False steps := by
  have hwork (s : Step) (hs : s ∈ steps) : s.isWork ctx.id = true :=
    Step.isWork_of_isOpening (h.isOpening hkeys s hs).1
  obtain ⟨store, last, -, rfl, -, hlast, -⟩ := h
  refine .of_start hwork isStart_markStarted (fun s hs => ?_) ?_
  · rcases List.mem_append.1 hs with hs | hs
    · exact (MemoryMap.mem_rowSteps hs).2.2
    · obtain rfl := List.mem_singleton.1 hs
      exact Step.isStart_of_off hlast
  · obtain ⟨s, hs, hcounts⟩ := MemoryMap.counts_rowSteps store d.2 hpos
    exact ⟨s, List.mem_append_left _ hs, hcounts⟩

end Context.Walks

namespace Conduct

variable {σ : Type} (b : Benchmark σ) {config : Config} (threaded : Bool) (p : StoreId → Prop)
variable (id : ContextId) (drawn : UInt64)

/-- No task of an iteration runs out of keys. -/
theorem reach_of_mem_duties (hvalid : config.fault? = none) {k : Nat} {d : Duty}
    (hd : d ∈ b.duties config k) :
    (Context.ofConfig id config drawn).reach d.1 = d.1.rowCount ∧
      (Context.ofConfig id config drawn).keyFault? d.1 = none := by
  have hrange : d.1 ∈ taskRanges b.name config.rows config.threads :=
    List.fst_mem_of_mem_zipIdx hd
  exact ⟨Context.reach_of_mem id drawn hvalid hrange,
    Context.keyFault?_of_mem id drawn hvalid hrange⟩

theorem orderly_walking (hvalid : config.fault? = none) :
    (walking (.ofConfig id config drawn) threaded p).Orderly b (.ofConfig id config drawn) where
  tally _ _ _ _ h := h.tally
  opening _ _ hd _ h s hs :=
    (h.isOpening (reach_of_mem_duties b id drawn hvalid hd).2 s hs).1
  own _ _ hd _ h s hs := (h.isOpening (reach_of_mem_duties b id drawn hvalid hd).2 s hs).2

theorem rows_walking (hvalid : config.fault? = none) (k : Nat) :
    (walking (.ofConfig id config drawn) threaded p).rows (b.duties config k)
      = config.rows.toNat := by
  refine Eq.trans (congrArg List.sum (List.map_congr_left fun d hd => ?_))
    (b.sum_rowCount_duties (Config.threads_pos hvalid) k)
  exact (reach_of_mem_duties b id drawn hvalid hd).1

/-- If no range is empty then such tasks are punctual. -/
theorem punctual_walking (hvalid : config.fault? = none)
    (hle : config.threads.toNat ≤ config.rows.toNat) :
    (walking (.ofConfig id config drawn) threaded p).Punctual b (.ofConfig id config drawn) where
  orderly := orderly_walking b threaded p id drawn hvalid
  rows := rows_walking b threaded p id drawn hvalid
  paced k d hd steps h := by
    obtain ⟨hreach, hkeys⟩ := reach_of_mem_duties b id drawn hvalid hd
    have hrange : d.1 ∈ taskRanges b.name config.rows config.threads :=
      List.fst_mem_of_mem_zipIdx hd
    exact h.paced hkeys (hreach ▸ rowCount_pos hrange hle)

end Conduct

/-! ### The map in memory -/

namespace MemoryMap

theorem follows (ctx : Context) :
    benchmark.Follows (.walking ctx true (· = store)) ctx fun _ _ => True where
  mono _ _ _ _ _ := trivial
  create r d rest tasks course _ := by
    obtain ⟨range, id⟩ := d
    refine .pure fun w target h => ⟨rfl, _, ?_, by simpa [Conduct.walking] using h⟩
    rintro t ⟨rfl⟩
    refine ⟨⟨rfl, rfl, fun _ => ?_, fun r rest tasks course => .pure fun w target h => ?_⟩, rfl⟩
    · refine ⟨store, _, rfl, rfl, rfl, ?_, ?_, fun _ => ?_⟩ <;> rfl
    · simpa [Conduct.walking] using h

/-- Loading the store says nothing about the tasks. -/
theorem ends_init {ctx : Context} {r : Regime} (hr : r.Storeless) :
    Run.Ends (Stage r (fun _ (_ : Unit) => True) 0 [] 0 []) (benchmark.init ctx)
      fun _ => Stage r (fun _ _ => True) 0 [] 0 [] := by
  simp only [benchmark, init]
  split
  · refine Run.Ends.bind (Run.Ends.step (Q := fun _ => Stage r (fun _ _ => True) 0 [] 0 [])
      Stage.stable fun w target h => ?_) fun filled => ?_
    · unfold fill
      split
      · exact h.stored hr _
      · exact h
    · cases filled with
      | true => exact (Stage.ends_log _ _).bind fun _ => .pure fun _ _ h => h
      | false => exact .pure fun _ _ h => h
  · exact .pure fun _ _ h => h

theorem readies (ctx : Context) : benchmark.Readies ctx (fun _ _ => True) () :=
  fun _ hr => (ends_init hr).mono (fun _ _ h => h.imp fun _ => trivial) fun _ _ _ h _ => ⟨[], h⟩

end MemoryMap

/-! ### The worker pool -/

namespace WorkerPool

/-- The workers are running threads, there are some, and something more is known of them. -/
def Staffed (q : Array ThreadId → Prop) (threads : Nat) (p : WorkerPool) : Prop :=
  0 < p.workers.size ∧ (∀ i ∈ p.workers, i < threads) ∧ q p.workers

/-- A job walks through its rows in the store of its worker. -/
theorem walks_jobSteps (job : JobId) (worker : ThreadId) (id : TaskId) (range : RowRange)
    (ctx : Context) : ctx.Walks (· = worker) (range, id) (jobSteps job worker id range ctx) := by
  refine ⟨worker, _, rfl, rfl, rfl, ?_, ?_, fun hkeys => ?_⟩
  · cases ctx.keyFault? range <;> rfl
  · cases ctx.keyFault? range <;> rfl
  · simp only [hkeys]
    rfl

theorem follows (ctx : Context) {q : Array ThreadId → Prop} {p : StoreId → Prop}
    (hp : ∀ workers, q workers → ∀ i ∈ workers, p i) :
    benchmark.Follows (.walking ctx false p) ctx (Staffed q) where
  mono n k pool h hle := ⟨h.1, fun i hi => (h.2.1 i hi).trans_le hle, h.2.2⟩
  create r d rest tasks course hallowed := by
    obtain ⟨range, id⟩ := d
    refine Run.Ends.get_bind fun s hs => ?_
    obtain ⟨hpos, hworkers, hq⟩ := hs.known
    have hturn : s.target.cursor.toNat % s.target.workers.size < s.target.workers.size :=
      Nat.mod_lt _ hpos
    let worker := s.target.workers[s.target.cursor.toNat % s.target.workers.size]
    have hmem : worker ∈ s.target.workers := Array.getElem_mem hturn
    have hworker : worker < s.world.threads.size := hworkers _ hmem
    have hnext : s.target.nextWorker? = some worker := Array.getElem?_eq_getElem hturn
    simp only [hnext]
    have hline : ctx.Walks p (range, id) (jobSteps s.target.jobs worker id range ctx) :=
      (walks_jobSteps _ worker id range ctx).mono fun _ heq => heq ▸ hp _ hq worker hmem
    -- what is known of the pool between taking note of the job and queueing it
    let known (n : Nat) (pool : WorkerPool) : Prop := Staffed q n pool ∧ worker < n
    refine Run.Ends.bind (Run.Ends.modify (Q := fun _ => Stage r known ((range, id) ::ₘ rest) []
      tasks course) ?_) fun _ => Run.Ends.bind (Run.Ends.step
        (Q := fun queued w pool => queued = true ∧ Stage r (Staffed q) rest [] tasks course w pool)
        Stage.stable fun w pool h => ?_) fun queued => Run.Ends.lift ?_
    · rintro s' ⟨hw, -⟩
      show Stage r known ((range, id) ::ₘ rest) [] tasks course s'.world _
      rw [hw]
      exact hs.imp fun _ => ⟨⟨hpos, hworkers, hq⟩, hworker⟩
    · rw [send, if_neg (by simp [h.sound worker])]
      exact ⟨rfl, (h.imp fun h => h.1).enqueue (hallowed rfl _ hline) h.known.2⟩
    · rintro rfl
      refine .pure fun w pool h => ⟨rfl, rest, ?_, by simpa [Conduct.walking] using h⟩
      rintro t ⟨rfl⟩
      refine ⟨⟨rfl, rfl, nofun, fun r rest tasks course => ?_⟩, by simp [Conduct.walking]⟩
      refine (Stage.ends_look _).bind fun finished => ?_
      split
      · exact (Stage.ends_log _ _).bind fun _ => .pure fun w pool h => by
          simpa [Conduct.walking] using h
      · exact .pure fun w pool h => by simpa [Conduct.walking] using h

/-- Starting workers adds new threads to the pool. -/
theorem ends_startWorkers {r : Regime} {rest : Multiset Duty} {tasks : TaskId}
    {course : List Event} (first size number count : Nat) :
    Run.Ends (Stage r (fun n p => first ≤ n ∧ p.workers.size = size ∧
        ∀ i ∈ p.workers, first ≤ i ∧ i < n) rest [] tasks course)
      (startWorkers number count) fun _ =>
        Stage r (fun n p => first ≤ n ∧ p.workers.size = size + count ∧
          ∀ i ∈ p.workers, first ≤ i ∧ i < n) rest [] tasks course := by
  induction count generalizing size number with
  | zero => exact .pure fun w p h => h
  | succ count ih =>
    let known (n : Nat) (p : WorkerPool) : Prop := first ≤ n ∧ p.workers.size = size ∧
      ∀ i ∈ p.workers, first ≤ i ∧ i < n
    have hmono (n k : Nat) (p : WorkerPool) (h : known n p) (hle : n ≤ k) : known k p :=
      ⟨h.1.trans hle, h.2.1, fun i hi => ⟨(h.2.2 i hi).1, (h.2.2 i hi).2.trans_le hle⟩⟩
    refine Run.Ends.bind (Run.Ends.spawn (Q := fun worker =>
      Stage r (fun n p => known n p ∧ first ≤ worker ∧ worker < n) rest [] tasks course)
      Stage.stable fun w p h => ?_) fun worker => ?_
    · exact (h.hire hmono s!"pool-worker-{number}").imp fun hknown =>
        ⟨hknown, h.known.1, by simp [World.spawn]⟩
    -- the new thread is behind all those before it, so it is a worker of its own
    · rw [Nat.add_comm count 1, ← Nat.add_assoc]
      refine Run.Ends.bind (Run.Ends.modify fun s h => ?_) fun _ => ih (size + 1) (number + 1)
      obtain ⟨⟨hfirst, hsize, hworkers⟩, hworker⟩ := h.known
      refine h.imp fun _ => ⟨hfirst, by simp [hsize], fun i hi => ?_⟩
      rcases Array.mem_push.1 hi with hi | rfl
      · exact hworkers i hi
      · exact hworker

/-- Initialising the pool staffs it with new threads. -/
theorem ends_init {ctx : Context} {r : Regime} {rest : Multiset Duty} {tasks : TaskId}
    {course : List Event} (hthreads : 0 < ctx.config.threads.toNat) (first : Nat) :
    Run.Ends (Stage r (fun n p => first ≤ n ∧ p.workers = #[]) rest [] tasks course)
      (benchmark.init ctx) fun outcome w p => outcome = .ok () ∧
        Stage r (Staffed fun workers => ∀ i ∈ workers, first ≤ i) rest [] tasks course w p := by
  refine Run.Ends.get_bind fun s hs => ?_
  obtain ⟨hfirst, hnone⟩ := hs.known
  have hcount : 0 < (if s.target.size = 0 then ctx.config.threads else s.target.size).toNat := by
    split
    · exact hthreads
    · next hne => exact Nat.pos_of_ne_zero fun h => hne (UInt64.toNat_inj.1 h)
  have hstart : Run.Ends (fun w p => w = s.world ∧ p = s.target)
      (startWorkers 0 (if s.target.size = 0 then ctx.config.threads else s.target.size).toNat)
      fun _ => Stage r (Staffed fun workers => ∀ i ∈ workers, first ≤ i) rest [] tasks course := by
    refine (@ends_startWorkers r rest tasks course first 0 0 _).mono (fun w p h => ?_)
      fun _ w p h => ?_
    · obtain ⟨rfl, rfl⟩ := h
      exact hs.imp fun _ => ⟨hfirst, by simp [hnone], by simp [hnone]⟩
    · obtain ⟨-, hsize, hworkers⟩ := h.known
      exact h.imp fun _ =>
        ⟨by omega, fun i hi => (hworkers i hi).2, fun i hi => (hworkers i hi).1⟩
  exact hstart.bind fun _ => (Stage.ends_log _ _).bind fun _ => .pure fun _ _ h => ⟨rfl, h⟩

theorem readies {config : Config} (hvalid : config.fault? = none) (size : UInt64)
    (id : ContextId) (drawn : UInt64) :
    benchmark.Readies (.ofConfig id config drawn) (Staffed fun _ => True) { size } := by
  intro r _
  have hthreads : 0 < (Context.ofConfig id config drawn).config.threads.toNat :=
    Config.threads_pos hvalid
  exact (ends_init hthreads 0).mono
    (fun _ _ h => h.imp fun hp => ⟨Nat.zero_le _, by rw [hp]⟩)
    fun _ _ _ h _ => ⟨[], h.2.imp fun hp => ⟨hp.1, hp.2.1, trivial⟩⟩

/-- Waiting for workers ends when all of them have come to their ends, and finds that none has
panicked. -/
theorem ends_joinWorkers {P : World → WorkerPool → Prop} (hP : Stable P)
    (hsound : ∀ w p, P w p → ∀ i, w.hasCrashed i = false) (workers : List ThreadId) :
    Run.Ends P (joinWorkers workers) fun panicked w p =>
      panicked = 0 ∧ P w p ∧ ∀ i ∈ workers, w.remaining i = [] := by
  induction workers generalizing P with
  | nil => exact .pure fun w p h => ⟨rfl, h, nofun⟩
  | cons worker workers ih =>
    -- the worker remains idle while the others are waited for
    let P' (w : World) (p : WorkerPool) : Prop := P w p ∧ w.remaining worker = []
    have hP' : Stable P' := fun w p t h => ⟨hP w p t h.1, World.remaining_turn_of_nil h.2⟩
    refine Run.Ends.bind (Q := fun _ => P') ((Run.Ends.waitUntil hP fun w p _ hidle =>
      hidle worker).post fun _ w p h => ⟨h.1, List.isEmpty_iff.1 h.2⟩) fun _ => ?_
    refine Run.Ends.bind (Q := fun crashed w p => crashed = false ∧ P' w p)
      (.look hP' fun w p h => ⟨hsound w p h.1 worker, h⟩) fun crashed => Run.Ends.lift ?_
    rintro rfl
    refine (ih hP' fun w p h => hsound w p h.1).bind fun panicked => Run.Ends.lift ?_
    rintro rfl
    exact .pure fun w p h => ⟨rfl, h.1.1, List.forall_mem_cons.2 ⟨h.1.2, h.2⟩⟩

/-- Destroying the pool waits for its workers and leaves it without any. -/
theorem ends_dismiss {P : World → WorkerPool → Prop} (hP : Stable P)
    (hsound : ∀ w p, P w p → ∀ i, w.hasCrashed i = false) :
    Run.Ends P benchmark.destroy fun outcome w p => outcome = .ok () ∧
      ∃ p', P w p' ∧ (∀ i ∈ p'.workers, w.remaining i = []) ∧ p = { p' with workers := #[] } := by
  refine Run.Ends.get_bind fun s hs => ?_
  -- the pool itself remains as it was while its workers are waited for
  let waiting (w : World) (p : WorkerPool) : Prop := P w p ∧ p = s.target
  have hwaiting : Stable waiting := fun w p t h => ⟨hP w p t h.1, h.2⟩
  refine ((ends_joinWorkers hwaiting (fun w p h => hsound w p h.1) _).pre ?_).bind fun panicked =>
    Run.Ends.lift ?_
  · rintro w p ⟨rfl, rfl⟩
    exact ⟨hs, rfl⟩
  · rintro rfl
    refine Run.Ends.bind (Q := fun _ w p => ∃ p', P w p' ∧ (∀ i ∈ p'.workers, w.remaining i = []) ∧
      p = { p' with workers := #[] }) (Run.Ends.modify fun s' h => ?_) fun _ =>
        .pure fun w p h => ⟨rfl, h⟩
    obtain ⟨⟨hs', htarget⟩, hidle⟩ := h
    refine ⟨s'.target, hs', fun i hi => hidle i ?_, rfl⟩
    rw [htarget] at hi
    exact Array.mem_toList_iff.2 hi

/-- Nothing else that is known between two steps changes meanwhile. -/
theorem ends_destroy {r : Regime} {known : Nat → WorkerPool → Prop} {rest : Multiset Duty}
    {tasks : TaskId} {course : List Event} :
    Run.Ends (Stage r known rest [] tasks course) benchmark.destroy fun outcome w p =>
      outcome = .ok () ∧ ∃ p', known w.threads.size p' ∧ p = { p' with workers := #[] } ∧
        Stage r (fun _ _ => True) rest [] tasks course w p := by
  refine (ends_dismiss Stage.stable fun _ _ h => h.sound).post ?_
  rintro outcome w p ⟨rfl, p', h, -, rfl⟩
  exact ⟨rfl, p', h.known, rfl, h.imp fun _ => trivial⟩

end WorkerPool

end BenchLoop
