/-
BenchLoop/Proofs/Target/Ownership.lean

When every iteration is timed from a start of its own: exactly when no range is empty,
that is, when there are at least as many rows as threads (`ownsStarts_iff`).

* If no range is empty then every task has a row to notify after its claim of the start,
  so none can be late: `Benchmark.ownsStarts_of_punctual`, for scripts, the map in memory
  and the worker pool.
* Otherwise the first range is empty, and the thread of its task may be late:
  `Benchmark.not_ownsStarts`, for scripts whose tasks have threads of their own and for
  the map in memory.
-/
import BenchLoop.Proofs.Loop.Late
import BenchLoop.Proofs.Loop.Verdict
import BenchLoop.Proofs.Target.Builtin

namespace BenchLoop

variable {config : Config} {id : ContextId}

/-- With fewer rows than threads the first task of a run has no rows. -/
theorem Benchmark.exists_first_duty {σ : Type} (b : Benchmark σ)
    (hlt : config.rows.toNat < config.threads.toNat) :
    ∃ range ds, b.duties config 0 = (range, 0) :: ds ∧
      range ∈ taskRanges b.name config.rows config.threads ∧ range.rowCount = 0 := by
  obtain ⟨range, ranges, hranges, hempty⟩ := exists_taskRanges_eq_cons b.name hlt
  refine ⟨range, ranges.zipIdx 1, ?_, hranges ▸ List.mem_cons_self, hempty⟩
  rw [duties, dutiesFrom, hranges, Nat.zero_mul, List.zipIdx_cons]

/-! ### Scripts -/

namespace Script

variable {s : Script}

theorem ownsStarts (hvalid : config.fault? = none)
    (hle : config.threads.toNat ≤ config.rows.toNat) (htasks : s.RowByRow) :
    s.benchmark.OwnsStarts config () :=
  Benchmark.ownsStarts_of_punctual s.conduct hvalid
    ((Config.threads_pos hvalid).trans_le hle) s.follows
    (fun id drawn => s.punctual id drawn hvalid hle htasks) fun _ _ => s.readies _

/-- Every task of the script has a thread of its own, and its first iteration goes well. -/
structure Threaded (s : Script) (config : Config) : Prop where
  drive (t : TaskId) : (s.task t).drive? = none
  init : s.init = .ok ()
  create (t : TaskId) : config.isTaskOf 0 t → s.create t = .ok ()
  name : '\x00' ∉ s.name.toList

theorem detached (ctx : Context) (hdrive : ∀ t, (s.task t).drive? = none) :
    s.benchmark.Detached ctx := by
  intro task range line n
  refine (Late.may_note _ rfl).bind fun _ => ?_
  cases s.create task with
  | failed cause => exact .pure fun _ _ h => ⟨nofun, h⟩
  | panicked p => exact .pure fun _ _ h => ⟨nofun, h⟩
  | ok u =>
    rw [drive, hdrive]
    refine Run.May.bind (.pure fun _ _ h => h) fun _ => .pure fun w target h => ⟨?_, h⟩
    rintro t ⟨rfl⟩
    refine ⟨by simp [TaskScript.toTask, hdrive], fun line n => ?_⟩
    simp only [TaskScript.toTask, TaskScript.stopHook]
    split
    · exact (Late.may_note _ rfl).bind fun _ => .pure fun _ _ h => h
    · exact .pure fun _ _ h => h

theorem may_init {ctx : Context} {line : List Step} {n : Nat} :
    Run.May (Late ctx.id line n) (s.benchmark.init ctx) fun outcome w _ =>
      outcome = s.init ∧ w.Held ctx.id line n := by
  simp only [benchmark]
  split
  · exact (Late.may_look _).bind fun _ => (Late.may_note _ rfl).bind fun _ =>
      .pure fun _ _ h => ⟨rfl, h⟩
  · exact .pure fun _ _ h => ⟨rfl, h⟩

theorem not_ownsStarts (hvalid : config.fault? = none)
    (hroom : PartitionFault.ofThreads? config.threads = none)
    (hlt : config.rows.toNat < config.threads.toNat) (htasks : s.RowByRow)
    (hs : s.Threaded config) : ¬ s.benchmark.OwnsStarts config () := by
  let ctx := Context.ofConfig 0 config 0
  obtain ⟨range, ds, hduties, hrange, hempty⟩ := s.benchmark.exists_first_duty hlt
  have hkeys := Context.keyList_of_mem 0 0 hvalid hrange
  have hrows : (s.conduct ctx).rows (s.benchmark.duties config 0) = config.rows.toNat :=
    (rows_duties 0 0 hvalid 0).trans
      (sum_notified (Config.threads_pos hvalid) (fun t => (htasks t).1) 0)
  have hok : (s.conduct ctx).iterating s.benchmark config 0 = .ok () :=
    Conduct.iterating_eq_ok (Conduct.startable hs.name hroom 0) hs.create
  refine Benchmark.not_ownsStarts hvalid (s.follows ctx) (s.orderly ctx) (s.detached ctx hs.drive)
    hrows hok hduties ?_ (s.readies ctx) ?_
  · rw [tally_line hkeys, notified, (htasks 0).1, Reporting.countsFor, hempty]
    rfl
  · refine may_init.mono (fun w t h => ?_) fun _ w _ h => ⟨h.1.trans hs.init, h.2⟩
    obtain ⟨rfl, -⟩ := h
    exact ⟨rfl, fun _ => rfl, rfl⟩

end Script

/-! ### The map in memory -/

namespace MemoryMap

theorem ownsStarts (hvalid : config.fault? = none)
    (hle : config.threads.toNat ≤ config.rows.toNat) : benchmark.OwnsStarts config () :=
  Benchmark.ownsStarts_of_punctual (fun ctx => .walking ctx true (· = store)) hvalid
    ((Config.threads_pos hvalid).trans_le hle) follows
    (fun id drawn => Conduct.punctual_walking benchmark true _ id drawn hvalid hle)
    fun _ _ => readies _

theorem detached (ctx : Context) : benchmark.Detached ctx := by
  intro task range line n
  refine .pure fun w target h => ⟨?_, h⟩
  rintro t ⟨rfl⟩
  exact ⟨rfl, fun line n => .pure fun _ _ h => h⟩

/-- There is always room to load the keys of a checked configuration into an empty store. -/
theorem may_init {ctx : Context} (hmax : ctx.config.rows.toNat ≤ 2 ^ 32 - 1) :
    Run.May (fun w (t : Unit) => w = {} ∧ t = ()) (benchmark.init ctx) fun outcome w _ =>
      outcome = .ok () ∧ w.Held ctx.id [] 0 := by
  have hheld (w : World) (h : w = {}) : w.Held ctx.id [] 0 := by
    subst h
    exact ⟨rfl, fun _ => rfl, rfl⟩
  simp only [benchmark, init]
  split
  · refine Run.May.bind (.step (Q := fun filled w _ => filled = true ∧ w.Held ctx.id [] 0)
      fun w target h => ?_) fun filled => Run.May.lift ?_
    · obtain ⟨rfl, -⟩ := h
      have hroom : ((({} : World).stores.get store).size + ctx.config.rows.toNat
          ≤ Capacity.tableRoom) := by
        have : 2 ^ 32 - 1 ≤ Capacity.tableRoom := by decide
        have : (({} : World).stores.get store).size = 0 := rfl
        omega
      rw [fill, if_pos hroom]
      exact ⟨rfl, (hheld {} rfl).congr rfl rfl⟩
    · rintro rfl
      exact (Late.may_log _ _).bind fun _ => .pure fun _ _ h => ⟨rfl, h⟩
  · exact .pure fun w _ h => ⟨rfl, hheld w h.1⟩

theorem not_ownsStarts (hvalid : config.fault? = none)
    (hroom : PartitionFault.ofThreads? config.threads = none)
    (hlt : config.rows.toNat < config.threads.toNat) : ¬ benchmark.OwnsStarts config () := by
  let ctx := Context.ofConfig 0 config 0
  obtain ⟨range, ds, hduties, hrange, hempty⟩ := benchmark.exists_first_duty hlt
  have hreach : ctx.reach range = range.rowCount := Context.reach_of_mem 0 0 hvalid hrange
  have hok : (Conduct.walking ctx true (· = store)).iterating benchmark config 0 = .ok () :=
    Conduct.iterating_eq_ok (Conduct.startable (by decide) hroom 0) fun _ _ => rfl
  exact Benchmark.not_ownsStarts hvalid (follows ctx)
    (Conduct.orderly_walking benchmark true _ 0 0 hvalid) (detached ctx)
    (Conduct.rows_walking benchmark true _ 0 0 hvalid 0) hok hduties (hreach.trans hempty)
    (readies ctx) (may_init (config.fault?_eq_none_iff.1 hvalid).2)

end MemoryMap

/-! ### The worker pool -/

theorem WorkerPool.ownsStarts (hvalid : config.fault? = none)
    (hle : config.threads.toNat ≤ config.rows.toNat) (size : UInt64) :
    benchmark.OwnsStarts config { size } :=
  Benchmark.ownsStarts_of_punctual (fun ctx => .walking ctx false fun _ => True) hvalid
    ((Config.threads_pos hvalid).trans_le hle)
    (fun ctx => follows ctx (q := fun _ => True) fun _ _ _ _ => trivial)
    (fun id drawn => Conduct.punctual_walking benchmark false _ id drawn hvalid hle)
    (readies hvalid size)

/-- **The start of an iteration belongs to it exactly if no range is empty.**  With at least as
many rows as threads every iteration is timed from a start of its own, whatever drives the
tasks.  With fewer rows than threads, and room for the list of ranges, a task of an earlier
iteration can claim the start instead. -/
theorem ownsStarts_iff (hvalid : config.fault? = none) :
    (config.threads ≤ config.rows →
      (∀ s : Script, s.RowByRow → s.benchmark.OwnsStarts config ()) ∧
        MemoryMap.benchmark.OwnsStarts config () ∧
        ∀ size, WorkerPool.benchmark.OwnsStarts config { size }) ∧
      (config.rows < config.threads → PartitionFault.ofThreads? config.threads = none →
        (∀ s : Script, s.RowByRow → s.Threaded config → ¬ s.benchmark.OwnsStarts config ()) ∧
          ¬ MemoryMap.benchmark.OwnsStarts config ()) := by
  refine ⟨fun hle => ?_, fun hlt hroom => ?_⟩
  · rw [UInt64.le_iff_toNat_le] at hle
    exact ⟨fun s htasks => Script.ownsStarts hvalid hle htasks, MemoryMap.ownsStarts hvalid hle,
      WorkerPool.ownsStarts hvalid hle⟩
  · rw [UInt64.lt_iff_toNat_lt] at hlt
    exact ⟨fun s htasks hs => Script.not_ownsStarts hvalid hroom hlt htasks hs,
      MemoryMap.not_ownsStarts hvalid hroom hlt⟩

/-- Two threads share a single row: the task of the first iteration that has none can win the
start of the second one. -/
theorem not_ownsStarts_single_row :
    ¬ MemoryMap.benchmark.OwnsStarts { rows := 1, threads := 2 } () :=
  MemoryMap.not_ownsStarts (by decide) (by decide) (by decide)

/-- Two threads share three rows, or one. -/
theorem ownsStarts_iff_two_threads :
    MemoryMap.benchmark.OwnsStarts { rows := 3, threads := 2 } () ∧
      ¬ MemoryMap.benchmark.OwnsStarts { rows := 1, threads := 2 } () :=
  ⟨((ownsStarts_iff (by decide)).1 (by decide)).2.1,
    ((ownsStarts_iff (by decide)).2 (by decide) (by decide)).2⟩

end BenchLoop
