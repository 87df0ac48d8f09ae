/-
BenchLoop/Proofs/Target/Misses.lean

What read runs over the worker pool find.  Nothing is loaded when the pool is initialised, the
store of a worker begins empty, and the tasks of a read run insert nothing.  So the stores
stay empty through all iterations and all runs, and every look-up misses its key:

    StoreLaw.missing    look-ups only, in empty stores, none of which finds anything
    World.Misses        what can be said of a world where this law has been kept

The law fits the tasks of a read run whatever the order of keys and the turn of the workers
are (`StoreLaw.governs_missing`), so every run leaves the stores as it found them
(`WorkerPool.ends_run_blank`).  That look-ups are made at all is counted apart from that: a run
makes one for each row of each of its iterations (`WorkerPool.ends_run_errands`).
`WorkerPool.misses_runs` puts the two together.
-/
import BenchLoop.Proofs.Target.Endings

namespace BenchLoop

/-! ### Look-ups in empty stores -/

/-- No store holds anything. -/
def Blank (stores : Table Store) : Prop := ∀ store, stores.get store = {}

/-- Look-ups in stores that hold nothing. -/
def StoreLaw.missing : StoreLaw where
  may _ a := ∃ key, a = .lookup key
  tells a took := took = false ∧ ∃ key, a = .lookup key
  known _ stores _ := Blank stores
  brings _ _ := True
  insert := by
    rintro rest stores store key row due ⟨key', ⟨⟩⟩
  lookup := by
    rintro rest stores store key due - h
    refine ⟨⟨?_, key, rfl⟩, h⟩
    rw [h store]
    exact Std.ExtTreeMap.contains_empty
  hand _ h := h

section Governs

variable {σ : Type} {b : Benchmark σ} {p : StoreId → Prop} {config : Config} {id : ContextId}
variable {drawn : UInt64}

/-- The tasks of a read run insert nothing. -/
theorem StoreLaw.governs_missing (hvalid : config.fault? = none) (hread : config.isWrite = false) :
    missing.Governs Blank b (.ofConfig id config drawn) p where
  opens _ _ h := h
  closes _ h := h
  admits _ d hd _ hwalks := by
    obtain ⟨-, hkeys⟩ := Conduct.reach_of_mem_duties b id drawn hvalid hd
    refine hwalks.admits hkeys (fun row _ _ _ => ⟨row.2, ?_⟩) fun _ _ => trivial
    exact if_neg (by simp [Context.ofConfig, hread])

/-! ### How many rows are looked up -/

/-- Each iteration accesses as many rows as there are. -/
theorem Benchmark.card_errandsBefore (hvalid : config.fault? = none) (k : Nat) :
    (b.errandsBefore (.ofConfig id config drawn) k).card = k * config.rows.toNat := by
  have hwalk (k : Nat) : ∀ d ∈ b.duties config k,
      ((Context.ofConfig id config drawn).walkErrands d).card = d.1.rowCount := by
    intro d hd
    rw [Context.walkErrands, Multiset.coe_card, List.length_map, Context.length_keyed]
    exact (Conduct.reach_of_mem_duties b id drawn hvalid hd).1
  induction k with
  | zero => exact (Nat.zero_mul _).symm
  | succ k ih =>
    rw [errandsBefore, Multiset.card_add, ih, Multiset.card_bind, Multiset.map_coe,
      Multiset.sum_coe, Nat.succ_mul]
    congr 1
    calc ((b.duties config k).map _).sum
        = ((b.duties config k).map fun d => d.1.rowCount).sum :=
          congrArg List.sum (List.map_congr_left (hwalk k))
      _ = config.rows.toNat := b.sum_rowCount_duties (Config.threads_pos hvalid) k

end Governs

/-- Whatever has been accessed was looked up and not found, and there is nothing to be found. -/
structure World.Misses (w : World) : Prop where
  blank : Blank w.stores
  told : ∀ e ∈ w.journal, e.Tells fun a took => took = false ∧ ∃ key, a = .lookup key

theorem World.Misses.of_still {w : World} {rest : Multiset Duty} {own : List Step}
    (h : (StoreLaw.still StoreLaw.missing.tells Blank).regime.inv rest own w) : w.Misses :=
  ⟨h.known, h.told⟩

namespace WorkerPool

variable {config : Config} {id : ContextId} {drawn : UInt64}

/-! ### Starting and dismissing the workers -/

/-- There are no workers. -/
def Unstaffed (_threads : Nat) (p : WorkerPool) : Prop := p.workers = #[]

section Stage

variable {r : Regime} {rest : Multiset Duty} {tasks : TaskId} {course : List Event}

theorem ends_init_staffed (hvalid : config.fault? = none) :
    Run.Ends (Stage r Unstaffed rest [] tasks course) (benchmark.init (.ofConfig id config drawn))
      fun outcome w p => outcome = .ok () ∧
        Stage r (Staffed fun _ => True) rest [] tasks course w p := by
  have hthreads : 0 < (Context.ofConfig id config drawn).config.threads.toNat :=
    Config.threads_pos hvalid
  exact (ends_init hthreads 0).mono (fun _ _ h => h.imp fun hp => ⟨Nat.zero_le _, hp⟩)
    fun _ _ _ h => ⟨h.1, h.2.imp fun hp => ⟨hp.1, hp.2.1, trivial⟩⟩

theorem ends_destroy_unstaffed {known : Nat → WorkerPool → Prop} :
    Run.Ends (Stage r known rest [] tasks course) benchmark.destroy
      fun _ => Stage r Unstaffed rest [] tasks course := by
  refine ends_destroy.post ?_
  rintro _ w p ⟨-, p', -, rfl, h⟩
  exact h.imp fun _ => rfl

end Stage

/-! ### What a run leaves in the stores -/

/-- Before a run and after it there are no workers, and nothing is in any store. -/
def Vacated (config : Config) (id : ContextId) (drawn : UInt64) (k : Nat) :
    World → WorkerPool → Prop :=
  Between config id drawn Unstaffed StoreLaw.missing.tells Blank k

/-- **A read run leaves the stores empty**, and all that it looks up it misses. -/
theorem ends_run_blank (hvalid : config.fault? = none) (hread : config.isWrite = false) :
    Run.Ends (fun w p => ∃ k, Vacated config id drawn k w p)
      (benchmark.run (.ofConfig id config drawn))
      fun _ w p => ∃ k, Vacated config id drawn k w p := by
  let staffed (k : Nat) : World → WorkerPool → Prop :=
    Between config id drawn (Staffed fun _ => True) StoreLaw.missing.tells Blank k
  -- no worker ever has a row, so each look-up of a task misses
  have hb : benchmark.Governed config id drawn false (fun _ => True) (Staffed fun _ => True)
      .missing Blank :=
    ⟨follows _ fun _ _ _ _ => trivial, by decide, StoreLaw.governs_missing hvalid hread⟩
  have hinit (k : Nat) : Run.Ends (Vacated config id drawn k)
      (benchmark.init (.ofConfig id config drawn))
      fun outcome w p => outcome = .ok () ∧ staffed k w p := by
    refine (Between.ends_of_stage (fun outcome n p => outcome = .ok () ∧
      Staffed (fun _ => True) n p) fun r rest tasks course =>
        (ends_init_staffed hvalid).post fun _ _ _ h => h.2.imp fun hp => ⟨h.1, hp⟩).post ?_
    intro outcome w p h
    exact ⟨h.knows.1, h.imp h.knows.2 h.still.known⟩
  have hdestroy (k : Nat) :
      Run.Ends (staffed k) benchmark.destroy fun _ => Vacated config id drawn k :=
    Between.ends_of_stage _ fun _ _ _ _ => ends_destroy_unstaffed
  -- initialization, loop and destruction one after the other
  rw [Benchmark.run_eq]
  refine Run.Ends.ex fun k => (Benchmark.ends_start Between.ends_log (hinit k)).bind
    fun outcome => Run.Ends.lift ?_
  rintro rfl
  refine (hb.ends_iterateFrom hvalid k _ 1).bind fun outcome => ?_
  refine Run.Ends.pre (P := fun w p => ∃ k', staffed k' w p) (Run.Ends.ex fun k' => ?_)
    fun _ _ h => h.2.1
  refine (Benchmark.ends_conclude (hdestroy k') (fun _ => Between.ends_log) outcome).post ?_
  rintro _ w p ⟨-, -, h⟩
  exact ⟨k', h⟩

/-! ### What a run looks up -/

/-- The rounds of a run over the pool, with the errands that it runs. -/
def counted (id : ContextId) (drawn : UInt64) (hvalid : config.fault? = none) :
    Rounds benchmark (.walking (.ofConfig id config drawn) false fun _ => True)
      (.ofConfig id config drawn) :=
  (Rounds.ordered benchmark false (fun _ => True) id drawn hvalid).extend
    (Rounds.errands benchmark false (fun _ => True) id drawn hvalid)

/-- After `k` iterations, of whatever runs, all errands so far have been run. -/
def Ran (id : ContextId) (drawn : UInt64) (hvalid : config.fault? = none)
    (known : Nat → WorkerPool → Prop) (k : Nat) (w : World) (p : WorkerPool) : Prop :=
  ∃ course, Stage ((counted id drawn hvalid).idle k) known 0 [] (k * config.threads.toNat) course
    w p

theorem ran_fresh (hvalid : config.fault? = none) (now pace : Nat) (size : UInt64) :
    Ran id drawn hvalid Unstaffed 0 { now, pace } { size } := by
  refine ⟨[], ?_⟩
  rw [Nat.zero_mul]
  exact .fresh ⟨⟨Ledger.quiet_fresh id now pace, nofun, trivial, nofun⟩,
    Regime.errands_fresh _ now pace⟩ rfl

/-- The iterations of a run look up every row, if there is room for their ranges. -/
theorem ends_iterateFrom_errands (hvalid : config.fault? = none)
    (hroom : PartitionFault.ofThreads? config.threads = none) (k count : Nat) :
    Run.Ends (Ran id drawn hvalid (Staffed fun _ => True) k)
      (benchmark.iterateFrom (.ofConfig id config drawn) 1 count)
      fun _ => Ran id drawn hvalid (Staffed fun _ => True) (k + count) := by
  have hb : benchmark.Governed config id drawn false (fun _ => True) (Staffed fun _ => True) .any
      fun _ => True :=
    ⟨follows _ fun _ _ _ _ => trivial, by decide, StoreLaw.governs_any _ _ _ _ hvalid⟩
  refine Run.Ends.ex fun course => ?_
  refine (Benchmark.ends_iterateFrom hb.follows (counted id drawn hvalid)
    (fun k' _ _ _ => Conduct.rows_walking benchmark false _ id drawn hvalid k') 1).post ?_
  rintro outcome w p ⟨hvoid, ⟨results, -, -, h⟩ | ⟨hne, -⟩⟩
  · exact ⟨_, h⟩
  · exact absurd (hvoid.trans (Conduct.looping_eq_ok_iff.2 fun k' _ _ =>
      hb.iterating_eq_ok hroom k')) hne

/-- **A run looks up every row in each of its iterations**, if there is room for their ranges. -/
theorem ends_run_errands (hvalid : config.fault? = none)
    (hroom : PartitionFault.ofThreads? config.threads = none) (k : Nat) :
    Run.Ends (Ran id drawn hvalid Unstaffed k) (benchmark.run (.ofConfig id config drawn))
      fun _ => Ran id drawn hvalid Unstaffed (k + config.loops.toNat) := by
  rw [Benchmark.run_eq]
  refine Run.Ends.ex fun course => (Benchmark.ends_start Stage.ends_log
    (ends_init_staffed hvalid)).bind fun outcome => Run.Ends.lift ?_
  rintro rfl
  refine ((ends_iterateFrom_errands hvalid hroom k _).pre fun _ _ h => ⟨course, h⟩).bind
    fun outcome => Run.Ends.ex fun course' => ?_
  refine (Benchmark.ends_conclude ends_destroy_unstaffed (fun _ => Stage.ends_log) outcome).post ?_
  rintro _ w p ⟨-, -, h⟩
  exact ⟨course', h⟩

/-- So do any number of runs. -/
theorem ends_runs_errands (hvalid : config.fault? = none)
    (hroom : PartitionFault.ofThreads? config.threads = none) (count : Nat) :
    Run.Ends (Ran id drawn hvalid Unstaffed 0)
      (benchmark.runs (.ofConfig id config drawn) count)
      fun _ => Ran id drawn hvalid Unstaffed (count * config.loops.toNat) := by
  induction count with
  | zero => exact .pure fun w p h => by rwa [Nat.zero_mul]
  | succ count ih =>
    rw [Nat.succ_mul]
    exact ih.bind fun _ => (ends_run_errands hvalid hroom _).bind fun _ => .pure fun _ _ h => h

/-! ### Read runs -/

/-- **Read runs over the pool miss every row.**  Take a valid configuration of a read run, a pool
of any size, any schedule and any number of runs.  They come to their end, and whatever the
workers still do then:

* no store holds anything, and each access so far was a look-up that did not find its key;
* if there is room for the ranges of an iteration, there has been a look-up for each row of each
  iteration of each run. -/
theorem misses_runs (hvalid : config.fault? = none) (hread : config.isWrite = false)
    (id : ContextId) (drawn size : UInt64) (count now pace : Nat) (schedule : Schedule) :
    let ctx := Context.ofConfig id config drawn
    ∃ s, benchmark.runs ctx count ⟨{ now, pace }, schedule, { size }⟩ = .ok () s ∧
      s.world.Remains World.Misses ∧
      (PartitionFault.ofThreads? config.threads = none → s.world.Remains fun w =>
        w.errands.card = count * config.loops.toNat * config.rows.toNat) := by
  intro ctx
  have hfresh : Vacated config id drawn 0 { now, pace } { size } :=
    .fresh now pace rfl fun _ => rfl
  obtain ⟨_, s, hruns, k, hvacated⟩ := Benchmark.ends_runs (ends_run_blank hvalid hread) count
    ⟨{ now, pace }, schedule, { size }⟩ ⟨0, hfresh⟩
  refine ⟨s, hruns, fun turns => .of_still (Regime.burst _ hvacated.still turns),
    fun hroom turns => ?_⟩
  obtain ⟨course, hstage⟩ :=
    (ends_runs_errands hvalid hroom count).of_eq (ran_fresh hvalid now pace size) hruns
  rw [Rounds.errands_eq (Regime.burst _ hstage.inv turns), Benchmark.card_errandsBefore hvalid]

/-- Two read runs with two iterations of four rows each: sixteen look-ups, and nothing found. -/
theorem misses_runs_two :
    let config : Config := { loops := 2, rows := 4, threads := 3, write? := some false }
    let ctx := Context.ofConfig 0 config 7
    ∃ s, benchmark.runs ctx 2 ⟨{}, [[], [.thread 0]], { size := 2 }⟩ = .ok () s ∧
      s.world.Misses ∧ s.world.errands.card = 16 := by
  intro config ctx
  have hroom : PartitionFault.ofThreads? config.threads = none := by decide
  obtain ⟨s, hruns, hmisses, hcard⟩ :=
    @misses_runs config (by decide) rfl 0 7 2 2 0 0 [[], [.thread 0]]
  exact ⟨s, hruns, hmisses [], hcard hroom []⟩

/-- A read run that ends well and has not found a row of its own. -/
theorem missed_row :
    let config : Config := { rows := 2, threads := 1, write? := some false }
    let ctx := Context.ofConfig 0 config 7
    config.fault? = none ∧ config.isWrite = false ∧ ∃ results s,
      benchmark.run ctx ⟨{}, [], { size := 1 }⟩ = .ok (.ok results) s ∧
        ∃ e ∈ s.world.journal, ∃ key, ctx.key? 0 = some key ∧
          e.event = .performed ⟨some 0, .access 0 (.lookup key)⟩ false := by
  intro config ctx
  have hrun : ((benchmark.run ctx).ending? ⟨{}, [], { size := 1 }⟩).any (fun r =>
      r.1.void = .ok () && r.2.world.journal.any fun e =>
        e.event = .performed ⟨some 0, .access 0 (.lookup 1)⟩ false) = true := by decide +kernel
  simp only [Option.any_eq_true, List.any_eq_true, Bool.and_eq_true, decide_eq_true_eq,
    Prod.exists, Run.ending?_eq_some_iff] at hrun
  obtain ⟨outcome, s, hrun, hok, e, he, hevent⟩ := hrun
  obtain ⟨results, rfl⟩ := Outcome.exists_of_void_eq_ok hok
  exact ⟨by decide, rfl, results, s, hrun, e, he, 1, by decide, hevent⟩

end WorkerPool

end BenchLoop
