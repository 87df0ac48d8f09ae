/-
BenchLoop/Proofs/Target/Endings.lean

How runs of the built-in targets end, and what they print.

Their hooks succeed, none of their tasks fails, and every wait comes to its end, whatever the
schedule is.  So all that can happen to a run is that its first iteration panics, since there is
no room for the list of its ranges; without iterations not even that.  `Config.ending` says
which, and `Benchmark.Governed.ends_run` proves it for any benchmark whose tasks walk through
their rows and whose hooks succeed.

Both targets are silent (`MemoryMap.silent`, `WorkerPool.silent`), and so print their results and
nothing else.
-/
import BenchLoop.Proofs.Loop.Printing
import BenchLoop.Proofs.Target.Errands
import BenchLoop.Proofs.Target.MemoryRuns

namespace BenchLoop

/-- How a run ends in which nothing fails. -/
def Config.ending (c : Config) : Outcome HarnessError Unit :=
  match PartitionFault.ofThreads? c.threads with
  | none => .ok ()
  | some fault => if c.loops = 0 then .ok () else .panicked fault.payload

namespace Config

variable {c : Config}

theorem ending_of_room (h : PartitionFault.ofThreads? c.threads = none) : c.ending = .ok () := by
  simp only [ending, h]

theorem ending_of_loops_eq_zero (h : c.loops = 0) : c.ending = .ok () := by
  unfold ending
  split
  · rfl
  · exact if_pos h

theorem ending_of_fault {fault : PartitionFault}
    (h : PartitionFault.ofThreads? c.threads = some fault) (hloops : c.loops ≠ 0) :
    c.ending = .panicked fault.payload := by
  simp only [ending, h, if_neg hloops]

/-- A run that panics has iterations, and found no room for their ranges. -/
theorem exists_fault_of_ending {payload : Payload} (h : c.ending = .panicked payload) :
    ∃ fault, PartitionFault.ofThreads? c.threads = some fault ∧ 0 < c.loops.toNat := by
  have hloops : c.loops ≠ 0 := by
    intro hnone
    rw [ending_of_loops_eq_zero hnone] at h
    cases h
  cases hfault : PartitionFault.ofThreads? c.threads with
  | none =>
    rw [ending_of_room hfault] at h
    cases h
  | some fault =>
    exact ⟨fault, rfl, Nat.pos_of_ne_zero fun hzero => hloops (UInt32.toNat_inj.1 hzero)⟩

end Config

theorem Outcome.void_after_ok {α : Type} (o : Outcome HarnessError α) :
    (o.after (.ok ())).void = o.void := by
  cases o <;> rfl

/-- A run that panics has printed nothing. -/
theorem Benchmark.silent_run_of_panicked {σ : Type} {b : Benchmark σ} {ctx : Context}
    (hb : b.Silent) {payload : Payload} (h : ctx.config.ending = .panicked payload) :
    Run.Silent (b.run ctx) := by
  obtain ⟨fault, hfault, hloops⟩ := Config.exists_fault_of_ending h
  exact silent_run_of_fault hb hfault hloops

variable {config : Config} {id : ContextId} {drawn : UInt64}

/-! ### Runs in which nothing fails -/

namespace Benchmark.Governed

variable {σ : Type} {b : Benchmark σ} {threaded : Bool} {p : StoreId → Prop}
variable {known : Nat → σ → Prop} {l : StoreLaw} {q : Table Store → Prop}

/-- The loop over the iterations ends as the configuration says. -/
theorem ends_loop (hvalid : config.fault? = none)
    (hb : b.Governed config id drawn threaded p known l q) :
    Run.Ends (Between config id drawn known l.tells q 0)
      (b.iterateFrom (.ofConfig id config drawn) 1 config.loops.toNat) fun outcome w target =>
        outcome.void = config.ending ∧ ∃ k, Between config id drawn known l.tells q k w target := by
  cases hroom : PartitionFault.ofThreads? config.threads with
  | none =>
    refine (hb.ends_iterateFrom hvalid 0 _ 1).post ?_
    rintro outcome w target ⟨hok, hbetween, -⟩
    obtain ⟨results, rfl⟩ := hok hroom
    exact ⟨(Config.ending_of_room hroom).symm, hbetween⟩
  | some fault =>
    -- room for the ranges is asked for by an iteration only
    cases hcount : config.loops.toNat with
    | zero =>
      have hnone : config.loops = 0 := UInt32.toNat_inj.1 hcount
      exact .pure fun w target h => ⟨(Config.ending_of_loops_eq_zero hnone).symm, 0, h⟩
    | succ count =>
      have hsome : config.loops ≠ 0 := fun h => by simp [h] at hcount
      refine (ends_iterateFrom_of_fault hroom 0 count 1).post ?_
      rintro outcome w target ⟨rfl, h⟩
      exact ⟨(Config.ending_of_fault hroom hsome).symm, 0, h⟩

/-- **So does a whole run**, whatever the schedule is, if initialising the benchmark and
destroying it always end well. -/
theorem ends_run {P : World → σ → Prop} (hvalid : config.fault? = none)
    (hb : b.Governed config id drawn threaded p known l q)
    (hlog : ∀ level message, Run.Ends P (Run.log level message) fun _ => P)
    (hinit : Run.Ends P (b.init (.ofConfig id config drawn)) fun outcome w target =>
      outcome = .ok () ∧ Between config id drawn known l.tells q 0 w target)
    (hdestroy : ∀ k, Run.Ends (Between config id drawn known l.tells q k) b.destroy
      fun outcome _ _ => outcome = .ok ()) :
    Run.Ends P (b.run (.ofConfig id config drawn)) fun outcome _ _ =>
      outcome.void = config.ending := by
  rw [Benchmark.run_eq]
  refine (Benchmark.ends_start hlog hinit).bind fun begun => Run.Ends.lift ?_
  rintro rfl
  -- whether the loop goes well or not, destroying the benchmark leaves its outcome as it is
  refine (ends_loop hvalid hb).bind fun outcome => Run.Ends.lift fun hvoid =>
    Run.Ends.ex fun k => ?_
  refine (Benchmark.ends_conclude (hdestroy k) (fun destroyed level message => ?_) outcome).post ?_
  · exact .log (fun _ _ _ h => h) fun _ _ h => h
  · rintro out w target ⟨destroyed, rfl, rfl⟩
    exact outcome.void_after_ok.trans hvoid

end Benchmark.Governed

/-! ### The map in memory -/

namespace MemoryMap

theorem silent : benchmark.Silent where
  init ctx := by
    simp only [benchmark, init]
    split
    · have hfill : Run.Silent (Run.step (fill ctx.config.rows) : Run Unit Bool) := by
        refine Run.silent_step fun w => ?_
        unfold fill
        split <;> rfl
      refine .bind_silent hfill fun filled => ?_
      cases filled with
      | true => exact .bind_silent (Run.silent_log _ _) fun _ => .pure rfl
      | false => exact .pure rfl
    · exact .pure rfl
  destroy := .bind_silent (Run.silent_step fun _ => rfl) fun _ => .pure rfl
  createTask id range ctx := by
    refine .pure ⟨rfl, ?_⟩
    rintro t ⟨rfl⟩
    exact .pure rfl

theorem ends_run_ending (hvalid : config.fault? = none) :
    Run.Ends (Between config id drawn (fun _ _ => True) StoreLaw.any.tells Cleared 0)
      (benchmark.run (.ofConfig id config drawn)) fun outcome _ _ =>
        outcome.void = config.ending := by
  have hb : benchmark.Governed config id drawn true (· = store) (fun _ _ => True) .any
      fun _ => True := ⟨follows _, by decide, StoreLaw.governs_any _ _ _ _ hvalid⟩
  refine hb.ends_run hvalid Between.ends_log (ends_prepare hvalid fun _ _ => trivial) fun k => ?_
  exact Run.Ends.bind (Run.Ends.step (Q := fun _ _ _ => True) Between.stable fun _ _ _ => trivial)
    fun _ => .pure fun _ _ _ => rfl

end MemoryMap

/-! ### The worker pool -/

namespace WorkerPool

theorem silent_startWorkers (number count : Nat) : Run.Silent (startWorkers number count) := by
  induction count generalizing number with
  | zero => exact .pure rfl
  | succ count ih =>
    exact .bind_silent (Run.silent_spawn _ _) fun _ =>
      .bind_silent (Run.silent_modify fun _ => rfl) fun _ => ih (number + 1)

theorem silent_joinWorkers (workers : List ThreadId) : Run.Silent (joinWorkers workers) := by
  induction workers with
  | nil => exact .pure rfl
  | cons worker workers ih =>
    exact .bind_silent (Run.silent_waitUntil _) fun _ => .bind_silent (Run.silent_look _) fun _ =>
      .bind_silent ih fun _ => .pure rfl

theorem silent : benchmark.Silent where
  init ctx := .bind_silent Run.silent_get fun _ => .bind_silent (silent_startWorkers _ _) fun _ =>
    .bind_silent (Run.silent_log _ _) fun _ => .pure rfl
  destroy := by
    refine .bind_silent Run.silent_get fun s => .bind_silent (silent_joinWorkers _) fun panicked =>
      .bind_silent (Run.silent_modify fun _ => rfl) fun _ => ?_
    split
    · exact .pure rfl
    · exact .pure rfl
  createTask id range ctx := by
    refine .bind_silent Run.silent_get fun s => ?_
    dsimp only
    cases s.target.nextWorker? with
    | none => exact .pure ⟨rfl, nofun⟩
    | some worker =>
      refine .bind_silent (Run.silent_modify fun _ => rfl) fun _ => ?_
      have hsend (job : Unit → List Step) :
          Run.Silent (Run.step (send worker job) : Run WorkerPool Bool) := by
        refine Run.silent_step fun w => ?_
        unfold send
        split <;> rfl
      refine .bind_silent (hsend _) fun sent => ?_
      cases sent with
      | false => exact .pure ⟨rfl, nofun⟩
      | true =>
        refine .pure ⟨rfl, ?_⟩
        rintro t ⟨rfl⟩
        refine .bind_silent (Run.silent_look _) fun finished => ?_
        split
        · exact .bind_silent (Run.silent_log _ _) fun _ => .pure rfl
        · exact .pure rfl

theorem ends_run_ending (hvalid : config.fault? = none) :
    Run.Ends (Between config id drawn (fun n p => 0 ≤ n ∧ p.workers = #[]) StoreLaw.any.tells
        (fun _ => True) 0)
      (benchmark.run (.ofConfig id config drawn)) fun outcome _ _ =>
        outcome.void = config.ending := by
  have hb : benchmark.Governed config id drawn false (fun _ => True)
      (Staffed fun _ => True) .any fun _ => True :=
    ⟨follows _ fun _ _ _ _ => trivial, by decide, StoreLaw.governs_any _ _ _ _ hvalid⟩
  have hthreads : 0 < (Context.ofConfig id config drawn).config.threads.toNat :=
    Config.threads_pos hvalid
  refine hb.ends_run hvalid Between.ends_log ?_ fun k => ?_
  · refine Run.Ends.post (Between.ends_of_stage (fun outcome n p => outcome = .ok () ∧
      Staffed (fun workers => ∀ i ∈ workers, 0 ≤ i) n p) fun r rest tasks course =>
        (ends_init hthreads 0).post fun _ _ _ h => h.2.imp fun hp => ⟨h.1, hp⟩) ?_
    intro outcome w p h
    obtain ⟨rfl, hpos, hlt, -⟩ := h.knows
    exact ⟨rfl, h.imp ⟨hpos, hlt, trivial⟩ trivial⟩
  · refine Run.Ends.ex fun tasks => Run.Ends.ex fun course => Run.Ends.lift fun _ => ?_
    exact ends_destroy.post fun _ _ _ h => h.1

end WorkerPool

end BenchLoop
