/-
BenchLoop/Proofs/Target/Shards.lean

The stores of the workers of a pool over consecutive runs of one benchmark.  Each worker
keeps what it inserts in a store of its own, and which worker gets a range depends on the
turn, which differs from iteration to iteration.  So a single store says little; but all of
them together hold each row under its key, and nothing else, whenever the wait of an
iteration of a write run is over (`WorkerPool.fills_of_working`).

The workers of a run are new threads, whose stores are empty.  This is known because
nothing but the workers of a run ever inserts anything (`Vacant`), and no thread is started
but by the coordinator.
-/
import BenchLoop.Proofs.Target.Consecutive

namespace BenchLoop

/-! ### Stores that are left alone -/

namespace StoreLaw

/-- A law under which something more stays known, since no insertion that it allows changes
that. -/
def along (l : StoreLaw) (f : Table Store → Prop)
    (hf : ∀ {store key row stores}, l.may store (.insert key row) → f stores →
      f (stores.modify store (·.insert key row))) : StoreLaw where
  may := l.may
  tells := l.tells
  known rest stores due := l.known rest stores due ∧ f stores
  brings := l.brings
  insert hmay h :=
    have hinsert := l.insert hmay h.1
    ⟨hinsert.1, hinsert.2, hf hmay h.2⟩
  lookup hmay h :=
    have hlookup := l.lookup hmay h.1
    ⟨hlookup.1, hlookup.2, h.2⟩
  hand hbrings h := ⟨l.hand hbrings h.1, h.2⟩

theorem Governs.along {σ : Type} {b : Benchmark σ} {ctx : Context} {p : StoreId → Prop}
    {l : StoreLaw} {q f : Table Store → Prop} (h : l.Governs q b ctx p)
    (hf : ∀ {store key row stores}, l.may store (.insert key row) → f stores →
      f (stores.modify store (·.insert key row))) :
    (l.along f hf).Governs (fun stores => q stores ∧ f stores) b ctx p where
  opens k stores hq := ⟨h.opens k stores hq.1, hq.2⟩
  closes stores hknown := ⟨h.closes stores hknown.1, hknown.2⟩
  admits := h.admits

end StoreLaw

namespace WorkerPool

/-! ### The workers of a run -/

/-- Threads from number `first` on that are none of some workers have nothing in store. -/
def Vacant (first : Nat) (workers : Array ThreadId) (stores : Table Store) : Prop :=
  ∀ i, first ≤ i → i ∉ workers → stores.get i = {}

theorem Vacant.modify {first : Nat} {workers : Array ThreadId} {stores : Table Store}
    (h : Vacant first workers stores) {store : StoreId} (hstore : store ∈ workers)
    (f : Store → Store) : Vacant first workers (stores.modify store f) := by
  intro i hi hout
  have hne : store ≠ i := by
    rintro rfl
    exact hout hstore
  rw [Table.get_modify, if_neg hne]
  exact h i hi hout

variable {config : Config} (id : ContextId) (drawn : UInt64) (first : Nat)
variable (workers : Array ThreadId)

/-- What is known of the stores between the iterations of a run: those of its workers hold
nothing but rows under their keys, those of later threads nothing at all. -/
def Sharded (config : Config) (stores : Table Store) : Prop :=
  (Context.ofConfig id config drawn).Sound (· ∈ workers) stores ∧ Vacant first workers stores

/-- Before a run and after it there are no workers. -/
def Retired (config : Config) (w : World) (p : WorkerPool) : Prop :=
  ∃ first k, Between config id drawn (fun n p => first ≤ n ∧ p.workers = #[]) (fun _ _ => True)
    (Vacant first #[]) k w p

/-- During a run there are some, all of them new threads. -/
def Working (config : Config) (k : Nat) (w : World) (p : WorkerPool) : Prop :=
  Between config id drawn (Staffed (· = workers)) (fun _ _ => True)
    (Sharded id drawn first workers config) k w p ∧ ∀ i ∈ workers, first ≤ i

variable {workers} in
/-- That the workers of a run are new threads does not depend on what happens. -/
theorem ends_of_working {α : Type} {p : Run WorkerPool α} {Q : α → World → WorkerPool → Prop}
    {config : Config} {k : Nat} (h : (∀ i ∈ workers, first ≤ i) →
      Run.Ends (Between config id drawn (Staffed (· = workers)) (fun _ _ => True)
        (Sharded id drawn first workers config) k) p Q) :
    Run.Ends (Working id drawn first workers config k) p Q :=
  fun s hs => h hs.2 s hs.1

/-- The tasks of a write run fill the stores of the workers, and leave all others alone. -/
def sharding (hvalid : config.fault? = none) : StoreLaw :=
  (StoreLaw.filling (.ofConfig id config drawn) (· ∈ workers)
    (Context.keyed_ofConfig id drawn hvalid)).along (Vacant first workers)
    fun hmay h => h.modify hmay.1 _

theorem governed (hvalid : config.fault? = none) (hwrite : config.isWrite = true) :
    benchmark.Governed config id drawn false (· ∈ workers) (Staffed (· = workers))
      (sharding id drawn first workers hvalid) (Sharded id drawn first workers config) where
  follows := follows _ fun _ heq _ hi => heq ▸ hi
  name := by decide
  law := (StoreLaw.governs_filling hvalid hwrite).along (f := Vacant first workers)
    fun hmay h => h.modify hmay.1 _

variable {id drawn first workers} {k : Nat}

theorem filling_of_sharding {hvalid : config.fault? = none} {rest : Multiset Duty}
    {own : List Step} {w : World}
    (h : (sharding id drawn first workers hvalid).regime.inv rest own w) :
    (StoreLaw.filling (.ofConfig id config drawn) (· ∈ workers)
      (Context.keyed_ofConfig id drawn hvalid)).regime.inv rest own w :=
  ⟨h.allows, h.known.1, h.told⟩

/-- A run always begins well, with workers whose stores are empty. -/
theorem ends_start (hvalid : config.fault? = none) :
    Run.Ends (Retired id drawn config) (benchmark.start (.ofConfig id config drawn))
      fun outcome w p => outcome = .ok () ∧ ∃ first workers k,
        Working id drawn first workers config k w p := by
  refine Run.Ends.ex fun first => Run.Ends.ex fun k => Benchmark.ends_start Between.ends_log ?_
  have hthreads : 0 < (Context.ofConfig id config drawn).config.threads.toNat :=
    Config.threads_pos hvalid
  refine Run.Ends.post (Between.ends_of_stage (fun outcome n p => outcome = .ok () ∧
    Staffed (fun workers => ∀ i ∈ workers, first ≤ i) n p) fun r rest tasks course =>
      (ends_init hthreads first).post fun _ _ _ h => h.2.imp fun hp => ⟨h.1, hp⟩) ?_
  intro outcome w p h
  obtain ⟨rfl, hpos, hlt, hnew⟩ := h.knows
  have hvacant : Vacant first #[] w.stores := h.still.known
  refine ⟨rfl, first, p.workers, k, h.imp ⟨hpos, hlt, rfl⟩ ⟨fun i hi key row hstored => ?_,
    fun i hi _ => hvacant i hi (Array.not_mem_empty i)⟩, hnew⟩
  rw [hvacant i (hnew i hi) (Array.not_mem_empty i)] at hstored
  exact absurd (Std.ExtTreeMap.getElem?_empty.symm.trans hstored) nofun

/-- A run dismisses its workers at its end. -/
theorem ends_conclude (outcome : Outcome HarnessError (List Measurement)) :
    Run.Ends (Working id drawn first workers config k) (benchmark.conclude outcome)
      fun _ => Retired id drawn config := by
  have hdestroy : Run.Ends (Working id drawn first workers config k) benchmark.destroy
      fun _ => Retired id drawn config := by
    refine ends_of_working id drawn first fun hnew => ?_
    refine Run.Ends.post (Between.ends_of_stage (fun _ n p => ∃ p',
      Staffed (· = workers) n p' ∧ p = { p' with workers := #[] }) fun r rest tasks course =>
        ends_destroy.post ?_) ?_
    · rintro outcome w p ⟨-, p', hp', heq, h⟩
      exact h.imp fun _ => ⟨p', hp', heq⟩
    · intro outcome w p h
      obtain ⟨p', ⟨hpos, hlt, rfl⟩, rfl⟩ := h.knows
      -- all threads that will ever be started are behind the workers
      have hle : first ≤ w.threads.size :=
        (hnew _ (Array.getElem_mem hpos)).trans (hlt _ (Array.getElem_mem hpos)).le
      refine ⟨w.threads.size, k, h.imp ⟨le_refl _, rfl⟩ fun i hi _ => ?_⟩
      exact h.still.known.2 i (hle.trans hi) fun hmem => absurd (hlt i hmem) (Nat.not_lt.2 hi)
  refine (Benchmark.ends_conclude hdestroy (fun _ level message => ?_) outcome).post ?_
  · exact Run.Ends.ex fun first => Run.Ends.ex fun k =>
      (Between.ends_log level message).post fun _ _ _ h => ⟨first, k, h⟩
  · rintro outcome w p ⟨-, -, h⟩
    exact h

theorem ends_run (hvalid : config.fault? = none) (hwrite : config.isWrite = true) :
    Run.Ends (Retired id drawn config) (benchmark.run (.ofConfig id config drawn))
      fun _ => Retired id drawn config := by
  rw [Benchmark.run_eq]
  refine (ends_start hvalid).bind fun outcome => Run.Ends.lift ?_
  rintro rfl
  refine Run.Ends.ex fun first => Run.Ends.ex fun workers => Run.Ends.ex fun k => ?_
  refine ends_of_working id drawn first fun hnew => ?_
  have hb := governed id drawn first workers hvalid hwrite
  refine (hb.ends_iterateFrom hvalid k _ 1).bind fun outcome => ?_
  refine Run.Ends.pre (P := fun w p => ∃ k', Working id drawn first workers config k' w p)
    (Run.Ends.ex fun k' => ends_conclude outcome) fun w p h => ?_
  obtain ⟨k', h⟩ := h.2.1
  exact ⟨k', h, hnew⟩

/-- In a run that has begun, whenever the wait of an iteration is over the workers together have
each row in store under its key, and nothing else, whatever they still do. -/
def Fills (ctx : Context) (s : Session WorkerPool) : Prop :=
  ∀ k, ∃ outcome s₁, benchmark.iterateFrom ctx 1 k s = .ok outcome s₁ ∧
    (PartitionFault.ofThreads? ctx.config.threads = none → ∃ results, outcome = .ok results) ∧
    ∀ results, outcome = .ok results → ∀ loop,
      ∃ outcome s₂, benchmark.engage ctx loop s₁ = .ok outcome s₂ ∧
        (PartitionFault.ofThreads? ctx.config.threads = none → ∃ tasks, outcome = .ok tasks) ∧
        ∀ tasks, outcome = .ok tasks → s₂.target.workers = s.target.workers ∧
          s₂.world.Remains (World.Filled ctx (· ∈ s₂.target.workers))

theorem fills_of_working (hvalid : config.fault? = none) (hwrite : config.isWrite = true)
    {s : Session WorkerPool} (h : Working id drawn first workers config k s.world s.target) :
    Fills (.ofConfig id config drawn) s := by
  intro count
  have hb := governed id drawn first workers hvalid hwrite
  obtain ⟨outcome, s₁, hloop, hok, -, hresults⟩ := hb.ends_iterateFrom hvalid k count 1 s h.1
  refine ⟨outcome, s₁, hloop, hok, fun results hout loop => ?_⟩
  obtain ⟨outcome', s₂, hengage, hok', hlaw, hstill, hstaffed⟩ :=
    hb.ends_engage hvalid _ loop s₁ (hresults results hout)
  refine ⟨outcome', s₂, hengage, hok', fun tasks hout' => ⟨?_, fun turns => ?_⟩⟩
  · exact hstaffed.2.2.trans h.1.knows.2.2.symm
  · rw [show s₂.target.workers = workers from hstaffed.2.2]
    exact StoreLaw.filled (Regime.burst _ (filling_of_sharding (hlaw tasks hout')) turns)
      (Regime.burst _ hstill turns)

/-- After any number of runs the next one fills the stores of its workers. -/
theorem exists_shards (hvalid : config.fault? = none) (hwrite : config.isWrite = true)
    (id : ContextId) (drawn size : UInt64) (count now pace : Nat) (schedule : Schedule) :
    let ctx := Context.ofConfig id config drawn
    ∃ s₀, benchmark.runs ctx count ⟨{ now, pace }, schedule, { size }⟩ = .ok () s₀ ∧
      ∃ s₁, benchmark.start ctx s₀ = .ok (.ok ()) s₁ ∧ Fills ctx s₁ := by
  intro ctx
  obtain ⟨_, s₀, hruns, h₀⟩ := Benchmark.ends_runs (ends_run hvalid hwrite) count
    ⟨{ now, pace }, schedule, { size }⟩ ⟨0, 0, .fresh now pace ⟨le_refl _, rfl⟩ fun _ _ _ => rfl⟩
  obtain ⟨_, s₁, hstart, rfl, first, workers, k, h₁⟩ := ends_start hvalid s₀ h₀
  exact ⟨s₀, hruns, s₁, hstart, fills_of_working hvalid hwrite h₁⟩

end WorkerPool

end BenchLoop
