/-
BenchLoop/Proofs/Target/Consecutive.lean

Consecutive iterations, of one run or of several, of a benchmark whose tasks walk through
their rows under a law of stores (`Benchmark.Governed`).

Threads of a run may still be there when it has come to its end.  So a law can only hold
for all iterations but the first because of the order in which tasks work: when the rows of
an iteration have been counted down no access is in flight any more.  `Between` says what is
left between two iterations; an iteration leads from there to there (`ends_iterateFrom`), and
at the end of its wait the law has nothing left to hand out (`ends_engage`).

Where there is no room for the ranges every iteration panics, and nothing changes at all.
-/
import BenchLoop.Proofs.Loop.Lifecycle
import BenchLoop.Proofs.Target.Contents

namespace BenchLoop

/-- Something holds, and will as long as only threads take turns. -/
def World.Remains (P : World → Prop) (w : World) : Prop := ∀ turns, P (w.burst turns)

namespace Benchmark

variable {σ : Type}

/-- The first part of a run, up to its first iteration. -/
def start (b : Benchmark σ) (ctx : Context) : Run σ (HookOutcome Unit) := do
  let c := ctx.config
  if !c.quiet then
    Run.log .info s!"{b.name}: {c.loops} loops, {c.rows} rows, {c.threads} threads"
  b.init ctx

/-- A run begins, goes through its iterations and is concluded. -/
theorem run_eq (b : Benchmark σ) (ctx : Context) : b.run ctx = (do
    match ← b.start ctx with
    | .failed cause => return .failed (.init cause)
    | .panicked p => return .panicked p
    | .ok () => b.conclude (← b.iterateFrom ctx 1 ctx.config.loops.toNat)) := by
  unfold run start
  dsimp only
  split
  · exact (bind_assoc _ _ _).symm
  · rfl

/-- Consecutive runs. -/
def runs (b : Benchmark σ) (ctx : Context) : (count : Nat) → Run σ Unit
  | 0 => return ()
  | count + 1 => do
    runs b ctx count
    let _ ← b.run ctx

variable {P : World → σ → Prop} {Q : HookOutcome Unit → World → σ → Prop}

theorem ends_start {b : Benchmark σ} {ctx : Context}
    (hlog : ∀ level message, Run.Ends P (Run.log level message) fun _ => P)
    (hinit : Run.Ends P (b.init ctx) Q) : Run.Ends P (b.start ctx) Q := by
  unfold start
  dsimp only
  split
  · exact (hlog _ _).bind fun _ => hinit
  · exact hinit

/-- What each run preserves holds after any number of them. -/
theorem ends_runs {b : Benchmark σ} {ctx : Context}
    (hrun : Run.Ends P (b.run ctx) fun _ => P) (count : Nat) :
    Run.Ends P (b.runs ctx count) fun _ => P := by
  induction count with
  | zero => exact .pure fun _ _ h => h
  | succ count ih => exact ih.bind fun _ => hrun.bind fun _ => .pure fun _ _ h => h

end Benchmark

section Between

variable {σ : Type} (config : Config) (id : ContextId) (drawn : UInt64)

/-- What is known of the countdown and the threads between two iterations, after `k` of them. -/
def Config.settled (k : Nat) : Regime :=
  match PartitionFault.ofThreads? config.threads with
  | none => (Ledger.quiet id k).regime fun d => (Context.ofConfig id config drawn).reach d.1
  | some _ => (Ledger.calm id).regime fun _ => 0

/-- What there is between two iterations, after `k` of them: no thread will act on the stores
any more, and `q` is known of these. -/
def Between (known : Nat → σ → Prop) (tells : RowAccess → Bool → Prop) (q : Table Store → Prop)
    (k : Nat) (w : World) (target : σ) : Prop :=
  ∃ tasks course, (PartitionFault.ofThreads? config.threads = none →
      tasks = k * config.threads.toNat) ∧
    Stage ((config.settled id drawn k).both (StoreLaw.still tells q).regime) known 0 [] tasks course
      w target

/-- A benchmark whose tasks walk through their rows in some stores, under a law. -/
structure Benchmark.Governed (b : Benchmark σ) (threaded : Bool) (p : StoreId → Prop)
    (known : Nat → σ → Prop) (l : StoreLaw) (q : Table Store → Prop) : Prop where
  follows : b.Follows (.walking (.ofConfig id config drawn) threaded p) (.ofConfig id config drawn)
    known
  name : '\x00' ∉ b.name.toList
  law : l.Governs q b (.ofConfig id config drawn) p

variable {config id drawn}
variable {known known' : Nat → σ → Prop} {tells : RowAccess → Bool → Prop}
variable {q q' : Table Store → Prop} {k : Nat} {w : World} {target : σ}

theorem storeless_settled : (config.settled id drawn k).Storeless := by
  unfold Config.settled
  split <;> exact Ledger.storeless _ _

namespace Between

theorem fresh (now pace : Nat) (hknown : known 0 target) (hq : q {}) :
    Between config id drawn known tells q 0 { now, pace } target := by
  have hstill : (StoreLaw.still tells q).regime.inv 0 [] ({ now, pace } : World) :=
    ⟨nofun, hq, nofun⟩
  have hsettled : (config.settled id drawn 0).inv 0 [] ({ now, pace } : World) := by
    unfold Config.settled
    split
    · exact Ledger.quiet_fresh id now pace
    · exact nofun
  exact ⟨0, [], fun _ => (Nat.zero_mul _).symm, .fresh ⟨hsettled, hstill⟩ hknown⟩

theorem stable : Stable (Between config id drawn known tells q k) :=
  fun _ _ t ⟨tasks, course, htasks, h⟩ => ⟨tasks, course, htasks, h.turn t⟩

theorem still (h : Between config id drawn known tells q k w target) :
    (StoreLaw.still tells q).regime.inv 0 [] w := by
  obtain ⟨tasks, course, -, h⟩ := h
  exact h.inv.2

theorem knows (h : Between config id drawn known tells q k w target) :
    known w.threads.size target := by
  obtain ⟨tasks, course, -, h⟩ := h
  exact h.known

/-- Between two iterations the coordinator can exchange the stores. -/
theorem restock (h : Between config id drawn known tells q k w target) {stores : Table Store}
    (hq : q' stores) : Between config id drawn known tells q' k { w with stores } target := by
  obtain ⟨tasks, course, htasks, h⟩ := h
  have hsettled := storeless_settled 0 [] w h.inv.1 stores
  exact ⟨tasks, course, htasks, ⟨hsettled, StoreLaw.still_restock h.inv.2 hq⟩, h.known, h.sound,
    h.tasks, h.course⟩

/-- What is known of the stores and the target can be put in other words. -/
theorem imp {target' : σ} (h : Between config id drawn known tells q k w target)
    (hknown : known' w.threads.size target') (hq : q' w.stores) :
    Between config id drawn known' tells q' k w target' := by
  obtain ⟨tasks, course, htasks, h⟩ := h
  exact ⟨tasks, course, htasks,
    ⟨h.inv.1, ⟨h.inv.2.allows, hq, h.inv.2.told⟩⟩, hknown, h.sound, h.tasks, h.course⟩

/-- What does not act on the stores leads from there to there. -/
theorem ends_of_stage {α : Type} {p : Run σ α} (known' : α → Nat → σ → Prop)
    (h : ∀ r rest tasks course, Run.Ends (Stage r known rest [] tasks course) p
      fun a => Stage r (known' a) rest [] tasks course) :
    Run.Ends (Between config id drawn known tells q k) p
      fun a => Between config id drawn (known' a) tells q k := by
  refine Run.Ends.ex fun tasks => Run.Ends.ex fun course => Run.Ends.lift fun htasks => ?_
  exact (h _ _ tasks course).post fun _ _ _ h => ⟨tasks, course, htasks, h⟩

theorem ends_log (level : LogLevel) (message : String) :
    Run.Ends (Between config id drawn known tells q k) (Run.log level message)
      fun _ => Between config id drawn known tells q k :=
  ends_of_stage _ fun _ _ _ _ => Stage.ends_log level message

end Between

/-! ### Iterations -/

namespace Benchmark.Governed

variable {b : Benchmark σ} {threaded : Bool} {p : StoreId → Prop} {l : StoreLaw}
variable (hvalid : config.fault? = none)
variable (hb : b.Governed config id drawn threaded p known l q)

/-- The rounds of the benchmark, with what the law says of its stores. -/
def rounds : Rounds b (.walking (.ofConfig id config drawn) threaded p)
    (.ofConfig id config drawn) :=
  (Rounds.walking b threaded p id drawn hvalid).extend (Rounds.stocked threaded hvalid hb.law)

theorem idle_rounds (hroom : PartitionFault.ofThreads? config.threads = none) (k : Nat) :
    (rounds hvalid hb).idle k
      = (config.settled id drawn k).both (StoreLaw.still l.tells q).regime := by
  rw [Config.settled, hroom]
  rfl

include hb in
/-- If there is room for the ranges every iteration goes well. -/
theorem iterating_eq_ok (hroom : PartitionFault.ofThreads? config.threads = none) (k : Nat) :
    (Conduct.walking (.ofConfig id config drawn) threaded p).iterating b config k = .ok () :=
  Conduct.iterating_eq_ok (Conduct.startable hb.name hroom k) fun _ _ => rfl

include hvalid hb in
/-- Arming the countdown begins the law. -/
theorem ends_arm (k : Nat) (loop : UInt32) :
    Run.Ends (Between config id drawn known l.tells q k) (arm (.ofConfig id config drawn) loop)
      fun _ w _ => l.regime.inv (b.duties config k) [] w := by
  let stocked := Rounds.stocked threaded hvalid hb.law
  refine Run.Ends.ex fun tasks => Run.Ends.ex fun course => Run.Ends.lift fun _ => ?_
  refine Run.Ends.pre (P := Stage (stocked.idle k) known 0 [] tasks course) ?_
    fun _ _ h => ⟨h.inv.2, h.known, h.sound, h.tasks, h.course⟩
  refine (Stage.ends_log _ _).bind fun _ => ?_
  refine (Stage.ends_exchange (fun _ => Context.isCrash_of_mem_reset) (stocked.arm k)).bind
    fun _ => (Stage.ends_look _).post fun _ _ _ h => h.inv.1

/-- Where the ranges of an iteration cannot be made a reset changes nothing that is known. -/
theorem ends_reset {fault : PartitionFault}
    (hfault : PartitionFault.ofThreads? config.threads = some fault) (rows : UInt64) :
    Run.Ends (fun w (_ : σ) => ((config.settled id drawn k).both
        (StoreLaw.still tells q).regime).inv 0 [] w)
      (Run.perform ((Context.ofConfig id config drawn).reset rows))
      fun _ w _ =>
        ((config.settled id drawn k).both (StoreLaw.still tells q).regime).inv 0 [] w := by
  have hsettled : config.settled id drawn k = (Ledger.calm id).regime fun _ => 0 := by
    rw [Config.settled, hfault]
  rw [hsettled]
  refine (Regime.ends_perform _ _ _).pre fun _ _ h => ⟨?_, StoreLaw.inv_of_still h.2 h.2.known ?_⟩
  · exact fun s hs => (Multiset.mem_add.1 hs).elim
      (fun hs => Regime.calm _ h.2 s hs) fun hs => Context.isCrash_of_mem_reset hs
  · intro s hs
    refine ⟨Context.isCrash_of_mem_reset hs, ?_⟩
    obtain ⟨a, -, rfl⟩ := List.mem_map.1 hs
    rfl

include hvalid hb in
/-- An iteration up to the end of its wait. -/
theorem ends_engage (k : Nat) (loop : UInt32) :
    Run.Ends (Between config id drawn known l.tells q k)
      (b.engage (.ofConfig id config drawn) loop) fun outcome w target =>
        (PartitionFault.ofThreads? config.threads = none → ∃ tasks, outcome = .ok tasks) ∧
          (∀ tasks, outcome = .ok tasks → l.regime.inv 0 [] w) ∧
          (StoreLaw.still l.tells q).regime.inv 0 [] w ∧ known w.threads.size target := by
  refine Run.Ends.ex fun tasks => Run.Ends.ex fun course => Run.Ends.lift fun htasks => ?_
  cases hroom : PartitionFault.ofThreads? config.threads with
  | none =>
    obtain rfl := htasks hroom
    rw [← idle_rounds hvalid hb hroom]
    refine (Benchmark.ends_engage hb.follows (rounds hvalid hb)
      (fun _ => Conduct.rows_walking b threaded p id drawn hvalid k) loop).post
      fun outcome w target h => ?_
    obtain ⟨hvoid, ⟨ts, rfl, -, h⟩ | ⟨hne, -⟩⟩ := h
    · exact ⟨fun _ => ⟨ts, rfl⟩, fun _ _ => h.inv.1.2.1, h.inv.2.2, h.known⟩
    · exact absurd (hvoid.trans (iterating_eq_ok hb hroom k)) hne
  | some fault =>
    refine (Benchmark.ends_engage_of_fault hroom (ends_reset hroom _) loop).post ?_
    rintro outcome w target ⟨rfl, h⟩
    exact ⟨nofun, nofun, h.inv.2, h.known⟩

/-- Where the ranges cannot be made the first iteration panics, and nothing changes. -/
theorem ends_iterateFrom_of_fault {fault : PartitionFault}
    (hfault : PartitionFault.ofThreads? config.threads = some fault) (k count : Nat)
    (loop : UInt32) :
    Run.Ends (Between config id drawn known tells q k)
      (b.iterateFrom (.ofConfig id config drawn) loop (count + 1)) fun outcome w target =>
        outcome = .panicked fault.payload ∧ Between config id drawn known tells q k w target := by
  refine Run.Ends.ex fun tasks => Run.Ends.ex fun course => Run.Ends.lift fun htasks => ?_
  let unchanged : World → σ → Prop :=
    Stage ((config.settled id drawn k).both (StoreLaw.still tells q).regime) known 0 [] tasks course
  have hiterate : Run.Ends unchanged (b.iterate (.ofConfig id config drawn) loop)
      fun outcome w target => outcome = .panicked fault.payload ∧ unchanged w target := by
    refine (Benchmark.ends_engage_of_fault hfault (ends_reset hfault _) loop).bind
      fun outcome => Run.Ends.lift ?_
    rintro rfl
    exact .pure fun w target h => ⟨rfl, h⟩
  refine hiterate.bind fun outcome => Run.Ends.lift ?_
  rintro rfl
  exact .pure fun w target h => ⟨rfl, tasks, course, htasks, h⟩

include hvalid hb in
/-- Some iterations, one after the other. -/
theorem ends_iterateFrom (k count : Nat) (loop : UInt32) :
    Run.Ends (Between config id drawn known l.tells q k)
      (b.iterateFrom (.ofConfig id config drawn) loop count) fun outcome w target =>
        (PartitionFault.ofThreads? config.threads = none → ∃ results, outcome = .ok results) ∧
          (∃ k', Between config id drawn known l.tells q k' w target) ∧
          ∀ results, outcome = .ok results →
            Between config id drawn known l.tells q (k + count) w target := by
  -- without room for the ranges the first iteration panics, and there is no other one
  cases hroom : PartitionFault.ofThreads? config.threads with
  | none =>
    refine Run.Ends.ex fun tasks => Run.Ends.ex fun course => Run.Ends.lift fun htasks => ?_
    obtain rfl := htasks hroom
    rw [← idle_rounds hvalid hb hroom]
    refine (Benchmark.ends_iterateFrom hb.follows (rounds hvalid hb) (fun k' _ _ _ =>
      Conduct.rows_walking b threaded p id drawn hvalid k') loop).post fun outcome w target h =>
        ?_
    obtain ⟨hvoid, ⟨results, rfl, -, h⟩ | ⟨hne, -⟩⟩ := h
    · rw [idle_rounds hvalid hb hroom] at h
      have hbetween : Between config id drawn known l.tells q (k + count) w target :=
        ⟨_, _, fun _ => rfl, h⟩
      exact ⟨fun _ => ⟨results, rfl⟩, ⟨_, hbetween⟩, fun _ _ => hbetween⟩
    · exact absurd (hvoid.trans (Conduct.looping_eq_ok_iff.2 fun k' _ _ =>
        iterating_eq_ok hb hroom k')) hne
  | some fault =>
    cases count with
    | zero => exact .pure fun w target h => ⟨nofun, ⟨k, h⟩, fun _ _ => h⟩
    | succ count =>
      refine (ends_iterateFrom_of_fault hroom k count loop).post ?_
      rintro outcome w target ⟨rfl, h⟩
      exact ⟨nofun, ⟨k, h⟩, nofun⟩

end Benchmark.Governed

end Between

end BenchLoop
