/-
BenchLoop/Proofs/Loop/Rowless.lean

Iterations without rows.  Their tasks have nothing to notify, so all that threads ever do
to the countdown is to claim the start (`Ledger.vacant`).  The reset of such an iteration
releases the latch itself, and from then on nothing changes but the start mark: nobody has
to be waited for, and no end is ever stored.

`Benchmark.SkipsWaits` says so of a benchmark; `skipsWaits_of_quiet` has it for any one
whose tasks notify nothing, and `skipsWaits_rowless` for scripts and the built-in targets.

The start mark is another matter.  A task claims the start before it looks at its rows, and
nobody waits for it: without rows the start is unset, or set by whichever task happens to
be there (`started_without_rows`).
-/
import BenchLoop.Proofs.Target.Builtin

namespace BenchLoop

open CountdownAction

variable {id : ContextId}

/-! ### Countdowns that nobody counts down -/

/-- A countdown in an iteration without rows, which installed latch number `n`. -/
structure Countdown.Rowless (n : Nat) (c : Countdown) : Prop where
  current : c.current = n
  pending : c.pending = 0
  complete : c.isComplete = true
  unfinished : c.watch.isFinished = false

/-- A quiet countdown to which threads may come with quiet steps. -/
def Ledger.vacant (id : ContextId) (known : Countdown → Prop)
    (hknown : ∀ c mark, known c → known { c with watch.startMark := mark }) : Ledger id :=
  { Ledger.poised id known hknown with
    admits := fun steps => ∀ s ∈ steps, s.isQuiet id
    hand := fun ha h => ⟨fun s hs => (Multiset.mem_add.1 hs).elim (h.1 s) fun hs =>
      ha s (by simpa using hs), h.2⟩ }

/-- Before an iteration without rows. -/
def Ledger.unarmed (id : ContextId) (n : Nat) : Ledger id :=
  .vacant id (·.current = n) fun _ _ h => h

/-- From its reset on. -/
def Ledger.rowless (id : ContextId) (n : Nat) : Ledger id :=
  .vacant id (Countdown.Rowless n) fun _ _ h => ⟨h.current, h.pending, h.complete, h.unfinished⟩

theorem Ledger.rowless_of_inv {n : Nat} {notified : Duty → Nat} {rest : Multiset Duty}
    {own : List Step} {w : World} (h : ((rowless id n).regime notified).inv rest own w) :
    (w.countdown id).Rowless n := h.2

/-- A reset without rows releases the latch, whatever the threads do between its stores. -/
theorem Context.ends_reset_rowless {σ : Type} (ctx : Context) (n : Nat) :
    Run.Ends (fun w (_ : σ) => (Ledger.unarmed ctx.id n).inv 0 [] w) (Run.perform (ctx.reset 0))
      fun _ w _ => (Ledger.rowless ctx.id (n + 1)).inv 0 [] w := by
  have hrelease : Countdown.afterArming ctx.id 0 = [ctx.count none .release] := rfl
  refine ends_reset_of_readied ?_
  rw [hrelease]
  refine ends_store (fun c => c.current = n + 1 ∧ c.watch.endMark = 0 ∧ c.pending = 0)
    (fun _ _ h => h) (fun _ _ => rfl) (fun c _ h => ⟨h.current, h.unended, rfl⟩) ?_
  refine ends_store (Countdown.Rowless (n + 1))
    (fun _ _ h => ⟨h.current, h.pending, h.complete, h.unfinished⟩)
    (fun _ _ => rfl) (fun c _ h => ⟨h.1, h.2.2, ?_, bne_eq_false_iff_eq.2 h.2.1⟩) ?_
  · simp [Countdown.exec, Countdown.releaseLatch, Countdown.isComplete]
  · exact (Ledger.rowless ctx.id (n + 1)).ends_perform 0 []

/-- Without an end no time has been taken. -/
theorem Stopwatch.totalsMillis_of_unfinished {watch : Stopwatch} (h : watch.isFinished = false)
    (threads : UInt64) : watch.totalsMillis threads = (0, 0) := by
  have hend : watch.endMark = 0 := by simpa [isFinished] using h
  have helapsed : watch.elapsed? = none := by
    simp only [elapsed?, finish?, offset?, hend, if_true]
    split <;> simp_all
  simp [totalsMillis, helapsed, averageMillis]

/-! ### Rounds without rows -/

section Rounds

variable {σ : Type} {b : Benchmark σ} {m : Conduct} {ctx : Context}

/-- The rounds of a benchmark whose tasks notify nothing, since there are no rows. -/
def Rounds.rowless (hm : m.Orderly b ctx) (hrows : ctx.config.rows = 0)
    (hnone : ∀ k, ∀ d ∈ b.duties ctx.config k, m.notified d = 0) : Rounds b m ctx where
  regular _ := True
  idle k := (Ledger.unarmed ctx.id k).regime m.notified
  busy k := (Ledger.rowless ctx.id (k + 1)).regime m.notified
  arm k := by
    rw [hrows]
    exact ctx.ends_reset_rowless k
  admits k d hd _ steps hline := by
    have htally := hm.tally k d hd steps hline
    refine ⟨fun s hs => ?_, htally⟩
    have hopening := hm.opening k d hd steps hline s hs
    rw [Step.isQuiet, hopening, Bool.true_and, Option.all_eq_true]
    intro a ha
    rw [hnone k d hd] at htally
    simpa using Step.eq_zero_of_tally_eq_zero ctx.id units htally (Multiset.mem_coe.2 hs) ha
  current _ h := (Ledger.rowless_of_inv h).current
  opens _ h _ := (Ledger.rowless_of_inv h).complete
  closes _ h _ := ⟨h.1, (Ledger.rowless_of_inv h).current⟩

variable {known : Nat → σ → Prop} {course : List Event}

namespace Benchmark

/-- The report of an iteration that has not stored an end. -/
theorem ends_report_unfinished {r : Regime} {rest : Multiset Duty} {tasks : TaskId}
    (hend : ∀ w, r.inv rest [] w → (w.countdown ctx.id).watch.isFinished = false)
    (loop : UInt32) :
    Run.Ends (Stage r known rest [] tasks course) (b.report ctx loop) fun x w target =>
      x = Measurement.ofConfig b.name loop ctx.config 0 0 ∧
        Stage r known rest [] tasks course w target := by
  apply ends_report_of_readOut
  refine (Stage.ends_look _).bind fun startMark => Run.Ends.bind
    (Q := fun endMark w target => endMark = 0 ∧ Stage r known rest [] tasks course w target)
    (.look Stage.stable fun w target h => ⟨?_, h⟩) fun endMark => Run.Ends.lift ?_
  · simpa [Stopwatch.isFinished] using hend w h.inv
  · rintro rfl
    have htotals : Stopwatch.totalsMillis { startMark, endMark := 0 } ctx.config.threads
        = (0, 0) := Stopwatch.totalsMillis_of_unfinished rfl _
    rw [htotals]
    refine Run.Ends.bind (Q := fun _ => Stage r known rest [] tasks course)
      (.note Stage.stable fun w target h => ?_) fun _ => .pure fun w target h => ⟨rfl, h⟩
    simpa [Event.marks] using h.note (.printed _) rfl

/-- An iteration without rows ends as its dispatch does, and its times are zero. -/
theorem ends_iterate_rowless (hb : b.Follows m ctx known) (hm : m.Orderly b ctx)
    (hrows : ctx.config.rows = 0) (hnone : ∀ k, ∀ d ∈ b.duties ctx.config k, m.notified d = 0)
    (k : Nat) (loop : UInt32) :
    Run.Ends
      (Stage ((Rounds.rowless hm hrows hnone).idle k) known 0 [] (k * ctx.config.threads.toNat)
        course)
      (b.iterate ctx loop) fun outcome w _ =>
        outcome.void = m.iterating b ctx.config k ∧
          (∀ x, outcome = .ok x → x = Measurement.ofConfig b.name loop ctx.config 0 0) ∧
          ∃ rest, ((Rounds.rowless hm hrows hnone).busy k).inv rest [] w := by
  have hend (w : World) (h : ((Rounds.rowless hm hrows hnone).done k).inv 0 [] w) :
      (w.countdown ctx.id).watch.isFinished = false := (Ledger.rowless_of_inv h.1).unfinished
  refine (ends_iterate_of_report hb _ (fun _ => trivial)
    (ends_report_unfinished hend loop)).post ?_
  rintro outcome w target ⟨hvoid, ⟨x, rfl, rfl, h⟩ | ⟨hne, left, n, h⟩⟩
  · refine ⟨hvoid, ?_, 0, h.inv.1⟩
    rintro _ ⟨rfl⟩
    rfl
  · refine ⟨hvoid, ?_, left, h.inv⟩
    rintro x rfl
    exact absurd rfl hne

/-- Iterations without rows come to their ends at once: after any number of them that went
well, and whatever the schedule is,

* when the next one comes to its wait the latch of its reset has been released, and will
  be whatever the threads do in between;
* it ends as its dispatch does, reporting no time at all if it ends well;
* from its reset on the counter is zero, the latch released and no end set, whatever its
  tasks and those of earlier iterations still do. -/
def SkipsWaits (b : Benchmark σ) (config : Config) (target : σ) : Prop :=
  ∀ (id : ContextId) (drawn : UInt64) (now pace : Nat) (schedule : Schedule)
    (s₁ s₂ : Session σ) (k : Nat) (results : List Measurement),
    let ctx := Context.ofConfig id config drawn
    b.init ctx ⟨{ now, pace }, schedule, target⟩ = .ok (.ok ()) s₁ →
    b.iterateFrom ctx 1 k s₁ = .ok (.ok results) s₂ → ∀ loop : UInt32,
    ∃ latch armed dispatched s₃ outcome s₄,
      arm ctx loop s₂ = .ok latch armed ∧ b.dispatch ctx armed = .ok dispatched s₃ ∧
      b.iterate ctx loop s₂ = .ok outcome s₄ ∧
      (∀ turns, ctx.isReleased latch (s₃.world.burst turns) = true) ∧
      outcome.void = dispatched.void ∧
      (∀ x, outcome = .ok x → x = Measurement.ofConfig b.name loop config 0 0) ∧
      ∀ s ∈ [armed, s₃, s₄], ∀ turns, ((s.world.burst turns).countdown id).Rowless (k + 1)

/-- A benchmark without rows whose tasks only ever act for themselves skips its waits. -/
theorem skipsWaits_of_quiet {config : Config} {target : σ} (m : Context → Conduct)
    (hrows : config.rows = 0) (hb : ∀ ctx, b.Follows (m ctx) ctx known)
    (hm : ∀ id drawn, (m (.ofConfig id config drawn)).Orderly b (.ofConfig id config drawn))
    (hnone : ∀ id drawn k, ∀ d ∈ b.duties config k,
      (m (.ofConfig id config drawn)).notified d = 0)
    (hinit : ∀ id drawn, b.Readies (.ofConfig id config drawn) known target) :
    b.SkipsWaits config target := by
  intro id drawn now pace schedule s₁ s₂ k results ctx hbegin hearlier loop
  let rounds := Rounds.rowless (hm id drawn) hrows (hnone id drawn)
  obtain ⟨course, hstage⟩ := stage_of_iterateFrom (hb ctx) rounds (fun _ => trivial)
    (hinit id drawn) (Ledger.storeless _ _) (Ledger.quiet_fresh id now pace) hbegin hearlier
  obtain ⟨latch, armed, harm, hlatch, harmed⟩ := ends_arm rounds k loop s₂ hstage
  obtain ⟨dispatched, s₃, hdispatch, hvoid, left, n, -, hbusy⟩ :=
    ends_dispatch (hb ctx) (rounds.admits k) armed harmed
  obtain ⟨outcome, s₄, hiterate, hvoid', hx, left', hbusy'⟩ :=
    ends_iterate_rowless (hb ctx) (hm id drawn) hrows (hnone id drawn) k loop s₂ hstage
  -- what the reset has left holds whatever the threads do from then on
  have hrowless {rest : Multiset Duty} {w : World} (h : (rounds.busy k).inv rest [] w)
      (turns : List Turn) : ((w.burst turns).countdown id).Rowless (k + 1) :=
    Ledger.rowless_of_inv ((rounds.busy k).burst h turns)
  refine ⟨latch, armed, dispatched, s₃, outcome, s₄, harm, hdispatch, hiterate,
    fun turns => ?_, hvoid'.trans hvoid.symm, hx, ?_⟩
  · have h := hrowless hbusy.inv turns
    have hcomplete := h.complete
    rw [Countdown.isComplete, h.current] at hcomplete
    rwa [hlatch trivial]
  · simp only [List.mem_cons, List.not_mem_nil, or_false]
    rintro s (rfl | rfl | rfl)
    · exact hrowless harmed.inv
    · exact hrowless hbusy.inv
    · exact hrowless hbusy'

end Benchmark

end Rounds

/-! ### The benchmarks -/

section Benchmarks

variable {config : Config} (hvalid : config.fault? = none) (hrows : config.rows = 0)

theorem Benchmark.rowCount_of_rowless {σ : Type} (b : Benchmark σ) (hvalid : config.fault? = none)
    (hrows : config.rows = 0) {k : Nat} {d : Duty} (hd : d ∈ b.duties config k) :
    d.1.rowCount = 0 := by
  have hsum := b.sum_rowCount_duties (Config.threads_pos hvalid) k
  rw [hrows] at hsum
  exact List.sum_eq_zero_iff.1 hsum _ (List.mem_map_of_mem hd)

include hvalid hrows

theorem Script.skipsWaits {s : Script} (hreporting : ∀ t, (s.task t).reporting = .eachRow) :
    s.benchmark.SkipsWaits config () := by
  refine Benchmark.skipsWaits_of_quiet s.conduct hrows s.follows (fun _ _ => s.orderly _)
    (fun id drawn k d hd => ?_) fun _ _ => s.readies _
  have hkeys := Context.keyList_of_mem id drawn hvalid (List.fst_mem_of_mem_zipIdx hd)
  rw [tally_line hkeys, notified, hreporting, Reporting.countsFor,
    s.benchmark.rowCount_of_rowless hvalid hrows hd]
  rfl

/-- A benchmark whose tasks walk through their rows has nothing to notify either. -/
theorem Conduct.notified_walking_rowless {σ : Type} (b : Benchmark σ) (threaded : Bool)
    (p : StoreId → Prop) (id : ContextId) (drawn : UInt64) (k : Nat) (d : Duty)
    (hd : d ∈ b.duties config k) :
    (walking (.ofConfig id config drawn) threaded p).notified d = 0 :=
  (reach_of_mem_duties b id drawn hvalid hd).1.trans (b.rowCount_of_rowless hvalid hrows hd)

theorem MemoryMap.skipsWaits : benchmark.SkipsWaits config () :=
  Benchmark.skipsWaits_of_quiet (fun ctx => .walking ctx true (· = store)) hrows follows
    (fun id drawn => Conduct.orderly_walking benchmark true _ id drawn hvalid)
    (Conduct.notified_walking_rowless hvalid hrows benchmark true _) fun _ _ => readies _

theorem WorkerPool.skipsWaits (size : UInt64) : benchmark.SkipsWaits config { size } :=
  Benchmark.skipsWaits_of_quiet (fun ctx => .walking ctx false fun _ => True) hrows
    (fun ctx => follows ctx (q := fun _ => True) fun _ _ _ _ => trivial)
    (fun id drawn => Conduct.orderly_walking benchmark false _ id drawn hvalid)
    (Conduct.notified_walking_rowless hvalid hrows benchmark false _) (readies hvalid size)

/-- **Without rows nobody is waited for.**  Take a valid configuration without rows.  Whatever
drives the tasks of a script that notify row by row, and in both built-in targets, every
iteration skips its wait: its latch is released from the reset on, it reports no time, and the
counter stays zero and the end unset. -/
theorem skipsWaits_rowless :
    (∀ s : Script, (∀ t, (s.task t).reporting = .eachRow) → s.benchmark.SkipsWaits config ()) ∧
      MemoryMap.benchmark.SkipsWaits config () ∧
      ∀ size, WorkerPool.benchmark.SkipsWaits config { size } :=
  ⟨fun _ hreporting => Script.skipsWaits hvalid hrows hreporting,
    MemoryMap.skipsWaits hvalid hrows, WorkerPool.skipsWaits hvalid hrows⟩

omit hvalid hrows in
/-- The second iteration of a script with two threads, each with an empty range. -/
theorem skipsWaits_second_iteration :
    let s : Script := { name := "b" }
    let config : Config := { loops := 2, rows := 0, threads := 2 }
    let ctx := Context.ofConfig 0 config 7
    ∃ s₁ s₂ s₃ results,
      s.benchmark.init ctx ⟨{}, [[], [.thread 0]], ()⟩ = .ok (.ok ()) s₁ ∧
      s.benchmark.iterateFrom ctx 1 1 s₁ = .ok (.ok results) s₂ ∧
      s.benchmark.iterate ctx 2 s₂ = .ok (.ok (Measurement.ofConfig "b" 2 config 0 0)) s₃ ∧
      ∀ turns, ((s₃.world.burst turns).countdown 0).Rowless 2 := by
  intro s config ctx
  have hvalid : config.fault? = none := by decide
  have hruns : ((s.benchmark.init ctx).ending? ⟨{}, [[], [.thread 0]], ()⟩).any (fun r₁ =>
      r₁.1 = .ok () && ((s.benchmark.iterateFrom ctx 1 1).ending? r₁.2).any fun r₂ =>
        r₂.1.void = .ok () && ((s.benchmark.iterate ctx 2).ending? r₂.2).any fun r₃ =>
          r₃.1.void = .ok ()) = true := by decide +kernel
  simp only [Option.any_eq_true, Bool.and_eq_true, decide_eq_true_eq, Prod.exists,
    Run.ending?_eq_some_iff] at hruns
  obtain ⟨_, s₁, hinit, rfl, outcome₁, s₂, hearlier, hok₁, outcome₂, s₃, hiterate, hok₂⟩ := hruns
  obtain ⟨results, rfl⟩ := Outcome.exists_of_void_eq_ok hok₁
  have hskips : s.benchmark.SkipsWaits config () :=
    (skipsWaits_rowless hvalid rfl).1 s fun _ => rfl
  obtain ⟨_, _, _, _, outcome, s₃', -, -, hiterate', -, -, hx, hrowless⟩ :=
    hskips 0 7 0 0 _ s₁ s₂ 1 results hinit hearlier 2
  rw [hiterate] at hiterate'
  cases hiterate'
  obtain ⟨x, rfl⟩ := Outcome.exists_of_void_eq_ok hok₂
  obtain rfl := hx x rfl
  exact ⟨s₁, s₂, s₃, results, hinit, hearlier, hiterate, hrowless s₃ (by simp)⟩

omit hvalid hrows in
/-- Still a task that nobody waits for claims the start of an iteration without rows. -/
theorem started_without_rows :
    let s : Script := { name := "b" }
    let config : Config := { loops := 1, rows := 0, threads := 1 }
    let ctx := Context.ofConfig 0 config 7
    config.fault? = none ∧ (∀ t, (s.task t).reporting = .eachRow) ∧
      ∃ results s', s.benchmark.run ctx ⟨{}, [], ()⟩ = .ok (.ok results) s' ∧
        ∃ turns, ((s'.world.burst turns).countdown 0).watch.isStarted = true := by
  intro s config ctx
  refine ⟨by decide, fun _ => rfl, ?_⟩
  have hrun : ((s.benchmark.run ctx).ending? ⟨{}, [], ()⟩).any (fun r =>
      r.1.void = .ok () && (r.2.world.settle.countdown 0).watch.isStarted) = true := by
    decide +kernel
  simp only [Option.any_eq_true, Bool.and_eq_true, decide_eq_true_eq, Prod.exists,
    Run.ending?_eq_some_iff] at hrun
  obtain ⟨outcome, s', hrun, hok, hstarted⟩ := hrun
  obtain ⟨results, rfl⟩ := Outcome.exists_of_void_eq_ok hok
  exact ⟨results, s', hrun, _, hstarted⟩

end Benchmarks

end BenchLoop
