/-
BenchLoop/Proofs/Loop/Starts.lean

Every iteration is timed from a start of its own.  Tasks claim the start before their
first row and have a row to notify after it.  So when the rows of an iteration have been
counted down, none of its tasks is about to claim the start any more, and the next reset
finds nobody who could claim the start of the next iteration in its place.

`Rounds.punctual` adds this to the books of the iterations, and
`Benchmark.ends_iterate_begun` reads off where the start of a measurement comes from.
-/
import BenchLoop.Proofs.Completion.Pacing
import BenchLoop.Proofs.Loop.Accounts

namespace BenchLoop

open CountdownAction

/-- The tasks that may claim the start in an epoch: those of its iteration. -/
def Config.crew (c : Config) (n t : Nat) : Prop := ∃ k, n = k + 1 ∧ c.isTaskOf k t

/-- Every start was won by a task of the iteration whose reset was the last one before it. -/
def World.StartsOwned (ctx : Context) (w : World) : Prop :=
  Entry.StartsOwned ctx.id ctx.config.crew w.journal

/-- Since the last reset a task of iteration number `k` has won the claim of the start with the
given mark. -/
def World.Begun (ctx : Context) (k : Nat) (mark : UInt64) (w : World) : Prop :=
  ∃ e ∈ w.sinceReset ctx.id, ∃ s t, e.event = .performed s true ∧
    s.on? ctx.id = some (.claimStart mark) ∧ s.task = some t ∧ ctx.config.isTaskOf k t

/-- An entry stays among those since the last reset while only tasks are at work. -/
def Ledger.kept (id : ContextId) (e : Entry) : Ledger id where
  holds _ _ journal _ pool := (∀ s ∈ pool, s.isWork id = true) ∧ e ∈ Entry.sinceReset id journal
  admits steps := ∀ s ∈ steps, s.isWork id = true
  sound h s hs := Step.isCrash_of_isWork (h.1 s hs)
  later h _ := h
  note h hstep := by
    rw [Entry.sinceReset_cons (Entry.isReset_of_off (Entry.on?_of_isStep hstep))]
    exact ⟨h.1, List.mem_cons_of_mem _ h.2⟩
  exec {rest actor s pool w} h := by
    obtain ⟨e', hjournal, hreset, -⟩ :=
      World.journal_exec (w := w) actor (h.1 s (Multiset.mem_cons_self s pool))
    rw [hjournal, Entry.sinceReset_cons hreset]
    exact ⟨World.forall_exec h.1 fun t ht => World.isWork_exec ht, List.mem_cons_of_mem _ h.2⟩
  hand ha h := ⟨fun s hs => (Multiset.mem_add.1 hs).elim (h.1 s) fun hs => ha s (by simpa using hs),
    h.2⟩

namespace Conduct

variable {σ : Type} {b : Benchmark σ} {m : Conduct} {ctx : Context} {k : Nat}
variable {rest : Multiset Duty} {own : List Step} {w : World}

theorem engaged_of_busy
    (hrows : m.rows (b.duties ctx.config k) = ctx.config.rows.toNat)
    (h : (m.busy b ctx k).inv rest own w) :
    (Ledger.engaged ctx.id ctx.config.rows.toNat ctx.config.rows.toNat (k + 1)).inv
      (rest.map m.notified).sum own w := by
  rw [busy, if_pos hrows] at h
  exact h.1

/-- What is in flight when an iteration begins. -/
theorem fresh_of_busy
    (hrows : m.rows (b.duties ctx.config k) = ctx.config.rows.toNat)
    (h : (m.busy b ctx k).inv (b.duties ctx.config k) [] w) :
    (∀ s ∈ w.inFlight, s.isWork ctx.id = true) ∧ Step.tally ctx.id units w.inFlight = 0 ∧
      w.subtracted ctx.id = 0 := by
  obtain ⟨hflow, -⟩ := engaged_of_busy hrows h
  rw [Multiset.coe_nil, add_zero, m.sum_notified, hrows] at hflow
  have hbalance := hflow.balance
  refine ⟨hflow.work, by omega, ?_⟩
  simp only [World.subtracted, World.sinceReset]
  omega

end Conduct

section Punctual

variable {σ : Type} (b : Benchmark σ) {m : Conduct} {ctx : Context}

/-- What is needed of the tasks: together they notify the rows, and each claims the start
before its first row and has a row to notify after that. -/
structure Conduct.Punctual (m : Conduct) (b : Benchmark σ) (ctx : Context) : Prop where
  orderly : m.Orderly b ctx
  rows (k : Nat) : m.rows (b.duties ctx.config k) = ctx.config.rows.toNat
  paced (k : Nat) : ∀ d ∈ b.duties ctx.config k, ∀ steps, m.line d steps →
    Step.Paced ctx.id False steps

/-- The rounds of a benchmark with punctual tasks. -/
def Rounds.punctual (hm : m.Punctual b ctx) (hmax : ctx.config.rows.toNat ≤ 2 ^ 32 - 1) :
    Rounds b m ctx where
  regular _ := True
  idle k := ((accounted b hm.orderly hmax).idle k).both
    ((Ledger.unstarted ctx.id ctx.config.crew k).regime m.notified)
  busy k := ((accounted b hm.orderly hmax).busy k).both
    (((Ledger.started ctx.id ctx.config.crew (k + 1)).regime m.notified).both
      (Regime.paced ctx.id))
  arm k := by
    refine (((accounted b hm.orderly hmax).arm k).and
      (ctx.ends_reset_unstarted ctx.config.rows ctx.config.crew k)).post fun _ w _ h => ?_
    obtain ⟨hbusy, hunstarted, hunmarked⟩ := h
    obtain ⟨hwork, hunits, hsub⟩ := Conduct.fresh_of_busy (hm.rows k) hbusy
    have hstart (s : Step) (hs : s ∈ w.inFlight) : s.isStart ctx.id = false :=
      (hunstarted.1 s (by simpa using hs)).2
    refine ⟨hbusy, m.inv_regime _ |>.2 ?_, Regime.paced_of_unstarted _ hwork hstart hunits hsub⟩
    exact Ledger.started_of_unmarked _ hunstarted hunmarked hwork
  admits k d hd hhands steps hline := by
    refine ⟨(accounted b hm.orderly hmax).admits k d hd hhands steps hline,
      ⟨fun s hs => ⟨?_, fun _ => ?_⟩, hm.orderly.tally k d hd steps hline⟩,
      hm.paced k d hd steps hline⟩
    · exact Step.isWork_of_isOpening (hm.orderly.opening k d hd steps hline s hs)
    · exact ⟨d.2, hm.orderly.own k d hd steps hline s hs, k, rfl, Benchmark.isTaskOf_of_mem hd⟩
  current {k rest own w} _ h := (accounted b hm.orderly hmax).current (hm.rows k) h.1
  opens {k w} _ h hidle := (accounted b hm.orderly hmax).opens (hm.rows k) h.1 hidle
  closes {k w} _ h hc := by
    refine ⟨(accounted b hm.orderly hmax).closes (hm.rows k) h.1 hc, ?_⟩
    have hengaged := Conduct.engaged_of_busy (hm.rows k) h.1
    exact Ledger.unstarted_of_started h.2.1
      (Regime.isStart_of_paced h.2.2 (Ledger.exact_of_released hengaged hc).2.2.1)

end Punctual

section Begun

variable {σ : Type} {b : Benchmark σ} {m : Conduct} {ctx : Context} {known : Nat → σ → Prop}
variable {hm : m.Punctual b ctx} {hmax : ctx.config.rows.toNat ≤ 2 ^ 32 - 1}

theorem Rounds.punctual_fresh (now pace : Nat) :
    ((Rounds.punctual b hm hmax).idle 0).inv 0 [] ({ now, pace } : World) := by
  refine ⟨Ledger.quiet_fresh ctx.id now pace, nofun, fun later e earlier h => ?_, rfl⟩
  cases later <;> cases h

/-- In an iteration nobody else has won a start, and its reset was the last one. -/
theorem Rounds.startsOwned_of_busy {k : Nat} {rest : Multiset Duty} {own : List Step} {w : World}
    (h : ((Rounds.punctual b hm hmax).busy k).inv rest own w) :
    w.StartsOwned ctx ∧ Entry.resets ctx.id w.journal = k + 1 :=
  h.2.1.2.1

/-- When the wait of an iteration is over, one of its tasks has won the claim of the start, and
the start mark is the one that it set. -/
theorem Rounds.begun_of_done {k : Nat} {w : World} (hrows : 0 < ctx.config.rows.toNat)
    (h : ((Rounds.punctual b hm hmax).done k).inv 0 [] w) :
    w.Begun ctx k (w.countdown ctx.id).watch.startMark := by
  obtain ⟨⟨hbusy, ⟨-, ⟨howned, hresets⟩, hmark, hclaims⟩, -, -, hbegun⟩, ⟨hquiet, -⟩, -⟩ := h
  have hbalance := (Conduct.engaged_of_busy (hm.rows k) hbusy).1.balance
  rw [Step.tally_units_of_isQuiet hquiet, Multiset.map_zero, Multiset.sum_zero] at hbalance
  have hclaimed : w.Claimed ctx.id := hbegun.resolve_right fun hsub => by
    simp only [World.subtracted, World.sinceReset] at hsub
    omega
  obtain ⟨mark, hsome⟩ := Option.isSome_iff_exists.1 (hclaims hclaimed)
  obtain ⟨e, he, hwon⟩ := List.exists_of_findSome?_eq_some hsome
  obtain ⟨s, hevent, hs⟩ := Entry.wonStart?_eq_some.1 hwon
  obtain ⟨t, ht, k', hk, htask⟩ := howned.sinceReset he hevent hs
  obtain rfl : k' = k := by omega
  rw [hmark, hsome]
  exact ⟨e, he, s, t, hevent, hs, ht, htask⟩

namespace Benchmark

/-- The measurement of an iteration with the given marks. -/
def measured (b : Benchmark σ) (ctx : Context) (loop : UInt32) (watch : Stopwatch) : Measurement :=
  let (total, average) := watch.totalsMillis ctx.config.threads
  .ofConfig b.name loop ctx.config total average

variable {k : Nat} {tasks : TaskId} {course : List Event}

/-- The start that a report reads was claimed by a task of its iteration. -/
theorem ends_report_begun (hrows : 0 < ctx.config.rows.toNat) (loop : UInt32) :
    Run.Ends (Stage ((Rounds.punctual b hm hmax).done k) known 0 [] tasks course)
      (b.report ctx loop) fun x w _ => ∃ mark endMark, w.Begun ctx k mark ∧
        x = b.measured ctx loop { startMark := mark, endMark } := by
  apply ends_report_of_readOut
  -- the entry of the claim that set the mark stays where it is until the report is done
  refine Run.Ends.bind (Q := fun mark w target => ∃ e, (∃ s t, e.event = .performed s true ∧
      s.on? ctx.id = some (.claimStart mark) ∧ s.task = some t ∧ ctx.config.isTaskOf k t) ∧
    Stage ((Ledger.kept ctx.id e).regime m.notified) known 0 [] tasks course w target)
    (.look Stage.stable fun w target h => ?_) fun mark => Run.Ends.ex fun e =>
      Run.Ends.lift fun he => ?_
  · obtain ⟨e, he, hwon⟩ := Rounds.begun_of_done hrows h.inv
    exact ⟨e, hwon, ⟨fun s hs => (h.inv.1.2.1.1 s hs).1, he⟩, h.known, h.sound, h.tasks, h.course⟩
  · refine (Stage.ends_look _).bind fun endMark => Run.Ends.bind (.note Stage.stable
      (Q := fun _ w _ => w.Begun ctx k mark) fun w target h => ?_) fun _ =>
        .pure fun w target h => ⟨mark, endMark, h, rfl⟩
    exact ⟨e, (h.note (.printed _) rfl).inv.2, he⟩

/-- An iteration that ends well is timed from a start that one of its own tasks claimed. -/
theorem ends_iterate_begun (hb : b.Follows m ctx known) (hrows : 0 < ctx.config.rows.toNat)
    (loop : UInt32) :
    Run.Ends
      (Stage ((Rounds.punctual b hm hmax).idle k) known 0 [] (k * ctx.config.threads.toNat) course)
      (b.iterate ctx loop) fun outcome w target =>
        (∃ rest n course', Stage ((Rounds.punctual b hm hmax).busy k) known rest [] n course' w
          target) ∧
        ∀ x, outcome = .ok x → ∃ mark endMark, w.Begun ctx k mark ∧
          x = b.measured ctx loop { startMark := mark, endMark } := by
  -- the wait is over only once a row was subtracted, which a claim of the start comes before
  have hbegun : Run.Ends
      (Stage ((Rounds.punctual b hm hmax).idle k) known 0 [] (k * ctx.config.threads.toNat) course)
      (b.iterate ctx loop) fun outcome w _ => ∀ x, outcome = .ok x →
        ∃ mark endMark, w.Begun ctx k mark ∧
          x = b.measured ctx loop { startMark := mark, endMark } := by
    refine (ends_iterate_of_report hb _ (fun _ => trivial)
      (ends_report_begun hrows loop)).post ?_
    rintro outcome w target ⟨-, ⟨x, rfl, hx⟩ | ⟨hne, -⟩⟩
    · rintro _ ⟨rfl⟩
      exact hx
    · rintro x rfl
      exact absurd rfl hne
  refine ((ends_iterate hb _ (fun _ => trivial) loop).and hbegun).mono (fun _ _ h => ⟨h, h⟩)
    fun outcome w target h => ⟨?_, h.2⟩
  obtain ⟨⟨-, ⟨total, average, -, h⟩ | ⟨-, left, n, h⟩⟩, -⟩ := h
  · exact ⟨_, _, _, h.inv.1, h.known, h.sound, h.tasks, h.course⟩
  · exact ⟨_, _, _, h⟩

/-! ### Whole runs -/

/-- Every iteration is timed from a start of its own: after any number of earlier iterations that
went well, and whatever the schedule is,

* from its reset on, nobody but its own tasks wins the start, however late other tasks are;
* it comes to its end, and if it ends well then the start that its measurement is reckoned
  from was won by one of its own tasks, since its reset. -/
def OwnsStarts (b : Benchmark σ) (config : Config) (target : σ) : Prop :=
  ∀ (id : ContextId) (drawn : UInt64) (now pace : Nat) (schedule : Schedule)
    (s₁ s₂ : Session σ) (k : Nat) (results : List Measurement),
    let ctx := Context.ofConfig id config drawn
    b.init ctx ⟨{ now, pace }, schedule, target⟩ = .ok (.ok ()) s₁ →
    b.iterateFrom ctx 1 k s₁ = .ok (.ok results) s₂ → ∀ loop : UInt32,
    (∀ latch s₃, arm ctx loop s₂ = .ok latch s₃ →
      ∀ turns, (s₃.world.burst turns).StartsOwned ctx) ∧
    ∃ outcome s₃, b.iterate ctx loop s₂ = .ok outcome s₃ ∧
      Entry.resets ctx.id s₃.world.journal = k + 1 ∧
      (∀ turns, (s₃.world.burst turns).StartsOwned ctx) ∧
      ∀ x, outcome = .ok x → ∃ mark endMark, s₃.world.Begun ctx k mark ∧
        x = b.measured ctx loop { startMark := mark, endMark }

/-- A benchmark with punctual tasks owns its starts. -/
theorem ownsStarts_of_punctual {config : Config} {target : σ} (m : Context → Conduct)
    (hvalid : config.fault? = none) (hrows : 0 < config.rows.toNat)
    (hb : ∀ ctx, b.Follows (m ctx) ctx known)
    (hm : ∀ id drawn, (m (.ofConfig id config drawn)).Punctual b (.ofConfig id config drawn))
    (hinit : ∀ id drawn, b.Readies (.ofConfig id config drawn) known target) :
    b.OwnsStarts config target := by
  intro id drawn now pace schedule s₁ s₂ k results ctx hbegin hearlier loop
  have hmax : ctx.config.rows.toNat ≤ 2 ^ 32 - 1 := (config.fault?_eq_none_iff.1 hvalid).2
  let rounds := Rounds.punctual b (hm id drawn) hmax
  obtain ⟨course, hstage⟩ := stage_of_iterateFrom (hb ctx) rounds (fun _ => trivial)
    (hinit id drawn) ((Ledger.storeless _ _).both (Ledger.storeless _ _))
    (Rounds.punctual_fresh now pace) hbegin hearlier
  refine ⟨fun latch s₃ harm turns => ?_, ?_⟩
  · have harmed := ((ends_arm rounds k loop).of_eq hstage harm).2
    exact (Rounds.startsOwned_of_busy (Stage.stable.burst harmed turns).inv).1
  · obtain ⟨outcome, s₃, hrun, ⟨rest, n, course', hbusy⟩, hbegun⟩ :=
      ends_iterate_begun (hb ctx) hrows loop s₂ hstage
    refine ⟨outcome, s₃, hrun, (Rounds.startsOwned_of_busy hbusy.inv).2, fun turns => ?_, hbegun⟩
    exact (Rounds.startsOwned_of_busy (Stage.stable.burst hbusy turns).inv).1

end Benchmark

end Begun

end BenchLoop
