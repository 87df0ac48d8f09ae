/-
BenchLoop/Proofs/Loop/Rounds.lean

The loop over iterations, for any benchmark that follows a conduct.

`Rounds` says what holds before each iteration and during it, and how the one leads to
the other: a reset leads into the iteration, a released latch out of it again, and when
every thread has come to its end the latch has been released.  So no wait is hopeless,
and the loop ends as the conduct says, whatever the schedule is:

* `ends_engage`: one iteration up to the end of its wait;
* `ends_iterate_of_report`: a whole iteration, its last part being a report of any kind;
* `ends_iterate`, `ends_iterateFrom`: whole iterations, with the hooks that they call;
* `stage_of_iterateFrom`: where iterations that went well leave the next one to begin.
-/
import BenchLoop.Proofs.Loop.Conduct

namespace BenchLoop

open CountdownAction

variable {σ : Type}

/-- The duties of iteration number `k`, counted from 0. -/
def Benchmark.duties (b : Benchmark σ) (c : Config) (k : Nat) : List Duty :=
  b.dutiesFrom c (k * c.threads.toNat)

/-- What holds before and during the iterations of a benchmark, counted from 0.  Only of a
`regular` one is it known that it comes to its end. -/
structure Rounds (b : Benchmark σ) (m : Conduct) (ctx : Context) where
  regular : Nat → Prop
  idle : Nat → Regime
  busy : Nat → Regime
  arm (k : Nat) : Run.Ends (fun w (_ : σ) => (idle k).inv 0 [] w)
    (Run.perform (ctx.reset ctx.config.rows))
    fun _ w _ => (busy k).inv (b.duties ctx.config k) [] w
  admits (k : Nat) : ∀ d ∈ b.duties ctx.config k, m.Hands ctx.config (b.duties ctx.config k) d →
    ∀ steps, m.line d steps → (busy k).admits d steps
  current {k rest own w} : regular k → (busy k).inv rest own w →
    (w.countdown ctx.id).current = k + 1
  opens {k w} : regular k → (busy k).inv 0 [] w → (∀ i, w.isIdle i = true) →
    (w.countdown ctx.id).isComplete = true
  closes {k w} : regular k → (busy k).inv 0 [] w → (w.countdown ctx.id).isComplete = true →
    (idle (k + 1)).inv 0 [] w

/-- What holds when the wait of an iteration is over. -/
def Rounds.done {b : Benchmark σ} {m : Conduct} {ctx : Context} (rounds : Rounds b m ctx)
    (k : Nat) : Regime :=
  (rounds.busy k).both (rounds.idle (k + 1))

namespace Conduct

/-- How iteration number `k` ends, but for its measurement. -/
def iterating (m : Conduct) (b : Benchmark σ) (c : Config) (k : Nat) : Outcome HarnessError Unit :=
  m.dispatching c (b.duties c k)

/-- The course of iteration number `k`, which goes by the number `loop`. -/
def iterationCourse (m : Conduct) (b : Benchmark σ) (c : Config) (k : Nat) (loop : UInt32) :
    List Event :=
  m.dispatchCourse c (b.duties c k) ++
    match m.iterating b c k with
    | .ok () => .released loop :: m.stops (b.duties c k)
    | _ => []

theorem iterationCourse_of_ok {m : Conduct} {b : Benchmark σ} {c : Config} {k : Nat}
    (h : m.iterating b c k = .ok ()) (loop : UInt32) :
    m.iterationCourse b c k loop
      = m.dispatchCourse c (b.duties c k) ++ .released loop :: m.stops (b.duties c k) := by
  simp only [iterationCourse, h]

theorem iterationCourse_of_ne_ok {m : Conduct} {b : Benchmark σ} {c : Config} {k : Nat}
    (h : m.iterating b c k ≠ .ok ()) (loop : UInt32) :
    m.iterationCourse b c k loop = m.dispatchCourse c (b.duties c k) := by
  unfold iterationCourse
  split
  · next hok => exact absurd hok h
  · exact List.append_nil _

/-- How `count` iterations from number `k` on end. -/
def looping (m : Conduct) (b : Benchmark σ) (c : Config) (k : Nat) :
    (count : Nat) → Outcome HarnessError Unit
  | 0 => .ok ()
  | count + 1 =>
    match m.iterating b c k with
    | .ok () => looping m b c (k + 1) count
    | other => other

/-- Their course, the first of them going by the number `loop`. -/
def loopCourse (m : Conduct) (b : Benchmark σ) (c : Config) (k : Nat) (loop : UInt32) :
    (count : Nat) → List Event
  | 0 => []
  | count + 1 =>
    m.iterationCourse b c k loop ++
      match m.iterating b c k with
      | .ok () => loopCourse m b c (k + 1) (loop + 1) count
      | _ => []

/-- Of `count` iterations from number `first` on, number `k` is the first one that does not
end well. -/
structure Breaks (m : Conduct) (b : Benchmark σ) (c : Config) (first count k : Nat) : Prop where
  le : first ≤ k
  lt : k < first + count
  before : ∀ j, first ≤ j → j < k → m.iterating b c j = .ok ()
  broken : m.iterating b c k ≠ .ok ()

theorem Breaks.self {m : Conduct} {b : Benchmark σ} {c : Config} {k count : Nat}
    (h : m.iterating b c k ≠ .ok ()) : m.Breaks b c k (count + 1) k :=
  ⟨le_refl k, by omega, fun _ hle hlt => absurd hlt (Nat.not_lt.2 hle), h⟩

theorem Breaks.of_succ {m : Conduct} {b : Benchmark σ} {c : Config} {first count k : Nat}
    (hfirst : m.iterating b c first = .ok ()) (h : m.Breaks b c (first + 1) count k) :
    m.Breaks b c first (count + 1) k where
  le := (Nat.le_succ first).trans h.le
  lt := by have := h.lt; omega
  before j hle hlt := by
    rcases Nat.eq_or_lt_of_le hle with rfl | hlt'
    · exact hfirst
    · exact h.before j hlt' hlt
  broken := h.broken

end Conduct

namespace Rounds

variable {b : Benchmark σ} {m : Conduct} {ctx : Context}

/-- What holds once `count` iterations from number `first` on have come to their end. -/
def Leaves (rounds : Rounds b m ctx) (first count : Nat) (r : Regime) : Prop :=
  (m.looping b ctx.config first count = .ok () ∧ r = rounds.idle (first + count)) ∨
    ∃ k, m.Breaks b ctx.config first count k ∧ r = rounds.busy k

/-- More that holds before and during the iterations. -/
structure Extra (rounds : Rounds b m ctx) where
  idle : Nat → Regime
  busy : Nat → Regime
  arm (k : Nat) : Run.Ends (fun w (_ : σ) => (idle k).inv 0 [] w)
    (Run.perform (ctx.reset ctx.config.rows))
    fun _ w _ => (busy k).inv (b.duties ctx.config k) [] w
  admits (k : Nat) : ∀ d ∈ b.duties ctx.config k, m.Hands ctx.config (b.duties ctx.config k) d →
    ∀ steps, m.line d steps → (busy k).admits d steps
  closes {k w} : rounds.regular k → (rounds.busy k).inv 0 [] w → (busy k).inv 0 [] w →
    (w.countdown ctx.id).isComplete = true → (idle (k + 1)).inv 0 [] w

/-- Rounds of which more is known. -/
def extend (rounds : Rounds b m ctx) (more : rounds.Extra) : Rounds b m ctx where
  regular := rounds.regular
  idle k := (rounds.idle k).both (more.idle k)
  busy k := (rounds.busy k).both (more.busy k)
  arm k := (rounds.arm k).and (more.arm k)
  admits k d hd hands steps hline :=
    ⟨rounds.admits k d hd hands steps hline, more.admits k d hd hands steps hline⟩
  current hk h := rounds.current hk h.1
  opens hk h := rounds.opens hk h.1
  closes hk h hc := ⟨rounds.closes hk h.1 hc, more.closes hk h.1 h.2 hc⟩

end Rounds

variable {b : Benchmark σ} {m : Conduct} {ctx : Context} {known : Nat → σ → Prop}
variable {rounds : Rounds b m ctx} {course : List Event}

theorem Context.isCrash_of_mem_reset {rows : UInt64} {s : Step} (h : s ∈ ctx.reset rows) :
    s.isCrash = false := by
  obtain ⟨a, -, rfl⟩ := List.mem_map.1 h
  rfl

namespace Benchmark

/-- Arming the countdown leads into the iteration. -/
theorem ends_arm (rounds : Rounds b m ctx) (k : Nat) (loop : UInt32) {tasks : TaskId} :
    Run.Ends (Stage (rounds.idle k) known 0 [] tasks course) (arm ctx loop) fun latch w target =>
      (rounds.regular k → latch = k + 1) ∧
        Stage (rounds.busy k) known (b.duties ctx.config k) [] tasks course w target := by
  refine (Stage.ends_log _ _).bind fun _ => Run.Ends.bind
    (Q := fun _ => Stage (rounds.busy k) known (b.duties ctx.config k) [] tasks course) ?_
    fun _ => ?_
  · exact Stage.ends_exchange (fun _ => Context.isCrash_of_mem_reset) (rounds.arm k)
  · exact .look Stage.stable fun w target h => ⟨fun hk => rounds.current hk h.inv, h⟩

/-- Where the ranges of an iteration cannot be made it ends in a panic before anything is handed
out. -/
theorem ends_engage_of_fault {r : Regime} {tasks : TaskId} {fault : PartitionFault}
    (hfault : PartitionFault.ofThreads? ctx.config.threads = some fault)
    (hreset : Run.Ends (fun w (_ : σ) => r.inv 0 [] w) (Run.perform (ctx.reset ctx.config.rows))
      fun _ w _ => r.inv 0 [] w) (loop : UInt32) :
    Run.Ends (Stage r known 0 [] tasks course) (b.engage ctx loop) fun outcome w target =>
      outcome = .panicked fault.payload ∧ Stage r known 0 [] tasks course w target := by
  have harm : Run.Ends (Stage r known 0 [] tasks course) (arm ctx loop)
      fun _ => Stage r known 0 [] tasks course :=
    (Stage.ends_log _ _).bind fun _ =>
      (Stage.ends_exchange (fun _ => Context.isCrash_of_mem_reset) hreset).bind fun _ =>
        Stage.ends_look _
  refine harm.bind fun latch => ?_
  simp only [dispatch, taskRanges?, hfault]
  exact .pure fun w target h => ⟨rfl, h⟩

/-- The wait of an iteration ends, and what it leaves is ready for the next one. -/
theorem ends_await (rounds : Rounds b m ctx) {k : Nat} (hk : rounds.regular k) (loop : UInt32)
    {tasks : TaskId} :
    Run.Ends (Stage (rounds.busy k) known 0 [] tasks course) (await ctx loop (k + 1))
      fun _ => Stage (rounds.done k) known 0 [] tasks (course ++ [.released loop]) := by
  have hreleased (w : World) (target : σ)
      (h : Stage (rounds.busy k) known 0 [] tasks course w target) :
      ctx.isReleased (k + 1) w = (w.countdown ctx.id).isComplete := by
    rw [Context.isReleased, Countdown.isComplete, rounds.current hk h.inv]
  refine (Stage.ends_log _ _).bind fun _ => Run.Ends.bind (Run.Ends.waitUntil Stage.stable
    fun w target h hidle => ?_) fun _ => ?_
  · rw [hreleased w target h]
    exact rounds.opens hk h.inv hidle
  · refine (Stage.ends_note rfl).pre fun w target h => ?_
    · obtain ⟨h, hc⟩ := h
      rw [hreleased w target h] at hc
      exact ⟨⟨h.inv, rounds.closes hk h.inv hc⟩, h.known, h.sound, h.tasks, h.course⟩

/-- An iteration comes to the end of its wait if its tasks could be built and started. -/
theorem ends_engage (hb : b.Follows m ctx known) (rounds : Rounds b m ctx) {k : Nat}
    (hk : m.iterating b ctx.config k = .ok () → rounds.regular k) (loop : UInt32) :
    Run.Ends
      (Stage (rounds.idle k) known 0 [] (k * ctx.config.threads.toNat) course)
      (b.engage ctx loop) fun outcome w target =>
        outcome.void = m.iterating b ctx.config k ∧
        ((∃ ts, outcome = .ok ts ∧ List.Forall₂ (Built m ctx known) (b.duties ctx.config k) ts ∧
            Stage (rounds.done k) known 0 [] ((k + 1) * ctx.config.threads.toNat)
              (course ++ m.dispatchCourse ctx.config (b.duties ctx.config k) ++ [.released loop])
              w target) ∨
          outcome.void ≠ .ok () ∧ ∃ left n, Stage (rounds.busy k) known left [] n
              (course ++ m.dispatchCourse ctx.config (b.duties ctx.config k)) w target) := by
  refine (ends_arm rounds k loop).bind fun latch => Run.Ends.lift fun hlatch => ?_
  refine (ends_dispatch hb (rounds.admits k)).bind fun outcome => Run.Ends.lift fun hvoid =>
    Run.Ends.ex fun left => Run.Ends.ex fun n => Run.Ends.lift fun hok => ?_
  cases outcome with
  | failed e => exact .pure fun w target h => ⟨hvoid, .inr ⟨nofun, left, n, h⟩⟩
  | panicked p => exact .pure fun w target h => ⟨hvoid, .inr ⟨nofun, left, n, h⟩⟩
  | ok ts =>
    obtain ⟨rfl, rfl, hts⟩ := hok ts rfl
    have hk := hk hvoid.symm
    rw [hlatch hk]
    refine (ends_await rounds hk loop).bind fun _ => .pure fun w target h => ?_
    rw [Nat.succ_mul]
    exact ⟨hvoid, .inl ⟨ts, rfl, hts, h⟩⟩

theorem ends_teardown {r : Regime} {rest : Multiset Duty} {tasks : TaskId} {duties : List Duty}
    {ts : List (RowTask σ)} (hts : List.Forall₂ (Built m ctx known) duties ts) (loop : UInt32) :
    Run.Ends (Stage r known rest [] tasks course) (teardown loop ts)
      fun _ => Stage r known rest [] tasks (course ++ m.stops duties) := by
  refine (RowTask.ends_teardownAll hts).bind fun failed => ?_
  split
  · exact Stage.ends_log _ _
  · exact .pure fun _ _ h => h

/-- The last part of a report: the marks are read and the result line is printed. -/
def readOut (b : Benchmark σ) (ctx : Context) (loop : UInt32) : Run σ Measurement := do
  let startMark ← Run.look fun w => (w.countdown ctx.id).watch.startMark
  let endMark ← Run.look fun w => (w.countdown ctx.id).watch.endMark
  let (total, average) := Stopwatch.totalsMillis { startMark, endMark } ctx.config.threads
  let measurement := Measurement.ofConfig b.name loop ctx.config total average
  Run.note (.printed (measurement.render ctx.config.format))
  return measurement

theorem report_eq (b : Benchmark σ) (ctx : Context) (loop : UInt32) :
    b.report ctx loop = (do
      let started ← Run.look fun w => (w.countdown ctx.id).watch.isStarted
      if 0 < ctx.config.rows && !started then
        Run.log .warn s!"loop {loop}: no task recorded a start time; reporting 0 ms"
      b.readOut ctx loop) := rfl

/-- The warning before it says nothing about the last part of a report. -/
theorem ends_report_of_readOut {r : Regime} {rest : Multiset Duty} {tasks : TaskId}
    {loop : UInt32} {Q : Measurement → World → σ → Prop}
    (h : Run.Ends (Stage r known rest [] tasks course) (b.readOut ctx loop) Q) :
    Run.Ends (Stage r known rest [] tasks course) (b.report ctx loop) Q := by
  rw [report_eq]
  refine (Stage.ends_look _).bind fun started => ?_
  split
  · exact (Stage.ends_log _ _).bind fun _ => h
  · exact h

/-- A report changes nothing that is known, and gives the measurement of its iteration. -/
theorem ends_report {r : Regime} {rest : Multiset Duty} {tasks : TaskId} (loop : UInt32) :
    Run.Ends (Stage r known rest [] tasks course) (b.report ctx loop) fun x w target =>
      (∃ total average, x = Measurement.ofConfig b.name loop ctx.config total average) ∧
        Stage r known rest [] tasks course w target := by
  apply ends_report_of_readOut
  refine (Stage.ends_look _).bind fun startMark => (Stage.ends_look _).bind fun endMark => ?_
  refine Run.Ends.bind (Q := fun _ => Stage r known rest [] tasks course)
    (.note Stage.stable fun w target h => ?_) fun _ => .pure fun w target h => ⟨⟨_, _, rfl⟩, h⟩
  simpa [Event.marks] using h.note (.printed _) rfl

/-- A whole iteration ends as the conduct says, and if it ends well then its last part is a
report. -/
theorem ends_iterate_of_report (hb : b.Follows m ctx known) (rounds : Rounds b m ctx) {k : Nat}
    (hk : m.iterating b ctx.config k = .ok () → rounds.regular k) {loop : UInt32}
    {R : Measurement → World → σ → Prop}
    (hreport : Run.Ends
      (Stage (rounds.done k) known 0 [] ((k + 1) * ctx.config.threads.toNat)
        (course ++ m.dispatchCourse ctx.config (b.duties ctx.config k) ++ [.released loop]
          ++ m.stops (b.duties ctx.config k))) (b.report ctx loop) R) :
    Run.Ends
      (Stage (rounds.idle k) known 0 [] (k * ctx.config.threads.toNat) course)
      (b.iterate ctx loop) fun outcome w target =>
        outcome.void = m.iterating b ctx.config k ∧
        ((∃ x, outcome = .ok x ∧ R x w target) ∨
          outcome.void ≠ .ok () ∧ ∃ left n, Stage (rounds.busy k) known left [] n
              (course ++ m.iterationCourse b ctx.config k loop) w target) := by
  refine (ends_engage hb rounds hk loop).bind fun outcome => Run.Ends.lift fun hvoid => ?_
  cases outcome with
  | failed e | panicked p =>
    have hne : m.iterating b ctx.config k ≠ .ok () := hvoid ▸ nofun
    rw [Conduct.iterationCourse_of_ne_ok hne]
    refine .pure fun w target h => ⟨hvoid, .inr ⟨nofun, ?_⟩⟩
    obtain ⟨ts, hts, -⟩ | ⟨-, h⟩ := h
    · cases hts
    · exact h
  | ok ts =>
    -- the wait is over, and all tasks that are torn down have been built as the conduct says
    refine Run.Ends.pre (P := fun w target =>
      List.Forall₂ (Built m ctx known) (b.duties ctx.config k) ts ∧
        Stage (rounds.done k) known 0 [] ((k + 1) * ctx.config.threads.toNat)
          (course ++ m.dispatchCourse ctx.config (b.duties ctx.config k) ++ [.released loop]) w
          target) ?_ ?_
    · exact Run.Ends.lift fun hts => (ends_teardown hts loop).bind fun _ =>
        hreport.bind fun x => .pure fun w target h => ⟨hvoid, .inl ⟨x, rfl, h⟩⟩
    · rintro w target (⟨ts', ⟨rfl⟩, hts, h⟩ | ⟨hne, -⟩)
      · exact ⟨hts, h⟩
      · exact absurd rfl hne

/-- The measurement of an iteration carries the number of the iteration and what was configured. -/
theorem ends_iterate (hb : b.Follows m ctx known) (rounds : Rounds b m ctx) {k : Nat}
    (hk : m.iterating b ctx.config k = .ok () → rounds.regular k) (loop : UInt32) :
    Run.Ends
      (Stage (rounds.idle k) known 0 [] (k * ctx.config.threads.toNat) course)
      (b.iterate ctx loop) fun outcome w target =>
        outcome.void = m.iterating b ctx.config k ∧
        ((∃ total average, outcome
              = .ok (Measurement.ofConfig b.name loop ctx.config total average) ∧
            Stage (rounds.done k) known 0 [] ((k + 1) * ctx.config.threads.toNat)
              (course ++ m.iterationCourse b ctx.config k loop) w target) ∨
          outcome.void ≠ .ok () ∧ ∃ left n, Stage (rounds.busy k) known left [] n
              (course ++ m.iterationCourse b ctx.config k loop) w target) := by
  refine (ends_iterate_of_report hb rounds hk (ends_report loop)).post ?_
  rintro outcome w target ⟨hvoid, ⟨x, rfl, ⟨total, average, rfl⟩, h⟩ | hfailed⟩
  · refine ⟨hvoid, .inl ⟨total, average, rfl, ?_⟩⟩
    rw [Conduct.iterationCourse_of_ok hvoid.symm]
    rwa [List.append_assoc, List.append_assoc] at h
  · exact ⟨hvoid, .inr hfailed⟩

/-- **The loop ends as the conduct says**, whatever the schedule is, with one measurement for
each iteration, in order. -/
theorem ends_iterateFrom (hb : b.Follows m ctx known) (rounds : Rounds b m ctx) {first count : Nat}
    (hregular : ∀ k, first ≤ k → k < first + count → m.iterating b ctx.config k = .ok () →
      rounds.regular k) (loop : UInt32) :
    Run.Ends
      (Stage (rounds.idle first) known 0 [] (first * ctx.config.threads.toNat) course)
      (b.iterateFrom ctx loop count) fun outcome w target =>
        outcome.void = m.looping b ctx.config first count ∧
        ((∃ results, outcome = .ok results ∧
            results.map (·.loop) = List.iterate (· + 1) loop count ∧
            Stage (rounds.idle (first + count)) known 0 []
              ((first + count) * ctx.config.threads.toNat)
              (course ++ m.loopCourse b ctx.config first loop count) w target) ∨
          outcome.void ≠ .ok () ∧ ∃ k, m.Breaks b ctx.config first count k ∧ ∃ left n,
            Stage (rounds.busy k) known left [] n
              (course ++ m.loopCourse b ctx.config first loop count) w target) := by
  induction count generalizing first loop course with
  | zero =>
    refine .pure fun w target h => ⟨rfl, .inl ⟨[], rfl, rfl, ?_⟩⟩
    simpa [Conduct.loopCourse] using h
  | succ count ih =>
    have hfirst := hregular first (le_refl _) (by omega)
    refine (ends_iterate hb rounds hfirst loop).bind fun outcome => Run.Ends.lift fun hvoid => ?_
    simp only [Conduct.looping, Conduct.loopCourse, ← hvoid]
    cases outcome with
    | failed e =>
      -- the loop logs the error and stops, in the middle of the books of this iteration
      have hbreaks : m.Breaks b ctx.config first (count + 1) first := .self (hvoid ▸ nofun)
      refine Run.Ends.pre (P := fun w target => ∃ left n, Stage (rounds.busy first) known left [] n
        (course ++ m.iterationCourse b ctx.config first loop) w target) ?_ ?_
      · refine Run.Ends.ex fun left => Run.Ends.ex fun n => (Stage.ends_log _ _).bind fun _ =>
          .pure fun w target h => ⟨rfl, .inr ⟨nofun, first, hbreaks, left, n, ?_⟩⟩
        simpa [Outcome.void, Outcome.map] using h
      · rintro w target (⟨total, average, hx, -⟩ | ⟨-, h⟩)
        · cases hx
        · exact h
    | panicked p =>
      have hbreaks : m.Breaks b ctx.config first (count + 1) first := .self (hvoid ▸ nofun)
      refine .pure fun w target h => ⟨rfl, .inr ⟨nofun, first, hbreaks, ?_⟩⟩
      obtain ⟨total, average, hx, -⟩ | ⟨-, h⟩ := h
      · cases hx
      · simpa [Outcome.void, Outcome.map] using h
    | ok x =>
      refine Run.Ends.pre (P := fun w target => x.loop = loop ∧ Stage (rounds.idle (first + 1))
        known 0 [] ((first + 1) * ctx.config.threads.toNat)
        (course ++ m.iterationCourse b ctx.config first loop) w target) ?_ ?_
      · refine Run.Ends.lift fun hloop => ?_
        have hregular' (k : Nat) (hle : first + 1 ≤ k) (hlt : k < first + 1 + count) :=
          hregular k (by omega) (by omega)
        refine (ih hregular' (loop + 1)).bind fun outcome => .pure fun w target h => ?_
        -- the results of the others follow, or the loop breaks at one of them
        obtain ⟨hvoid', h⟩ := h
        rw [show first + 1 + count = first + (count + 1) by omega, List.append_assoc] at h
        cases outcome with
        | ok results =>
          obtain ⟨results', ⟨rfl⟩, hloops, h⟩ | ⟨hne, -⟩ := h
          · exact ⟨hvoid', .inl ⟨x :: results, rfl, by simp [hloop, hloops], h⟩⟩
          · exact absurd rfl hne
        | failed e | panicked p =>
          obtain ⟨results', hx, -⟩ | ⟨-, k, hbreaks, h⟩ := h
          · cases hx
          · exact ⟨hvoid', .inr ⟨nofun, k, hbreaks.of_succ hvoid.symm, h⟩⟩
      · rintro w target (⟨total, average, ⟨rfl⟩, h⟩ | ⟨hne, -⟩)
        · exact ⟨rfl, h.inv.2, h.known, h.sound, h.tasks, h.course⟩
        · exact absurd rfl hne

/-- Once it has been initialised the benchmark can begin with its iterations: what is known of
the countdown and of the threads is known still. -/
def Readies (b : Benchmark σ) (ctx : Context) (known : Nat → σ → Prop) (target : σ) : Prop :=
  ∀ r : Regime, r.Storeless →
    Run.Ends (Stage r (fun _ t => t = target) 0 [] 0 []) (b.init ctx) fun outcome w t =>
      outcome = .ok () → ∃ course, Stage r known 0 [] 0 course w t

/-- After some iterations that went well the next one can begin. -/
theorem stage_of_iterateFrom (hb : b.Follows m ctx known) (rounds : Rounds b m ctx)
    (hregular : ∀ k, rounds.regular k) {target : σ} (hinit : b.Readies ctx known target)
    (hstoreless : (rounds.idle 0).Storeless) {now pace : Nat} {schedule : Schedule}
    (hfresh : (rounds.idle 0).inv 0 [] ({ now, pace } : World)) {s₁ s₂ : Session σ} {k : Nat}
    {results : List Measurement}
    (hbegin : b.init ctx ⟨{ now, pace }, schedule, target⟩ = .ok (.ok ()) s₁)
    (hearlier : b.iterateFrom ctx 1 k s₁ = .ok (.ok results) s₂) :
    ∃ course, Stage (rounds.idle k) known 0 [] (k * ctx.config.threads.toNat) course s₂.world
      s₂.target := by
  have hstage : Stage (rounds.idle 0) (fun _ t => t = target) 0 [] 0 []
      ({ now, pace } : World) target := .fresh hfresh rfl
  obtain ⟨course, hbegun⟩ := (hinit (rounds.idle 0) hstoreless).of_eq hstage hbegin rfl
  have hfirst : Stage (rounds.idle 0) known 0 [] (0 * ctx.config.threads.toNat) course s₁.world
      s₁.target := by
    rw [Nat.zero_mul]
    exact hbegun
  obtain ⟨-, ⟨results', -, -, hnext⟩ | ⟨hne, -⟩⟩ :=
    (ends_iterateFrom hb rounds (fun k _ _ _ => hregular k) 1).of_eq hfirst hearlier
  · rw [Nat.zero_add] at hnext
    exact ⟨_, hnext⟩
  · exact absurd rfl hne

end Benchmark

end BenchLoop
