/-
BenchLoop/Proofs/Loop/Lifecycle.lean

The life of a benchmark from its initialisation to its destruction.  Whatever hooks fail
or panic, and at whichever call:

* the benchmark is initialised first, and destroyed last if and only if that went well;
  in between only tasks are built and torn down;
* the error of the loop wins over that of destroying the benchmark, and the error of the
  loop is that of the first task that could not be built;
* a run that ends well has one result for each iteration, in order.

Besides the hooks only two things can stop a run, both with a panic: the ranges of an
iteration can be more than a list has room for, and the name of the benchmark can be
none for a thread.
-/
import BenchLoop.Proofs.Loop.Verdict
import BenchLoop.Proofs.Target.Scripted

namespace BenchLoop

/-- How a run ends once destroying the benchmark has ended, too. -/
def Outcome.after {α : Type} (loop : Outcome HarnessError α) (destroyed : HookOutcome Unit) :
    Outcome HarnessError α :=
  match loop, destroyed with
  | .panicked p, _ => .panicked p
  | _, .panicked p => .panicked p
  | .ok a, .ok () => .ok a
  | .ok _, .failed f => .failed (.destroy f)
  | .failed e, _ => .failed e

namespace Outcome

variable {α : Type} {loop : Outcome HarnessError α} {destroyed : HookOutcome Unit}

theorem after_eq_ok {a : α} (h : loop.after destroyed = .ok a) :
    loop = .ok a ∧ destroyed = .ok () := by
  cases loop <;> cases destroyed <;> cases h
  exact ⟨rfl, rfl⟩

theorem after_of_failed {e : HarnessError} (h : loop.void = .failed e) :
    loop.after destroyed = match destroyed with
      | .panicked p => .panicked p
      | _ => .failed e := by
  cases loop <;> cases h
  cases destroyed <;> rfl

theorem after_of_panicked {p : Payload} (h : loop.void = .panicked p) :
    loop.after destroyed = .panicked p := by
  cases loop <;> cases h
  rfl

end Outcome

/-- Whether a hook is one of those around a single task. -/
def HookCall.isOfTask : HookCall → Bool
  | .create _ | .stop _ => true
  | .init _ | .destroy => false

/-- Destroying a benchmark comes last, and ends its run. -/
theorem Benchmark.ends_conclude {σ : Type} {b : Benchmark σ} {P : World → σ → Prop}
    {Q : HookOutcome Unit → World → σ → Prop} (hdestroy : Run.Ends P b.destroy Q)
    (hlog : ∀ destroyed level message,
      Run.Ends (Q destroyed) (Run.log level message) fun _ => Q destroyed)
    (outcome : Outcome HarnessError (List Measurement)) :
    Run.Ends P (b.conclude outcome) fun out w target =>
      ∃ destroyed, out = outcome.after destroyed ∧ Q destroyed w target := by
  refine hdestroy.bind fun destroyed => ?_
  cases outcome <;> cases destroyed <;>
    first
    | exact .pure fun w target h => ⟨_, rfl, h⟩
    | exact (hlog _ _ _).bind fun _ => .pure fun w target h => ⟨_, rfl, h⟩

namespace Script

variable {s : Script} {ctx : Context}

/-! ### Hooks of tasks -/

/-- Whether some events call no hook but those around tasks. -/
def Within (course : List Event) : Prop := ∀ c ∈ course.flatMap Event.hooks, c.isOfTask = true

theorem within_append {course more : List Event} (h : Within course) (hmore : Within more) :
    Within (course ++ more) := by
  intro c hc
  rw [List.flatMap_append, List.mem_append] at hc
  exact hc.elim (h c) (hmore c)

theorem within_stops {duties : List Duty} : Within ((s.conduct ctx).stops duties) := by
  intro c hc
  obtain ⟨e, he, hc⟩ := List.mem_flatMap.1 hc
  obtain ⟨d, -, he⟩ := List.mem_flatMap.1 he
  simp only [conduct] at he
  split at he
  · obtain rfl := List.mem_singleton.1 he
    obtain rfl := List.mem_singleton.1 hc
    rfl
  · cases he

theorem within_buildCourse {built duties : List Duty} :
    Within ((s.conduct ctx).buildCourse built duties) := by
  induction duties generalizing built with
  | nil => exact nofun
  | cons d duties ih =>
    refine within_append (fun c hc => ?_) ?_
    · obtain rfl := List.mem_singleton.1 hc
      rfl
    · split
      · exact ih
      · exact within_stops
      · exact nofun

theorem within_iterationCourse {config : Config} {k : Nat} {loop : UInt32} :
    Within ((s.conduct ctx).iterationCourse s.benchmark config k loop) := by
  refine within_append ?_ ?_
  · unfold Conduct.dispatchCourse
    split
    · exact nofun
    · exact within_buildCourse
  · split
    · exact within_stops
    · exact nofun

theorem within_loopCourse {config : Config} {first count : Nat} {loop : UInt32} :
    Within ((s.conduct ctx).loopCourse s.benchmark config first loop count) := by
  induction count generalizing first loop with
  | zero => exact nofun
  | succ count ih =>
    refine within_append within_iterationCourse ?_
    split
    · exact ih
    · exact nofun

/-! ### The run -/

/-- How a run has ended and which course it has taken, in terms of how its loop ends. -/
def Ended (s : Script) (ctx : Context) (outcome : Outcome HarnessError (List Measurement))
    (w : World) : Prop :=
  (∃ pending, w.course = (if s.recordsHooks then [.called (.init pending)] else []) ++
    if s.init = .ok () then
      (s.conduct ctx).loopCourse s.benchmark ctx.config 0 1 ctx.config.loops.toNat ++
        if s.recordsHooks then [.called .destroy] else []
    else []) ∧
  match s.init with
  | .failed cause => outcome = .failed (.init cause) ∧ w.tasks = 0
  | .panicked p => outcome = .panicked p ∧ w.tasks = 0
  | .ok () => ∃ loop : Outcome HarnessError (List Measurement), outcome = loop.after s.destroy ∧
    loop.void = (s.conduct ctx).looping s.benchmark ctx.config 0 ctx.config.loops.toNat ∧
    ∀ results, loop = .ok results →
      results.map (·.loop) = List.iterate (· + 1) 1 ctx.config.loops.toNat

section Run

/-- How a run ends that has begun well, and what it leaves behind. -/
theorem ends_loop (rounds : Rounds s.benchmark (s.conduct ctx) ctx)
    (hregular : ∀ k < ctx.config.loops.toNat,
      (s.conduct ctx).iterating s.benchmark ctx.config k = .ok () → rounds.regular k)
    (hinit : s.init = .ok ()) (pending : Int) :
    Run.Ends (Stage (rounds.idle 0) (fun _ (_ : Unit) => True) 0 [] 0
        ([] ++ if s.recordsHooks then [.called (.init pending)] else []))
      (do s.benchmark.conclude (← s.benchmark.iterateFrom ctx 1 ctx.config.loops.toNat))
      fun outcome w _ => s.Ended ctx outcome w ∧
        ∃ r rest, rounds.Leaves 0 ctx.config.loops.toNat r ∧ r.inv rest [] w := by
  have hbefore (k : Nat) (_ : 0 ≤ k) (hk : k < 0 + ctx.config.loops.toNat) :=
    hregular k (by omega)
  refine Run.Ends.bind ((Benchmark.ends_iterateFrom (s.follows ctx) rounds hbefore 1).pre
    fun w target h => by simpa using h) fun loop => Run.Ends.lift fun hvoid => ?_
  -- destroying the benchmark adds its own part, whichever way the loop has ended
  have hend {r : Regime} {rest : Multiset Duty} {tasks : TaskId} {course : List Event}
      (hcourse : course = ([] ++ if s.recordsHooks then [.called (.init pending)] else []) ++
        (s.conduct ctx).loopCourse s.benchmark ctx.config 0 1 ctx.config.loops.toNat)
      (hloops : ∀ results, loop = .ok results →
        results.map (·.loop) = List.iterate (· + 1) 1 ctx.config.loops.toNat)
      (hleaves : rounds.Leaves 0 ctx.config.loops.toNat r) :
      Run.Ends (Stage r (fun _ (_ : Unit) => True) rest [] tasks course)
        (s.benchmark.conclude loop) fun outcome w _ => s.Ended ctx outcome w ∧
          ∃ r rest, rounds.Leaves 0 ctx.config.loops.toNat r ∧ r.inv rest [] w := by
    refine (Benchmark.ends_conclude ends_destroy (fun destroyed level message =>
      (Run.Ends.lift fun hdestroyed => (Stage.ends_log level message).post
        fun _ _ _ h => ⟨hdestroyed, h⟩)) loop).post fun outcome w target h => ?_
    obtain ⟨_, hout, rfl, h⟩ := h
    refine ⟨⟨⟨pending, ?_⟩, ?_⟩, r, rest, hleaves, h.inv⟩
    · rw [h.course, hcourse, hinit, if_pos rfl, List.nil_append, List.append_assoc]
    · simp only [hinit]
      exact ⟨loop, hout, hvoid, hloops⟩
  intro s₁ hs
  obtain ⟨results, rfl, hloops, hs⟩ | ⟨hne, k, hbreaks, left, n, hs⟩ := hs
  · exact hend rfl (by rintro _ ⟨rfl⟩; exact hloops) (.inl ⟨hvoid.symm, rfl⟩) s₁ hs
  · exact hend rfl (by rintro _ rfl; exact absurd rfl hne) (.inr ⟨k, hbreaks, rfl⟩) s₁ hs

/-- How a run ends, which course it takes and, if it begins well, what it leaves behind. -/
theorem ends_run (rounds : Rounds s.benchmark (s.conduct ctx) ctx)
    (hregular : ∀ k < ctx.config.loops.toNat,
      (s.conduct ctx).iterating s.benchmark ctx.config k = .ok () → rounds.regular k) :
    Run.Ends (Stage (rounds.idle 0) (fun _ (_ : Unit) => True) 0 [] 0 []) (s.benchmark.run ctx)
      fun outcome w _ => s.Ended ctx outcome w ∧ (s.init = .ok () →
        ∃ r rest, rounds.Leaves 0 ctx.config.loops.toNat r ∧ r.inv rest [] w) := by
  have hlive : Run.Ends (Stage (rounds.idle 0) (fun _ (_ : Unit) => True) 0 [] 0 []) (do
      match ← s.benchmark.init ctx with
      | .failed cause => return .failed (.init cause)
      | .panicked p => return .panicked p
      | .ok () => s.benchmark.conclude (← s.benchmark.iterateFrom ctx 1 ctx.config.loops.toNat))
      fun outcome w _ => s.Ended ctx outcome w ∧ (s.init = .ok () →
        ∃ r rest, rounds.Leaves 0 ctx.config.loops.toNat r ∧ r.inv rest [] w) := by
    refine ends_init.bind fun outcome => Run.Ends.lift ?_
    rintro rfl
    refine Run.Ends.ex fun pending => ?_
    cases hinit : s.init with
    | failed cause | panicked p =>
      exact .pure fun w target h => ⟨⟨⟨pending, by simpa [hinit] using h.course⟩,
        by simpa only [hinit, true_and] using h.tasks⟩, nofun⟩
    | ok u =>
      exact (ends_loop rounds hregular hinit pending).post fun _ _ _ h => ⟨h.1, fun _ => h.2⟩
  unfold Benchmark.run
  dsimp only
  split
  · exact (Stage.ends_log _ _).bind fun _ => hlive
  · exact hlive

end Run

/-! ### What that means -/

/-- The one call of `init` comes first; the one call of `destroy` comes last, and comes exactly
if `init` went well; in between there are only hooks of tasks, and no task was asked for
unless `init` went well. -/
def Bracketed (s : Script) (w : World) : Prop :=
  ∃ pending middle,
    w.calls = .init pending :: (middle ++ if s.init = .ok () then [.destroy] else []) ∧
    (∀ c ∈ middle, c.isOfTask = true) ∧ (s.init ≠ .ok () → middle = [] ∧ w.tasks = 0)

/-- Threads can be started under the names of the ranges, and there is room for these. -/
def Startable (s : Script) (config : Config) : Prop :=
  '\x00' ∉ s.name.toList ∧ PartitionFault.ofThreads? config.threads = none

/-- How a run ends, in terms of its hooks.  Tasks are numbered in the order in which they are
built. -/
structure Decided (s : Script) (config : Config)
    (outcome : Outcome HarnessError (List Measurement)) : Prop where
  init_failed : ∀ cause, s.init = .failed cause → outcome = .failed (.init cause)
  init_panicked : ∀ p, s.init = .panicked p → outcome = .panicked p
  /-- Results come from hooks that all went well, one for each iteration, in order. -/
  results : ∀ results, outcome = .ok results → s.init = .ok () ∧
    (∀ t < config.loops.toNat * config.threads.toNat, s.create t = .ok ()) ∧
    s.destroy = .ok () ∧
    results.map (·.loop.toNat) = List.range' 1 config.loops.toNat
  /-- If every task could be built, destroying the benchmark decides. -/
  built : s.Startable config → s.init = .ok () →
    (∀ t < config.loops.toNat * config.threads.toNat, s.create t = .ok ()) →
    match s.destroy with
    | .ok () => ∃ results, outcome = .ok results
    | .failed cause => outcome = .failed (.destroy cause)
    | .panicked p => outcome = .panicked p
  /-- The first task that fails to be built decides, unless destroying the benchmark panics. -/
  create_failed : s.Startable config → s.init = .ok () →
    ∀ t < config.loops.toNat * config.threads.toNat, (∀ i < t, s.create i = .ok ()) →
    ∀ cause, s.create t = .failed cause →
    ∃ range, (taskRanges s.name config.rows config.threads)[t % config.threads.toNat]?
        = some range ∧
      outcome = match s.destroy with
        | .panicked p => .panicked p
        | _ => .failed (.taskCreation range.start range.stop cause)
  /-- A panic while a task is built goes through, unless another one comes on top of it. -/
  create_panicked : s.Startable config → s.init = .ok () → (∀ p, s.destroy ≠ .panicked p) →
    ∀ t < config.loops.toNat * config.threads.toNat, (∀ i < t, s.create i = .ok ()) →
    ∀ p, s.create t = .panicked p → outcome = .panicked p

theorem bracketed_of_ended {outcome : Outcome HarnessError (List Measurement)} {w : World}
    (hrecords : s.recordsHooks = true) (h : s.Ended ctx outcome w) : s.Bracketed w := by
  obtain ⟨⟨pending, hcourse⟩, hinit⟩ := h
  rw [if_pos hrecords, if_pos hrecords] at hcourse
  refine ⟨pending, if s.init = .ok () then
    ((s.conduct ctx).loopCourse s.benchmark ctx.config 0 1 ctx.config.loops.toNat).flatMap
      Event.hooks else [], ?_, ?_, ?_⟩
  · rw [w.calls_eq, hcourse]
    split
    · simp [Event.hooks]
    · rfl
  · split
    · exact within_loopCourse
    · exact nofun
  · intro hne
    refine ⟨if_neg hne, ?_⟩
    cases hs : s.init with
    | ok u => exact absurd hs hne
    | failed cause | panicked p =>
      rw [hs] at hinit
      exact hinit.2

/-- Numbers of loops count up without wrapping. -/
theorem toNat_iterate {first : UInt32} {count : Nat} (h : first.toNat + count ≤ UInt32.size) :
    (List.iterate (· + 1) first count).map UInt32.toNat = List.range' first.toNat count := by
  induction count generalizing first with
  | zero => rfl
  | succ count ih =>
    rw [List.iterate, List.map_cons, List.range'_succ]
    rcases Nat.eq_zero_or_pos count with rfl | hcount
    · rfl
    · have hnext : (first + 1).toNat = first.toNat + 1 := by
        rw [UInt32.toNat_add, UInt32.toNat_one]
        exact Nat.mod_eq_of_lt (by have : UInt32.size = 2 ^ 32 := rfl; omega)
      rw [ih (by omega), hnext]

theorem Ended.loop {outcome : Outcome HarnessError (List Measurement)} {w : World}
    (h : s.Ended ctx outcome w) (hinit : s.init = .ok ()) :
    ∃ loop : Outcome HarnessError (List Measurement), outcome = loop.after s.destroy ∧
      loop.void = (s.conduct ctx).looping s.benchmark ctx.config 0 ctx.config.loops.toNat ∧
      ∀ results, loop = .ok results →
        results.map (·.loop) = List.iterate (· + 1) 1 ctx.config.loops.toNat := by
  have hloop := h.2
  rw [hinit] at hloop
  exact hloop

theorem Ended.results {outcome : Outcome HarnessError (List Measurement)} {w : World}
    (hthreads : 0 < ctx.config.threads.toNat) (h : s.Ended ctx outcome w)
    {results : List Measurement} (hout : outcome = .ok results) : s.init = .ok () ∧
    (∀ t < ctx.config.loops.toNat * ctx.config.threads.toNat, s.create t = .ok ()) ∧
    s.destroy = .ok () ∧
    results.map (·.loop.toNat) = List.range' 1 ctx.config.loops.toNat := by
  have hinit : s.init = .ok () := by
    have hloop := h.2
    rw [hout] at hloop
    split at hloop
    · cases hloop.1
    · cases hloop.1
    · assumption
  obtain ⟨loop, rfl, hvoid, hloops⟩ := h.loop hinit
  obtain ⟨rfl, hdestroy⟩ := Outcome.after_eq_ok hout
  refine ⟨hinit, fun t ht => Conduct.outcome_of_looping hthreads hvoid.symm ht, hdestroy, ?_⟩
  have hcount := ctx.config.loops.toNat_lt
  have hsize : UInt32.size = 2 ^ 32 := rfl
  have hone : (1 : UInt32).toNat = 1 := rfl
  rw [← Function.comp_def, ← List.map_map, hloops results rfl, toNat_iterate (by omega), hone]

theorem decided_of_ended {outcome : Outcome HarnessError (List Measurement)} {w : World}
    (hthreads : 0 < ctx.config.threads.toNat) (h : s.Ended ctx outcome w) :
    s.Decided ctx.config outcome := by
  have hstart (hs : s.Startable ctx.config) (k : Nat) :
      (s.conduct ctx).Startable s.benchmark ctx.config k :=
    Conduct.startable hs.1 hs.2 k
  refine ⟨fun cause hinit => ?_, fun p hinit => ?_, fun results hout => h.results hthreads hout,
    fun hs hinit hbuilt => ?_, fun hs hinit t ht hbefore cause hcause => ?_,
    fun hs hinit hdestroy t ht hbefore p hp => ?_⟩
  · have hout := h.2
    rw [hinit] at hout
    exact hout.1
  · have hout := h.2
    rw [hinit] at hout
    exact hout.1
  -- every task is built, and only the teardown of the benchmark can still fail
  · obtain ⟨loop, rfl, hvoid, -⟩ := h.loop hinit
    rw [Conduct.looping_of_built (hstart hs) hbuilt] at hvoid
    obtain ⟨results, rfl⟩ := Outcome.exists_of_void_eq_ok hvoid
    cases s.destroy with
    | ok u => exact ⟨results, rfl⟩
    | failed cause => rfl
    | panicked p => rfl
  · obtain ⟨loop, rfl, hvoid, -⟩ := h.loop hinit
    -- the first task that is refused gives the error its range
    obtain ⟨range, hrange, hlooping⟩ :=
      Conduct.looping_of_failed (hstart hs) hthreads ht hbefore hcause
    exact ⟨range, hrange, Outcome.after_of_failed (hvoid.trans hlooping)⟩
  · obtain ⟨loop, rfl, hvoid, -⟩ := h.loop hinit
    exact Outcome.after_of_panicked
      (hvoid.trans (Conduct.looping_of_panicked (hstart hs) hthreads ht hbefore hp))

/-- Tasks that can all be built keep to the books if together they notify the rows. -/
theorem regular_accounted {config : Config} (id : ContextId) (drawn : UInt64)
    (hvalid : config.fault? = none)
    (htotal : ∀ k < config.loops.toNat, (∀ t, config.isTaskOf k t → s.create t = .ok ()) →
      ((s.benchmark.duties config k).map s.notified).sum = config.rows.toNat)
    (hmax : config.rows.toNat ≤ 2 ^ 32 - 1) :
    ∀ k < config.loops.toNat,
      (s.conduct (.ofConfig id config drawn)).iterating s.benchmark config k = .ok () →
      (Rounds.accounted s.benchmark (s.orderly (.ofConfig id config drawn)) hmax).regular k :=
  fun k hk hok => (rows_duties id drawn hvalid k).trans
    (htotal k hk fun _ ht => Conduct.outcome_of_iterating hok ht)

/-- The run of such tasks comes to its end, whatever the schedule is. -/
theorem exists_ended (s : Script) {config : Config} (id : ContextId) (drawn : UInt64)
    (hvalid : config.fault? = none)
    (htotal : ∀ k < config.loops.toNat, (∀ t, config.isTaskOf k t → s.create t = .ok ()) →
      ((s.benchmark.duties config k).map s.notified).sum = config.rows.toNat)
    (now pace : Nat) (schedule : Schedule) :
    ∃ outcome s', s.benchmark.run (.ofConfig id config drawn) ⟨{ now, pace }, schedule, ()⟩
        = .ok outcome s' ∧ s.Ended (.ofConfig id config drawn) outcome s'.world := by
  obtain ⟨-, hmax⟩ := config.fault?_eq_none_iff.1 hvalid
  obtain ⟨outcome, s', hrun, hended, -⟩ :=
    ends_run (Rounds.accounted s.benchmark (s.orderly (.ofConfig id config drawn)) hmax)
      (regular_accounted id drawn hvalid htotal hmax) ⟨{ now, pace }, schedule, ()⟩
      (.fresh (Ledger.quiet_fresh id now pace) trivial)
  exact ⟨outcome, s', hrun, hended⟩

/-- A panic of the loop is that of the run. -/
theorem run_of_looping (s : Script) {config : Config} (id : ContextId) (drawn : UInt64)
    (hvalid : config.fault? = none) (hreporting : ∀ t, (s.task t).reporting = .eachRow)
    (hinit : s.init = .ok ()) {p : Payload}
    (hlooping : (s.conduct (.ofConfig id config drawn)).looping s.benchmark config 0
      config.loops.toNat = .panicked p) (now pace : Nat) (schedule : Schedule) :
    ∃ s', s.benchmark.run (.ofConfig id config drawn) ⟨{ now, pace }, schedule, ()⟩
      = .ok (.panicked p) s' := by
  obtain ⟨outcome, s', hrun, hended⟩ := exists_ended s id drawn hvalid
    (fun k _ _ => sum_notified (Config.threads_pos hvalid) hreporting k) now pace schedule
  obtain ⟨loop, rfl, hvoid, -⟩ := hended.loop hinit
  exact ⟨s', hrun.trans (by rw [Outcome.after_of_panicked (hvoid.trans hlooping)])⟩

end Script

end BenchLoop
