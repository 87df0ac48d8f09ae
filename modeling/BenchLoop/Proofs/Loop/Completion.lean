/-
BenchLoop/Proofs/Loop/Completion.lean

Every iteration is completed exactly.  When the wait of an iteration is over the counter
is at zero, the rows have been subtracted by tasks of this iteration and nobody else, one
notification has gone through each of the steps that release the latch, and no step of
any notification is left in flight that could reach the next iteration.

`World.Completed` says so of a world, `Script.completed_of_engage` proves it for every
script, configuration and schedule and after any number of earlier iterations, whose
threads may still be running.
-/
import BenchLoop.Proofs.Target.Scripted

namespace BenchLoop

open CountdownAction

/-- Iteration number `k`, counted from 0, has been completed exactly. -/
structure World.Completed (ctx : Context) (k : Nat) (w : World) : Prop where
  /-- The last reset was that of this iteration. -/
  latch : (w.countdown ctx.id).current = k + 1
  pending : (w.countdown ctx.id).pending = 0
  subtracted : w.subtracted ctx.id = ctx.config.rows.toNat
  /-- Every row was subtracted by a task of this iteration. -/
  own : ∀ e ∈ w.sinceReset ctx.id, e.Serves ctx.id (ctx.config.isTaskOf k)
  /-- One notification found the rows used up, stored the end, took the claim and released
  the latch. -/
  once : ∀ leg, Entry.tally ctx.id (taken leg) (w.sinceReset ctx.id) = 1
  effective : Entry.tally ctx.id (won .claim) (w.sinceReset ctx.id) = 1 ∧
    Entry.tally ctx.id (won .release) (w.sinceReset ctx.id) = 1
  /-- What is still in flight neither subtracts rows nor is part of a notification that did. -/
  silent : ∀ s ∈ w.inFlight, s.isQuiet ctx.id

theorem Ledger.completed {ctx : Context} {k : Nat} {w : World}
    (hrows : 0 < ctx.config.rows.toNat)
    (hbooks : (engaged ctx.id ctx.config.rows.toNat ctx.config.rows.toNat (k + 1)).inv 0 [] w)
    (hcrew : (crew ctx.id (ctx.config.isTaskOf k)).inv 0 [] w)
    (hquiet : (quiet ctx.id (k + 1)).inv 0 [] w) : w.Completed ctx k := by
  obtain ⟨hflow, hlatch⟩ := hbooks
  have hsilent := hquiet.1
  rw [Multiset.coe_nil, add_zero] at hflow hsilent
  -- nothing is under way, so that every account can be closed
  have hlegs := Step.tally_due_of_isOpening fun s hs => Step.isOpening_of_isQuiet (hsilent s hs)
  have hunits := Step.tally_units_of_isQuiet hsilent
  have hbalance := hflow.balance
  have hstored := (hflow.settled hrows hlegs).2.2 (by omega)
  have hread := hlegs .read
  have hstore := hlegs .store
  have hclaim := hlegs .claim
  have hrelease := hlegs .release
  have honce := hflow.once (le_refl _)
  have hstoring := hflow.storing
  have hclaiming := hflow.claiming
  have hwinning := hflow.winning
  have hreleasing := hflow.releasing
  have heffective := hflow.effective
  refine ⟨hlatch, ?_, ?_, hcrew.2, fun leg => ?_, ⟨?_, ?_⟩, hsilent⟩
  · rw [← Int64.toInt_inj, hflow.pending, Int64.toInt_zero]
    omega
  · simp only [World.subtracted, World.sinceReset]
    omega
  · simp only [World.sinceReset]
    cases leg <;> omega
  · simp only [World.sinceReset]
    omega
  · simp only [World.sinceReset]
    omega

namespace Script

/-- What an iteration leaves when its wait is over. -/
theorem completed_of_done {s : Script} {ctx : Context} (hrows : 0 < ctx.config.rows.toNat)
    (hmax : ctx.config.rows.toNat ≤ 2 ^ 32 - 1) {k : Nat}
    (hk : (s.conduct ctx).rows (s.benchmark.duties ctx.config k) = ctx.config.rows.toNat)
    {w : World}
    (h : ((Rounds.accounted s.benchmark (s.orderly ctx) hmax).done k).inv 0 [] w) :
    w.Completed ctx k := by
  obtain ⟨hbusy, hquiet⟩ := h
  simp only [Rounds.accounted, Conduct.busy, if_pos hk] at hbusy
  exact Ledger.completed hrows hbusy.1 hbusy.2 hquiet

/-- **Every iteration is completed exactly.**  Take any script, a valid configuration with
rows, and any schedule.  If `k` iterations went well then the next one comes to the end of
its wait or stops before it; and at the end of its wait it has been completed exactly,
and stays so whatever the threads still do. -/
theorem completed_of_engage (s : Script) {config : Config} (id : ContextId) (drawn : UInt64)
    (hvalid : config.fault? = none) (hrows : 0 < config.rows.toNat) {k : Nat}
    (htotal : ∀ j ≤ k,
      ((s.benchmark.duties config j).map s.notified).sum = config.rows.toNat)
    {now pace : Nat} {schedule : Schedule} {s₁ s₂ : Session Unit} {results : List Measurement}
    (hinit : s.benchmark.init (.ofConfig id config drawn) ⟨{ now, pace }, schedule, ()⟩
      = .ok (.ok ()) s₁)
    (hearlier : s.benchmark.iterateFrom (.ofConfig id config drawn) 1 k s₁
      = .ok (.ok results) s₂)
    (loop : UInt32) :
    ∃ outcome s₃, s.benchmark.engage (.ofConfig id config drawn) loop s₂ = .ok outcome s₃ ∧
      ∀ tasks, outcome = .ok tasks → ∀ turns,
        (s₃.world.burst turns).Completed (.ofConfig id config drawn) k := by
  let ctx := Context.ofConfig id config drawn
  have hmax : ctx.config.rows.toNat ≤ 2 ^ 32 - 1 := (config.fault?_eq_none_iff.1 hvalid).2
  let rounds := Rounds.accounted s.benchmark (s.orderly ctx) hmax
  have hregular (j : Nat) (hj : j ≤ k) : rounds.regular j :=
    (rows_duties id drawn hvalid j).trans (htotal j hj)
  have hbefore (j : Nat) (_ : 0 ≤ j) (hj : j < 0 + k)
      (_ : (s.conduct ctx).iterating s.benchmark config j = .ok ()) : rounds.regular j :=
    hregular j (by omega)
  have hfresh : Stage (rounds.idle 0) (fun _ (_ : Unit) => True) 0 [] 0 []
      ({ now, pace } : World) () := .fresh (Ledger.quiet_fresh id now pace) trivial
  -- initialization, the iterations before, and the wait of this one
  obtain ⟨-, pending, hstage⟩ := ends_init.of_eq hfresh hinit
  obtain ⟨-, ⟨results', -, -, hstage⟩ | ⟨hne, -⟩⟩ :=
    (Benchmark.ends_iterateFrom (s.follows ctx) rounds hbefore 1).of_eq (by simpa using hstage)
      hearlier
  · obtain ⟨outcome, s₃, hrun, -, hpost⟩ := Benchmark.ends_engage (s.follows ctx) rounds
      (fun _ => hregular k (le_refl k)) loop s₂ (by simpa using hstage)
    refine ⟨outcome, s₃, hrun, ?_⟩
    rintro tasks rfl turns
    obtain ⟨tasks', ⟨rfl⟩, -, hdone⟩ | ⟨hne, -⟩ := hpost
    · exact completed_of_done hrows hmax (hregular k (le_refl k))
        (Stage.stable.burst hdone turns).inv
    · exact absurd rfl hne
  · exact absurd rfl hne

/-- The second iteration of a script with two background threads, the second of which gets
two of three rows, after a first one that went well. -/
theorem completed_second_iteration :
    let s : Script := { name := "b", task := fun _ => { drive? := some .backgroundThread } }
    let config : Config := { loops := 2, rows := 3, threads := 2 }
    let ctx := Context.ofConfig 0 config 7
    ∃ s₁ s₂ s₃ results tasks,
      s.benchmark.init ctx ⟨{}, [[], [.thread 0], [.thread 1]], ()⟩ = .ok (.ok ()) s₁ ∧
      s.benchmark.iterateFrom ctx 1 1 s₁ = .ok (.ok results) s₂ ∧
      s.benchmark.engage ctx 2 s₂ = .ok (.ok tasks) s₃ ∧ s₃.world.Completed ctx 1 := by
  intro s config ctx
  have hvalid : config.fault? = none := by decide
  have htotal : ∀ j ≤ 1, ((s.benchmark.duties config j).map s.notified).sum
      = config.rows.toNat := by decide
  have hmax : ctx.config.rows.toNat ≤ 2 ^ 32 - 1 := by decide
  let rounds := Rounds.accounted s.benchmark (s.orderly ctx) hmax
  have hfresh : Stage (rounds.idle 0) (fun _ (_ : Unit) => True) 0 [] 0 [] ({} : World) () :=
    .fresh (Ledger.quiet_fresh 0 0 0) trivial
  obtain ⟨-, s₁, hinit, rfl, pending, hstage⟩ :=
    ends_init ⟨{}, [[], [.thread 0], [.thread 1]], ()⟩ hfresh
  have hregular (j : Nat) (hj : j ≤ 1) : rounds.regular j :=
    (rows_duties 0 7 hvalid j).trans (htotal j hj)
  have hbefore (j : Nat) (_ : 0 ≤ j) (hj : j < 0 + 1)
      (_ : (s.conduct ctx).iterating s.benchmark config j = .ok ()) : rounds.regular j :=
    hregular j (by omega)
  obtain ⟨outcome, s₂, hearlier, hvoid, hstage⟩ := Benchmark.ends_iterateFrom (s.follows ctx)
    rounds hbefore 1 s₁ (by simpa using hstage)
  have hlooping : (s.conduct ctx).looping s.benchmark ctx.config 0 1 = .ok () := by decide
  obtain ⟨results, rfl⟩ := Outcome.exists_of_void_eq_ok (hvoid.trans hlooping)
  obtain ⟨outcome, s₃, hengage, hpost⟩ :=
    completed_of_engage s 0 7 hvalid (by decide) htotal hinit hearlier 2
  obtain ⟨results', -, -, hstage⟩ | ⟨hne, -⟩ := hstage
  · have hvoid := ((Benchmark.ends_engage (s.follows ctx) rounds (fun _ => hregular 1 (by omega))
      2).of_eq (by simpa using hstage) hengage).1
    have hiterating : (s.conduct ctx).iterating s.benchmark ctx.config 1 = .ok () := by decide
    obtain ⟨tasks, rfl⟩ := Outcome.exists_of_void_eq_ok (hvoid.trans hiterating)
    exact ⟨s₁, s₂, s₃, results, tasks, hinit, hearlier, hengage, hpost tasks rfl []⟩
  · exact absurd rfl hne

end Script

end BenchLoop
