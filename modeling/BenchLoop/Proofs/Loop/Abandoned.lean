/-
BenchLoop/Proofs/Loop/Abandoned.lean

What becomes of the tasks of an iteration when building one more panics.

Nothing.  An error of the same call tears them down (`Script.Retreats`); a panic goes through to
the end of the run, where the benchmark is destroyed, and on its way it meets nobody who knows of
them (`Script.abandons_built`).  So their teardowns are never called, neither before the benchmark
is destroyed nor after.

Both are one statement about the first task that cannot be built (`Script.run_of_unbuilt`), whether
it has failed or panicked; the two differ in nothing but what is left of its round.
-/
import BenchLoop.Proofs.Loop.RollCall

namespace BenchLoop

namespace Script

/-- The same script, but for one task that cannot be built. -/
def failing (s : Script) (t : TaskId) (cause : Failure) : Script :=
  { s with create := Function.update s.create t (.failed cause) }

theorem failing_create_self (s : Script) (t : TaskId) (cause : Failure) :
    (s.failing t cause).create t = .failed cause := Function.update_self ..

theorem failing_create_of_ne (s : Script) {i t : TaskId} (h : i ≠ t) (cause : Failure) :
    (s.failing t cause).create i = s.create i := Function.update_of_ne h ..

/-- No more tasks can be built than before. -/
theorem create_of_failing {s : Script} {i t : TaskId} {cause : Failure}
    (h : (s.failing t cause).create i = .ok ()) : s.create i = .ok () := by
  rcases eq_or_ne i t with rfl | hne
  · rw [failing_create_self] at h
    cases h
  · rwa [failing_create_of_ne s hne] at h

variable (s : Script) (config : Config)

/-- The course of a run whose last round is a given one, the rounds before it being full. -/
def CourseOf (k : Nat) (last : List Event) (w : World) : Prop :=
  ∃ pending, w.course = s.opening pending ++
    ((List.range k).flatMap (s.fullRound config) ++ last) ++ s.closing

/-- When building task number `j` of iteration `k`, counted from 0, has come to nothing, those built
before it in this iteration are torn down once each, in order, before the benchmark is destroyed. -/
def Retreats (k j : Nat) (w : World) : Prop := s.CourseOf config k (s.brokenRound config k j) w

/-- None of them is torn down, and those that need a thread never take a step. -/
structure Abandons (k j : Nat) (w : World) : Prop where
  course : s.CourseOf config k
    (requests ((taskRanges s.name config.rows config.threads).take (j + 1))) w
  spares : ∀ turns, (w.burst turns).Spares fun t => config.isTaskOf k t ∧ (s.task t).drive? = none

variable {s config}

/-- A course has one last round only. -/
theorem CourseOf.unique {k : Nat} {last last' : List Event} {w : World}
    (h : s.CourseOf config k last w) (h' : s.CourseOf config k last' w) : last = last' := by
  obtain ⟨pending, h⟩ := h
  obtain ⟨pending', h'⟩ := h'
  have hlength : (s.opening pending).length = (s.opening pending').length := by
    unfold opening
    split <;> rfl
  rw [h, List.append_left_inj] at h'
  exact List.append_cancel_left (List.append_inj h' hlength).2

/-- A run comes to its end with the first task that cannot be built.  If that has failed the tasks
before it in its iteration are torn down, and if it has panicked they are not. -/
theorem run_of_unbuilt (s : Script) {config : Config} (id : ContextId) (drawn : UInt64)
    (hvalid : config.fault? = none) (hstart : s.Startable config)
    (htotal : ∀ k < config.loops.toNat, (∀ t, config.isTaskOf k t → s.create t = .ok ()) →
      ((s.benchmark.duties config k).map s.notified).sum = config.rows.toNat)
    (hinit : s.init = .ok ()) {k j : Nat} (hk : k < config.loops.toNat)
    (hj : j < config.threads.toNat)
    (hbefore : ∀ t < k * config.threads.toNat + j, s.create t = .ok ())
    (h : s.create (k * config.threads.toNat + j) ≠ .ok ()) (now pace : Nat) (schedule : Schedule) :
    ∃ outcome s', s.benchmark.run (.ofConfig id config drawn) ⟨{ now, pace }, schedule, ()⟩
        = .ok outcome s' ∧
      (∀ p, s.create (k * config.threads.toNat + j) = .panicked p → outcome = .panicked p) ∧
      s.CourseOf config k (requests ((taskRanges s.name config.rows config.threads).take (j + 1)) ++
        match s.create (k * config.threads.toNat + j) with
        | .failed _ => s.teardowns ((s.benchmark.duties config k).take j)
        | _ => []) s'.world ∧
      ∀ turns, (s'.world.burst turns).Spares fun t =>
        config.isTaskOf k t ∧ (s.task t).drive? = none := by
  let ctx := Context.ofConfig id config drawn
  obtain ⟨outcome, s', hrun, hended, hspares⟩ :=
    exists_ended_sparing s id drawn hvalid htotal now pace schedule
  obtain ⟨hbuilding, hbreaks⟩ := breaks_of_unbuilt ctx hstart hk hj hbefore h
  refine ⟨outcome, s', hrun, fun p hp => ?_, ?_, fun turns => ?_⟩
  · obtain ⟨loop, rfl, hvoid, -⟩ := hended.loop hinit
    -- the task is one of those that the run would build, so its panic is that of the loop
    have hlt : k * config.threads.toNat + j < config.loops.toNat * config.threads.toNat :=
      (config.isTaskOf_add k hj).2.trans_le (Nat.mul_le_mul_right _ hk)
    exact Outcome.after_of_panicked (hvoid.trans (Conduct.looping_of_panicked
      (Conduct.startable hstart.1 hstart.2) (Config.threads_pos hvalid) hlt hbefore hp))
  · obtain ⟨⟨pending, hcourse⟩, -⟩ := hended
    have hloop := loopCourse_of_unbuilt ctx hstart hk hj hbefore h
    rw [iterationCourse_of_unbuilt hstart hj hbefore h] at hloop
    refine ⟨pending, ?_⟩
    rw [hcourse, if_pos hinit, ← List.append_assoc]
    exact congrArg (_ ++ · ++ _) hloop
  · exact hspares k hinit hbuilding hbreaks turns

/-- Nothing shows of teardowns only if no task records its own. -/
theorem teardowns_take_eq_nil_iff {k j : Nat} (hj : j < config.threads.toNat) :
    s.teardowns ((s.benchmark.duties config k).take j) = [] ↔
      ∀ i < j, (s.task (k * config.threads.toNat + i)).recordsStop = false := by
  have hlength : (taskRanges s.benchmark.name config.rows config.threads).length
      = config.threads.toNat := length_taskRanges ..
  -- the duties that were taken are those of the tasks before the one that was not built
  have hmem (t : TaskId) : (∃ range, (range, t) ∈ (s.benchmark.duties config k).take j) ↔
      ∃ i < j, k * config.threads.toNat + i = t := by
    rw [Benchmark.take_duties]
    constructor
    · rintro ⟨range, hd⟩
      have hle := List.le_snd_of_mem_zipIdx hd
      have hlt := List.snd_lt_add_of_mem_zipIdx hd
      rw [List.length_take_of_le (by omega)] at hlt
      exact ⟨t - k * config.threads.toNat, by omega, by omega⟩
    · rintro ⟨i, hi, rfl⟩
      have hlt : i < (taskRanges s.benchmark.name config.rows config.threads).length := by omega
      refine ⟨(taskRanges s.benchmark.name config.rows config.threads).get ⟨i, hlt⟩, ?_⟩
      exact List.mem_iff_getElem?.2 ⟨i, by simp [hi]⟩
  rw [teardowns, List.flatMap_eq_nil_iff]
  constructor
  · intro h i hi
    obtain ⟨range, hd⟩ := (hmem _).2 ⟨i, hi, rfl⟩
    simpa using h _ hd
  · rintro h ⟨range, t⟩ hd
    obtain ⟨i, hi, rfl⟩ := (hmem t).1 ⟨range, hd⟩
    simp [h i hi]

/-- **A panic leaves the tasks behind that have been built.**  Take any script, a valid
configuration that can be started and any schedule, and let the tasks of each iteration, if they can
all be built, notify its rows.  Let building task number `j` of iteration `k` panic, where no task
before it has failed.  Then the run ends in this panic, and the tasks built before it in the
iteration are never torn down: unless none of them records its teardown, the course of the run is
not that of a retreat.  If the same task fails instead, each of them is torn down once, in order,
before the benchmark is destroyed. -/
theorem abandons_built (s : Script) {config : Config} (id : ContextId) (drawn : UInt64)
    (hvalid : config.fault? = none) (hstart : s.Startable config)
    (htotal : ∀ k < config.loops.toNat, (∀ t, config.isTaskOf k t → s.create t = .ok ()) →
      ((s.benchmark.duties config k).map s.notified).sum = config.rows.toNat)
    (hinit : s.init = .ok ()) {k j : Nat} (hk : k < config.loops.toNat)
    (hj : j < config.threads.toNat)
    (hbefore : ∀ t < k * config.threads.toNat + j, s.create t = .ok ()) {p : Payload}
    (hp : s.create (k * config.threads.toNat + j) = .panicked p) (now pace : Nat)
    (schedule : Schedule) :
    (∃ outcome s', s.benchmark.run (.ofConfig id config drawn) ⟨{ now, pace }, schedule, ()⟩
        = .ok outcome s' ∧
      ((∀ q, s.destroy ≠ .panicked q) → outcome = .panicked p) ∧
      s.Abandons config k j s'.world ∧
      (s.Retreats config k j s'.world ↔
        ∀ i < j, (s.task (k * config.threads.toNat + i)).recordsStop = false)) ∧
    ∀ cause, ∃ outcome s',
      (s.failing (k * config.threads.toNat + j) cause).benchmark.run (.ofConfig id config drawn)
        ⟨{ now, pace }, schedule, ()⟩ = .ok outcome s' ∧ s.Retreats config k j s'.world := by
  have hne : s.create (k * config.threads.toNat + j) ≠ .ok () := by
    intro hok
    cases hp.symm.trans hok
  constructor
  · -- the last round ends with the request for the task that panics
    obtain ⟨outcome, s', hrun, hout, hcourse, hspares⟩ :=
      run_of_unbuilt s id drawn hvalid hstart htotal hinit hk hj hbefore hne now pace schedule
    rw [hp] at hcourse
    dsimp only at hcourse
    rw [List.append_nil] at hcourse
    refine ⟨outcome, s', hrun, fun _ => hout p hp, ⟨hcourse, hspares⟩, ?_⟩
    rw [← teardowns_take_eq_nil_iff hj]
    constructor
    · intro hretreats
      have hlast := hcourse.unique hretreats
      exact List.self_eq_append_right.1 hlast
    · intro hnil
      rw [Retreats, brokenRound, hnil, List.append_nil]
      exact hcourse
  · intro cause
    let t := k * config.threads.toNat + j
    have hfailed : (s.failing t cause).create t = .failed cause := s.failing_create_self t cause
    have hearlier (i : TaskId) (hi : i < t) : (s.failing t cause).create i = .ok () :=
      (s.failing_create_of_ne hi.ne cause).trans (hbefore i hi)
    have hne' : (s.failing t cause).create t ≠ .ok () := by
      intro hok
      cases hfailed.symm.trans hok
    obtain ⟨outcome, s', hrun, -, hcourse, -⟩ :=
      run_of_unbuilt (s.failing t cause) id drawn hvalid hstart
        (fun i hi hbuilt => htotal i hi fun t ht => create_of_failing (hbuilt t ht)) hinit hk hj
        hearlier hne' now pace schedule
    rw [hfailed] at hcourse
    exact ⟨outcome, s', hrun, hcourse⟩

/-- In the second of three iterations building the third of four tasks panics.  The two before it
would have recorded their teardowns. -/
theorem abandons_built_second_iteration :
    let s : Script :=
      { name := "b", create := fun t => if t = 6 then .panicked (.text "create") else .ok () }
    let config : Config := { loops := 3, rows := 9, threads := 4 }
    config.fault? = none ∧ ∃ s', s.benchmark.run (.ofConfig 0 config 7)
        ⟨{ pace := 1 }, [[], [.thread 0], [.thread 2]], ()⟩
        = .ok (.panicked (.text "create")) s' ∧
      s.Abandons config 1 2 s'.world ∧ ¬ s.Retreats config 1 2 s'.world := by
  intro s config
  have hvalid : config.fault? = none := by decide
  obtain ⟨⟨outcome, s', hrun, hout, habandons, hretreats⟩, -⟩ :=
    abandons_built s 0 7 hvalid ⟨by decide, by decide⟩
      (fun k _ _ => sum_notified (by decide) (fun _ => rfl) k) rfl (k := 1) (j := 2) (by decide)
      (by decide) (by decide) rfl 0 1 [[], [.thread 0], [.thread 2]]
  rw [hout nofun] at hrun
  refine ⟨hvalid, s', hrun, habandons, fun h => ?_⟩
  cases hretreats.1 h 0 (by decide)

/-- The second of two tasks panics while it is built.  The first one is not torn down, neither
before the benchmark is destroyed nor after. -/
theorem not_retreats_of_panicked :
    let s : Script :=
      { name := "b", create := fun t => if t = 1 then .panicked (.text "create") else .ok () }
    let config : Config := { loops := 1, rows := 2, threads := 2 }
    config.fault? = none ∧ ∃ outcome s' pending,
      s.benchmark.run (.ofConfig 0 config 1) ⟨{}, [], ()⟩ = .ok outcome s' ∧
      s'.world.course = [.called (.init pending), .called (.create (.ofBounds "b" 0 1)),
        .called (.create (.ofBounds "b" 1 2)), .called .destroy] ∧
      ¬ s.Retreats config 0 1 s'.world := by
  intro s config
  have hvalid : config.fault? = none := by decide
  obtain ⟨outcome, s', hrun, -, hcourse, -⟩ := run_of_unbuilt s 0 1 hvalid ⟨by decide, by decide⟩
    (fun k _ _ => sum_notified (by decide) (fun _ => rfl) k) rfl (k := 0) (j := 1) (by decide)
    (by decide) (by decide) nofun 0 0 []
  have hround : requests ((taskRanges s.name config.rows config.threads).take (1 + 1))
      = [.called (.create (.ofBounds "b" 0 1)), .called (.create (.ofBounds "b" 1 2))] := by decide
  rw [hround] at hcourse
  have ⟨pending, hevents⟩ := hcourse
  refine ⟨hvalid, outcome, s', pending, hrun, hevents, fun h => ?_⟩
  exact absurd (hcourse.unique h) (by decide)

end Script

end BenchLoop
