/-
BenchLoop/Proofs/Loop/Abreast.lean

The loops of two scripted benchmarks, abreast: building tasks and starting them, the wait, the
teardown, the report, one iteration after the other.  Each part of the second loop does what
that of the first one does; the only place where one coordinator takes a step that the other
does not is a teardown that fails.

`Script.coupled_run` is what comes out of it for whole runs.
-/
import BenchLoop.Proofs.Loop.TwoRuns

namespace BenchLoop

/-- Two computations that have ended alike, with related values if they have any. -/
inductive Outcome.Like {ε α β : Type} (r : α → β → Prop) : Outcome ε α → Outcome ε β → Prop
  | ok {a : α} {b : β} : r a b → Like r (.ok a) (.ok b)
  | failed (e : ε) : Like r (.failed e) (.failed e)
  | panicked (p : Payload) : Like r (.panicked p) (.panicked p)

/-- A result without its times. -/
def Measurement.untimed (m : Measurement) : Measurement :=
  { m with totalMillis := 0, averageMillis := 0 }

/-- Results of the same iteration; their times agree where clocks are compared. -/
def Lens.Measures (l : Lens) (m m' : Measurement) : Prop :=
  m.untimed = m'.untimed ∧ (l.times = true → m = m')

open Run (Forward)

namespace Script

namespace Beside

variable {l : Lens} {s s' : Script} {ctx : Context} {k n latch lines : Nat}
variable {tail tail' : List Event}

/-- Where texts are not compared the first coordinator may log lines of its own. -/
theorem couple_lines_left (ht : l.texts = false) {es : List Event}
    (hes : ∀ e ∈ es, e.isLogged = true) :
    Run.Coupled l (Beside l s s' ctx k n latch lines tail tail') (Run.notes es) (pure ())
      fun _ (_ : Unit) => Beside l s s' ctx k n latch lines (tail ++ es) tail' := by
  induction es generalizing tail with
  | nil =>
    rw [List.append_nil]
    exact .pure fun _ _ h => h
  | cons e es ih =>
    obtain ⟨he, hes⟩ := List.forall_mem_cons.1 hes
    have hfirst : Run.Coupled l (Beside l s s' ctx k n latch lines tail tail') (Run.note e)
        (pure ()) fun _ (_ : Unit) => Beside l s s' ctx k n latch lines (tail ++ [e]) tail' :=
      .left ht stable fun _ _ h => h.logged_left he
    rw [List.append_cons]
    exact hfirst.bind (fun _ => .notes es) fun _ _ => ih hes

/-- And so may the second one. -/
theorem couple_lines_right (ht : l.texts = false) {es : List Event}
    (hes : ∀ e ∈ es, e.isLogged = true) :
    Run.Coupled l (Beside l s s' ctx k n latch lines tail tail') (pure ()) (Run.notes es)
      fun (_ : Unit) _ => Beside l s s' ctx k n latch lines tail (tail' ++ es) := by
  induction es generalizing tail' with
  | nil =>
    rw [List.append_nil]
    exact .pure fun _ _ h => h
  | cons e es ih =>
    obtain ⟨he, hes⟩ := List.forall_mem_cons.1 hes
    have hfirst : Run.Coupled l (Beside l s s' ctx k n latch lines tail tail') (pure ())
        (Run.note e) fun (_ : Unit) _ => Beside l s s' ctx k n latch lines tail (tail' ++ [e]) :=
      .right ht fun _ _ h => h.logged_right he
    rw [List.append_cons]
    exact hfirst.bind (f := fun _ => pure ()) (fun _ => .pure _) fun _ _ => ih hes

/-- Both coordinators note the same. -/
theorem couple_notes_same {es : List Event} (hes : ∀ e ∈ es, e.isStep = false) :
    Run.Coupled l (Beside l s s' ctx k n latch lines tail tail') (Run.notes es) (Run.notes es)
      fun _ _ => Beside l s s' ctx k n latch lines (tail ++ es) (tail' ++ es) := by
  induction es generalizing tail tail' with
  | nil =>
    rw [List.append_nil, List.append_nil]
    exact .pure fun _ _ h => h
  | cons e es ih =>
    obtain ⟨he, hes⟩ := List.forall_mem_cons.1 hes
    rw [List.append_cons, List.append_cons tail']
    exact (couple_note e e he he fun _ => rfl).bind (fun _ => .notes es) fun _ _ => ih hes

theorem isStep_of_isLogged {e : Event} (he : e.isLogged = true) : e.isStep = false := by
  cases e with
  | logged level message => rfl
  | _ => cases he

/-- Both log what they have to, the same where texts are compared. -/
theorem couple_lines {es es' : List Event} (hes : ∀ e ∈ es, e.isLogged = true)
    (hes' : ∀ e ∈ es', e.isLogged = true) (ht : l.texts = true → es = es') :
    Run.Coupled l (Beside l s s' ctx k n latch lines tail tail') (Run.notes es) (Run.notes es')
      fun _ _ => Beside l s s' ctx k n latch lines (tail ++ es) (tail' ++ es') := by
  cases htexts : l.texts with
  | true =>
    obtain rfl := ht htexts
    exact couple_notes_same fun e he => isStep_of_isLogged (hes e he)
  | false =>
    -- first the lines of the one, then those of the other
    have hunit : (Run.notes es : Run Unit Unit) = Run.notes es >>= fun _ => pure () := by simp
    rw [hunit]
    show Run.Coupled l _ _ (pure () >>= fun _ => Run.notes es') _
    exact (couple_lines_left htexts hes).bind (fun _ => .pure _) fun _ _ =>
      couple_lines_right htexts hes'

theorem isStep_stopCall (t : TaskScript) (range : RowRange) :
    ∀ e ∈ t.stopCall range, e.isStep = false := by
  unfold TaskScript.stopCall
  split
  · exact List.forall_mem_singleton.2 rfl
  · exact nofun

theorem isLogged_complaint (t : TaskScript) (range : RowRange) :
    ∀ e ∈ t.complaint range, e.isLogged = true := by
  unfold TaskScript.complaint
  split
  · exact nofun
  · exact List.forall_mem_singleton.2 rfl
  · exact List.forall_mem_singleton.2 rfl

theorem isLogged_warning (s : Script) (loop : UInt32) (duties : List Duty) :
    ∀ e ∈ s.warning loop duties, e.isLogged = true := by
  unfold Script.warning
  split
  · exact List.forall_mem_singleton.2 rfl
  · exact nofun

theorem couple_teardown (h : Matches l s s') (d : Duty) :
    Run.Coupled l (Beside l s s' ctx k n latch lines tail tail')
      (s.taskOf (l.duty d)).teardown (s'.taskOf d).teardown fun ok ok' w w' =>
        (ok = !(s.task (l.duty d).2).fails ∧ ok' = !(s'.task d.2).fails) ∧
        Beside l s s' ctx k n latch lines
          (tail ++ ((s.task (l.duty d).2).stopCall d.1 ++ (s.task (l.duty d).2).complaint d.1))
          (tail' ++ ((s'.task d.2).stopCall d.1 ++ (s'.task d.2).complaint d.1)) w w' := by
  have hcall : Run.Coupled l (Beside l s s' ctx k n latch lines tail tail')
      (Run.notes ((s.task (l.duty d).2).stopCall d.1)) (Run.notes ((s'.task d.2).stopCall d.1))
      fun _ _ => Beside l s s' ctx k n latch lines (tail ++ (s.task (l.duty d).2).stopCall d.1)
        (tail' ++ (s'.task d.2).stopCall d.1) := by
    rw [h.stopCall d]
    exact couple_notes_same (isStep_stopCall _ _)
  rw [teardown_taskOf, teardown_taskOf]
  refine hcall.bind (fun _ => .bind (.notes _) fun _ => .pure _) fun _ _ => ?_
  refine (couple_lines (isLogged_complaint _ _) (isLogged_complaint _ _) fun ht =>
    h.complaint ht d).bind (fun _ => .pure _) fun _ _ => .pure fun w w' hpost => ⟨⟨rfl, rfl⟩, ?_⟩
  rw [List.append_assoc, List.append_assoc] at hpost
  exact hpost

theorem couple_teardownAll (h : Matches l s s') (duties : List Duty) :
    Run.Coupled l (Beside l s s' ctx k n latch lines tail tail')
      (RowTask.teardownAll (s.tasksOf (duties.map l.duty)))
      (RowTask.teardownAll (s'.tasksOf duties)) fun failed failed' w w' =>
        (failed = s.failures (duties.map l.duty) ∧ failed' = s'.failures duties) ∧
        Beside l s s' ctx k n latch lines (tail ++ s.stops (duties.map l.duty))
          (tail' ++ s'.stops duties) w w' := by
  induction duties generalizing tail tail' with
  | nil => exact .pure fun _ _ hw => ⟨⟨rfl, rfl⟩, by simpa [stops] using hw⟩
  | cons d duties ih =>
    refine (couple_teardown h d).bind
      (fun _ => .bind (forward_teardownAll s _) fun _ => .pure _) fun ok ok' => ?_
    apply Run.Coupled.lift
    rintro ⟨rfl, rfl⟩
    refine ih.bind (fun _ => .pure _) fun failed failed' => ?_
    apply Run.Coupled.lift
    rintro ⟨rfl, rfl⟩
    have hcount (s : Script) (d : Duty) (duties : List Duty) :
        s.failures duties + (!(!(s.task d.2).fails)).toNat = s.failures (d :: duties) := by
      unfold failures
      rw [List.countP_cons]
      cases (s.task d.2).fails <;> rfl
    have hstops (s : Script) (d : Duty) (duties : List Duty) (tail : List Event) :
        tail ++ ((s.task d.2).stopCall d.1 ++ (s.task d.2).complaint d.1) ++ s.stops duties
          = tail ++ s.stops (d :: duties) := by
      rw [List.append_assoc]
      rfl
    refine .pure fun w w' hw => ⟨⟨hcount s (l.duty d) _, hcount s' d _⟩, ?_⟩
    rw [List.map_cons, ← hstops, ← hstops]
    exact hw

/-- The tasks of an iteration are torn down, and a line says how many teardowns have failed. -/
theorem couple_teardownLoop (h : Matches l s s') (loop : UInt32) (duties : List Duty) :
    Run.Coupled l (Beside l s s' ctx k n latch lines tail tail')
      (Benchmark.teardown loop (s.tasksOf (duties.map l.duty)))
      (Benchmark.teardown loop (s'.tasksOf duties)) fun _ _ =>
        Beside l s s' ctx k n latch lines
          (tail ++ (s.stops (duties.map l.duty) ++ s.warning loop (duties.map l.duty)))
          (tail' ++ (s'.stops duties ++ s'.warning loop duties)) := by
  -- the line as an event, if there is one
  have hwarning (s : Script) (duties : List Duty) :
      (if 0 < s.failures duties then
        Run.log .warn s!"loop {loop}: {s.failures duties} of {(s.tasksOf duties).length} tasks failed teardown"
      else pure () : Run Unit Unit) = Run.notes (s.warning loop duties) := by
    unfold warning tasksOf
    rw [List.length_map]
    split
    · simp [Run.notes, Run.log]
    · rfl
  refine (couple_teardownAll h duties).bind (fun failed => ?_) fun failed failed' => ?_
  · split
    · exact .log
    · exact .pure _
  apply Run.Coupled.lift
  rintro ⟨rfl, rfl⟩
  rw [hwarning, hwarning]
  rw [← List.append_assoc, ← List.append_assoc]
  exact couple_lines (isLogged_warning s loop _) (isLogged_warning s' loop duties) fun ht =>
    h.warning ht loop duties

/-! ### Building and starting tasks -/

theorem couple_drive (h : Matches l s s') (t : TaskId) (range : RowRange) :
    Run.Coupled l (Beside l s s' ctx 5 n latch lines [] [])
      (drive (s.task (l.tasks + t)) (l.tasks + t) range ctx) (drive (s'.task t) t range ctx)
      fun _ _ => Beside l s s' ctx 5 n latch lines [] [] := by
  unfold drive
  rw [h.drive?]
  split
  · exact .pure fun _ _ h => h
  · exact couple_perform (h.works_driven t range)
  · exact (couple_spawn "background" (h.steps_driven t range)).bind (fun _ => .pure _) fun _ _ =>
      .pure fun _ _ h => h

/-- A task is built in both runs, or in neither. -/
theorem couple_createTask (h : Matches l s s') (t : TaskId) (range : RowRange) :
    Run.Coupled l (Beside l s s' ctx 5 n latch lines [] []) (s.createTask (l.tasks + t) range ctx)
      (s'.createTask t range ctx) fun o o' w w' =>
        o.Like (fun a a' => a = s.taskOf (l.duty (range, t)) ∧ a' = s'.taskOf (range, t)) o' ∧
        Beside l s s' ctx 5 n latch lines [] [] w w' := by
  unfold createTask
  have hcall : Run.Coupled l (Beside l s s' ctx 5 n latch lines [] [])
      (Run.note (.called (.create range))) (Run.note (.called (.create range))) fun _ _ =>
        Beside l s s' ctx 5 n latch lines [] [] := by
    refine (couple_note _ _ rfl rfl fun _ => rfl).post ?_
    intro _ _ w w' hw
    exact hw.close fun es es' htold => .same _ rfl htold
  refine hcall.bind (fun _ => ?_) fun _ _ => ?_
  · split
    · exact .pure _
    · exact .pure _
    · exact .bind (forward_drive ctx _ _ _) fun _ => .pure _
  · rw [h.create]
    cases s'.create t with
    | failed f => exact .pure fun _ _ hw => ⟨.failed f, hw⟩
    | panicked p => exact .pure fun _ _ hw => ⟨.panicked p, hw⟩
    | ok u =>
      -- what drives the task is the same in both, if anything does
      exact (couple_drive h t range).bind (fun _ => .pure _) fun _ _ =>
        .pure fun _ _ hw => ⟨.ok ⟨rfl, rfl⟩, hw⟩

/-- Tasks are built one after the other, in both runs up to the same one. -/
theorem couple_createTasks (h : Matches l s s') (built : List Duty) (ranges : List RowRange)
    (hall : built ++ ranges.zipIdx n
      = s'.benchmark.duties ctx.config lines) :
    Run.Coupled l (Beside l s s' ctx 5 n latch lines [] [])
      (s.benchmark.createTasks ctx (s.tasksOf (built.map l.duty)).reverse ranges)
      (s'.benchmark.createTasks ctx (s'.tasksOf built).reverse ranges) fun o o' w w' =>
        o.Like (fun ts ts' => ts = s.tasksOf ((built ++ ranges.zipIdx n).map l.duty) ∧
          ts' = s'.tasksOf (built ++ ranges.zipIdx n)) o' ∧
        ∃ n', (∀ ts, o = .ok ts → n' = n + ranges.length) ∧
          Beside l s s' ctx 5 n' latch lines [] [] w w' := by
  -- what has been built and what is still to be built are the duties of the iteration throughout
  induction ranges generalizing built n with
  | nil =>
    refine .pure fun w w' hw => ⟨.ok ⟨?_, ?_⟩, n, fun _ _ => rfl, hw⟩
    · rw [List.zipIdx_nil, List.append_nil, List.reverse_reverse]
    · rw [List.zipIdx_nil, List.append_nil, List.reverse_reverse]
  | cons range ranges ih =>
    have hforward (id : TaskId) (o : HookOutcome (RowTask Unit))
        (ho : (s.createTask id range ctx).Yields o) :=
      forward_proceed s ctx (built.map l.duty) ho (forward_createTasks s ctx _ ranges)
    rw [Benchmark.createTasks_cons, Benchmark.createTasks_cons]
    refine couple_nextTask.bind
      (fun id => .bind_of (forward_createTask s ctx id range) (hforward id)) fun id id' => ?_
    apply Run.Coupled.lift
    rintro ⟨rfl, rfl⟩
    refine (couple_createTask h id' range).bind_of (hforward _) fun o o' => ?_
    apply Run.Coupled.lift
    intro ho
    cases ho with
    | @ok t t' ht =>
      obtain ⟨rfl, rfl⟩ := ht
      have hmore : built ++ [(range, id')] ++ ranges.zipIdx (id' + 1)
          = built ++ (range :: ranges).zipIdx id' := by
        rw [List.zipIdx_cons, List.append_assoc]
        rfl
      have hcons : s.taskOf (l.duty (range, id')) :: (s.tasksOf (built.map l.duty)).reverse
          = (s.tasksOf ((built ++ [(range, id')]).map l.duty)).reverse := by
        simp [tasksOf]
      have hcons' : s'.taskOf (range, id') :: (s'.tasksOf built).reverse
          = (s'.tasksOf (built ++ [(range, id')])).reverse := by
        simp [tasksOf]
      have hrest := ih _ (hmore.trans hall)
      rw [hmore, ← hcons, ← hcons'] at hrest
      refine hrest.post ?_
      rintro o o' w w' ⟨ho, n', hn', hw⟩
      refine ⟨ho, n', fun ts hts => ?_, hw⟩
      rw [hn' ts hts, List.length_cons]
      omega
    | failed cause =>
      show Run.Coupled l _
        (RowTask.teardownAll (s.tasksOf (built.map l.duty)).reverse.reverse >>= _)
        (RowTask.teardownAll (s'.tasksOf built).reverse.reverse >>= _) _
      rw [List.reverse_reverse, List.reverse_reverse]
      refine (couple_teardownAll h built).bind (fun _ => .pure _) fun _ _ => .pure ?_
      rintro w w' ⟨-, hw⟩
      refine ⟨.failed _, id' + 1, ?_, hw.close fun es es' htold => ?_⟩
      · intro ts hts
        cases hts
      · exact .retreat built (hall ▸ List.prefix_append built _) htold
    | panicked p =>
      refine .pure fun w w' hw => ⟨.panicked p, id' + 1, ?_, hw⟩
      intro ts hts
      cases hts

/-- Threads are started for the same tasks, up to the same one if its name is refused. -/
theorem couple_startTasks (h : Matches l s s') (duties : List Duty) :
    Run.Coupled l (Beside l s s' ctx 5 n latch lines [] [])
      (Benchmark.startTasks ctx (s.tasksOf (duties.map l.duty)))
      (Benchmark.startTasks ctx (s'.tasksOf duties)) fun started started' w w' =>
        started = started' ∧ Beside l s s' ctx 5 n latch lines [] [] w w' := by
  induction duties with
  | nil => exact .pure fun _ _ hw => ⟨rfl, hw⟩
  | cons d duties ih =>
    have hneeds : (s.taskOf (l.duty d)).needsThread = (s'.taskOf d).needsThread :=
      congrArg Option.isNone (h.drive? d.2)
    show Run.Coupled l _
      (Benchmark.startTasks ctx (s.taskOf (l.duty d) :: s.tasksOf (duties.map l.duty)))
      (Benchmark.startTasks ctx (s'.taskOf d :: s'.tasksOf duties)) _
    unfold Benchmark.startTasks
    rw [hneeds]
    split
    · unfold RowTask.spawn
      rw [show (s.taskOf (l.duty d)).range = d.1 from rfl, show (s'.taskOf d).range = d.1 from rfl]
      cases ThreadName.refusal? d.1.name with
      | some payload => exact .pure fun _ _ hw => ⟨rfl, hw⟩
      | none =>
        -- the threads may have different numbers, which neither loop looks at
        refine Run.Coupled.bind (Q := fun out out' w w' =>
          ((∃ i, out = .ok i) ∧ ∃ i, out' = .ok i) ∧
            Beside l s s' ctx 5 n latch lines [] [] w w') ?_ ?_ ?_
        · exact (couple_spawn d.1.name (h.steps_task d)).bind (fun _ => .pure _)
            fun i i' => .pure fun _ _ hw => ⟨⟨⟨i, rfl⟩, i', rfl⟩, hw⟩
        · intro out
          cases out with
          | ok i => exact Benchmark.forward_startTasks ctx _
          | error payload => exact .pure _
        · intro out out'
          apply Run.Coupled.lift
          rintro ⟨⟨i, rfl⟩, i', rfl⟩
          exact ih
    · exact (couple_log .debug _).bind (fun _ => Benchmark.forward_startTasks ctx _) fun _ _ => ih

/-- The tasks of an iteration are built and started in both runs, or it ends in the same way. -/
theorem couple_dispatch (h : Matches l s s') :
    Run.Coupled l
      (Beside l s s' ctx 5 (lines * ctx.config.threads.toNat) latch lines [] [])
      (s.benchmark.dispatch ctx) (s'.benchmark.dispatch ctx) fun o o' w w' =>
        o.Like (fun ts ts' =>
          ts = s.tasksOf ((s'.benchmark.duties ctx.config lines).map l.duty) ∧
          ts' = s'.tasksOf (s'.benchmark.duties ctx.config lines)) o' ∧
        ∃ n', (∀ ts, o = .ok ts → n' = (lines + 1) * ctx.config.threads.toNat) ∧
          Beside l s s' ctx 5 n' latch lines [] [] w w' := by
  unfold Benchmark.dispatch taskRanges?
  rw [show s.benchmark.name = s'.benchmark.name from h.name]
  cases PartitionFault.ofThreads? ctx.config.threads with
  | some fault => exact .pure fun w w' hw => ⟨.panicked _, _, nofun, hw⟩
  | none =>
    dsimp only
    -- the tasks are built in step
    refine (couple_createTasks h [] _ rfl).bind (fun o => ?_) fun o o' => ?_
    · cases o with
      | ok ts =>
        refine .bind (Benchmark.forward_startTasks ctx ts) fun started => ?_
        cases started <;> exact .pure _
      | failed e => exact .pure _
      | panicked p => exact .pure _
    apply Run.Coupled.lift
    intro ho
    apply Run.Coupled.ex
    intro n'
    apply Run.Coupled.lift
    intro hn'
    cases ho with
    | failed e => exact .pure fun w w' hw => ⟨.failed e, n', nofun, hw⟩
    | panicked p => exact .pure fun w w' hw => ⟨.panicked p, n', nofun, hw⟩
    | @ok ts ts' hts =>
      obtain ⟨rfl, rfl⟩ := hts
      have hn' : n' = (lines + 1) * ctx.config.threads.toNat := by
        rw [hn' _ rfl, length_taskRanges, Nat.succ_mul]
      -- and started in step, up to the same refusal
      refine (couple_startTasks h _).bind (fun started => ?_) fun started started' => ?_
      · cases started <;> exact .pure _
      apply Run.Coupled.lift
      rintro rfl
      cases started with
      | ok u => exact .pure fun w w' hw => ⟨.ok ⟨rfl, rfl⟩, n', fun _ _ => hn', hw⟩
      | error payload => exact .pure fun w w' hw => ⟨.panicked payload, n', nofun, hw⟩

/-! ### The phases of an iteration -/

/-- The store with number `j` of a reset, and what comes after it. -/
theorem couple_store (rows : UInt64) {j : Nat} {a : CountdownAction} {rest : List Step}
    {Q : Unit → Unit → World → World → Prop} (hk : k = j ∨ k = 5)
    (ha : [CountdownAction.clearStart, .clearEnd, .installLatch, .armClaim rows,
      .armPending rows][j]? = some a) (hnext : ∀ now c, (Countdown.exec now c a).next = none)
    (hrest : Run.Coupled l (Beside l s s' ctx (max k (j + 1)) n latch lines tail tail')
      (Run.perform rest) (Run.perform rest) Q) :
    Run.Coupled l (Beside l s s' ctx k n latch lines tail tail')
      (Run.perform (ctx.count none a :: rest)) (Run.perform (ctx.count none a :: rest)) Q := by
  refine .perform_cons stable ?_ hrest
  intro w w' hw
  have hnone (v : World) : (v.exec .coordinator (ctx.count none a)).1 = none := by
    show (v.exec .coordinator ⟨none, .count ctx.id a⟩).1 = none
    rw [(World.exec_on v .coordinator (Step.on?_count ctx.id none a)).1, hnext]
    rfl
  have hj : j < 5 := (List.getElem?_eq_some_iff.1 ha).1
  have hstage := hw.stage
  exact ⟨hnone w, hnone w', hw.taken nofun nofun (by omega) (hw.alike.exec_reset hk ha)⟩

theorem couple_done :
    Run.Coupled l (Beside l s s' ctx k n latch lines tail tail') (Run.perform []) (Run.perform [])
      fun _ _ => Beside l s s' ctx k n latch lines tail tail' := by
  rw [Run.perform_nil]
  exact .pure fun _ _ h => h

/-- Without rows a reset releases its latch. -/
theorem couple_release :
    Run.Coupled l (Beside l s s' ctx 5 n latch lines tail tail')
      (Run.perform [ctx.count none .release]) (Run.perform [ctx.count none .release])
      fun _ _ => Beside l s s' ctx 5 n latch lines tail tail' := by
  refine .perform_cons stable ?_ couple_done
  intro w w' hw
  have hnone (v : World) : (v.exec .coordinator (ctx.count none .release)).1 = none := by
    show (v.exec .coordinator ⟨none, .count ctx.id .release⟩).1 = none
    rw [(World.exec_on v .coordinator (Step.on?_count ctx.id none .release)).1]
    rfl
  exact ⟨hnone w, hnone w', hw.taken nofun nofun le_rfl hw.alike.exec_release⟩

/-- After a reset the countdowns agree, whatever was there before the first one. -/
theorem couple_reset (rows : UInt64) (hk : k = 0 ∨ k = 5) :
    Run.Coupled l (Beside l s s' ctx k n latch lines tail tail')
      (Run.perform (ctx.reset rows)) (Run.perform (ctx.reset rows))
      fun _ _ => Beside l s s' ctx 5 n latch lines tail tail' := by
  have hlast : Run.Coupled l (Beside l s s' ctx 5 n latch lines tail tail')
      (Run.perform ((if rows = 0 then [CountdownAction.release] else []).map (ctx.count none)))
      (Run.perform ((if rows = 0 then [CountdownAction.release] else []).map (ctx.count none)))
      fun _ _ => Beside l s s' ctx 5 n latch lines tail tail' := by
    split
    · exact couple_release
    · exact couple_done
  -- each store makes one more part of the countdowns agree
  refine couple_store rows (j := 0) hk rfl (fun _ _ => rfl) ?_
  refine couple_store rows (j := 1) (by omega) rfl (fun _ _ => rfl) ?_
  refine couple_store rows (j := 2) (by omega) rfl (fun _ _ => rfl) ?_
  refine couple_store rows (j := 3) (by omega) rfl (fun _ _ => rfl) ?_
  refine couple_store rows (j := 4) (by omega) rfl (fun _ _ => rfl) ?_
  have hall : max (max (max (max (max k (0 + 1)) (1 + 1)) (2 + 1)) (3 + 1)) (4 + 1) = 5 := by omega
  rw [hall]
  exact hlast

/-- Both countdowns are armed.  The numbers of their latches differ by those that were installed
before the first run. -/
theorem couple_arm (loop : UInt32) (hk : k = 0 ∨ k = 5) :
    Run.Coupled l (Beside l s s' ctx k n latch lines [] []) (Benchmark.arm ctx loop)
      (Benchmark.arm ctx loop) fun i i' w w' => (i = l.latches + i' ∧ l.firstLatch ≤ i') ∧
        Beside l s s' ctx 5 n i' lines [] [] w w' := by
  refine (couple_log .debug _).bind (fun _ => .bind (.perform _) fun _ => .look) fun _ _ => ?_
  refine (couple_reset _ hk).bind (fun _ => .look) fun _ _ => ?_
  apply Run.Coupled.step stable
  intro w w' hw _
  have hcounters := hw.alike.counters
  exact ⟨⟨hcounters.current, hcounters.installed (by omega)⟩,
    hw.stage, hw.alike.latch_le le_rfl, hw.tasks, hw.tasks', hw.told⟩

/-- Both wait for the latch of the iteration. -/
theorem couple_await (loop : UInt32) (hfirst : l.firstLatch ≤ latch) :
    Run.Coupled l (Beside l s s' ctx 5 n latch lines [] [])
      (Benchmark.await ctx loop (l.latches + latch)) (Benchmark.await ctx loop latch)
      fun _ _ => Beside l s s' ctx 5 n latch lines [.released loop] [.released loop] := by
  refine (couple_log .debug _).bind (fun _ => .bind (.waitUntil _) fun _ => .note) fun _ _ => ?_
  refine Run.Coupled.bind (Run.Coupled.waitUntil stable ?_ fun _ _ hw => hw.settle)
    (fun _ => .note) fun _ _ => couple_note _ _ rfl rfl fun _ => rfl
  intro w w' hw
  have hcounters := hw.alike.counters
  exact hcounters.released (by omega) latch hfirst hcounters.latch

/-- Both print a result line, with times that agree where clocks are compared. -/
theorem couple_readOut (h : Matches l s s') :
    Run.Coupled l (Beside l s s' ctx 5 n latch lines [] [])
      (s.benchmark.readOut ctx (.ofNat (lines + 1))) (s'.benchmark.readOut ctx (.ofNat (lines + 1)))
      fun m m' w w' => l.Measures m m' ∧ Beside l s s' ctx 5 n latch (lines + 1) [] [] w w' := by
  unfold Benchmark.readOut
  rw [show s'.benchmark.name = s.name from h.name.symm, show s.benchmark.name = s.name from rfl]
  refine (couple_look (r := fun mark mark' => l.times = true → mark = mark') ?_).bind
    (fun _ => .bind .look fun _ => .bind .note fun _ => .pure _) fun start start' => ?_
  · intro w w' hw _
    exact (hw.alike.counters.start (by omega)).2
  apply Run.Coupled.lift
  intro hstart
  refine (couple_look (r := fun mark mark' => l.times = true → mark = mark') ?_).bind
    (fun _ => .bind .note fun _ => .pure _) fun finish finish' => ?_
  · intro w w' hw _
    exact (hw.alike.counters.finish (by omega)).2
  apply Run.Coupled.lift
  intro hfinish
  -- the line itself: its times agree if those of the countdowns have to
  refine (couple_note _ _ rfl rfl ?_).bind (fun _ => .pure _) fun _ _ => ?_
  · intro ht
    rw [hstart ht, hfinish ht]
  refine .pure fun w w' hw => ⟨⟨rfl, ?_⟩, hw.close fun es es' htold => ?_⟩
  · intro ht
    rw [hstart ht, hfinish ht]
  · refine .result _ _ _ _ ?_ htold
    intro ht
    rw [hstart ht, hfinish ht]
    exact ⟨rfl, rfl⟩

theorem couple_report (h : Matches l s s') :
    Run.Coupled l (Beside l s s' ctx 5 n latch lines [] [])
      (s.benchmark.report ctx (.ofNat (lines + 1))) (s'.benchmark.report ctx (.ofNat (lines + 1)))
      fun m m' w w' => l.Measures m m' ∧ Beside l s s' ctx 5 n latch (lines + 1) [] [] w w' := by
  rw [Benchmark.report_eq, Benchmark.report_eq]
  refine (couple_look (r := Eq) ?_).bind (fun started => ?_) fun started started' => ?_
  · -- the marks are both set, or both unset
    intro w w' hw hsound
    obtain ⟨hset, heq⟩ := hw.alike.counters.start (by omega)
    cases ht : l.times with
    | true => simp only [Stopwatch.isStarted, heq ht]
    | false =>
      have hiff := hset (hsound ht)
      rw [Bool.eq_iff_iff]
      simp only [Stopwatch.isStarted, bne_iff_ne, ne_eq, hiff]
  · split
    · exact .bind .log fun _ => Benchmark.forward_readOut _ ctx _
    · exact Benchmark.forward_readOut _ ctx _
  apply Run.Coupled.lift
  rintro rfl
  split
  · exact (couple_log .warn _).bind (fun _ => Benchmark.forward_readOut _ ctx _) fun _ _ =>
      couple_readOut h
  · exact couple_readOut h

/-! ### Iterations -/

/-- What is left of an iteration once its tasks have been torn down is the report. -/
theorem couple_finish (h : Matches l s s') {duties : List Duty}
    (hduties : duties = s'.benchmark.duties ctx.config lines) :
    Run.Coupled l
      (Beside l s s' ctx 5 n latch lines [.released (.ofNat (lines + 1))]
        [.released (.ofNat (lines + 1))])
      (Benchmark.teardown (.ofNat (lines + 1)) (s.tasksOf (duties.map l.duty)))
      (Benchmark.teardown (.ofNat (lines + 1)) (s'.tasksOf duties))
      fun _ _ => Beside l s s' ctx 5 n latch lines [] [] := by
  refine (couple_teardownLoop h _ duties).post ?_
  intro _ _ w w' hw
  exact hw.close fun es es' htold => .teardown duties hduties htold

/-- The tasks that take part in an iteration of both runs. -/
def Partners (l : Lens) (s s' : Script) (c : Config) (lines : Nat) (ts ts' : List (RowTask Unit)) :
    Prop :=
  ts = s.tasksOf ((s'.benchmark.duties c lines).map l.duty) ∧
    ts' = s'.tasksOf (s'.benchmark.duties c lines)

theorem couple_engage (h : Matches l s s') (hk : k = 0 ∨ k = 5) :
    Run.Coupled l
      (Beside l s s' ctx k (lines * ctx.config.threads.toNat) latch lines [] [])
      (s.benchmark.engage ctx (.ofNat (lines + 1))) (s'.benchmark.engage ctx (.ofNat (lines + 1)))
      fun o o' w w' => o.Like (Partners l s s' ctx.config lines) o' ∧
        ∃ n' latch' tail, (∀ ts, o = .ok ts → n' = (lines + 1) * ctx.config.threads.toNat ∧
            tail = [.released (.ofNat (lines + 1))]) ∧
          ((∀ ts, o ≠ .ok ts) → tail = []) ∧
          Beside l s s' ctx 5 n' latch' lines tail tail w w' := by
  refine (couple_arm _ hk).bind (fun i => ?_) fun i i' => ?_
  · refine .bind (forward_dispatch s ctx) fun o => ?_
    cases o with
    | ok ts => exact .bind (Benchmark.forward_await ctx _ _) fun _ => .pure _
    | failed e => exact .pure _
    | panicked p => exact .pure _
  apply Run.Coupled.lift
  rintro ⟨rfl, hfirst⟩
  -- from here on the latches are the same
  refine (couple_dispatch h).bind (fun o => ?_) fun o o' => ?_
  · cases o with
    | ok ts => exact .bind (Benchmark.forward_await ctx _ _) fun _ => .pure _
    | failed e => exact .pure _
    | panicked p => exact .pure _
  apply Run.Coupled.lift
  intro ho
  apply Run.Coupled.ex
  intro n'
  apply Run.Coupled.lift
  intro hn'
  cases ho with
  | failed e => exact .pure fun w w' hw => ⟨.failed e, n', i', [], nofun, fun _ => rfl, hw⟩
  | panicked p => exact .pure fun w w' hw => ⟨.panicked p, n', i', [], nofun, fun _ => rfl, hw⟩
  | @ok ts ts' hts =>
    -- both waits end, which tells the same line in either run
    refine (couple_await _ hfirst).bind (fun _ => .pure _) fun _ _ => .pure fun w w' hw => ?_
    exact ⟨.ok hts, n', i', _, fun _ _ => ⟨hn' _ rfl, rfl⟩, fun hne => absurd rfl (hne ts), hw⟩

theorem couple_iterate (h : Matches l s s') (hk : k = 0 ∨ k = 5) :
    Run.Coupled l
      (Beside l s s' ctx k (lines * ctx.config.threads.toNat) latch lines [] [])
      (s.benchmark.iterate ctx (.ofNat (lines + 1)))
      (s'.benchmark.iterate ctx (.ofNat (lines + 1))) fun o o' w w' =>
        o.Like l.Measures o' ∧ ∃ n' lines', (∀ m, o = .ok m → lines' = lines + 1 ∧
          n' = lines' * ctx.config.threads.toNat) ∧ Beside l s s' ctx 5 n' 0 lines' [] [] w w' := by
  refine (couple_engage h hk).bind_of (fun o ho => ?_) fun o o' => ?_
  · cases o with
    | ok ts =>
      obtain ⟨duties, rfl⟩ := s.exists_tasksOf_of_engage ctx ho
      exact .bind (s.forward_teardown _ duties) fun _ =>
        .bind (s.benchmark.forward_report ctx _) fun _ => .pure _
    | failed e => exact .pure _
    | panicked p => exact .pure _
  apply Run.Coupled.lift
  intro ho
  apply Run.Coupled.ex
  intro n'
  apply Run.Coupled.ex
  intro latch'
  apply Run.Coupled.ex
  intro tail
  apply Run.Coupled.lift
  intro hok
  apply Run.Coupled.lift
  intro hfailed
  cases ho with
  | failed e =>
    obtain rfl := hfailed nofun
    exact .pure fun w w' hw => ⟨.failed e, n', lines, nofun, hw.forget_latch⟩
  | panicked p =>
    obtain rfl := hfailed nofun
    exact .pure fun w w' hw => ⟨.panicked p, n', lines, nofun, hw.forget_latch⟩
  | @ok ts ts' hts =>
    -- the end of the wait is still to be told, together with the teardown
    obtain ⟨rfl, rfl⟩ := hts
    obtain ⟨hn', rfl⟩ := hok _ rfl
    refine (couple_finish h rfl).bind
      (fun _ => .bind (Benchmark.forward_report _ ctx _) fun _ => .pure _) fun _ _ => ?_
    refine (couple_report h).bind (fun _ => .pure _) fun m m' => ?_
    exact .pure fun w w' ⟨hm, hw⟩ => ⟨.ok hm, n', lines + 1, fun _ _ => ⟨rfl, hn'⟩, hw.forget_latch⟩

/-- The iterations of both runs end in the same way, with as many results. -/
theorem couple_iterateFrom (ctx : Context) (lines : Nat) (h : Matches l s s') (hk : k = 0 ∨ k = 5)
    (count : Nat) :
    Run.Coupled l
      (Beside l s s' ctx k (lines * ctx.config.threads.toNat) 0 lines [] [])
      (s.benchmark.iterateFrom ctx (.ofNat (lines + 1)) count)
      (s'.benchmark.iterateFrom ctx (.ofNat (lines + 1)) count) fun o o' w w' =>
        o.Like (List.Forall₂ l.Measures) o' ∧ ∃ k' n' lines', (k = 5 ∨ 0 < count → k' = 5) ∧
          Beside l s s' ctx k' n' 0 lines' [] [] w w' := by
  -- only the first iteration may find countdowns that differ
  induction count generalizing k lines with
  | zero => exact .pure fun w w' hw => ⟨.ok .nil, k, _, lines, fun hk => by simpa using hk, hw⟩
  | succ count ih =>
    unfold Benchmark.iterateFrom
    refine (couple_iterate h hk).bind (fun o => ?_) fun o o' => ?_
    · cases o with
      | ok m => exact .bind (s.forward_iterateFrom ctx _ count) fun _ => .pure _
      | failed e => exact .bind .log fun _ => .pure _
      | panicked p => exact .pure _
    apply Run.Coupled.lift
    intro ho
    apply Run.Coupled.ex
    intro n'
    apply Run.Coupled.ex
    intro lines'
    apply Run.Coupled.lift
    intro hok
    cases ho with
    | @ok m m' hm =>
      obtain ⟨rfl, rfl⟩ := hok m rfl
      have hloop : UInt32.ofNat (lines + 1) + 1 = UInt32.ofNat (lines + 1 + 1) :=
        (UInt32.ofNat_add ..).symm
      dsimp only
      rw [hloop]
      refine (ih (lines + 1) (.inr rfl)).bind (fun _ => .pure _) fun o o' => ?_
      apply Run.Coupled.lift
      intro ho
      refine .pure fun w w' ⟨k', n', lines', hk', hw⟩ => ?_
      refine ⟨?_, k', n', lines', fun _ => hk' (.inl rfl), hw⟩
      cases ho with
      | ok hms => exact .ok (.cons hm hms)
      | failed e => exact .failed e
      | panicked p => exact .panicked p
    | failed e =>
      rw [show s'.benchmark.name = s.benchmark.name from h.name.symm]
      refine (couple_log .error _).bind (fun _ => .pure _) fun _ _ => ?_
      exact .pure fun w w' hw => ⟨.failed e, 5, n', lines', fun _ => rfl, hw⟩
    | panicked p => exact .pure fun w w' hw => ⟨.panicked p, 5, n', lines', fun _ => rfl, hw⟩

/-! ### Whole runs -/

theorem couple_destroy (h : Matches l s s') :
    Run.Coupled l (Beside l s s' ctx k n latch lines [] []) s.benchmark.destroy s'.benchmark.destroy
      fun o o' w w' => (o = s'.destroy ∧ o' = s'.destroy) ∧
        Beside l s s' ctx k n latch lines [] [] w w' := by
  unfold benchmark
  dsimp only
  rw [h.recordsHooks, h.destroy]
  split
  · refine (couple_note _ _ rfl rfl fun _ => rfl).bind (fun _ => .pure _) fun _ _ =>
      .pure fun w w' hw => ?_
    exact ⟨⟨rfl, rfl⟩, hw.close fun es es' htold => .same _ rfl htold⟩
  · exact .pure fun _ _ hw => ⟨⟨rfl, rfl⟩, hw⟩

theorem couple_conclude (h : Matches l s s') {o o' : Outcome HarnessError (List Measurement)}
    (ho : o.Like (List.Forall₂ l.Measures) o') :
    Run.Coupled l (Beside l s s' ctx k n latch lines [] []) (s.benchmark.conclude o)
      (s'.benchmark.conclude o') fun o o' w w' => o.Like (List.Forall₂ l.Measures) o' ∧
        Beside l s s' ctx k n latch lines [] [] w w' := by
  unfold Benchmark.conclude
  rw [show s'.benchmark.name = s.benchmark.name from h.name.symm]
  refine (couple_destroy h).bind (fun destroyed => ?_) fun destroyed destroyed' => ?_
  · cases o <;> cases destroyed <;>
      first
      | exact .pure _
      | exact .bind .log fun _ => .pure _
  apply Run.Coupled.lift
  rintro ⟨rfl, rfl⟩
  -- the outcome of the loop decides; a failure to destroy only counts if it was good
  cases ho with
  | ok hms =>
    cases s'.destroy with
    | ok u => exact .pure fun _ _ hw => ⟨.ok hms, hw⟩
    | failed f => exact .pure fun _ _ hw => ⟨.failed _, hw⟩
    | panicked p => exact .pure fun _ _ hw => ⟨.panicked p, hw⟩
  | failed e =>
    cases s'.destroy with
    | ok u => exact .pure fun _ _ hw => ⟨.failed e, hw⟩
    | failed f =>
      refine (couple_log .error _).bind (fun _ => .pure _) fun _ _ => ?_
      exact .pure fun _ _ hw => ⟨.failed e, hw⟩
    | panicked p => exact .pure fun _ _ hw => ⟨.panicked p, hw⟩
  | panicked p =>
    cases s'.destroy with
    | ok u => exact .pure fun _ _ hw => ⟨.panicked p, hw⟩
    | failed f =>
      refine (couple_log .error _).bind (fun _ => .pure _) fun _ _ => ?_
      exact .pure fun _ _ hw => ⟨.panicked p, hw⟩
    | panicked q => exact .pure fun _ _ hw => ⟨.panicked p, hw⟩

/-- Both are initialised, and may then see different counters. -/
theorem couple_init (h : Matches l s s') (hk : l.times = true → k = 5) :
    Run.Coupled l (Beside l s s' ctx k n latch lines [] []) (s.benchmark.init ctx)
      (s'.benchmark.init ctx) fun o o' w w' => (o = s'.init ∧ o' = s'.init) ∧
        Beside l s s' ctx k n latch lines [] [] w w' := by
  unfold benchmark
  dsimp only
  rw [h.recordsHooks, h.init]
  split
  · refine (couple_look (r := fun pending pending' => l.times = true → pending = pending') ?_).bind
      (fun _ => .bind .note fun _ => .pure _) fun pending pending' => ?_
    · intro w w' hw _ ht
      rw [hw.alike.counters.pending (hk ht).ge]
    apply Run.Coupled.lift
    intro hpending
    -- counters are only told alike where clocks are
    have hsame (ht : l.times = true) :
        Event.called (.init pending) = Event.called (.init pending') := by
      rw [hpending ht]
    refine (couple_note _ _ rfl rfl hsame).bind (fun _ => .pure _) fun _ _ =>
      .pure fun w w' hw => ?_
    exact ⟨⟨rfl, rfl⟩, hw.close fun es es' htold => .init _ _ hpending htold⟩
  · exact .pure fun _ _ hw => ⟨⟨rfl, rfl⟩, hw⟩

end Beside

open Beside

variable {l : Lens} {s s' : Script} {ctx : Context} {k : Nat}

/-- The second run does what the first one does. -/
theorem coupled_run (h : Matches l s s') (hk : k = 0 ∨ k = 5) (htimes : l.times = true → k = 5) :
    Run.Coupled l (Beside l s s' ctx k 0 0 0 [] []) (s.benchmark.run ctx) (s'.benchmark.run ctx)
      fun o o' w w' => o.Like (List.Forall₂ l.Measures) o' ∧ ∃ k' n lines,
        (k = 5 ∨ s.init = .ok () ∧ 0 < ctx.config.loops.toNat → k' = 5) ∧
          Beside l s s' ctx k' n 0 lines [] [] w w' := by
  -- what follows the line that is logged unless the run is quiet
  have hrest : Run.Coupled l (Beside l s s' ctx k 0 0 0 [] [])
      (s.benchmark.runLoop ctx) (s'.benchmark.runLoop ctx)
      fun o o' w w' => o.Like (List.Forall₂ l.Measures) o' ∧ ∃ k' n lines,
        (k = 5 ∨ s.init = .ok () ∧ 0 < ctx.config.loops.toNat → k' = 5) ∧
          Beside l s s' ctx k' n 0 lines [] [] w w' := by
    unfold Benchmark.runLoop
    refine (couple_init h htimes).bind (fun o => ?_) fun o o' => ?_
    · cases o with
      | ok u => exact .bind (s.forward_iterateFrom ctx _ _) fun _ => s.forward_conclude _
      | failed f => exact .pure _
      | panicked p => exact .pure _
    apply Run.Coupled.lift
    rintro ⟨rfl, rfl⟩
    cases hinit : s'.init with
    | failed f =>
      refine .pure fun _ _ hw => ⟨.failed _, k, 0, 0, fun hk => hk.resolve_right ?_, hw⟩
      rw [h.init, hinit]
      rintro ⟨hne, -⟩
      cases hne
    | panicked p =>
      refine .pure fun _ _ hw => ⟨.panicked p, k, 0, 0, fun hk => hk.resolve_right ?_, hw⟩
      rw [h.init, hinit]
      rintro ⟨hne, -⟩
      cases hne
    | ok u =>
      have hfirst : 0 = 0 * ctx.config.threads.toNat := (Nat.zero_mul _).symm
      have hiterate := couple_iterateFrom ctx 0 h hk ctx.config.loops.toNat
      rw [← hfirst] at hiterate
      refine hiterate.bind (fun o => s.forward_conclude o) fun o o' => ?_
      apply Run.Coupled.lift
      intro ho
      apply Run.Coupled.ex
      intro k'
      apply Run.Coupled.ex
      intro n
      apply Run.Coupled.ex
      intro lines
      apply Run.Coupled.lift
      intro hk'
      refine (couple_conclude h ho).post fun o o' w w' ⟨ho, hw⟩ => ⟨ho, k', n, lines, ?_, hw⟩
      exact fun hor => hk' (hor.imp_right And.right)
  rw [Benchmark.run_eq_runLoop, Benchmark.run_eq_runLoop,
    show s'.benchmark.name = s.benchmark.name from h.name.symm]
  split
  · exact (couple_log .info _).bind (fun _ => s.forward_runLoop ctx) fun _ _ => hrest
  · exact hrest

/-- Of both runs, what they result in and the worlds that are found afterwards. -/
theorem coupled_seen (ctx : Context) (h : Matches l s s') (hk : k = 0 ∨ k = 5)
    (htimes : l.times = true → k = 5) :
    Run.Coupled l (Beside l s s' ctx k 0 0 0 [] []) (s.benchmark.run ctx).seen
      (s'.benchmark.run ctx).seen fun r r' w w' => r.1.Like (List.Forall₂ l.Measures) r'.1 ∧
        (r.2 = w ∧ r'.2 = w') ∧ ∃ k' n lines,
        (k = 5 ∨ s.init = .ok () ∧ 0 < ctx.config.loops.toNat → k' = 5) ∧
          Beside l s s' ctx k' n 0 lines [] [] w w' := by
  refine (coupled_run h hk htimes).bind (fun _ => .bind .look fun _ => .pure _) fun o o' => ?_
  apply Run.Coupled.lift
  intro ho
  apply Run.Coupled.ex
  intro k'
  apply Run.Coupled.ex
  intro n
  apply Run.Coupled.ex
  intro lines
  apply Run.Coupled.lift
  intro hk'
  have hlook : Run.Coupled l (Beside l s s' ctx k' n 0 lines [] []) (Run.look fun w => w)
      (Run.look fun w => w) fun v v' w w' => (v = w ∧ v' = w') ∧
        Beside l s s' ctx k' n 0 lines [] [] w w' :=
    .step stable fun w w' hw _ => ⟨⟨rfl, rfl⟩, hw⟩
  refine hlook.bind (fun _ => .pure _) fun v v' => .pure fun w w' hw => ?_
  exact ⟨ho, hw.1, k', n, lines, hk', hw.2⟩

end Script

end BenchLoop
