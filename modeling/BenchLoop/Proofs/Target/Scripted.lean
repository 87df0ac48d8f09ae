/-
BenchLoop/Proofs/Target/Scripted.lean

Scripted benchmarks follow their scripts: the conduct of a script is read off it
(`Script.conduct`), and building a task ends, drives the task and reports its hooks as
the conduct says (`Script.follows`), under any regime.
-/
import BenchLoop.Target.Scripted
import BenchLoop.Proofs.Context
import BenchLoop.Proofs.Loop.Accounts

namespace BenchLoop

open CountdownAction

/-- The steps that a task takes, whatever drives it. -/
def TaskScript.line (s : TaskScript) (id : TaskId) (range : RowRange) (ctx : Context) :
    List Step :=
  match s.drive? with
  | none => (s.toTask id range).steps ctx
  | some _ => s.drivenSteps id range ctx

namespace Script

/-- What a script says about its tasks. -/
def conduct (s : Script) (ctx : Context) : Conduct where
  outcome := s.create
  threaded id := (s.task id).drive?.isNone
  line d steps := steps = (s.task d.2).line d.2 d.1 ctx
  notified d := Step.tally ctx.id units ((s.task d.2).line d.2 d.1 ctx)
  created d := [.called (.create d.1)]
  stopped d := if (s.task d.2).recordsStop then [.called (.stop d.1)] else []

variable {s : Script} {ctx : Context}

theorem orderly_body {t : TaskScript} {id : TaskId} {range : RowRange} :
    ∀ step ∈ (t.body id range ctx).steps, step.isOpening ctx.id ∧ step.task = some id := by
  unfold TaskScript.body
  split
  · exact nofun
  · rintro step (_ | ⟨_, hstep⟩)
    · exact ⟨rfl, rfl⟩
    · obtain ⟨count, -, rfl⟩ := List.mem_map.1 hstep
      exact ⟨Context.isOpening_notify, rfl⟩

/-- The steps of a task are its own, and none of them is a panic or part of a notification that
is under way. -/
theorem isOpening_line (d : Duty) : ∀ step ∈ (s.task d.2).line d.2 d.1 ctx,
    step.isOpening ctx.id ∧ step.task = some d.2 := by
  have hstart (id : TaskId) : (ctx.markStarted id).isOpening ctx.id ∧
      (ctx.markStarted id).task = some id := ⟨Context.isOpening_markStarted, rfl⟩
  obtain ⟨range, id⟩ := d
  simp only [TaskScript.line]
  split
  · simp only [RowTask.steps, TaskScript.toTask, List.cons_append, List.mem_cons,
      List.mem_append, List.not_mem_nil, or_false]
    rintro step (rfl | hstep | rfl)
    · exact hstart id
    · exact orderly_body step hstep
    · exact ⟨rfl, rfl⟩
  · simp only [TaskScript.drivenSteps, List.mem_append]
    rintro step (hstep | hstep)
    · split at hstep
      · obtain rfl := List.mem_singleton.1 hstep
        exact hstart id
      · cases hstep
    · exact orderly_body step hstep

theorem orderly (s : Script) (ctx : Context) : (s.conduct ctx).Orderly s.benchmark ctx where
  tally := by
    rintro k d - steps rfl
    rfl
  opening := by
    rintro k d - steps rfl step h
    exact (isOpening_line d step h).1
  own := by
    rintro k d - steps rfl step h
    exact (isOpening_line d step h).2

theorem built {d : Duty} :
    Built (s.conduct ctx) ctx (fun _ (_ : Unit) => True) d ((s.task d.2).toTask d.2 d.1) where
  range := rfl
  needsThread := rfl
  steps h := by
    simp only [conduct, Option.isNone_iff_eq_none] at h
    simp only [conduct, TaskScript.line, h]
  stop r rest tasks course := by
    simp only [TaskScript.toTask, TaskScript.stopHook, conduct]
    split
    · exact (Stage.ends_note rfl).bind fun _ => .pure fun _ _ h => h
    · exact .pure fun _ _ h => by simpa using h

/-- The rows that the task for a duty notifies. -/
def notified (s : Script) (d : Duty) : Nat :=
  (((s.task d.2).reporting.countsFor d.1).map UInt32.toNat).sum

theorem tally_notify (id : TaskId) (counts : List UInt32) :
    Step.tally ctx.id units (counts.map (ctx.notify id) : List Step)
      = (counts.map UInt32.toNat).sum := by
  induction counts with
  | nil => rfl
  | cons count counts ih =>
    rw [List.map_cons, ← Multiset.cons_coe, Step.tally_cons, ih, List.map_cons, List.sum_cons]
    simp [Context.notify, Context.count, Step.on?_count, units]

/-- Whatever drives it, a task notifies the counts of its script. -/
theorem tally_line {keys : List UInt32} {d : Duty} (hkeys : ctx.keyList d.1 = .ok keys) :
    (s.conduct ctx).notified d = s.notified d := by
  obtain ⟨range, id⟩ := d
  have hstart : Step.tally ctx.id units {ctx.markStarted id} = 0 := by
    simp [← Multiset.cons_zero, Context.markStarted, Context.count, Step.on?_count, units]
  have hbody : Step.tally ctx.id units ((s.task id).body id range ctx).steps
      = s.notified (range, id) := by
    simp only [TaskScript.body, hkeys, ← Multiset.cons_coe, Step.tally_cons, tally_notify]
    exact Nat.zero_add _
  have hlog (level : LogLevel) (message : String) :
      Step.tally ctx.id units {(⟨some id, .log level message⟩ : Step)} = 0 := rfl
  -- marking the start and logging count for nothing, whoever does it
  simp only [conduct, TaskScript.line]
  split
  · simp only [RowTask.steps, TaskScript.toTask, List.cons_append, ← Multiset.cons_coe,
      ← Multiset.coe_add, ← Multiset.singleton_add, Multiset.coe_nil, add_zero, Step.tally_add]
    rw [hstart, hbody, hlog]
    omega
  · simp only [TaskScript.drivenSteps, ← Multiset.coe_add, Step.tally_add, hbody]
    split
    · rw [Multiset.coe_singleton, hstart, Nat.zero_add]
    · exact Nat.zero_add _

/-- The rows of an iteration are those that its tasks notify. -/
theorem rows_duties {config : Config} (id : ContextId) (drawn : UInt64)
    (hvalid : config.fault? = none) (k : Nat) :
    (s.conduct (.ofConfig id config drawn)).rows (s.benchmark.duties config k)
      = ((s.benchmark.duties config k).map s.notified).sum := by
  refine congrArg List.sum (List.map_congr_left fun d hd => ?_)
  exact tally_line (Context.keyList_of_mem id drawn hvalid (List.fst_mem_of_mem_zipIdx hd))

/-- Tasks that notify every row of their ranges notify the rows of the iteration. -/
theorem sum_notified {config : Config} (hthreads : 0 < config.threads.toNat)
    (hreporting : ∀ t, (s.task t).reporting = .eachRow) (k : Nat) :
    ((s.benchmark.duties config k).map s.notified).sum = config.rows.toNat := by
  have hnotified (d : Duty) : s.notified d = d.1.rowCount := by
    simp [notified, hreporting, Reporting.countsFor]
  rw [List.map_congr_left fun d _ => hnotified d, s.benchmark.sum_rowCount_duties hthreads]

/-- Building a task goes as the script says. -/
theorem follows (s : Script) (ctx : Context) :
    s.benchmark.Follows (s.conduct ctx) ctx fun _ _ => True where
  mono _ _ _ _ _ := trivial
  create r d rest tasks course hallowed := by
    obtain ⟨range, id⟩ := d
    refine Run.Ends.bind (Stage.ends_note rfl) fun _ => ?_
    cases hcreate : s.create id with
    | failed cause => exact .pure fun w target h => ⟨hcreate.symm, _, nofun, h⟩
    | panicked p => exact .pure fun w target h => ⟨hcreate.symm, _, nofun, h⟩
    | ok u =>
      have hok {left : Multiset Duty}
          (hleft : left = if (s.conduct ctx).threaded id then (range, id) ::ₘ rest else rest) :
          ∀ t, (Outcome.ok ((s.task id).toTask id range) : HookOutcome (RowTask Unit)) = .ok t →
            Built (s.conduct ctx) ctx (fun _ _ => True) (range, id) t ∧
              left = if (s.conduct ctx).threaded id then (range, id) ::ₘ rest else rest := by
        rintro t ⟨rfl⟩
        exact ⟨built, hleft⟩
      unfold drive
      -- nothing drives the task but its own thread, or the script has it driven at once
      cases hdrive : (s.task id).drive? with
      | none =>
        refine Run.Ends.bind (.pure fun _ _ h => h) fun _ => .pure fun w target h =>
          ⟨hcreate.symm, _, hok ?_, h⟩
        simp [conduct, hdrive]
      | some drive =>
        have hthreaded : (s.conduct ctx).threaded id = false := by simp [conduct, hdrive]
        have hline : (s.task id).line id range ctx = (s.task id).drivenSteps id range ctx := by
          simp only [TaskScript.line, hdrive]
        have hleft : rest = if (s.conduct ctx).threaded id then (range, id) ::ₘ rest else rest := by
          simp [hthreaded]
        have hallowed := hallowed hthreaded _ rfl
        rw [← hline]
        cases drive with
        | backgroundThread =>
          have hspawn : Run.Ends
              (Stage r (fun _ (_ : Unit) => True) ((range, id) ::ₘ rest) [] tasks
                (course ++ [.called (.create range)]))
              (Run.spawn "background" ((s.task id).line id range ctx))
              fun _ => Stage r (fun _ _ => True) rest [] tasks
                (course ++ [.called (.create range)]) :=
            Stage.ends_spawn (fun _ _ _ _ _ => trivial) hallowed _
          exact Run.Ends.bind (hspawn.bind fun _ => .pure fun _ _ h => h) fun _ =>
            .pure fun w target h => ⟨hcreate.symm, rest, hok hleft, h⟩
        | builder =>
          exact (Stage.ends_perform hallowed).bind fun _ => .pure fun w target h =>
            ⟨hcreate.symm, rest, hok hleft, h⟩

/-! ### The hooks around the loop -/

variable {r : Regime} {rest : Multiset Duty} {tasks : TaskId} {course : List Event}

theorem ends_init :
    Run.Ends (Stage r (fun _ (_ : Unit) => True) rest [] tasks course) (s.benchmark.init ctx)
      fun outcome w target => outcome = s.init ∧ ∃ pending,
        Stage r (fun _ _ => True) rest [] tasks
          (course ++ if s.recordsHooks then [.called (.init pending)] else []) w target := by
  simp only [benchmark]
  split
  · refine (Stage.ends_look _).bind fun pending => (Stage.ends_note rfl).bind fun _ =>
      .pure fun w target h => ⟨rfl, pending, h⟩
  · exact .pure fun w target h => ⟨rfl, 0, by simpa using h⟩

theorem readies (s : Script) (ctx : Context) : s.benchmark.Readies ctx (fun _ _ => True) () :=
  fun _ _ => ends_init.mono (fun _ _ h => h.imp fun _ => trivial)
    fun _ _ _ h _ => ⟨_, h.2.choose_spec⟩

theorem ends_destroy :
    Run.Ends (Stage r (fun _ (_ : Unit) => True) rest [] tasks course) s.benchmark.destroy
      fun outcome w target => outcome = s.destroy ∧
        Stage r (fun _ _ => True) rest [] tasks
          (course ++ if s.recordsHooks then [.called .destroy] else []) w target := by
  simp only [benchmark]
  split
  · exact (Stage.ends_note rfl).bind fun _ => .pure fun w target h => ⟨rfl, h⟩
  · exact .pure fun w target h => ⟨rfl, by simpa using h⟩

end Script

end BenchLoop
