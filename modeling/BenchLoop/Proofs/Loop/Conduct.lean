/-
BenchLoop/Proofs/Loop/Conduct.lean

Building tasks, starting them and tearing them down, for any benchmark.

What a benchmark does with its tasks is its conduct: how building each of them ends,
whether it needs a thread, which steps it takes, which hooks it reports.  A benchmark
that follows a conduct (`Benchmark.Follows`) builds tasks that stand for it (`Built`),
and the loops over ranges and tasks then end as the conduct says:

* `building` is how building the tasks for some duties ends, `buildCourse` are the hooks
  that are called meanwhile;
* `startFault?` is the panic of the first thread that cannot be started;
* `dispatching` is how both together end.
-/
import BenchLoop.Proofs.Loop.Stage

namespace BenchLoop

/-- How a computation ended, without its value. -/
def Outcome.void {ε α : Type} (o : Outcome ε α) : Outcome ε Unit := o.map fun _ => ()

theorem Outcome.exists_of_map_eq_ok {ε α β : Type} {f : α → β} {o : Outcome ε α} {b : β}
    (h : o.map f = .ok b) : ∃ a, o = .ok a ∧ f a = b := by
  cases o with
  | ok a =>
    cases h
    exact ⟨a, rfl, rfl⟩
  | failed e => cases h
  | panicked p => cases h

theorem Outcome.exists_of_void_eq_ok {ε α : Type} {o : Outcome ε α} (h : o.void = .ok ()) :
    ∃ a, o = .ok a :=
  (exists_of_map_eq_ok h).imp fun _ h => h.1

/-- What a benchmark does with its tasks. -/
structure Conduct where
  /-- How building a task ends. -/
  outcome : TaskId → HookOutcome Unit := fun _ => .ok ()
  /-- Whether a task gets a thread of its own. -/
  threaded : TaskId → Bool
  /-- The steps that a task may come with, whatever drives it. -/
  line : Duty → List Step → Prop
  /-- The rows that it notifies. -/
  notified : Duty → Nat
  /-- The hooks that are recorded while a task is built. -/
  created : Duty → List Event := fun _ => []
  /-- The hooks that are recorded while a task is torn down. -/
  stopped : Duty → List Event := fun _ => []

namespace Conduct

variable (m : Conduct)

/-- The rows that the tasks for some duties notify. -/
def rows (duties : List Duty) : Nat := (duties.map m.notified).sum

/-- The duties whose tasks get threads of their own. -/
def threadDuties (duties : List Duty) : List Duty := duties.filter fun d => m.threaded d.2

/-- The hooks called while tasks are torn down. -/
def stops (duties : List Duty) : List Event := duties.flatMap m.stopped

/-- How building tasks ends. -/
def building : List Duty → Outcome HarnessError Unit
  | [] => .ok ()
  | (range, task) :: rest =>
    match m.outcome task with
    | .ok () => building rest
    | .failed cause => .failed (.taskCreation range.start range.stop cause)
    | .panicked p => .panicked p

/-- The hooks called while tasks are built, after those for the duties `built`: a failure
tears these down. -/
def buildCourse (built : List Duty) : List Duty → List Event
  | [] => []
  | d :: rest =>
    m.created d ++
      match m.outcome d.2 with
      | .ok () => buildCourse (built ++ [d]) rest
      | .failed _ => m.stops built
      | .panicked _ => []

/-- The panic of the first thread that cannot be started. -/
def startFault? (duties : List Duty) : Option Payload :=
  (m.threadDuties duties).findSome? fun d => ThreadName.refusal? d.1.name

/-- How building tasks and starting them ends. -/
def launching (duties : List Duty) : Outcome HarnessError Unit :=
  match m.building duties with
  | .ok () =>
    match m.startFault? duties with
    | none => .ok ()
    | some payload => .panicked payload
  | other => other

/-- How building and starting the tasks of an iteration ends, its duties being given. -/
def dispatching (c : Config) (duties : List Duty) : Outcome HarnessError Unit :=
  match PartitionFault.ofThreads? c.threads with
  | some fault => .panicked fault.payload
  | none => m.launching duties

/-- The hooks called meanwhile. -/
def dispatchCourse (c : Config) (duties : List Duty) : List Event :=
  match PartitionFault.ofThreads? c.threads with
  | some _ => []
  | none => m.buildCourse [] duties

/-- Whether the steps of the task for a duty may be handed out while an iteration is
dispatched: threads are started only once every task has been built. -/
def Hands (c : Config) (duties : List Duty) (d : Duty) : Prop :=
  PartitionFault.ofThreads? c.threads = none ∧
    (m.threaded d.2 = true → m.building duties = .ok ())

theorem sum_notified (duties : List Duty) :
    ((duties : Multiset Duty).map m.notified).sum = m.rows duties := by
  rw [Multiset.map_coe, Multiset.sum_coe, rows]

theorem threadDuties_cons (d : Duty) (duties : List Duty) :
    m.threadDuties (d :: duties)
      = if m.threaded d.2 then d :: m.threadDuties duties else m.threadDuties duties :=
  List.filter_cons

theorem threadDuties_append (built duties : List Duty) :
    m.threadDuties (built ++ duties) = m.threadDuties built ++ m.threadDuties duties :=
  List.filter_append built duties

/-- Once a task has been built, its steps are left to be handed out only if it needs a
thread. -/
theorem rest_of_built (d : Duty) (built duties : List Duty) :
    (if m.threaded d.2 then
        d ::ₘ ((duties : Multiset Duty) + (m.threadDuties built : Multiset Duty))
      else (duties : Multiset Duty) + (m.threadDuties built : Multiset Duty))
      = (duties : Multiset Duty) + (m.threadDuties (built ++ [d]) : Multiset Duty) := by
  have hnil : m.threadDuties [] = [] := rfl
  rw [threadDuties_append, threadDuties_cons, hnil, ← Multiset.coe_add]
  split
  · rw [← Multiset.cons_coe, Multiset.add_cons, Multiset.add_cons, Multiset.coe_nil, add_zero]
  · rw [Multiset.coe_nil, add_zero]

end Conduct

variable {σ : Type} {ctx : Context} {m : Conduct} {known : Nat → σ → Prop}

/-- A task that stands for its duty. -/
structure Built (m : Conduct) (ctx : Context) (known : Nat → σ → Prop) (d : Duty)
    (t : RowTask σ) : Prop where
  range : t.range = d.1
  needsThread : t.needsThread = m.threaded d.2
  steps : m.threaded d.2 = true → m.line d (t.steps ctx)
  stop (r : Regime) (rest : Multiset Duty) (tasks : TaskId) (course : List Event) :
    Run.Ends (Stage r known rest [] tasks course) t.stop
      fun _ => Stage r known rest [] tasks (course ++ m.stopped d)

/-- A benchmark that builds its tasks as a conduct says. -/
structure Benchmark.Follows (b : Benchmark σ) (m : Conduct) (ctx : Context)
    (known : Nat → σ → Prop) : Prop where
  mono : ∀ n k target, known n target → n ≤ k → known k target
  create (r : Regime) (d : Duty) (rest : Multiset Duty) (tasks : TaskId) (course : List Event) :
    (m.threaded d.2 = false → ∀ steps, m.line d steps → r.admits d steps) →
    Run.Ends (Stage r known (d ::ₘ rest) [] tasks course)
      (b.createTask d.2 d.1 ctx) fun outcome w target => outcome.void = m.outcome d.2 ∧
        ∃ left, (∀ t, outcome = .ok t → Built m ctx known d t ∧
            left = if m.threaded d.2 then d ::ₘ rest else rest) ∧
          Stage r known left [] tasks (course ++ m.created d) w target

namespace RowTask

variable {r : Regime} {rest : Multiset Duty} {tasks : TaskId} {course : List Event}

theorem ends_teardown {d : Duty} {t : RowTask σ} (ht : Built m ctx known d t) :
    Run.Ends (Stage r known rest [] tasks course) t.teardown
      fun _ => Stage r known rest [] tasks (course ++ m.stopped d) := by
  refine (ht.stop r rest tasks course).bind fun outcome => ?_
  cases outcome with
  | ok u => exact .pure fun _ _ h => h
  | failed f => exact (Stage.ends_log _ _).bind fun _ => .pure fun _ _ h => h
  | panicked p => exact (Stage.ends_log _ _).bind fun _ => .pure fun _ _ h => h

theorem ends_teardownAll {duties : List Duty} {ts : List (RowTask σ)}
    (hts : List.Forall₂ (Built m ctx known) duties ts) :
    Run.Ends (Stage r known rest [] tasks course) (teardownAll ts)
      fun _ => Stage r known rest [] tasks (course ++ m.stops duties) := by
  induction hts generalizing course with
  | nil => exact .pure fun _ _ h => by simpa [Conduct.stops] using h
  | cons ht _ ih =>
    refine (ends_teardown ht).bind fun _ => ih.bind fun _ => .pure fun _ _ h => ?_
    simpa [Conduct.stops, List.append_assoc] using h

/-- A task starts its thread unless its name is refused. -/
theorem ends_spawn (hmono : ∀ n k target, known n target → n ≤ k → known k target)
    {d : Duty} {t : RowTask σ} (ht : Built m ctx known d t)
    (hallowed : r.admits d (t.steps ctx)) :
    Run.Ends (Stage r known (d ::ₘ rest) [] tasks course)
      (t.spawn ctx) fun out w target => ∃ left, Stage r known left [] tasks course w target ∧
        match ThreadName.refusal? d.1.name with
        | some payload => out = .error payload
        | none => (∃ i, out = .ok i) ∧ left = rest := by
  simp only [spawn, ht.range]
  cases ThreadName.refusal? d.1.name with
  | some payload => exact .pure fun w target h => ⟨_, h, rfl⟩
  | none =>
    refine (Stage.ends_spawn hmono hallowed d.1.name).bind fun i => .pure fun w target h => ?_
    exact ⟨rest, h, ⟨i, rfl⟩, rfl⟩

end RowTask

namespace Benchmark

variable {b : Benchmark σ} {r : Regime} {rest : Multiset Duty} {tasks : TaskId}
variable {course : List Event}

/-- Building tasks ends as the conduct says.  The steps of the tasks that need a thread are
left to hand out. -/
theorem ends_createTasks (hb : b.Follows m ctx known) {ranges : List RowRange}
    {built : List Duty} {ts : List (RowTask σ)}
    (hbuilt : List.Forall₂ (Built m ctx known) built ts.reverse)
    (hadmits : ∀ d ∈ ranges.zipIdx tasks, m.threaded d.2 = false → ∀ steps, m.line d steps →
      r.admits d steps) :
    Run.Ends
      (Stage r known
        ((ranges.zipIdx tasks : Multiset Duty) + (m.threadDuties built : Multiset Duty)) [] tasks
        course)
      (b.createTasks ctx ts ranges) fun outcome w target =>
        outcome.void = m.building (ranges.zipIdx tasks) ∧
        ∃ (left : Multiset Duty) (n : TaskId), (∀ ts', outcome = .ok ts' →
            n = tasks + ranges.length ∧
            left = m.threadDuties (built ++ ranges.zipIdx tasks) ∧
            List.Forall₂ (Built m ctx known) (built ++ ranges.zipIdx tasks) ts') ∧
          Stage r known left [] n (course ++ m.buildCourse built (ranges.zipIdx tasks)) w
            target := by
  -- over the ranges that are left: the tasks built so far grow by one with each
  induction ranges generalizing built ts tasks course with
  | nil =>
    refine .pure fun w target h => ⟨rfl, m.threadDuties built, tasks, ?_, ?_⟩
    · rintro ts' ⟨rfl⟩
      simpa using hbuilt
    · simpa [Conduct.buildCourse] using h
  | cons range ranges ih =>
    simp only [List.zipIdx_cons, List.mem_cons, forall_eq_or_imp] at hadmits
    obtain ⟨hallowed, hadmits⟩ := hadmits
    simp only [List.zipIdx_cons, Conduct.building, Conduct.buildCourse]
    refine Stage.ends_nextTask.bind fun task => Run.Ends.lift ?_
    rintro rfl
    refine Run.Ends.bind ((hb.create r (range, task) _ _ _ hallowed).pre fun _ _ h => by
      rwa [← Multiset.cons_coe, Multiset.cons_add] at h) fun outcome => Run.Ends.lift fun hvoid =>
      Run.Ends.ex fun left => Run.Ends.lift fun hok => ?_
    cases outcome with
    | failed cause =>
      -- the tasks built before it are torn down, and no range behind it is looked at
      have hout : m.outcome task = .failed cause := hvoid.symm
      simp only [hout]
      refine (RowTask.ends_teardownAll hbuilt).bind fun _ => .pure fun w target h => ?_
      exact ⟨rfl, left, task + 1, nofun, by rwa [List.append_assoc] at h⟩
    | panicked p =>
      have hout : m.outcome task = .panicked p := hvoid.symm
      simp only [hout]
      exact .pure fun w target h => ⟨rfl, left, task + 1, nofun, by simpa using h⟩
    | ok t =>
      have hout : m.outcome task = .ok () := hvoid.symm
      simp only [hout]
      obtain ⟨ht, rfl⟩ := hok t rfl
      -- the new task joins those built, in the order in which they are handed on
      have hbuilt' : List.Forall₂ (Built m ctx known) (built ++ [(range, task)])
          (t :: ts).reverse := by
        rw [List.reverse_cons]
        exact List.rel_append hbuilt (.cons ht .nil)
      have hlength : task + (range :: ranges).length = task + 1 + ranges.length :=
        Nat.add_right_comm task ranges.length 1
      rw [m.rest_of_built, hlength, List.append_cons built (range, task)
        (ranges.zipIdx (task + 1)), ← List.append_assoc]
      exact ih hbuilt' hadmits

/-- Starting tasks ends as the conduct says.  If it goes well, nothing is left to hand
out. -/
theorem ends_startTasks (hb : b.Follows m ctx known) {duties : List Duty}
    {ts : List (RowTask σ)} (hts : List.Forall₂ (Built m ctx known) duties ts)
    (hadmits : ∀ d ∈ duties, m.threaded d.2 = true → ∀ steps, m.line d steps →
      r.admits d steps) :
    Run.Ends (Stage r known (m.threadDuties duties) [] tasks course) (startTasks ctx ts)
      fun out w target =>
        out = (match m.startFault? duties with
          | none => .ok ()
          | some payload => .error payload) ∧
        ∃ left, (out = .ok () → left = 0) ∧ Stage r known left [] tasks course w target := by
  induction hts with
  | nil => exact .pure fun w target h => ⟨rfl, 0, fun _ => rfl, h⟩
  | @cons d t duties ts ht _ ih =>
    obtain ⟨hallowed, hadmits⟩ := List.forall_mem_cons.1 hadmits
    have ih := ih hadmits
    simp only [startTasks, ht.needsThread, Conduct.startFault?, Conduct.threadDuties_cons] at ih ⊢
    cases hthread : m.threaded d.2 with
    | false =>
      simp only [Bool.false_eq_true, if_false]
      exact (Stage.ends_log _ _).bind fun _ => ih
    | true =>
      simp only [if_true, List.findSome?_cons]
      have hline := ht.steps hthread
      refine ((RowTask.ends_spawn hb.mono ht (hallowed hthread _ hline)).pre fun w target h => by
        rwa [← Multiset.cons_coe] at h).bind fun out => Run.Ends.ex fun left => ?_
      -- a name that is refused stops the loop before its thread exists
      cases hname : ThreadName.refusal? d.1.name with
      | some payload =>
        intro s hs
        obtain ⟨hstage, rfl⟩ := hs
        exact ⟨_, s, rfl, rfl, left, nofun, hstage⟩
      | none =>
        intro s hs
        obtain ⟨hstage, ⟨i, rfl⟩, rfl⟩ := hs
        exact ih s hstage

/-- The duties of an iteration whose first task has a given number. -/
def dutiesFrom (b : Benchmark σ) (c : Config) (first : TaskId) : List Duty :=
  (taskRanges b.name c.rows c.threads).zipIdx first

/-- Building and starting the tasks of an iteration ends as the conduct says. -/
theorem ends_dispatch (hb : b.Follows m ctx known)
    (hadmits : ∀ d ∈ b.dutiesFrom ctx.config tasks,
      m.Hands ctx.config (b.dutiesFrom ctx.config tasks) d → ∀ steps, m.line d steps →
      r.admits d steps) :
    Run.Ends (Stage r known (b.dutiesFrom ctx.config tasks) [] tasks course)
      (b.dispatch ctx) fun outcome w target =>
        outcome.void = m.dispatching ctx.config (b.dutiesFrom ctx.config tasks) ∧
        ∃ left n, (∀ ts, outcome = .ok ts → left = 0 ∧ n = tasks + ctx.config.threads.toNat ∧
            List.Forall₂ (Built m ctx known) (b.dutiesFrom ctx.config tasks) ts) ∧
          Stage r known left [] n
            (course ++ m.dispatchCourse ctx.config (b.dutiesFrom ctx.config tasks)) w target := by
  unfold dispatch Conduct.dispatching Conduct.dispatchCourse taskRanges?
  cases hroom : PartitionFault.ofThreads? ctx.config.threads with
  | some fault => exact .pure fun w target h => ⟨rfl, _, _, nofun, by simpa using h⟩
  | none =>
    dsimp only
    have hnone : List.Forall₂ (Built m ctx known) [] ([] : List (RowTask σ)).reverse := .nil
    -- first all tasks are built
    refine Run.Ends.bind ((ends_createTasks hb hnone fun d hd hunthreaded =>
      hadmits d hd ⟨hroom, fun h => absurd h (by simp [hunthreaded])⟩).pre fun _ _ h => by
        simpa [Conduct.threadDuties, dutiesFrom] using h) fun outcome =>
      Run.Ends.lift fun hvoid => Run.Ends.ex fun left => Run.Ends.ex fun n =>
      Run.Ends.lift fun hok => ?_
    have hbuilding : m.building (b.dutiesFrom ctx.config tasks) = outcome.void := hvoid.symm
    simp only [Conduct.launching, hbuilding]
    cases outcome with
    | failed e => exact .pure fun w target h => ⟨rfl, left, n, nofun, h⟩
    | panicked p => exact .pure fun w target h => ⟨rfl, left, n, nofun, h⟩
    | ok ts =>
      obtain ⟨rfl, rfl, hts⟩ := hok ts rfl
      have hts : List.Forall₂ (Built m ctx known) (b.dutiesFrom ctx.config tasks) ts := hts
      -- then their threads are started, which hands out all that is left
      refine (ends_startTasks hb hts fun d hd _ => hadmits d hd ⟨hroom, fun _ => hbuilding⟩).bind
        fun out => Run.Ends.lift fun hout => Run.Ends.ex fun left => Run.Ends.lift fun hleft => ?_
      cases hfault : m.startFault? (b.dutiesFrom ctx.config tasks) with
      | none =>
        rw [hfault] at hout
        subst hout
        refine .pure fun w target h => ⟨rfl, left, _, ?_, h⟩
        rintro ts' ⟨rfl⟩
        exact ⟨hleft rfl, by rw [length_taskRanges], hts⟩
      | some payload =>
        rw [hfault] at hout
        subst hout
        exact .pure fun w target h => ⟨rfl, left, _, nofun, h⟩

end Benchmark

end BenchLoop
