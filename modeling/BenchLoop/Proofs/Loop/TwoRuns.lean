/-
BenchLoop/Proofs/Loop/TwoRuns.lean

Two scripted benchmarks that behave alike, run side by side.  The scripts agree but, where texts
of the log are not compared, for how bodies and teardowns of tasks end (`Script.Matches`).

    Script.Beside l s s' ctx k n latch lines tail tail' w w'

is what holds between two steps of the coordinators: the worlds are alike, `n` tasks have been
asked for and `lines` results printed, and both coordinators tell the same story (`Lens.Told`)
up to what is noted in `tail` and `tail'`.

There is one lemma for each thing that a coordinator does, `Beside.couple_note` and so on.  From
these the loops are put together, part by part.
-/
import BenchLoop.Proofs.Loop.Onward
import BenchLoop.Proofs.Machine.Likeness

namespace BenchLoop

/-! ### What a coordinator notes -/

/-- What an entry of the journal tells beside steps: the call of a hook, a result line, the end of
a wait, a line that the coordinator has logged. -/
def Entry.remark? (e : Entry) : Option Event :=
  match e.event with
  | .performed .. => none
  | .logged .. => if e.actor = .coordinator then some e.event else none
  | _ => some e.event

/-- The line of the output that an event is, if it is one. -/
def Event.line? : Event → Option String
  | .printed line => some line
  | _ => none

/-- The call that an event is, if it is one. -/
def Event.call? : Event → Option HookCall
  | .called hook => some hook
  | _ => none

/-- Whether an event is a line of the log. -/
def Event.isLogged : Event → Bool
  | .logged .. => true
  | _ => false

/-- The line of the log that an event is, if it is one. -/
def Event.logLine? : Event → Option (LogLevel × String)
  | .logged level message => some (level, message)
  | _ => none

namespace World

/-- All that is told beside steps, the earliest first. -/
def remarks (w : World) : List Event := w.journal.reverse.filterMap Entry.remark?

variable {w : World}

/-- What does not look at steps, nor at lines that threads log, is a view of the remarks. -/
theorem filterMap_eq_remarks {α : Type} {view : Entry → Option α} {f : Event → Option α}
    (hview : ∀ actor event, view ⟨actor, event⟩ = (Entry.remark? ⟨actor, event⟩).bind f) :
    w.journal.reverse.filterMap view = w.remarks.filterMap f := by
  rw [remarks, List.filterMap_filterMap]
  exact List.filterMap_congr fun e _ => hview e.actor e.event

theorem output_eq_remarks : w.output = w.remarks.filterMap Event.line? :=
  filterMap_eq_remarks fun actor event => by
    cases event <;> cases actor <;> rfl

theorem calls_eq_remarks : w.calls = w.remarks.filterMap Event.call? :=
  filterMap_eq_remarks fun actor event => by
    cases event <;> cases actor <;> rfl

theorem coordinatorLog_eq_remarks : w.coordinatorLog = w.remarks.filterMap Event.logLine? := by
  rw [coordinatorLog, log, List.filterMap_filterMap]
  refine filterMap_eq_remarks fun actor event => ?_
  cases event <;> cases actor <;> rfl

theorem remarks_of_journal {w' : World} {e : Entry} (h : w'.journal = e :: w.journal) :
    w'.remarks = w.remarks ++ e.remark?.toList := by
  rw [remarks, h, List.reverse_cons, List.filterMap_append]
  cases he : e.remark? <;> simp [he, remarks]

theorem remarks_note {event : Event} (he : event.isStep = false) :
    (w.note .coordinator event).remarks = w.remarks ++ [event] := by
  rw [remarks_of_journal (w := w) (e := ⟨.coordinator, event⟩) rfl]
  cases event with
  | performed step took => cases he
  | _ => rfl

/-- Steps do not show, except for lines that the coordinator logs. -/
theorem remarks_exec (actor : Actor) {s : Step}
    (hs : actor = .coordinator → ∀ level message, s.action ≠ .log level message) :
    (w.exec actor s).2.remarks = w.remarks := by
  obtain ⟨task, action⟩ := s
  cases action with
  | log level message =>
    cases actor with
    | coordinator => exact absurd rfl (hs rfl level message)
    | thread i => exact (remarks_of_journal rfl).trans (List.append_nil _)
  | access store a =>
    cases a <;> exact (remarks_of_journal rfl).trans (List.append_nil _)
  | _ => exact (remarks_of_journal rfl).trans (List.append_nil _)

theorem remarks_turn (t : Turn) : (w.turn t).remarks = w.remarks := by
  obtain ⟨n, ht⟩ | ⟨i, s, rest, -, -, ht⟩ := w.turn_cases t
  · rw [ht]
    rfl
  · rw [ht]
    exact remarks_exec (.thread i) nofun

theorem remarks_burst (turns : List Turn) : (w.burst turns).remarks = w.remarks := by
  induction turns generalizing w with
  | nil => rfl
  | cons t turns ih => exact (ih (w := w.turn t)).trans (remarks_turn t)

end World

/-! ### Scripts that match -/

namespace Script

/-- The scripts of two benchmarks that behave alike.  Where texts of the log are not compared,
bodies and teardowns may end differently. -/
structure Matches (l : Lens) (s s' : Script) : Prop where
  name : s.name = s'.name
  init : s.init = s'.init
  destroy : s.destroy = s'.destroy
  recordsHooks : s.recordsHooks = s'.recordsHooks
  create : ∀ t, s.create (l.tasks + t) = s'.create t
  reporting : ∀ t, (s.task (l.tasks + t)).reporting = (s'.task t).reporting
  drive? : ∀ t, (s.task (l.tasks + t)).drive? = (s'.task t).drive?
  claimsStart : ∀ t, (s.task (l.tasks + t)).claimsStart = (s'.task t).claimsStart
  recordsStop : ∀ t, (s.task (l.tasks + t)).recordsStop = (s'.task t).recordsStop
  start : l.texts = true → ∀ t, (s.task (l.tasks + t)).start = (s'.task t).start
  stop : l.texts = true → ∀ t, (s.task (l.tasks + t)).stop = (s'.task t).stop

end Script

/-- A duty of the second run, with the number of its task in the first one. -/
def Lens.duty (l : Lens) (d : Duty) : Duty := (d.1, l.tasks + d.2)

namespace Script.Matches

variable {l : Lens} {s s' : Script} {ctx : Context}

theorem countsFor (h : Matches l s s') (t : TaskId) (range : RowRange) :
    (s.task (l.tasks + t)).reporting.countsFor range = (s'.task t).reporting.countsFor range := by
  rw [h.reporting]

/-- The work of a task is the same in both runs. -/
theorem works_body (h : Matches l s s') (t : TaskId) (range : RowRange) :
    List.Forall₂ (l.Works ctx.id)
      ((s.task (l.tasks + t)).body (l.tasks + t) range ctx).steps
      ((s'.task t).body t range ctx).steps := by
  unfold TaskScript.body
  cases ctx.keyList range with
  | error payload => exact .nil
  | ok keys =>
    refine .cons (.visit t range keys) ?_
    rw [h.countsFor, List.forall₂_map_left_iff, List.forall₂_map_right_iff]
    exact List.forall₂_same.2 fun count _ => .count t (.subtract count)

theorem works_driven (h : Matches l s s') (t : TaskId) (range : RowRange) :
    List.Forall₂ (l.Works ctx.id)
      ((s.task (l.tasks + t)).drivenSteps (l.tasks + t) range ctx)
      ((s'.task t).drivenSteps t range ctx) := by
  refine List.rel_append ?_ (h.works_body t range)
  rw [h.claimsStart]
  split
  · exact .cons (.count t .readStart) .nil
  · exact .nil

theorem steps_driven (h : Matches l s s') (t : TaskId) (range : RowRange) :
    List.Forall₂ (l.Steps ctx.id)
      ((s.task (l.tasks + t)).drivenSteps (l.tasks + t) range ctx)
      ((s'.task t).drivenSteps t range ctx) :=
  (h.works_driven t range).imp fun _ _ => .work

/-- So is all that its thread does but for the line that it logs in the end. -/
theorem steps_task (h : Matches l s s') (d : Duty) :
    List.Forall₂ (l.Steps ctx.id) ((s.taskOf (l.duty d)).steps ctx)
      ((s'.taskOf d).steps ctx) := by
  refine List.rel_append (.cons (.work (.count d.2 .readStart)) ?_) (.cons ?_ .nil)
  · exact (h.works_body d.2 d.1).imp fun _ _ => .work
  · apply Lens.Steps.log
    intro ht
    have houtcome :
        ((s.taskOf (l.duty d)).body ctx).outcome = ((s'.taskOf d).body ctx).outcome := by
      show ((s.task (l.tasks + d.2)).body (l.tasks + d.2) d.1 ctx).outcome
        = ((s'.task d.2).body d.2 d.1 ctx).outcome
      unfold TaskScript.body
      cases ctx.keyList d.1 with
      | error payload => rfl
      | ok keys => exact h.start ht d.2
    rw [houtcome]
    exact ⟨rfl, rfl⟩

theorem stopCall (h : Matches l s s') (d : Duty) :
    (s.task (l.duty d).2).stopCall d.1 = (s'.task d.2).stopCall d.1 := by
  unfold TaskScript.stopCall
  rw [show (s.task (l.duty d).2).recordsStop = _ from h.recordsStop d.2]

theorem complaint (h : Matches l s s') (ht : l.texts = true) (d : Duty) :
    (s.task (l.duty d).2).complaint d.1 = (s'.task d.2).complaint d.1 := by
  unfold TaskScript.complaint
  rw [show (s.task (l.duty d).2).stop = _ from h.stop ht d.2]

theorem failures (h : Matches l s s') (ht : l.texts = true) (duties : List Duty) :
    s.failures (duties.map l.duty) = s'.failures duties := by
  unfold Script.failures
  rw [List.countP_map]
  refine List.countP_congr fun d _ => ?_
  show (s.task (l.duty d).2).fails = true ↔ _
  unfold TaskScript.fails
  rw [show (s.task (l.duty d).2).stop = _ from h.stop ht d.2]

theorem warning (h : Matches l s s') (ht : l.texts = true) (loop : UInt32) (duties : List Duty) :
    s.warning loop (duties.map l.duty) = s'.warning loop duties := by
  unfold Script.warning
  rw [h.failures ht, List.length_map]

end Script.Matches

/-! ### One story in two runs -/

/-- Whether the coordinator may note an event at any time: building tasks, destroying the benchmark
and lines of the log have no place of their own in an iteration. -/
def Event.isPlain : Event → Bool
  | .logged .. | .called (.create _) | .called .destroy => true
  | _ => false

/-- What two coordinators note, side by side, `lines` results having been printed by each.  They
note the same, except that init may see another counter and results may have other times, where
clocks are not compared, and except for what is logged when tasks are torn down:

* after the wait of an iteration its tasks are torn down in the order in which they were built,
  with a line for each teardown that fails, and with one more line if there are any such;
* if a task cannot be built those that were built before it are, without the further line. -/
inductive Lens.Told (l : Lens) (s s' : Script) (c : Config) : Nat → List Event → List Event → Prop
  | nil : Told l s s' c 0 [] []
  | same {lines : Nat} {es es' : List Event} (e : Event) : e.isPlain = true →
    Told l s s' c lines es es' → Told l s s' c lines (es ++ [e]) (es' ++ [e])
  | init {lines : Nat} {es es' : List Event} (pending pending' : Int) :
    (l.times = true → pending = pending') → Told l s s' c lines es es' →
      Told l s s' c lines (es ++ [.called (.init pending)]) (es' ++ [.called (.init pending')])
  | result {lines : Nat} {es es' : List Event} (total average total' average' : UInt64) :
    (l.times = true → total = total' ∧ average = average') → Told l s s' c lines es es' →
      Told l s s' c (lines + 1)
        (es ++ [.printed ((Measurement.ofConfig s.name (.ofNat (lines + 1)) c total
          average).render c.format)])
        (es' ++ [.printed ((Measurement.ofConfig s.name (.ofNat (lines + 1)) c total'
          average').render c.format)])
  | teardown {lines : Nat} {es es' : List Event} (duties : List Duty) :
    duties = s'.benchmark.duties c lines → Told l s s' c lines es es' →
      Told l s s' c lines
        (es ++ (.released (.ofNat (lines + 1)) :: (s.stops (duties.map l.duty) ++
          s.warning (.ofNat (lines + 1)) (duties.map l.duty))))
        (es' ++ (.released (.ofNat (lines + 1)) :: (s'.stops duties ++
          s'.warning (.ofNat (lines + 1)) duties)))
  | retreat {lines : Nat} {es es' : List Event} (duties : List Duty) :
    duties <+: s'.benchmark.duties c lines → Told l s s' c lines es es' →
      Told l s s' c lines (es ++ s.stops (duties.map l.duty)) (es' ++ s'.stops duties)

namespace Script

/-- What holds between two steps of the coordinators. -/
structure Beside (l : Lens) (s s' : Script) (ctx : Context) (k n latch lines : Nat)
    (tail tail' : List Event) (w w' : World) : Prop where
  stage : k ≤ 5
  alike : l.Alike ctx.id k latch w w'
  tasks : w.tasks = l.tasks + n
  tasks' : w'.tasks = n
  told : ∃ es es', l.Told s s' ctx.config lines es es' ∧
    w.remarks = es ++ tail ∧ w'.remarks = es' ++ tail'

namespace Beside

variable {l : Lens} {s s' : Script} {ctx : Context} {k n latch lines : Nat}
variable {tail tail' : List Event} {w w' : World} {α β : Type}

theorem tasks_burst (w : World) (turns : List Turn) : (w.burst turns).tasks = w.tasks := by
  induction turns generalizing w with
  | nil => rfl
  | cons t turns ih => exact (ih (w.turn t)).trans (w.tasks_turn t)

/-- Both worlds go on, with no new tasks, and each tells something more, or nothing. -/
theorem next (h : Beside l s s' ctx k n latch lines tail tail' w w') {k' : Nat} {v v' : World}
    {more more' : List Event} (hk : k' ≤ 5) (halike : l.Alike ctx.id k' latch v v')
    (htasks : v.tasks = w.tasks ∧ v'.tasks = w'.tasks)
    (hmore : v.remarks = w.remarks ++ more ∧ v'.remarks = w'.remarks ++ more') :
    Beside l s s' ctx k' n latch lines (tail ++ more) (tail' ++ more') v v' := by
  obtain ⟨es, es', htold, hes, hes'⟩ := h.told
  refine ⟨hk, halike, htasks.1.trans h.tasks, htasks.2.trans h.tasks', es, es', htold, ?_, ?_⟩
  · rw [hmore.1, hes, List.append_assoc]
  · rw [hmore.2, hes', List.append_assoc]

/-- Both worlds go on, and neither tells anything. -/
theorem quiet (h : Beside l s s' ctx k n latch lines tail tail' w w') {k' : Nat} {v v' : World}
    (hk : k' ≤ 5) (halike : l.Alike ctx.id k' latch v v')
    (htasks : v.tasks = w.tasks ∧ v'.tasks = w'.tasks)
    (hsame : v.remarks = w.remarks ∧ v'.remarks = w'.remarks) :
    Beside l s s' ctx k' n latch lines tail tail' v v' := by
  have hnext : Beside l s s' ctx k' n latch lines (tail ++ []) (tail' ++ []) v v' :=
    h.next hk halike htasks
      ⟨by rw [hsame.1, List.append_nil], by rw [hsame.2, List.append_nil]⟩
  rwa [List.append_nil, List.append_nil] at hnext

theorem stable : l.Stable (Beside l s s' ctx k n latch lines tail tail') :=
  fun w w' t h => h.quiet h.stage (h.alike.turn h.stage t)
    ⟨World.tasks_turn w t, tasks_burst w' _⟩ ⟨World.remarks_turn t, World.remarks_burst _⟩

/-- What has been noted lately becomes part of the story. -/
theorem close (h : Beside l s s' ctx k n latch lines tail tail' w w') {lines' : Nat}
    (hclose : ∀ es es', l.Told s s' ctx.config lines es es' →
      l.Told s s' ctx.config lines' (es ++ tail) (es' ++ tail')) :
    Beside l s s' ctx k n latch lines' [] [] w w' := by
  obtain ⟨es, es', htold, hes, hes'⟩ := h.told
  refine ⟨h.stage, h.alike, h.tasks, h.tasks', es ++ tail, es' ++ tail',
    hclose es es' htold, ?_, ?_⟩
  · rw [List.append_nil, hes]
  · rw [List.append_nil, hes']

theorem noted (h : Beside l s s' ctx k n latch lines tail tail' w w') {e e' : Event}
    (he : e.isStep = false) (he' : e'.isStep = false) (hsame : l.times = true → e = e') :
    Beside l s s' ctx k n latch lines (tail ++ [e]) (tail' ++ [e']) (w.note .coordinator e)
      (w'.note .coordinator e') := by
  exact h.next h.stage (h.alike.note he he' hsame) ⟨rfl, rfl⟩
    ⟨World.remarks_note he, World.remarks_note he'⟩

/-- A line of the log that only one of them writes. -/
theorem logged_left (h : Beside l s s' ctx k n latch lines tail tail' w w') {e : Event}
    (he : e.isLogged = true) :
    Beside l s s' ctx k n latch lines (tail ++ [e]) tail' (w.note .coordinator e) w' := by
  cases e with
  | logged level message =>
    have hnext := h.next h.stage (h.alike.log_left level message) ⟨rfl, rfl⟩
      ⟨World.remarks_note rfl, (List.append_nil _).symm⟩
    rwa [List.append_nil] at hnext
  | _ => cases he

theorem logged_right (h : Beside l s s' ctx k n latch lines tail tail' w w') {e : Event}
    (he : e.isLogged = true) :
    Beside l s s' ctx k n latch lines tail (tail' ++ [e]) w (w'.note .coordinator e) := by
  cases e with
  | logged level message =>
    have hnext := h.next h.stage (h.alike.log_right level message) ⟨rfl, rfl⟩
      ⟨(List.append_nil _).symm, World.remarks_note rfl⟩
    rwa [List.append_nil] at hnext
  | _ => cases he

/-- Steps of the coordinators that leave threads alone and note nothing. -/
theorem taken {k' : Nat} (h : Beside l s s' ctx k n latch lines tail tail' w w') {t t' : Step}
    (ht : ∀ level message, t.action ≠ .log level message)
    (ht' : ∀ level message, t'.action ≠ .log level message) (hk : k' ≤ 5)
    (halike : l.Alike ctx.id k' latch (w.exec .coordinator t).2 (w'.exec .coordinator t').2) :
    Beside l s s' ctx k' n latch lines tail tail' (w.exec .coordinator t).2
      (w'.exec .coordinator t').2 := by
  exact h.quiet hk halike ⟨World.exec_tasks, World.exec_tasks⟩
    ⟨World.remarks_exec .coordinator fun _ => ht, World.remarks_exec .coordinator fun _ => ht'⟩

theorem forget_latch (h : Beside l s s' ctx k n latch lines tail tail' w w') :
    Beside l s s' ctx k n 0 lines tail tail' w w' :=
  ⟨h.stage, h.alike.latch_le (Nat.zero_le _), h.tasks, h.tasks', h.told⟩

/-- The threads run to their ends in both worlds. -/
theorem settle (h : Beside l s s' ctx k n latch lines tail tail' w w') :
    Beside l s s' ctx k n latch lines tail tail' w.settle w'.settle :=
  h.quiet h.stage (h.alike.settle h.stage) ⟨tasks_burst w _, tasks_burst w' _⟩
    ⟨World.remarks_burst _, World.remarks_burst _⟩

/-! ### What a coordinator does -/

theorem couple_note (e e' : Event) (he : e.isStep = false) (he' : e'.isStep = false)
    (hsame : l.times = true → e = e') :
    Run.Coupled l (Beside l s s' ctx k n latch lines tail tail') (Run.note e) (Run.note e')
      fun _ _ => Beside l s s' ctx k n latch lines (tail ++ [e]) (tail' ++ [e']) :=
  .step stable fun _ _ h _ => h.noted he he' hsame

/-- The same line of the log. -/
theorem couple_log (level : LogLevel) (message : String) :
    Run.Coupled l (Beside l s s' ctx k n latch lines [] []) (Run.log level message)
      (Run.log level message) fun _ _ => Beside l s s' ctx k n latch lines [] [] := by
  refine (couple_note _ _ rfl rfl fun _ => rfl).post ?_
  intro _ _ w w' h
  exact h.close fun es es' htold => .same _ rfl htold

theorem couple_look {f : World → α} {f' : World → β} {r : α → β → Prop}
    (hr : ∀ w w', Beside l s s' ctx k n latch lines tail tail' w w' → l.Sound w → r (f w) (f' w')) :
    Run.Coupled l (Beside l s s' ctx k n latch lines tail tail') (Run.look f) (Run.look f')
      fun a a' w w' => r a a' ∧ Beside l s s' ctx k n latch lines tail tail' w w' :=
  .step stable fun w w' h hsound => ⟨hr w w' h hsound, h⟩

theorem couple_nextTask :
    Run.Coupled l (Beside l s s' ctx k n latch lines tail tail') (Run.step World.nextTask)
      (Run.step World.nextTask) fun id id' w w' => (id = l.tasks + n ∧ id' = n) ∧
        Beside l s s' ctx k (n + 1) latch lines tail tail' w w' := by
  apply Run.Coupled.step stable
  intro w w' h _
  refine ⟨⟨h.tasks, h.tasks'⟩, h.stage, h.alike.nextTask, ?_, ?_, h.told⟩
  · show w.tasks + 1 = l.tasks + (n + 1)
    rw [h.tasks, Nat.add_assoc]
  · show w'.tasks + 1 = n + 1
    rw [h.tasks']

theorem couple_spawn (name : String) {steps steps' : List Step}
    (hsteps : List.Forall₂ (l.Steps ctx.id) steps steps') :
    Run.Coupled l (Beside l s s' ctx 5 n latch lines tail tail') (Run.spawn name steps)
      (Run.spawn name steps') fun _ _ => Beside l s s' ctx 5 n latch lines tail tail' :=
  .step stable fun _ _ h _ => ⟨h.stage, h.alike.spawn name hsteps, h.tasks, h.tasks', h.told⟩

theorem couple_perform {steps steps' : List Step}
    (hsteps : List.Forall₂ (l.Works ctx.id) steps steps') :
    Run.Coupled l (Beside l s s' ctx 5 n latch lines tail tail') (Run.perform steps)
      (Run.perform steps') fun _ _ => Beside l s s' ctx 5 n latch lines tail tail' := by
  -- what is left to either coordinator is the same work
  let J (own own' : List Step) (w w' : World) : Prop :=
    Beside l s s' ctx 5 n latch lines tail tail' w w' ∧ List.Forall₂ (l.Works ctx.id) own own'
  have hperform : Run.Coupled l (J steps steps') (Run.perform steps) (Run.perform steps')
      fun _ _ => J [] [] := by
    apply Run.Coupled.perform
    · intro own own' w w' t h
      exact ⟨stable w w' t h.1, h.2⟩
    · intro own' w w' h
      exact List.forall₂_nil_left_iff.1 h.2
    · intro t rest own' w w' ⟨h, hown⟩
      obtain ⟨t', rest', ht, hrest, rfl⟩ := List.forall₂_cons_left_iff.1 hown
      obtain ⟨hnext, halike⟩ := h.alike.exec ht
      have hlog : (∀ level message, t.action ≠ .log level message) ∧
          ∀ level message, t'.action ≠ .log level message := by
        cases ht <;> exact ⟨nofun, nofun⟩
      exact ⟨t', rest', rfl, h.taken hlog.1 hlog.2 le_rfl halike, forall₂_sequel hnext hrest⟩
  exact hperform.mono (fun w w' h => ⟨h, hsteps⟩) fun _ _ _ _ h => h.1

end Beside

end Script

end BenchLoop
