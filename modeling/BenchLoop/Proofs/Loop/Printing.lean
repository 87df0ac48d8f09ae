/-
BenchLoop/Proofs/Loop/Printing.lean

What a program of the coordinator prints.

    Run.Prints p Q

says that `p`, if it comes to its end, has added some lines to the output, and that `Q` holds of
its result and of these.  Nothing is asked of the world in which it begins and of the schedule,
since threads print nothing (`World.output_burst`); so there is no precondition, and a rule for
each way to build a program is all that is needed.  That a program comes to its end at all is
another matter (`Run.Ends`).

A benchmark is `Silent` if its hooks and those of its tasks print nothing.  The loop over such a
benchmark prints the results of its iterations, one line each, in order: `prints_iterateFrom`,
and for whole runs `prints_run`.
-/
import BenchLoop.Proofs.Loop.Abreast
import BenchLoop.Proofs.Target.Consecutive

namespace BenchLoop

variable {σ α β : Type}

/-! ### The output of a world -/

namespace World

variable {w : World}

theorem output_of_journal {w' : World} {e : Entry} (h : w'.journal = e :: w.journal) :
    w'.output = w.output ++ e.event.line?.toList := by
  rw [output, h, List.reverse_cons, List.filterMap_append]
  obtain ⟨actor, event⟩ := e
  cases event <;> rfl

theorem output_note (actor : Actor) (event : Event) :
    (w.note actor event).output = w.output ++ event.line?.toList :=
  output_of_journal (e := ⟨actor, event⟩) rfl

/-- A step leaves an entry in the journal, but no line. -/
theorem output_exec (actor : Actor) (s : Step) : (w.exec actor s).2.output = w.output := by
  obtain ⟨task, action⟩ := s
  cases action with
  | access store a => cases a <;> exact (output_of_journal rfl).trans (List.append_nil _)
  | _ => exact (output_of_journal rfl).trans (List.append_nil _)

/-- Threads print nothing. -/
theorem output_burst (turns : List Turn) : (w.burst turns).output = w.output := by
  rw [output_eq_remarks, output_eq_remarks, remarks_burst]

theorem output_lasting : Lasting fun w w' : World => w'.output = w.output where
  refl _ := rfl
  trans h h' := h'.trans h
  turn _ t := output_burst [t]
  exec _ := output_exec .coordinator

end World

namespace Run

/-- If the program ends it has printed some lines, and `Q` holds of its result and these. -/
def Prints (p : Run σ α) (Q : α → List String → Prop) : Prop :=
  ∀ s a s', p s = .ok a s' →
    ∃ lines, s'.world.output = s.world.output ++ lines ∧ Q a lines

/-- Nothing is printed. -/
abbrev Silent (p : Run σ α) : Prop := Prints p fun _ lines => lines = []

namespace Prints

variable {p : Run σ α} {f : α → Run σ β} {Q Q' : α → List String → Prop}
variable {R : β → List String → Prop}

theorem post (h : Prints p Q) (hQ : ∀ a lines, Q a lines → Q' a lines) : Prints p Q' := by
  intro s a s' hrun
  obtain ⟨lines, hlines, hpost⟩ := h s a s' hrun
  exact ⟨lines, hlines, hQ a lines hpost⟩

protected theorem pure {a : α} (h : Q a []) : Prints (pure a : Run σ α) Q := by
  intro s a' s' hrun
  cases hrun
  exact ⟨[], (List.append_nil _).symm, h⟩

protected theorem bind (hp : Prints p Q)
    (hf : ∀ a lines, Q a lines → Prints (f a) fun b more => R b (lines ++ more)) :
    Prints (p >>= f) R := by
  intro s b s'' hrun
  have hbind : EStateM.bind p f s = .ok b s'' := hrun
  cases ha : p s with
  | ok a s' =>
    simp only [EStateM.bind, ha] at hbind
    obtain ⟨lines, hlines, hpost⟩ := hp s a s' ha
    obtain ⟨more, hmore, hpost'⟩ := hf a lines hpost s' b s'' hbind
    exact ⟨lines ++ more, by rw [hmore, hlines, List.append_assoc], hpost'⟩
  | error e s' =>
    simp only [EStateM.bind, ha] at hbind
    cases hbind

/-- Behind a silent program everything is as if it were the first. -/
theorem bind_silent (hp : Silent p) (hf : ∀ a, Prints (f a) R) : Prints (p >>= f) R := by
  refine Prints.bind hp ?_
  rintro a _ rfl
  exact hf a

protected theorem step {g : World → α × World}
    (h : ∀ w, ∃ lines, (g w).2.output = w.output ++ lines ∧ Q (g w).1 lines) :
    Prints (Run.step g : Run σ α) Q := by
  intro s a s' hrun
  have hok : EStateM.Result.ok (s.step g).1 (s.step g).2 = .ok a s' := hrun
  obtain ⟨rfl, rfl⟩ := EStateM.Result.ok.inj hok
  obtain ⟨lines, hlines, hpost⟩ := h s.interleave.world
  refine ⟨lines, ?_, ?_⟩
  · rw [(Session.step_snd g s).1, hlines, World.output_lasting.interleave s]
  · rw [Session.step_fst]
    exact hpost

/-- A line that is printed. -/
theorem line (text : String) :
    Prints (Run.note (.printed text) : Run σ Unit) fun _ lines => lines = [text] :=
  .step fun _ => ⟨[text], World.output_note _ _, rfl⟩

end Prints

/-! ### What prints nothing -/

theorem silent_step {g : World → α × World} (h : ∀ w, (g w).2.output = w.output) :
    Silent (Run.step g : Run σ α) :=
  .step fun w => ⟨[], by rw [h, List.append_nil], rfl⟩

theorem silent_look (f : World → α) : Silent (Run.look f : Run σ α) := silent_step fun _ => rfl

theorem silent_note {event : Event} (h : event.line? = none) :
    Silent (Run.note event : Run σ Unit) :=
  silent_step fun w => by
    rw [World.output_note, h]
    exact List.append_nil _

theorem silent_log (level : LogLevel) (message : String) :
    Silent (Run.log level message : Run σ Unit) :=
  silent_note rfl

theorem silent_spawn (name : String) (todo : List Step) :
    Silent (Run.spawn name todo : Run σ ThreadId) :=
  silent_step fun _ => rfl

theorem silent_modify {g : Session σ → Session σ} (h : ∀ s, (g s).world = s.world) :
    Silent (modify g : Run σ Unit) := by
  intro s a s' hrun
  cases hrun
  exact ⟨[], by rw [h, List.append_nil], rfl⟩

theorem silent_get : Silent (get : Run σ (Session σ)) := by
  intro s a s' hrun
  cases hrun
  exact ⟨[], (List.append_nil _).symm, rfl⟩

theorem silent_perform (steps : List Step) : Silent (Run.perform steps : Run σ Unit) := by
  intro s a s' hrun
  cases hrun
  refine ⟨[], ?_, rfl⟩
  rw [List.append_nil]
  exact (World.output_lasting.perform s steps).1

theorem silent_waitUntil (cond : World → Bool) : Silent (Run.waitUntil cond : Run σ Unit) := by
  intro s a s' hrun
  refine ⟨[], ?_, rfl⟩
  rw [List.append_nil]
  unfold Run.waitUntil at hrun
  cases hwait : s.waitUntil cond with
  | some s'' =>
    rw [hwait] at hrun
    cases hrun
    exact (World.output_lasting.waitUntil hwait).1
  | none =>
    rw [hwait] at hrun
    cases hrun

end Run

/-! ### Silent benchmarks -/

/-- The hooks of a benchmark and those of its tasks print nothing. -/
structure Benchmark.Silent (b : Benchmark σ) : Prop where
  init ctx : Run.Silent (b.init ctx)
  destroy : Run.Silent b.destroy
  createTask id range ctx : Run.Prints (b.createTask id range ctx) fun outcome lines =>
    lines = [] ∧ ∀ t, outcome = .ok t → Run.Silent t.stop

namespace RowTask

theorem silent_teardown {t : RowTask σ} (h : Run.Silent t.stop) : Run.Silent t.teardown := by
  refine .bind_silent h fun stopped => ?_
  cases stopped with
  | ok u => exact .pure rfl
  | failed f => exact .bind_silent (Run.silent_log _ _) fun _ => .pure rfl
  | panicked p => exact .bind_silent (Run.silent_log _ _) fun _ => .pure rfl

theorem silent_teardownAll {ts : List (RowTask σ)} (h : ∀ t ∈ ts, Run.Silent t.stop) :
    Run.Silent (teardownAll ts) := by
  induction ts with
  | nil => exact .pure rfl
  | cons t ts ih =>
    obtain ⟨ht, hts⟩ := List.forall_mem_cons.1 h
    exact .bind_silent (silent_teardown ht) fun _ => .bind_silent (ih hts) fun _ => .pure rfl

theorem silent_spawn (t : RowTask σ) (ctx : Context) : Run.Silent (t.spawn ctx) := by
  unfold spawn
  split
  · exact .pure rfl
  · exact .bind_silent (Run.silent_spawn _ _) fun _ => .pure rfl

end RowTask

/-- What iterations number `first` and on measure, but for their times. -/
def Config.resultsFrom (c : Config) (name : String) (first count : Nat) : List Measurement :=
  (List.range' first count).map fun k => .ofConfig name (.ofNat k) c 0 0

namespace Benchmark

variable {b : Benchmark σ} {ctx : Context}

/-! ### The parts of an iteration -/

theorem silent_createTasks (hb : b.Silent) {built : List (RowTask σ)}
    (hbuilt : ∀ t ∈ built, Run.Silent t.stop) (ranges : List RowRange) :
    Run.Prints (b.createTasks ctx built ranges) fun outcome lines =>
      lines = [] ∧ ∀ ts, outcome = .ok ts → ∀ t ∈ ts, Run.Silent t.stop := by
  induction ranges generalizing built with
  | nil =>
    refine .pure ⟨rfl, ?_⟩
    rintro ts ⟨rfl⟩ t ht
    exact hbuilt t (List.mem_reverse.1 ht)
  | cons range ranges ih =>
    refine .bind_silent (Run.silent_step fun _ => rfl) fun id => ?_
    refine .bind (hb.createTask id range ctx) ?_
    rintro outcome _ ⟨rfl, htask⟩
    cases outcome with
    | ok t => exact ih (List.forall_mem_cons.2 ⟨htask t rfl, hbuilt⟩)
    | failed f =>
      have hdown : Run.Silent (RowTask.teardownAll built.reverse) :=
        RowTask.silent_teardownAll fun t ht => hbuilt t (List.mem_reverse.1 ht)
      exact .bind_silent hdown fun _ => .pure ⟨rfl, nofun⟩
    | panicked p => exact .pure ⟨rfl, nofun⟩

theorem silent_startTasks (ts : List (RowTask σ)) : Run.Silent (startTasks ctx ts) := by
  induction ts with
  | nil => exact .pure rfl
  | cons t ts ih =>
    unfold startTasks
    split
    · refine .bind_silent (t.silent_spawn ctx) fun spawned => ?_
      cases spawned with
      | ok i => exact ih
      | error payload => exact .pure rfl
    · exact .bind_silent (Run.silent_log _ _) fun _ => ih

theorem silent_dispatch (hb : b.Silent) :
    Run.Prints (b.dispatch ctx) fun outcome lines =>
      lines = [] ∧ ∀ ts, outcome = .ok ts → ∀ t ∈ ts, Run.Silent t.stop := by
  unfold dispatch
  split
  · exact .pure ⟨rfl, nofun⟩
  · refine .bind (silent_createTasks hb (List.forall_mem_nil _) _) ?_
    rintro outcome _ ⟨rfl, hts⟩
    cases outcome with
    | ok ts =>
      refine .bind_silent (silent_startTasks ts) fun started => ?_
      cases started with
      | ok u => exact .pure ⟨rfl, hts⟩
      | error payload => exact .pure ⟨rfl, nofun⟩
    | failed e => exact .pure ⟨rfl, nofun⟩
    | panicked p => exact .pure ⟨rfl, nofun⟩

theorem silent_arm (loop : UInt32) : Run.Silent (arm ctx loop : Run σ Nat) :=
  .bind_silent (Run.silent_log _ _) fun _ =>
    .bind_silent (Run.silent_perform _) fun _ => Run.silent_look _

theorem silent_await (loop : UInt32) (latch : Nat) :
    Run.Silent (await ctx loop latch : Run σ Unit) :=
  .bind_silent (Run.silent_log _ _) fun _ =>
    .bind_silent (Run.silent_waitUntil _) fun _ => Run.silent_note rfl

theorem silent_engage (hb : b.Silent) (loop : UInt32) :
    Run.Prints (b.engage ctx loop) fun outcome lines =>
      lines = [] ∧ ∀ ts, outcome = .ok ts → ∀ t ∈ ts, Run.Silent t.stop := by
  refine .bind_silent (silent_arm loop) fun latch => ?_
  refine .bind (silent_dispatch hb) ?_
  rintro outcome _ ⟨rfl, hts⟩
  cases outcome with
  | ok ts => exact .bind_silent (silent_await loop latch) fun _ => .pure ⟨rfl, hts⟩
  | failed e => exact .pure ⟨rfl, nofun⟩
  | panicked p => exact .pure ⟨rfl, nofun⟩

theorem silent_teardown (loop : UInt32) {ts : List (RowTask σ)}
    (h : ∀ t ∈ ts, Run.Silent t.stop) : Run.Silent (teardown loop ts) := by
  refine .bind_silent (RowTask.silent_teardownAll h) fun failed => ?_
  split
  · exact Run.silent_log _ _
  · exact .pure rfl

/-- A report prints the line of its measurement. -/
theorem prints_report (loop : UInt32) :
    Run.Prints (b.report ctx loop) fun x lines =>
      x.untimed = .ofConfig b.name loop ctx.config 0 0 ∧
        lines = [x.render ctx.config.format] := by
  have hread : Run.Prints (b.readOut ctx loop) fun x lines =>
      x.untimed = .ofConfig b.name loop ctx.config 0 0 ∧
        lines = [x.render ctx.config.format] := by
    refine .bind_silent (Run.silent_look _) fun startMark =>
      .bind_silent (Run.silent_look _) fun endMark => ?_
    refine .bind (.line _) ?_
    rintro _ _ rfl
    exact .pure ⟨rfl, rfl⟩
  rw [report_eq]
  refine .bind_silent (Run.silent_look _) fun started => ?_
  split
  · exact .bind_silent (Run.silent_log _ _) fun _ => hread
  · exact hread

/-! ### Iterations and runs -/

/-- An iteration prints the line of its result, and nothing if it has none. -/
theorem prints_iterate (hb : b.Silent) (loop : UInt32) :
    Run.Prints (b.iterate ctx loop) fun outcome lines => ∀ x, outcome = .ok x →
      x.untimed = .ofConfig b.name loop ctx.config 0 0 ∧
        lines = [x.render ctx.config.format] := by
  refine .bind (silent_engage hb loop) ?_
  rintro outcome _ ⟨rfl, hts⟩
  cases outcome with
  | ok ts =>
    refine .bind_silent (silent_teardown loop (hts ts rfl)) fun _ => ?_
    refine .bind (prints_report loop) fun x lines hx => .pure ?_
    rw [List.nil_append, List.append_nil]
    rintro y ⟨rfl⟩
    exact hx
  | failed e => exact .pure nofun
  | panicked p => exact .pure nofun

/-- **A loop prints its results**, one line each, in order. -/
theorem prints_iterateFrom (hb : b.Silent) (first count : Nat) :
    Run.Prints (b.iterateFrom ctx (.ofNat first) count) fun outcome lines =>
      ∀ results, outcome = .ok results →
        results.map Measurement.untimed = ctx.config.resultsFrom b.name first count ∧
          lines = results.map (·.render ctx.config.format) := by
  induction count generalizing first with
  | zero =>
    refine .pure ?_
    rintro results ⟨rfl⟩
    exact ⟨rfl, rfl⟩
  | succ count ih =>
    refine .bind (prints_iterate hb _) fun outcome lines hx => ?_
    cases outcome with
    | ok x =>
      obtain ⟨huntimed, rfl⟩ := hx x rfl
      -- the next iteration goes by the next number
      have hnext : UInt32.ofNat first + 1 = .ofNat (first + 1) := (UInt32.ofNat_add first 1).symm
      rw [hnext]
      refine .bind (ih (first + 1)) fun outcome more hmore => .pure ?_
      cases outcome with
      | ok results =>
        obtain ⟨huntimed', rfl⟩ := hmore results rfl
        rintro _ ⟨rfl⟩
        refine ⟨?_, by rw [List.append_nil]; rfl⟩
        rw [List.map_cons, huntimed, huntimed']
        rfl
      | failed e => exact nofun
      | panicked p => exact nofun
    | failed e => exact .bind_silent (Run.silent_log _ _) fun _ => .pure nofun
    | panicked p => exact .pure nofun

/-- Where the ranges cannot be made a loop ends in a panic as soon as it has been armed. -/
theorem iterateFrom_of_fault {fault : PartitionFault}
    (hfault : PartitionFault.ofThreads? ctx.config.threads = some fault) (loop : UInt32)
    (count : Nat) : b.iterateFrom ctx loop (count + 1) = (do
      let _ ← arm ctx loop
      return .panicked fault.payload) := by
  simp [iterateFrom, iterate, engage, dispatch, taskRanges?, hfault]

/-- The end of a run prints nothing, and makes no results. -/
theorem prints_conclude (hb : b.Silent) (outcome : Outcome HarnessError (List Measurement)) :
    Run.Prints (b.conclude outcome) fun out lines =>
      lines = [] ∧ ∀ results, out = .ok results → outcome = .ok results := by
  refine .bind_silent hb.destroy fun destroyed => ?_
  cases outcome with
  | ok results =>
    cases destroyed with
    | ok u => exact .pure ⟨rfl, fun _ h => h⟩
    | failed f => exact .pure ⟨rfl, nofun⟩
    | panicked p => exact .pure ⟨rfl, nofun⟩
  | failed e =>
    cases destroyed with
    | ok u => exact .pure ⟨rfl, nofun⟩
    | failed f => exact .bind_silent (Run.silent_log _ _) fun _ => .pure ⟨rfl, nofun⟩
    | panicked p => exact .pure ⟨rfl, nofun⟩
  | panicked p =>
    cases destroyed with
    | failed f => exact .bind_silent (Run.silent_log _ _) fun _ => .pure ⟨rfl, nofun⟩
    | ok u => exact .pure ⟨rfl, nofun⟩
    | panicked p' => exact .pure ⟨rfl, nofun⟩

theorem silent_start (hb : b.Silent) : Run.Silent (b.start ctx) := by
  unfold start
  dsimp only
  split
  · exact .bind_silent (Run.silent_log _ _) fun _ => hb.init ctx
  · exact hb.init ctx

/-- **A run that ends well has printed its results**, one for each of the configured
iterations. -/
theorem prints_run (hb : b.Silent) :
    Run.Prints (b.run ctx) fun outcome lines => ∀ results, outcome = .ok results →
      results.map Measurement.untimed
          = ctx.config.resultsFrom b.name 1 ctx.config.loops.toNat ∧
        lines = results.map (·.render ctx.config.format) := by
  rw [run_eq]
  refine .bind_silent (silent_start hb) fun begun => ?_
  cases begun with
  | ok u =>
    refine .bind (prints_iterateFrom hb 1 _) fun outcome lines hlines => ?_
    refine (prints_conclude hb outcome).post ?_
    rintro out _ ⟨rfl, hout⟩ results hresults
    rw [List.append_nil]
    exact hlines results (hout results hresults)
  | failed e => exact .pure nofun
  | panicked p => exact .pure nofun

/-- Where the ranges cannot be made a run prints nothing. -/
theorem silent_run_of_fault (hb : b.Silent) {fault : PartitionFault}
    (hfault : PartitionFault.ofThreads? ctx.config.threads = some fault)
    (hloops : 0 < ctx.config.loops.toNat) : Run.Silent (b.run ctx) := by
  obtain ⟨count, hcount⟩ := Nat.exists_eq_succ_of_ne_zero hloops.ne'
  rw [run_eq]
  refine .bind_silent (silent_start hb) fun begun => ?_
  cases begun with
  | ok u =>
    rw [hcount, iterateFrom_of_fault hfault]
    refine .bind_silent (.bind_silent (silent_arm 1) fun _ => .pure rfl) fun outcome => ?_
    exact (prints_conclude hb outcome).post fun _ _ h => h.1
  | failed e => exact .pure rfl
  | panicked p => exact .pure rfl

end Benchmark

end BenchLoop
