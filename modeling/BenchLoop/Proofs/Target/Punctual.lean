/-
BenchLoop/Proofs/Target/Punctual.lean

Tasks that claim the start before their first row, and when that is enough.
-/
import BenchLoop.Proofs.Target.Scripted
import BenchLoop.Proofs.Loop.Starts

namespace BenchLoop

open CountdownAction

namespace Context

variable {ctx : Context} {id : TaskId}

theorem isStart_markStarted : (ctx.markStarted id).isStart ctx.id = true := by
  rw [markStarted, count, Step.isStart_of_on (Step.on?_count ctx.id (some id) .readStart)]
  rfl

theorem isStart_notify {rows : UInt32} : (ctx.notify id rows).isStart ctx.id = false := by
  rw [notify, count, Step.isStart_of_on (Step.on?_count ctx.id (some id) (.subtract rows))]
  rfl

theorem counts_notify : (ctx.notify id 1).counts ctx.id = true := by
  rw [notify, count, Step.counts_of_on (Step.on?_count ctx.id (some id) (.subtract 1))]
  rfl

end Context

namespace Script

/-- Each task claims the start and then notifies its rows one by one. -/
def RowByRow (s : Script) : Prop :=
  ∀ t, (s.task t).reporting = .eachRow ∧ (s.task t).claimsStart = true

variable {s : Script} {config : Config}

/-- The body of a task claims no start, and notifies its rows if it has any. -/
theorem steps_body {ctx : Context} {t : TaskScript} (id : TaskId) {range : RowRange}
    (hreporting : t.reporting = .eachRow) {keys : List UInt32}
    (hkeys : ctx.keyList range = .ok keys) :
    (∀ step ∈ (t.body id range ctx).steps, step.isStart ctx.id = false) ∧
      (0 < range.rowCount → ∃ step ∈ (t.body id range ctx).steps, step.counts ctx.id = true) := by
  simp only [TaskScript.body, hkeys, hreporting, Reporting.countsFor, List.map_replicate]
  refine ⟨?_, fun hpos => ⟨ctx.notify id 1, ?_, Context.counts_notify⟩⟩
  · rintro step (_ | ⟨_, hstep⟩)
    · rfl
    · obtain rfl := List.eq_of_mem_replicate hstep
      exact Context.isStart_notify
  · exact List.mem_cons_of_mem _ (List.mem_replicate.2 ⟨hpos.ne', rfl⟩)

/-- The steps of a task begin with its claim of the start. -/
theorem line_eq {ctx : Context} {d : Duty} (hreporting : (s.task d.2).reporting = .eachRow)
    (hclaims : (s.task d.2).claimsStart = true) {keys : List UInt32}
    (hkeys : ctx.keyList d.1 = .ok keys) :
    ∃ rest, (s.task d.2).line d.2 d.1 ctx = ctx.markStarted d.2 :: rest ∧
      (∀ t ∈ rest, t.isStart ctx.id = false) ∧
      (0 < d.1.rowCount → ∃ t ∈ rest, t.counts ctx.id = true) := by
  obtain ⟨hstart, hrow⟩ := steps_body d.2 hreporting hkeys
  simp only [TaskScript.line]
  split
  · refine ⟨_, rfl, fun t ht => ?_, fun hpos => ?_⟩
    · rcases List.mem_append.1 ht with ht | ht
      · exact hstart t ht
      · obtain rfl := List.mem_singleton.1 ht
        rfl
    · obtain ⟨t, ht, hcounts⟩ := hrow hpos
      exact ⟨t, List.mem_append_left _ ht, hcounts⟩
  · rw [TaskScript.drivenSteps, if_pos hclaims]
    exact ⟨_, rfl, hstart, hrow⟩

/-- If no range is empty then tasks that notify each of their rows are punctual. -/
theorem punctual (id : ContextId) (drawn : UInt64) (hvalid : config.fault? = none)
    (hle : config.threads.toNat ≤ config.rows.toNat)
    (htasks : s.RowByRow) :
    (s.conduct (.ofConfig id config drawn)).Punctual s.benchmark (.ofConfig id config drawn) where
  orderly := s.orderly _
  rows k := (rows_duties id drawn hvalid k).trans
    (sum_notified (Config.threads_pos hvalid) (fun t => (htasks t).1) k)
  paced := by
    rintro k d hd steps rfl
    have hrange : d.1 ∈ taskRanges s.name config.rows config.threads :=
      List.fst_mem_of_mem_zipIdx hd
    have hkeys := Context.keyList_of_mem id drawn hvalid hrange
    obtain ⟨rest, hline, hstart, hrow⟩ := line_eq (htasks d.2).1 (htasks d.2).2 hkeys
    have hwork (t : Step) (ht : t ∈ (s.task d.2).line d.2 d.1 (.ofConfig id config drawn)) :
        t.isWork id = true :=
      Step.isWork_of_isOpening ((s.orderly (.ofConfig id config drawn)).opening k d hd _ rfl t ht)
    rw [hline] at hwork ⊢
    exact .of_start hwork Context.isStart_markStarted hstart (hrow (rowCount_pos hrange hle))

end Script

end BenchLoop
