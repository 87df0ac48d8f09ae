/-
BenchLoop/Proofs/Loop/Siblings.lean

How a task ends concerns nobody but itself.

Two scripts that differ in nothing but how bodies and teardowns end (`Script.ending`) have runs
that cannot be told apart, except by the log (`Script.confines_endings`).  What the coordinators
log differs only where tasks are torn down, and there in nothing but the lines about failures.

The argument is that of two runs abreast, seen through a lens that leaves out the texts of the
log.  The story of both runs is cut into chapters (`Chapter`); either script tells each of them
in its own words (`Script.chapter`).
-/
import BenchLoop.Proofs.Loop.Abreast

namespace BenchLoop

/-- The same benchmark, with bodies and teardowns that end in other ways. -/
def Script.ending (s : Script) (starts stops : TaskId → HookOutcome Unit) : Script :=
  { s with task := fun t => { s.task t with start := starts t, stop := stops t } }

/-! ### Chapters -/

/-- A part of what a run tells. -/
inductive Chapter where
  /-- Something that does not belong to a teardown. -/
  | other (e : Event)
  /-- The wait of iteration `k`, counted from 0, is over, and its tasks are torn down. -/
  | teardown (k : Nat)
  /-- The first `count` tasks of iteration `k` are torn down, for the next one cannot be built. -/
  | retreat (k count : Nat)

/-- Whether a chapter is what it says: calls of teardowns, and the ends of waits before them, are
told in chapters of their own. -/
def Chapter.isProper : Chapter → Bool
  | .other (.called (.stop _)) | .other (.released _) => false
  | _ => true

/-- How a script tells a chapter.  Each teardown that fails adds a line, in the order in which the
tasks were built; after the wait there is one more line with their number, if there are any. -/
def Script.chapter (s : Script) (c : Config) : Chapter → List Event
  | .other e => [e]
  | .teardown k => .released (.ofNat (k + 1)) ::
      (s.stops (s.benchmark.duties c k) ++ s.warning (.ofNat (k + 1)) (s.benchmark.duties c k))
  | .retreat k count => s.stops ((s.benchmark.duties c k).take count)

/-- The second of two teardowns fails. -/
example :
    let s : Script :=
      { name := "b"
        task := fun t => { stop := if t = 1 then .failed { headline := "late" } else .ok () } }
    (s.chapter { rows := 2, threads := 2 } (.teardown 0)).filterMap Event.logLine?
      = [(.error, "Task b-1 [1, 2) teardown failed: late"),
         (.warn, "loop 1: 1 of 2 tasks failed teardown")] := by
  decide +kernel

/-- What the coordinator has noted and logged in a world, chapter by chapter. -/
structure Script.Tells (s : Script) (c : Config) (chapters : List Chapter) (w : World) : Prop where
  remarks : w.remarks = chapters.flatMap (s.chapter c)
  log : w.coordinatorLog = (chapters.flatMap (s.chapter c)).filterMap Event.logLine?

/-- Two worlds that cannot be told apart, except by what is logged. -/
structure World.SameButLogs (id : ContextId) (w w' : World) : Prop where
  /-- Everybody has done the same things, all of them in the same order. -/
  deeds : w.deeds = w'.deeds
  pending : (w.countdown id).pending = (w'.countdown id).pending
  isComplete : (w.countdown id).isComplete = (w'.countdown id).isComplete
  watch : (w.countdown id).watch = (w'.countdown id).watch
  visits : w.visits = w'.visits
  output : w.output = w'.output
  calls : w.calls = w'.calls

namespace World

variable {w w' : World}

/-- What does not depend on the log follows from what was done. -/
theorem filterMap_deeds {α : Type} {f : Entry → Option α}
    (hf : ∀ actor level message, f ⟨actor, .logged level message⟩ = none) :
    w.journal.reverse.filterMap f = w.deeds.filterMap f := by
  rw [deeds, List.filterMap_filterMap]
  refine List.filterMap_congr fun e _ => ?_
  obtain ⟨actor, event⟩ := e
  cases event with
  | logged level message => exact hf actor level message
  | _ => rfl

theorem output_congr (h : w.deeds = w'.deeds) : w.output = w'.output := by
  unfold output
  rw [filterMap_deeds fun _ _ _ => rfl, filterMap_deeds fun _ _ _ => rfl, h]

theorem calls_congr (h : w.deeds = w'.deeds) : w.calls = w'.calls := by
  unfold calls
  rw [filterMap_deeds fun _ _ _ => rfl, filterMap_deeds fun _ _ _ => rfl, h]

theorem visits_congr (h : w.deeds = w'.deeds) : w.visits = w'.visits := by
  unfold visits
  rw [filterMap_deeds fun _ _ _ => rfl, filterMap_deeds fun _ _ _ => rfl, h]

end World

namespace Script

variable {s : Script} {starts stops : TaskId → HookOutcome Unit} {c : Config} {ctx : Context}

/-- Texts of the log are left out. -/
def speechless : Lens := { texts := false }

theorem matches_ending (s : Script) (starts stops : TaskId → HookOutcome Unit) :
    Matches speechless s (s.ending starts stops) where
  name := rfl
  init := rfl
  destroy := rfl
  recordsHooks := rfl
  create t := congrArg s.create (Nat.zero_add t)
  reporting t := congrArg (fun t => (s.task t).reporting) (Nat.zero_add t)
  drive? t := congrArg (fun t => (s.task t).drive?) (Nat.zero_add t)
  claimsStart t := congrArg (fun t => (s.task t).claimsStart) (Nat.zero_add t)
  recordsStop t := congrArg (fun t => (s.task t).recordsStop) (Nat.zero_add t)
  start := nofun
  stop := nofun

theorem duties_map_duty (duties : List Duty) : duties.map speechless.duty = duties := by
  have hduty : speechless.duty = id := by
    funext d
    exact congrArg (Prod.mk d.1) (Nat.zero_add d.2)
  rw [hduty, List.map_id]

/-- A chapter more, for both. -/
theorem tell_more {s' : Script} {es es' : List Event} (chapter : Chapter)
    (hproper : chapter.isProper = true)
    (h : ∃ chapters : List Chapter, (∀ chapter ∈ chapters, chapter.isProper = true) ∧
      es = chapters.flatMap (s.chapter c) ∧ es' = chapters.flatMap (s'.chapter c)) :
    ∃ chapters : List Chapter, (∀ chapter ∈ chapters, chapter.isProper = true) ∧
      es ++ s.chapter c chapter = chapters.flatMap (s.chapter c) ∧
      es' ++ s'.chapter c chapter = chapters.flatMap (s'.chapter c) := by
  obtain ⟨chapters, hother, rfl, rfl⟩ := h
  refine ⟨chapters ++ [chapter], ?_, by simp, by simp⟩
  intro more hmore
  rcases List.mem_append.1 hmore with hmore | hmore
  · exact hother more hmore
  · rw [List.mem_singleton.1 hmore]
    exact hproper

/-- Two coordinators that tell one story tell the same chapters. -/
theorem exists_chapters {lines : Nat} {es es' : List Event}
    (h : speechless.Told s (s.ending starts stops) c lines es es') :
    ∃ chapters : List Chapter, (∀ chapter ∈ chapters, chapter.isProper = true) ∧
      es = chapters.flatMap (s.chapter c) ∧
      es' = chapters.flatMap ((s.ending starts stops).chapter c) := by
  induction h with
  | nil => exact ⟨[], nofun, rfl, rfl⟩
  | same e he _ ih =>
    refine tell_more (.other e) ?_ ih
    cases e with
    | called hook => cases hook <;> first | rfl | cases he
    | released loop => cases he
    | _ => rfl
  | init pending pending' htimes _ ih =>
    rw [htimes rfl]
    exact tell_more (.other _) rfl ih
  | result total average total' average' htimes _ ih =>
    rw [(htimes rfl).1, (htimes rfl).2]
    exact tell_more (.other _) rfl ih
  | @teardown lines es es' duties hduties _ ih =>
    subst hduties
    rw [duties_map_duty]
    exact tell_more (.teardown lines) rfl ih
  | @retreat lines es es' duties hduties _ ih =>
    -- the tasks torn down are a first part of those of the iteration
    have htake := List.prefix_iff_eq_take.1 hduties
    rw [duties_map_duty, htake]
    exact tell_more (.retreat lines duties.length) rfl ih

/-! ### Worlds -/

theorem sameButLogs_of_beside {n lines : Nat} {w w' : World}
    (h : Beside speechless s (s.ending starts stops) ctx 5 n 0 lines [] [] w w') :
    w.SameButLogs ctx.id w' := by
  have hcounters := h.alike.counters
  have hstart : (w.countdown ctx.id).watch.startMark = (w'.countdown ctx.id).watch.startMark :=
    (hcounters.start (by omega)).2 rfl
  have hfinish : (w.countdown ctx.id).watch.endMark = (w'.countdown ctx.id).watch.endMark :=
    (hcounters.finish (by omega)).2 rfl
  have hdeeds : w.deeds = w'.deeds := by
    rw [World.deeds, World.deeds, List.filterMap_reverse, List.filterMap_reverse,
      h.alike.deeds rfl]
  exact
    { deeds := hdeeds
      pending := hcounters.pending le_rfl
      isComplete := hcounters.isComplete
      watch := congrArg₂ Stopwatch.mk hstart hfinish
      visits := World.visits_congr hdeeds
      output := World.output_congr hdeeds
      calls := World.calls_congr hdeeds }

/-- A benchmark that has not begun to run is beside itself, whatever its countdown shows. -/
theorem beside_fresh (s : Script) (starts stops : TaskId → HookOutcome Unit) (ctx : Context)
    (countdowns : Table Countdown) (now pace : Nat) :
    Beside speechless s (s.ending starts stops) ctx 5 0 0 0 [] [] { countdowns, now, pace }
      { countdowns, now, pace } := by
  have hcounters (clear : Prop) :
      speechless.Counters clear 5 0 (countdowns.get ctx.id) (countdowns.get ctx.id) := by
    refine ⟨(Nat.zero_add _).symm, Nat.zero_le _, fun _ => .rfl, fun _ => .rfl, fun h => ?_,
      fun _ => Nat.zero_le _, fun _ i _ _ => ?_, fun _ => rfl, fun _ => rfl⟩
    · omega
    · show ((countdowns.get ctx.id).latches.get (0 + i)).released = _
      rw [Nat.zero_add]
  have halike : speechless.Alike ctx.id 5 0 { countdowns, now, pace }
      { countdowns, now, pace } := by
    refine ⟨⟨hcounters _, ⟨rfl, rfl⟩, rfl, fun _ => rfl⟩, rfl, fun i => ?_, nofun, nofun⟩
    exact .nil
  exact ⟨le_rfl, halike, rfl, rfl, [], [], .nil, rfl, rfl⟩

theorem turns_speechless (turns : List Turn) : speechless.turns turns = turns := by
  have hturn : speechless.turn = some := by
    funext t
    cases t <;> rfl
  unfold Lens.turns
  rw [hturn, List.filterMap_some]

theorem eq_of_like {o o' : Outcome HarnessError (List Measurement)}
    (h : o.Like (List.Forall₂ speechless.Measures) o') : o = o' := by
  cases h with
  | ok hms =>
    have heq := hms.imp fun _ _ hm => hm.2 rfl
    rw [List.forall₂_eq_eq_eq] at heq
    rw [heq]
  | failed e => rfl
  | panicked p => rfl

/-- **How tasks end is nobody's business.**  Take any script, let the bodies and the teardowns of
any of its tasks end in any other ways, and let it run in any context, from any state of the
countdowns and the clock.  Then for every schedule of the one benchmark there is one of the
other, with the same turns of threads in the same order, under which it does the same: either
both wait forever, or both runs end with the same results or for the same reason, and then, and
also once all threads have come to their ends, the worlds cannot be told apart except by what is
logged.  All steps of all threads and of the coordinators were the same, in one and the same
order.  The coordinators log the same but for a line more for each teardown that fails and, after
the wait of an iteration, a line with their number if there are any. -/
theorem confines_endings (s : Script) (starts stops : TaskId → HookOutcome Unit) (ctx : Context)
    (countdowns : Table Countdown) (now pace : Nat) (S : Schedule) :
    ∃ X : Schedule, X.flatten = S.flatten ∧
      match (s.benchmark.run ctx).seen ⟨{ countdowns, now, pace }, S, ()⟩,
        ((s.ending starts stops).benchmark.run ctx).seen ⟨{ countdowns, now, pace }, X, ()⟩ with
      | .ok (outcome, w) _, .ok (outcome', w') _ =>
        outcome = outcome' ∧ w.SameButLogs ctx.id w' ∧ w.settle.SameButLogs ctx.id w'.settle ∧
          ∃ chapters : List Chapter, (∀ chapter ∈ chapters, chapter.isProper = true) ∧
            s.Tells ctx.config chapters w ∧ (s.ending starts stops).Tells ctx.config chapters w'
      | .error _ _, .error _ _ => True
      | _, _ => False := by
  have hcoupled := coupled_seen ctx (matches_ending s starts stops) (.inr rfl) fun _ => rfl
  have hfresh := beside_fresh s starts stops ctx countdowns now pace
  cases hrun : (s.benchmark.run ctx).seen ⟨{ countdowns, now, pace }, S, ()⟩ with
  | ok r t =>
    -- turns that the run has left over are left over by the other one, too
    obtain ⟨r', w', ⟨hlike, ⟨hw, hw'⟩, k', n, lines, hk', hbeside⟩, hnext⟩ :=
      hcoupled.ok hfresh hrun nofun
    obtain ⟨X, hX, hleads⟩ := hnext _ (.map _ t.schedule)
    obtain ⟨t', ht', -⟩ := hleads _ rfl
    obtain rfl := hk' (.inl rfl)
    refine ⟨X, hX.flatten_eq.trans (turns_speechless _), ?_⟩
    rw [ht']
    rw [← hw, ← hw'] at hbeside
    obtain ⟨es, es', htold, hes, hes'⟩ := hbeside.told
    obtain ⟨chapters, hproper, rfl, rfl⟩ := exists_chapters htold
    rw [List.append_nil] at hes hes'
    refine ⟨eq_of_like hlike, sameButLogs_of_beside hbeside, sameButLogs_of_beside hbeside.settle,
      chapters, hproper, ⟨hes, ?_⟩, ⟨hes', ?_⟩⟩
    · rw [World.coordinatorLog_eq_remarks, hes]
    · rw [World.coordinatorLog_eq_remarks, hes']
  | error e t =>
    obtain ⟨X, hX, hstuck⟩ := hcoupled.stuck hfresh hrun nofun
    obtain ⟨t', ht'⟩ := hstuck _ rfl
    refine ⟨X, hX.flatten_eq.trans (turns_speechless _), ?_⟩
    rw [ht']
    trivial

end Script

end BenchLoop
