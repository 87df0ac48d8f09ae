/-
BenchLoop/Proofs/Loop/Leftovers.lean

What earlier runs have left behind does not matter to a run.

A world is at rest for a countdown (`World.AtRest`) if no step on it is in flight; whatever the
countdown shows does not matter then.  A run that begins in such a world does what the same run
does in a world that is new in every respect: its first reset makes anew all that it looks at,
and threads of earlier runs keep to themselves.  The two runs are taken abreast, through a lens
that leaves out what was there before the first of them began (`World.lens`).

So two runs that begin in worlds at rest do the same, both being compared with the same run in a
new world (`Script.forgets_leftovers`).
-/
import BenchLoop.Proofs.Loop.Abreast
import BenchLoop.Proofs.Machine.Settling

namespace BenchLoop

/-! ### Worlds at rest -/

namespace World

/-- No step on a countdown is in flight.  Other steps may be, of tasks that have been asked for. -/
structure AtRest (id : ContextId) (w : World) : Prop where
  off : ∀ i, ∀ s ∈ w.remaining i, s.on? id = none
  asked : ∀ i, ∀ s ∈ w.remaining i, ∀ task, s.task = some task → task < w.tasks

/-- Where no thread has anything left to do nothing is in flight, whatever the countdown shows. -/
theorem AtRest.of_remaining {id : ContextId} {w : World} (h : ∀ i, w.remaining i = []) :
    w.AtRest id := by
  constructor
  · intro i s hs
    rw [h] at hs
    cases hs
  · intro i s hs
    rw [h] at hs
    cases hs

theorem atRest_settle (id : ContextId) (w : World) : w.settle.AtRest id :=
  .of_remaining fun i => List.isEmpty_iff.1 (w.isIdle_settle i)

theorem atRest_new (id : ContextId) : ({} : World).AtRest id :=
  .of_remaining fun i => remaining_of_size_le (Nat.zero_le i)

/-- What is left out when a run that begins in this world is looked at: the threads, tasks and
latches that are there already, and the clock. -/
def lens (w : World) (id : ContextId) : Lens where
  threads := w.threads.size
  tasks := w.tasks
  latches := (w.countdown id).current
  firstLatch := 1
  times := false

end World

/-- The script that goes on with a later task. -/
def Script.later (s : Script) (n : TaskId) : Script :=
  { s with create := fun t => s.create (n + t), task := fun t => s.task (n + t) }

/-! ### What a run shows -/

/-- Whether a call is that of init, which is told what the counter shows. -/
def HookCall.isInit : HookCall → Bool
  | .init _ => true
  | _ => false

/-- The line of the log that a thread of the run has written, if an entry is one. -/
def Lens.threadLine? (l : Lens) (e : Entry) : Option (ThreadId × LogLevel × String) :=
  match e.actor, e.event with
  | .thread i, .logged level message =>
    if i < l.threads then none else some (i - l.threads, level, message)
  | _, _ => none

/-- Two worlds show the same of two runs, each without what was there before. -/
structure Lens.SameRun (l l' : Lens) (id : ContextId) (w w' : World) : Prop where
  pending : (w.countdown id).pending = (w'.countdown id).pending
  isComplete : (w.countdown id).isComplete = (w'.countdown id).isComplete
  isStarted : (w.countdown id).watch.isStarted = (w'.countdown id).watch.isStarted
  isFinished : (w.countdown id).watch.isFinished = (w'.countdown id).watch.isFinished
  visits : w.journal.reverse.filterMap l.visit? = w'.journal.reverse.filterMap l'.visit?
  threadLog : w.journal.reverse.filterMap l.threadLine?
    = w'.journal.reverse.filterMap l'.threadLine?
  coordinatorLog : w.coordinatorLog = w'.coordinatorLog
  calls : w.calls.filter (!·.isInit) = w'.calls.filter (!·.isInit)

/-- One result line for each of the first iterations, whatever their times. -/
def Config.ResultLines (c : Config) (name : String) (count : Nat) (lines : List String) : Prop :=
  ∃ results : List Measurement, lines = results.map (·.render c.format) ∧
    results.map Measurement.untimed
      = (List.range count).map fun k => .ofConfig name (.ofNat (k + 1)) c 0 0

theorem Config.ResultLines.more {c : Config} {name : String} {count : Nat} {lines : List String}
    (h : c.ResultLines name count lines) (total average : UInt64) :
    c.ResultLines name (count + 1) (lines ++
      [(Measurement.ofConfig name (.ofNat (count + 1)) c total average).render c.format]) := by
  obtain ⟨results, rfl, hresults⟩ := h
  refine ⟨results ++ [.ofConfig name (.ofNat (count + 1)) c total average], ?_, ?_⟩
  · rw [List.map_append, List.map_singleton]
  · rw [List.map_append, hresults, List.range_succ, List.map_append]
    rfl

theorem Config.ResultLines.length {c : Config} {name : String} {count : Nat} {lines : List String}
    (h : c.ResultLines name count lines) : lines.length = count := by
  obtain ⟨results, rfl, hresults⟩ := h
  have hlength := congrArg List.length hresults
  simpa using hlength

namespace Lens.SameRun

variable {l l' l'' : Lens} {id : ContextId} {w w' w'' : World}

theorem symm (h : l.SameRun l' id w w') : l'.SameRun l id w' w :=
  ⟨h.pending.symm, h.isComplete.symm, h.isStarted.symm, h.isFinished.symm, h.visits.symm,
    h.threadLog.symm, h.coordinatorLog.symm, h.calls.symm⟩

theorem trans (h : l.SameRun l' id w w') (h' : l'.SameRun l'' id w' w'') :
    l.SameRun l'' id w w'' :=
  ⟨h.pending.trans h'.pending, h.isComplete.trans h'.isComplete, h.isStarted.trans h'.isStarted,
    h.isFinished.trans h'.isFinished, h.visits.trans h'.visits, h.threadLog.trans h'.threadLog,
    h.coordinatorLog.trans h'.coordinatorLog, h.calls.trans h'.calls⟩

end Lens.SameRun

namespace Script

variable {l : Lens} {s s' : Script} {c : Config} {lines : Nat} {es es' : List Event}

/-! ### What is told -/

theorem stops_eq (h : Matches l s s') (ht : l.texts = true) (duties : List Duty) :
    s.stops (duties.map l.duty) = s'.stops duties := by
  unfold stops
  rw [List.flatMap_map]
  refine List.flatMap_congr fun d _ => ?_
  exact congrArg₂ (· ++ ·) (h.stopCall d) (h.complaint ht d)

/-- Where texts are compared both tell the same, except for what init is told and for times. -/
theorem view_told {α : Type} {f : Event → Option α} (h : Matches l s s') (ht : l.texts = true)
    (hinit : ∀ pending, f (.called (.init pending)) = none)
    (hprinted : ∀ line, f (.printed line) = none) (htold : l.Told s s' c lines es es') :
    es.filterMap f = es'.filterMap f := by
  induction htold with
  | nil => rfl
  | same e _ _ ih => rw [List.filterMap_append, List.filterMap_append, ih]
  | init pending pending' _ _ ih => simp [List.filterMap_append, ih, hinit]
  | result total average total' average' _ _ ih => simp [List.filterMap_append, ih, hprinted]
  | teardown duties _ _ ih =>
    rw [List.filterMap_append, List.filterMap_append, ih, stops_eq h ht, h.warning ht]
  | retreat duties _ _ ih => rw [List.filterMap_append, List.filterMap_append, ih, stops_eq h ht]

/-- Each tells the results of the first iterations. -/
theorem lines_told (htold : l.Told s s' c lines es es') :
    c.ResultLines s.name lines (es.filterMap Event.line?) ∧
      c.ResultLines s.name lines (es'.filterMap Event.line?) := by
  -- events that are no result lines change nothing
  have hsilent {lines : Nat} {es es' more more' : List Event}
      (hlines : c.ResultLines s.name lines (es.filterMap Event.line?) ∧
        c.ResultLines s.name lines (es'.filterMap Event.line?))
      (hmore : more.filterMap Event.line? = []) (hmore' : more'.filterMap Event.line? = []) :
      c.ResultLines s.name lines ((es ++ more).filterMap Event.line?) ∧
        c.ResultLines s.name lines ((es' ++ more').filterMap Event.line?) := by
    rw [List.filterMap_append, List.filterMap_append, hmore, hmore', List.append_nil,
      List.append_nil]
    exact hlines
  have hstops (s : Script) (duties : List Duty) : (s.stops duties).filterMap Event.line? = [] := by
    rw [filterMap_stops fun _ _ => rfl]
    refine List.flatMap_eq_nil_iff.2 fun d _ => ?_
    unfold TaskScript.stopCall
    split <;> rfl
  have hteardown (s : Script) (loop : UInt32) (duties : List Duty) :
      (.released loop :: (s.stops duties ++ s.warning loop duties)).filterMap Event.line? = [] := by
    show (s.stops duties ++ s.warning loop duties).filterMap Event.line? = []
    rw [List.filterMap_append, hstops, filterMap_warning fun _ _ => rfl, List.append_nil]
  induction htold with
  | nil => exact ⟨⟨[], rfl, rfl⟩, [], rfl, rfl⟩
  | same e he _ ih =>
    have hnone : [e].filterMap Event.line? = [] := by
      cases e with
      | printed line => cases he
      | _ => rfl
    exact hsilent ih hnone hnone
  | init pending pending' _ _ ih => exact hsilent ih rfl rfl
  | result total average total' average' _ _ ih =>
    rw [List.filterMap_append, List.filterMap_append]
    exact ⟨ih.1.more total average, ih.2.more total' average'⟩
  | teardown duties _ _ ih => exact hsilent ih (hteardown ..) (hteardown ..)
  | retreat duties _ _ ih => exact hsilent ih (hstops ..) (hstops ..)

/-! ### Against a new world -/

theorem matches_later (s : Script) (w : World) (id : ContextId) :
    Matches (w.lens id) s (s.later w.tasks) where
  name := rfl
  init := rfl
  destroy := rfl
  recordsHooks := rfl
  create _ := rfl
  reporting _ := rfl
  drive? _ := rfl
  claimsStart _ := rfl
  recordsStop _ := rfl
  start _ _ := rfl
  stop _ _ := rfl

/-- A run that begins at rest is beside one that begins in a new world; nothing of the countdowns
needs to agree. -/
theorem beside_atRest {ctx : Context} {w : World} (h : w.AtRest ctx.id) (s : Script) :
    Beside (w.lens ctx.id) s (s.later w.tasks) ctx 0 0 0 0 [] [] w.clearJournal {} := by
  have hcounters (clear : Prop) : (w.lens ctx.id).Counters clear 0 0 (w.countdown ctx.id) {} :=
    { current := rfl
      latch := le_rfl
      start := nofun
      finish := nofun
      uninstalled := fun _ => rfl
      installed := nofun
      released := nofun
      claimed := nofun
      pending := nofun }
  have hcountdown : ({} : World).countdown ctx.id = {} := rfl
  -- the threads that are there already are those that the new world does not have
  have hbeyond (i : Nat) : w.clearJournal.remaining ((w.lens ctx.id).threads + i) = [] :=
    World.remaining_of_size_le (Nat.le_add_right _ i)
  have halike : (w.lens ctx.id).Alike ctx.id 0 0 w.clearJournal {} := by
    refine ⟨⟨hcounters _, ⟨rfl, rfl⟩, rfl, fun _ => rfl⟩, rfl, fun i => ?_, fun i _ t ht => ?_,
      fun _ => rfl⟩
    · rw [hbeyond]
      exact .nil
    · exact ⟨h.off i t ht, h.asked i t ht⟩
  exact ⟨Nat.zero_le _, halike, rfl, rfl, [], [], .nil, rfl, rfl⟩

/-- A call other than that of init, if an event is one. -/
def laterCall? : Event → Option HookCall
  | .called hook => if hook.isInit then none else some hook
  | _ => none

theorem calls_eq {w : World} :
    w.calls.filter (!·.isInit) = w.remarks.filterMap laterCall? := by
  rw [World.calls_eq_remarks, ← List.filterMap_eq_filter, List.filterMap_filterMap]
  refine List.filterMap_congr fun e _ => ?_
  cases e with
  | called hook => cases hook <;> rfl
  | _ => rfl

theorem threadLine?_sight (ht : l.texts = true) (e : Entry) :
    l.threadLine? e = (l.sight e).bind (Lens.threadLine? {}) := by
  obtain ⟨actor, event⟩ := e
  cases event with
  | performed step took =>
    obtain ⟨task?, action⟩ := step
    have hnone : l.threadLine? ⟨actor, .performed ⟨task?, action⟩ took⟩ = none := by
      cases actor <;> rfl
    rw [hnone]
    cases action with
    | visit range keys =>
      cases task? with
      | none => rfl
      | some task =>
        simp only [Lens.sight]
        split
        · rfl
        · cases actor <;> rfl
    | _ => cases task? <;> rfl
  | logged level message =>
    cases actor with
    | coordinator => rfl
    | thread i =>
      by_cases hi : i < l.threads
      · simp [Lens.threadLine?, Lens.sight, hi, Nat.not_le.2 hi]
      · simp [Lens.threadLine?, Lens.sight, ht, hi, Nat.le_of_not_lt hi]
  | _ => cases actor <;> rfl

theorem lines_of_beside {ctx : Context} {v v' : World} {k n : Nat}
    (h : Beside l s s' ctx k n 0 lines [] [] v v') :
    ctx.config.ResultLines s.name lines v.output ∧
      ctx.config.ResultLines s.name lines v'.output := by
  obtain ⟨es, es', htold, hes, hes'⟩ := h.told
  rw [List.append_nil] at hes hes'
  rw [World.output_eq_remarks, World.output_eq_remarks, hes, hes']
  exact lines_told htold

/-- Worlds that are beside each other show the same run. -/
theorem sameRun_of_beside {ctx : Context} {w v v' : World} {n lines : Nat} {s : Script}
    (h : Beside (w.lens ctx.id) s (s.later w.tasks) ctx 5 n 0 lines [] [] v v')
    (hclock : v.NeverBlank) : (w.lens ctx.id).SameRun {} ctx.id v v' := by
  have hcounters := h.alike.counters
  obtain ⟨es, es', htold, hes, hes'⟩ := h.told
  rw [List.append_nil] at hes hes'
  have hview {α : Type} (f : Event → Option α)
      (hinit : ∀ pending, f (.called (.init pending)) = none)
      (hprinted : ∀ line, f (.printed line) = none) :
      v.remarks.filterMap f = v'.remarks.filterMap f := by
    rw [hes, hes']
    exact view_told (matches_later s w ctx.id) rfl hinit hprinted htold
  have hset {mark mark' : UInt64} (hmarks : (w.lens ctx.id).Marks v.NeverBlank mark mark') :
      (mark != 0) = (mark' != 0) := by
    rw [Bool.eq_iff_iff, bne_iff_ne, bne_iff_ne, ne_eq, ne_eq, hmarks.1 hclock]
  exact
    { pending := hcounters.pending le_rfl
      isComplete := hcounters.isComplete
      -- the marks may differ, but not in whether they are set
      isStarted := hset (hcounters.start (by omega))
      isFinished := hset (hcounters.finish (by omega))
      visits := h.alike.view_eq _ Lens.visit?_sight Lens.visit?_sight
      threadLog := h.alike.view_eq _ (threadLine?_sight rfl) (threadLine?_sight rfl)
      coordinatorLog := by
        rw [World.coordinatorLog_eq_remarks, World.coordinatorLog_eq_remarks]
        exact hview _ (fun _ => rfl) fun _ => rfl
      calls := by
        rw [calls_eq, calls_eq]
        exact hview _ (fun _ => rfl) fun _ => rfl }

theorem untimed_of_like {o o' : Outcome HarnessError (List Measurement)}
    (h : o.Like (List.Forall₂ l.Measures) o') :
    o.map (·.map Measurement.untimed) = o'.map (·.map Measurement.untimed) := by
  cases h with
  | ok hms =>
    refine congrArg Outcome.ok (List.forall₂_eq_eq_eq.le _ _ ?_)
    rw [List.forall₂_map_left_iff, List.forall₂_map_right_iff]
    exact hms.imp fun _ _ hm => hm.1
  | failed e => rfl
  | panicked p => rfl

/-- The run does what the same run does in a new world. -/
theorem exists_reference {ctx : Context} {w : World} {S : Schedule} (hrest : w.AtRest ctx.id)
    (s : Script) (hinit : s.init = .ok ()) (hloops : 0 < ctx.config.loops.toNat)
    (hclock : ((s.benchmark.run ctx).seen.last ⟨w.clearJournal, S, ()⟩).NeverBlank) :
    match (s.benchmark.run ctx).seen ⟨w.clearJournal, S, ()⟩ with
    | .ok (o, v) t => v = t.world ∧ ∃ o' v' t',
        ((s.later w.tasks).benchmark.run ctx).seen ⟨{}, S.map (w.lens ctx.id).turns, ()⟩
          = .ok (o', v') t' ∧
        o.map (·.map Measurement.untimed) = o'.map (·.map Measurement.untimed) ∧
        ∃ n lines, Beside (w.lens ctx.id) s (s.later w.tasks) ctx 5 n 0 lines [] [] v v'
    | .error e _ => ∃ t',
        ((s.later w.tasks).benchmark.run ctx).seen ⟨{}, S.map (w.lens ctx.id).turns, ()⟩
          = .error e t' := by
  have hcoupled := coupled_seen ctx (matches_later s w ctx.id) (.inl rfl) nofun
  have hbegin := beside_atRest hrest s
  unfold Run.last at hclock
  cases hrun : (s.benchmark.run ctx).seen ⟨w.clearJournal, S, ()⟩ with
  | ok r t =>
    rw [hrun] at hclock
    obtain ⟨r', v', ⟨hlike, ⟨hv, hv'⟩, k', n, lines, hk', hbeside⟩, hnext⟩ :=
      hcoupled.ok hbegin hrun fun _ => hclock
    -- the schedule found for the new world is the one that the lens makes of the schedule given
    obtain ⟨X, hX, hleads⟩ := hnext _ (.map _ t.schedule)
    obtain ⟨t', ht', -⟩ := hleads _ rfl
    rw [hX.eq_map rfl] at ht'
    rw [← hv, ← hv', hk' (.inr ⟨hinit, hloops⟩)] at hbeside
    exact ⟨hv, r'.1, r'.2, t', ht', untimed_of_like hlike, n, lines, hbeside⟩
  | error e t =>
    rw [hrun] at hclock
    obtain ⟨X, hX, hstuck⟩ := hcoupled.stuck hbegin hrun fun _ => hclock
    obtain ⟨t', ht'⟩ := hstuck _ rfl
    rw [hX.eq_map rfl] at ht'
    exact ⟨t', ht'⟩

/-- What two runs have in common that began in the worlds `w₁` and `w₂`.  Either both wait forever,
or both have ended, with outcomes and result lines that agree but for times, and show the same, now
and also once all threads have come to their ends. -/
def RunsAlike (name : String) (ctx : Context) (w₁ w₂ : World) :
    EStateM.Result Stuck (Session Unit) (Outcome HarnessError (List Measurement) × World) →
    EStateM.Result Stuck (Session Unit) (Outcome HarnessError (List Measurement) × World) → Prop
  | .ok (outcome₁, v₁) _, .ok (outcome₂, v₂) _ =>
    outcome₁.map (·.map Measurement.untimed) = outcome₂.map (·.map Measurement.untimed) ∧
      (∃ count, ctx.config.ResultLines name count v₁.output ∧
        ctx.config.ResultLines name count v₂.output) ∧
      (w₁.lens ctx.id).SameRun (w₂.lens ctx.id) ctx.id v₁ v₂ ∧
      (w₁.lens ctx.id).SameRun (w₂.lens ctx.id) ctx.id v₁.settle v₂.settle
  | .error _ _, .error _ _ => True
  | _, _ => False

theorem later_zero (s : Script) : s.later 0 = s := by
  unfold later
  simp only [Nat.zero_add]

end Script

end BenchLoop
