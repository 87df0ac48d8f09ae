/-
BenchLoop/Proofs/Loop/Late.lean

A thread that is late.  Nobody waits for a task without rows.  If the first task of a run
is such a task, its thread need not have taken a single step when the first iteration
ends, and then it claims the start of the second one (`Benchmark.not_ownsStarts`).

`World.Held` is what is known of such a thread all the while: the coordinator never
touches a thread that it has started, and while it waits every other thread can come to
its end without this one (`Benchmark.may_await`).
-/
import BenchLoop.Proofs.Machine.May
import BenchLoop.Proofs.Loop.Starts

namespace BenchLoop

open CountdownAction

/-- The first thread has still to take all of the steps `line` that it was started with; there
is no thread yet if there are none.  There have been `n` resets. -/
structure World.Held (id : ContextId) (line : List Step) (n : Nat) (w : World) : Prop where
  remaining : w.remaining 0 = line
  first : line = [] → w.threads.size = 0
  resets : Entry.resets id w.journal = n

/-- Tasks are at work, and there have been `n` resets. -/
def Ledger.working (id : ContextId) (n : Nat) : Ledger id where
  holds _ _ journal _ pool := (∀ s ∈ pool, s.isWork id = true) ∧ Entry.resets id journal = n
  admits steps := ∀ s ∈ steps, s.isWork id = true
  sound h s hs := Step.isCrash_of_isWork (h.1 s hs)
  later h _ := h
  note h hstep := by
    rw [Entry.resets_cons, Entry.isReset_of_off (Entry.on?_of_isStep hstep)]
    exact h
  exec {rest actor s pool w} h := by
    obtain ⟨e, hjournal, hreset, -⟩ :=
      World.journal_exec (w := w) actor (h.1 s (Multiset.mem_cons_self s pool))
    rw [hjournal, Entry.resets_cons, hreset]
    exact ⟨World.forall_exec h.1 fun t ht => World.isWork_exec ht, h.2⟩
  hand ha h := ⟨fun s hs => (Multiset.mem_add.1 hs).elim (h.1 s) fun hs => ha s (by simpa using hs),
    h.2⟩

namespace World.Held

variable {id : ContextId} {line steps : List Step} {n : Nat} {w w' : World}

theorem congr (h : w.Held id line n) (hthreads : w'.threads = w.threads)
    (hresets : Entry.resets id w'.journal = Entry.resets id w.journal) : w'.Held id line n where
  remaining := by
    rw [World.remaining, hthreads]
    exact h.remaining
  first hline := by
    rw [hthreads]
    exact h.first hline
  resets := hresets.trans h.resets

theorem note (h : w.Held id line n) (event : Event) (he : event.isStep = false) :
    (w.note .coordinator event).Held id line n := by
  refine h.congr rfl ?_
  have hoff : Entry.isReset id ⟨.coordinator, event⟩ = false := by
    cases event with
    | performed step took => cases he
    | _ => rfl
  rw [World.note, Entry.resets_cons, hoff]
  rfl

theorem size_pos (h : w.Held id line n) (hline : line ≠ []) : 0 < w.threads.size := by
  by_contra hsize
  refine hline (h.remaining.symm.trans (remaining_of_size_le ?_))
  omega

theorem spawn_first (h : w.Held id [] n) (name : String) (hsteps : steps ≠ []) :
    (w.spawn name steps).2.Held id steps n where
  remaining := by rw [remaining_spawn, if_pos (h.first rfl).symm]
  first hnil := absurd hnil hsteps
  resets := h.resets

theorem spawn (h : w.Held id line n) (hline : line ≠ []) (name : String) :
    (w.spawn name steps).2.Held id line n where
  remaining := by
    rw [remaining_spawn, if_neg (h.size_pos hline).ne]
    exact h.remaining
  first hnil := absurd hnil hline
  resets := h.resets

/-- While the coordinator waits every other thread can come to its end. -/
theorem exists_burst (h : w.Held id line n) (hline : line ≠ [])
    (hwork : ∀ s ∈ w.inFlight, s.isWork id = true) :
    ∃ turns, (w.burst turns).Held id line n ∧ ∀ s ∈ (w.burst turns).inFlight, s ∈ line := by
  obtain ⟨turns, hkept, hothers⟩ := w.exists_burst_settling_others 0
  have hledger : (Ledger.working id n).inv 0 [] w :=
    ⟨fun s hs => hwork s (by simpa using hs), h.resets⟩
  refine ⟨turns, ⟨hkept.trans h.remaining, fun hnil => absurd hnil hline,
    (Ledger.inv_burst hledger turns).2⟩, fun s hs => ?_⟩
  obtain ⟨i, hi⟩ := mem_inFlight.1 hs
  by_cases h0 : i = 0
  · rwa [h0, hkept, h.remaining] at hi
  · rw [hothers i h0] at hi
    cases hi

/-- The thread goes on: it wins the start of the epoch that has come meanwhile. -/
theorem not_startsOwned {ctx : Context} {t : TaskId} {crew : Nat → TaskId → Prop}
    (h : w.Held ctx.id (ctx.markStarted t :: steps) n)
    (hunset : (w.countdown ctx.id).watch.startMark = 0) (ht : ¬ crew n t) :
    ¬ Entry.StartsOwned ctx.id crew (w.burst [.thread 0, .thread 0]).journal := by
  intro howned
  -- first turn: the thread reads the clock, and holds the claim from then on
  have hread : (ctx.markStarted t).on? ctx.id = some .readStart :=
    Step.on?_count ctx.id (some t) .readStart
  have hwork : (ctx.markStarted t).isWork ctx.id = true :=
    Step.isWork_of_isOpening Context.isOpening_markStarted
  let claim : Step := ⟨some t, .count ctx.id (.claimStart (Stopwatch.reading w.now))⟩
  have hnext : (w.exec (.thread 0) (ctx.markStarted t)).1 = some claim :=
    (exec_on w (.thread 0) hread).1
  have hclaim : claim.on? ctx.id = some (.claimStart (Stopwatch.reading w.now)) :=
    Step.on?_count ctx.id (some t) _
  let w' := w.turn (.thread 0)
  have hremaining : w'.remaining 0 = claim :: steps := by
    rw [remaining_turn h.remaining (Step.isCrash_of_isWork hwork), if_pos rfl, hnext]
    rfl
  have hunset' : (w'.countdown ctx.id).watch.startMark = 0 := by
    rw [countdown_turn h.remaining, (exec_on w (.thread 0) hread).2.1]
    exact hunset
  -- nothing has been reset meanwhile, so the claim still meets an unset start
  have hresets : Entry.resets ctx.id w'.journal = n := by
    obtain ⟨e, hjournal, hreset, -⟩ := journal_exec (w := w) (.thread 0) hwork
    rw [journal_turn h.remaining, hjournal, Entry.resets_cons, hreset]
    exact h.resets
  have hwon : ((w'.countdown ctx.id).exec w'.now
      (.claimStart (Stopwatch.reading w.now))).took = true := by
    simp [Countdown.exec, Stopwatch.claimStart, hunset']
  -- second turn: the claim wins, under the number of an iteration that it is not of
  have hlast : (w.burst [.thread 0, .thread 0]).journal
      = ⟨.thread 0, .performed claim true⟩ :: w'.journal := by
    show (w'.turn (.thread 0)).journal = _
    rw [journal_turn hremaining, (exec_on w' (.thread 0) hclaim).2.2, hwon]
  obtain ⟨t', ht', hcrew⟩ := howned [] _ _ hlast _ _ rfl hclaim
  obtain rfl := Option.some.inj ht'
  rw [hresets] at hcrew
  exact ht hcrew

end World.Held

/-! ### The coordinator leaves the thread alone -/

section Late

variable {σ : Type} {id : ContextId} {ctx : Context} {line : List Step} {n : Nat}

/-- The first thread is late, whatever the target. -/
abbrev Late (id : ContextId) (line : List Step) (n : Nat) (w : World) (_ : σ) : Prop :=
  w.Held id line n

namespace Late

theorem may_note (event : Event) (he : event.isStep = false) :
    Run.May (Late (σ := σ) id line n) (Run.note event) fun _ => Late id line n :=
  .step fun _ _ h => World.Held.note h event he

theorem may_log (level : LogLevel) (message : String) :
    Run.May (Late (σ := σ) id line n) (Run.log level message) fun _ => Late id line n :=
  may_note _ rfl

theorem may_look {α : Type} (f : World → α) :
    Run.May (Late (σ := σ) id line n) (Run.look f) fun _ => Late id line n :=
  .step fun _ _ h => h

/-- A reset leaves the start of the new epoch unset. -/
theorem may_arm (loop : UInt32) :
    Run.May (Late (σ := σ) ctx.id line n) (Benchmark.arm ctx loop) fun _ w _ =>
      w.Held ctx.id line (n + 1) ∧ (w.countdown ctx.id).watch.startMark = 0 := by
  -- the last store of the reset is still to come, or has been counted; so is the first one,
  -- or it has cleared the mark
  let J (own : List Step) (w : World) (_ : σ) : Prop :=
    (∃ k, w.Held ctx.id line k ∧ k + Step.tally ctx.id arms own = n + 1) ∧
      (∀ s ∈ own, s.isStart ctx.id = false) ∧
      (ctx.count none .clearStart ∈ own ∨ (w.countdown ctx.id).watch.startMark = 0)
  have hreset : Run.May (J (ctx.reset ctx.config.rows)) (Run.perform (ctx.reset ctx.config.rows))
      fun _ => J [] := by
    refine Run.May.perform (J := J) (fun step rest w target h => ?_) _
    obtain ⟨⟨k, h, hk⟩, hstart, hclear⟩ := h
    obtain ⟨hstep, hrest⟩ := List.forall_mem_cons.1 hstart
    refine ⟨⟨_, ⟨?_, ?_, rfl⟩, ?_⟩, List.forall_mem_append.2 ⟨fun s hs => ?_, hrest⟩, ?_⟩
    · rw [World.remaining, World.exec_threads]
      exact h.remaining
    · rw [World.exec_threads]
      exact h.first
    · have hexec := @World.resets_exec ctx.id w .coordinator step
      rw [← Multiset.cons_coe, Step.tally_cons] at hk
      rw [h.resets] at hexec
      rw [← Multiset.coe_add, Step.tally_add]
      omega
    · exact (World.unstarted_exec (by simpa using hs) hstep).2
    · rcases hclear with hclear | hunset
      · rcases List.mem_cons.1 hclear with rfl | hclear
        · refine .inr ?_
          have hon : (ctx.count none .clearStart).on? ctx.id = some .clearStart :=
            Step.on?_count ctx.id none .clearStart
          rw [(World.exec_on w .coordinator hon).2.1]
          rfl
        · exact .inl (List.mem_append_right _ hclear)
      · exact .inr (World.startMark_exec_of_unset hstep hunset)
  refine (may_log _ _).bind fun _ => Run.May.bind (hreset.mono
    (fun w target h => ⟨⟨n, h, ?_⟩, ?_, .inl List.mem_cons_self⟩) fun _ w target h =>
      show w.Held ctx.id line (n + 1) ∧ _ from ?_) fun _ => .step fun _ _ h => h
  · rw [ctx.tally_arms_reset]
  · exact fun s hs => (Context.isStart_of_mem_reset hs).2
  · obtain ⟨⟨k, h, hk⟩, -, hunset⟩ := h
    have hk : k = n + 1 := hk
    exact ⟨hk ▸ h, hunset.resolve_left (by simp)⟩

end Late

/-- A task with a thread of its own, the teardown of which touches no thread. -/
structure RowTask.Detached (t : RowTask σ) (id : ContextId) : Prop where
  needsThread : t.needsThread = true
  stop (line : List Step) (n : Nat) : Run.May (Late id line n) t.stop fun _ => Late id line n

/-- A benchmark that builds such tasks and nothing else. -/
def Benchmark.Detached (b : Benchmark σ) (ctx : Context) : Prop :=
  ∀ (task : TaskId) (range : RowRange) (line : List Step) (n : Nat),
    Run.May (Late ctx.id line n) (b.createTask task range ctx) fun outcome w _ =>
      (∀ t, outcome = .ok t → t.Detached ctx.id) ∧ w.Held ctx.id line n

namespace RowTask

variable {t : RowTask σ} {ts : List (RowTask σ)}

theorem may_teardown (ht : t.Detached id) :
    Run.May (Late id line n) t.teardown fun _ => Late id line n := by
  refine (ht.stop line n).bind fun outcome => ?_
  cases outcome with
  | ok u => exact .pure fun _ _ h => h
  | failed f => exact (Late.may_log _ _).bind fun _ => .pure fun _ _ h => h
  | panicked p => exact (Late.may_log _ _).bind fun _ => .pure fun _ _ h => h

theorem may_teardownAll (hts : ∀ t ∈ ts, t.Detached id) :
    Run.May (Late id line n) (teardownAll ts) fun _ => Late id line n := by
  induction ts with
  | nil => exact .pure fun _ _ h => h
  | cons t ts ih =>
    obtain ⟨ht, hts⟩ := List.forall_mem_cons.1 hts
    exact (may_teardown ht).bind fun _ => (ih hts).bind fun _ => .pure fun _ _ h => h

theorem steps_ne_nil : t.steps ctx ≠ [] := List.cons_ne_nil _ _

theorem may_spawn (hline : line ≠ []) :
    Run.May (Late (σ := σ) ctx.id line n) (t.spawn ctx) fun _ => Late ctx.id line n := by
  unfold spawn
  cases ThreadName.refusal? t.range.name with
  | some payload => exact .pure fun _ _ h => h
  | none =>
    exact Run.May.bind (.step fun w target h => h.spawn hline _) fun _ => .pure fun _ _ h => h

theorem may_spawn_first :
    Run.May (Late (σ := σ) ctx.id [] n) (t.spawn ctx) fun out w _ =>
      ∀ i, out = .ok i → w.Held ctx.id (t.steps ctx) n := by
  unfold spawn
  cases ThreadName.refusal? t.range.name with
  | some payload => exact .pure fun _ _ _ => nofun
  | none =>
    exact Run.May.bind (.step fun w target h => h.spawn_first _ steps_ne_nil) fun _ =>
      .pure fun _ _ h _ _ => h

end RowTask

namespace Benchmark

variable {b : Benchmark σ}

theorem may_createTasks (hb : b.Detached ctx) (built : List (RowTask σ)) (ranges : List RowRange)
    (hbuilt : ∀ t ∈ built, t.Detached ctx.id) :
    Run.May (Late ctx.id line n) (b.createTasks ctx built ranges) fun outcome w _ =>
      (∀ ts, outcome = .ok ts → ∀ t ∈ ts, t.Detached ctx.id) ∧ w.Held ctx.id line n := by
  induction ranges generalizing built with
  | nil =>
    refine .pure fun w target h => ⟨?_, h⟩
    rintro ts ⟨rfl⟩ t ht
    exact hbuilt t (List.mem_reverse.1 ht)
  | cons range ranges ih =>
    refine Run.May.bind (.step (Q := fun _ => Late ctx.id line n) fun w target h => h.congr rfl rfl)
      fun task => Run.May.bind (hb task range line n) fun outcome => Run.May.lift fun hok => ?_
    cases outcome with
    | ok t => exact ih _ (List.forall_mem_cons.2 ⟨hok t rfl, hbuilt⟩)
    | failed cause =>
      exact (RowTask.may_teardownAll fun t ht => hbuilt t (List.mem_reverse.1 ht)).bind
        fun _ => .pure fun w target h => ⟨nofun, h⟩
    | panicked p => exact .pure fun w target h => ⟨nofun, h⟩

/-- Once the first thread has been started, others can be started while it is late. -/
theorem may_startTasks {ts : List (RowTask σ)} (hts : ∀ t ∈ ts, t.Detached ctx.id)
    (hline : line ≠ []) :
    Run.May (Late ctx.id line n) (startTasks ctx ts) fun _ => Late ctx.id line n := by
  induction ts with
  | nil => exact .pure fun _ _ h => h
  | cons t ts ih =>
    obtain ⟨ht, hts⟩ := List.forall_mem_cons.1 hts
    rw [startTasks, if_pos ht.needsThread]
    refine (RowTask.may_spawn hline).bind fun out => ?_
    cases out with
    | ok i => exact ih hts
    | error payload => exact .pure fun _ _ h => h

theorem may_startTasks_first {t : RowTask σ} {ts : List (RowTask σ)}
    (hts : ∀ u ∈ t :: ts, u.Detached ctx.id) :
    Run.May (Late ctx.id [] n) (startTasks ctx (t :: ts)) fun outcome w _ =>
      outcome = .ok () → w.Held ctx.id (t.steps ctx) n := by
  obtain ⟨ht, hts⟩ := List.forall_mem_cons.1 hts
  rw [startTasks, if_pos ht.needsThread]
  refine RowTask.may_spawn_first.bind fun out => ?_
  cases out with
  | ok i =>
    exact (may_startTasks hts RowTask.steps_ne_nil).mono (fun w target h => h i rfl)
      fun _ w target h _ => h
  | error payload => exact .pure fun _ _ _ h => by cases h

theorem may_dispatch (hb : b.Detached ctx) :
    Run.May (Late ctx.id [] n) (b.dispatch ctx) fun outcome w _ => ∀ t ts,
      outcome = .ok (t :: ts) →
        (∀ u ∈ t :: ts, u.Detached ctx.id) ∧ w.Held ctx.id (t.steps ctx) n := by
  unfold dispatch
  cases taskRanges? b.name ctx.config.rows ctx.config.threads with
  | error fault => exact .pure fun _ _ _ => nofun
  | ok ranges =>
    refine Run.May.bind (may_createTasks hb [] ranges nofun) fun outcome =>
      Run.May.lift fun hts => ?_
    cases outcome with
    | failed e => exact .pure fun _ _ _ => nofun
    | panicked p => exact .pure fun _ _ _ => nofun
    | ok ts =>
      have hts := hts ts rfl
      cases ts with
      -- without tasks there is no first thread to speak of
      | nil =>
        refine Run.May.bind (.pure (Q := fun out w _ => out = .ok () ∧ w.Held ctx.id [] n)
          fun _ _ h => ⟨rfl, h⟩) fun out => Run.May.lift ?_
        rintro rfl
        exact .pure fun _ _ _ => nofun
      | cons t ts =>
        refine (may_startTasks_first hts).bind fun out => ?_
        cases out with
        | error payload => exact .pure fun _ _ _ => nofun
        | ok u =>
          refine .pure fun w target h => ?_
          rintro _ _ ⟨rfl, rfl⟩
          exact ⟨hts, h rfl⟩

theorem may_teardown {ts : List (RowTask σ)} (hts : ∀ t ∈ ts, t.Detached id) (loop : UInt32) :
    Run.May (Late id line n) (teardown loop ts) fun _ => Late id line n := by
  refine (RowTask.may_teardownAll hts).bind fun failed => ?_
  split
  · exact Late.may_log _ _
  · exact .pure fun _ _ h => h

theorem may_report (loop : UInt32) :
    Run.May (Late id line n) (b.report ctx loop) fun _ => Late id line n := by
  refine (Late.may_look _).bind fun started => ?_
  have hrest : Run.May (Late (σ := σ) id line n) (b.readOut ctx loop) fun _ => Late id line n :=
    (Late.may_look _).bind fun _ => (Late.may_look _).bind fun _ =>
      (Late.may_note _ rfl).bind fun _ => .pure fun _ _ h => h
  split
  · exact (Late.may_log _ _).bind fun _ => hrest
  · exact hrest

end Benchmark

end Late

/-! ### An iteration that does not wait for the thread -/

/-- Tasks that notify no rows leave the countdown quiet. -/
theorem Conduct.Orderly.isQuiet {σ : Type} {b : Benchmark σ} {m : Conduct} {ctx : Context}
    {k : Nat} {d : Duty} {steps : List Step} (hm : m.Orderly b ctx)
    (hd : d ∈ b.duties ctx.config k) (hline : m.line d steps)
    (htally : Step.tally ctx.id units steps = 0) : ∀ s ∈ steps, s.isQuiet ctx.id = true := by
  intro s hs
  rw [Step.isQuiet, hm.opening k d hd steps hline s hs, Bool.true_and]
  cases ha : s.on? ctx.id with
  | none => rfl
  | some a =>
    have h0 := Step.eq_zero_of_tally_eq_zero ctx.id units htally hs ha
    rw [Option.all_some, h0]
    rfl

namespace Benchmark

variable {σ : Type} {b : Benchmark σ} {m : Conduct} {known : Nat → σ → Prop} {d : Duty}
variable {ds : List Duty} {course : List Event}

section Iteration

variable {ctx : Context} (hm : m.Orderly b ctx) (hmax : ctx.config.rows.toNat ≤ 2 ^ 32 - 1)

/-- The wait of an iteration can end without the late thread, if this notifies no rows. -/
theorem may_await {k n : Nat} {line : List Step} {tasks : TaskId}
    (hrows : m.rows (b.duties ctx.config k) = ctx.config.rows.toNat) (hline : line ≠ [])
    (hquiet : ∀ s ∈ line, s.isQuiet ctx.id = true) (loop : UInt32) :
    Run.May (fun w target => w.Held ctx.id line n ∧
        Stage ((Rounds.accounted b hm hmax).busy k) known 0 [] tasks course w target)
      (await ctx loop (k + 1)) fun _ => Late ctx.id line n := by
  refine ((Late.may_log _ _).and_ends (Stage.ends_log _ _)).bind fun _ => Run.May.bind
    (Run.May.waitUntil (Q := fun _ => Late ctx.id line n) fun w target h => ?_) fun _ =>
      Late.may_note _ rfl
  obtain ⟨hheld, hstage⟩ := h
  have hengaged := Conduct.engaged_of_busy hrows hstage.inv
  obtain ⟨turns, hheld, honly⟩ :=
    hheld.exists_burst hline fun s hs => hengaged.1.work s (by simpa using hs)
  have hengaged := Ledger.inv_burst hengaged turns
  have hcomplete := Ledger.isComplete_of_isQuiet hengaged fun s hs => hquiet s (honly s hs)
  refine ⟨turns, ?_, hheld⟩
  rwa [Countdown.isComplete, hengaged.2] at hcomplete

/-- The first iteration can end well while the thread of its first task, which has no rows, has
not taken a step. -/
theorem may_iterate (hb : b.Follows m ctx known) (hdetached : b.Detached ctx)
    (hrows : m.rows (b.duties ctx.config 0) = ctx.config.rows.toNat)
    (hok : m.iterating b ctx.config 0 = .ok ()) (hduties : b.duties ctx.config 0 = d :: ds)
    (hempty : m.notified d = 0) (loop : UInt32) :
    Run.May (fun w target => w.Held ctx.id [] 0 ∧
        Stage ((Rounds.accounted b hm hmax).idle 0) known 0 [] (0 * ctx.config.threads.toNat) course
          w target)
      (b.iterate ctx loop) fun outcome w _ =>
        (∃ x, outcome = .ok x) ∧ ∃ steps, w.Held ctx.id (ctx.markStarted d.2 :: steps) 1 := by
  let rounds := Rounds.accounted b hm hmax
  -- up to the end of the wait: the line of the first task is still whole
  have hengage : Run.May (fun w target => w.Held ctx.id [] 0 ∧
        Stage (rounds.idle 0) known 0 [] (0 * ctx.config.threads.toNat) course w target)
      (b.engage ctx loop) fun outcome w _ => ∃ ts, outcome = .ok ts ∧
        (∀ t ∈ ts, t.Detached ctx.id) ∧
        ∃ steps, w.Held ctx.id (ctx.markStarted d.2 :: steps) 1 := by
    refine ((Late.may_arm loop).and_ends (ends_arm rounds 0 loop)).bind fun latch => ?_
    rintro w target ⟨⟨hheld, -⟩, hlatch, hstage⟩
    obtain rfl : latch = 1 := hlatch hrows
    refine Run.May.bind ((may_dispatch hdetached).and_ends (ends_dispatch hb (rounds.admits 0)))
      (fun outcome => ?_) w target ⟨hheld, hstage⟩
    rintro w target ⟨hlate, hvoid, left, tasks, hts, hstage⟩
    obtain ⟨ts, rfl⟩ := Outcome.exists_of_void_eq_ok (hvoid.trans hok)
    obtain ⟨rfl, rfl, hbuilt⟩ := hts ts rfl
    have hbuilt : List.Forall₂ (Built m ctx known) (b.duties ctx.config 0) ts := hbuilt
    rw [hduties, List.forall₂_cons_left_iff] at hbuilt
    obtain ⟨t, ts, ht, -, rfl⟩ := hbuilt
    obtain ⟨hdetached, hheld⟩ := hlate t ts rfl
    have hd : d ∈ b.duties ctx.config 0 := hduties ▸ List.mem_cons_self
    have hline : m.line d (t.steps ctx) :=
      ht.steps (ht.needsThread.symm.trans (hdetached t List.mem_cons_self).needsThread)
    -- that line subtracts nothing, so the wait may end without it
    have hid : t.id = d.2 := Option.some.inj
      (hm.own 0 d hd _ hline (ctx.markStarted t.id) List.mem_cons_self)
    have hquiet := hm.isQuiet hd hline ((hm.tally 0 d hd _ hline).trans hempty)
    refine Run.May.bind (may_await hm hmax hrows RowTask.steps_ne_nil hquiet loop)
      (fun _ => .pure fun w target h => ⟨t :: ts, rfl, hdetached, ?_⟩) w target ⟨hheld, hstage⟩
    rw [← hid]
    exact ⟨_, h⟩
  -- teardown and report leave the threads alone
  refine hengage.bind fun outcome => ?_
  rintro w target ⟨ts, rfl, hts, steps, hheld⟩
  exact Run.May.bind (may_teardown hts loop) (fun _ => (may_report loop).bind fun x =>
    .pure fun w target h => ⟨⟨x, rfl⟩, steps, h⟩) w target hheld

end Iteration

/-- **A late thread claims the start of another iteration.**  If the first task of a run has no
rows and a thread of its own, there is a schedule under which it claims the start of the
second iteration. -/
theorem not_ownsStarts {config : Config} {target : σ} (hvalid : config.fault? = none)
    (hb : b.Follows m (.ofConfig 0 config 0) known) (hm : m.Orderly b (.ofConfig 0 config 0))
    (hdetached : b.Detached (.ofConfig 0 config 0))
    (hrows : m.rows (b.duties config 0) = config.rows.toNat)
    (hok : m.iterating b config 0 = .ok ()) (hduties : b.duties config 0 = d :: ds)
    (hempty : m.notified d = 0)
    (hinit : b.Readies (.ofConfig 0 config 0) known target)
    (hlate : Run.May (fun w t => w = {} ∧ t = target) (b.init (.ofConfig 0 config 0))
      fun outcome w _ => outcome = .ok () ∧ w.Held 0 [] 0) :
    ¬ b.OwnsStarts config target := by
  intro howns
  let ctx := Context.ofConfig 0 config 0
  have hmax : ctx.config.rows.toNat ≤ 2 ^ 32 - 1 := (config.fault?_eq_none_iff.1 hvalid).2
  let rounds := Rounds.accounted b hm hmax
  -- the first iteration, ended without a step of the thread
  have hloop : Run.May (fun w t => w.Held ctx.id [] 0 ∧ ∃ course,
        Stage (rounds.idle 0) known 0 [] (0 * ctx.config.threads.toNat) course w t)
      (b.iterateFrom ctx 1 1) fun outcome w _ => (∃ results, outcome = .ok results) ∧
        ∃ steps, w.Held ctx.id (ctx.markStarted d.2 :: steps) 1 := by
    rintro w t ⟨hheld, course, hstage⟩
    refine Run.May.bind (may_iterate hm hmax hb hdetached hrows hok hduties
      hempty 1) (fun outcome => Run.May.lift ?_) w t ⟨hheld, hstage⟩
    rintro ⟨x, rfl⟩
    refine Run.May.bind (.pure (Q := fun outcome w _ => outcome = .ok [] ∧
      ∃ steps, w.Held ctx.id (ctx.markStarted d.2 :: steps) 1) fun _ _ h => ⟨rfl, h⟩)
      fun outcome => Run.May.lift ?_
    rintro rfl
    exact .pure fun _ _ h => ⟨⟨[x], rfl⟩, h⟩
  -- initialization, iteration and the reset of the second one, each under its own schedule
  have hfresh : Stage (rounds.idle 0) (fun _ t => t = target) 0 [] 0 [] ({} : World) target :=
    .fresh (Ledger.quiet_fresh 0 0 0) rfl
  obtain ⟨schedule₁, outcome, w₁, t₁, hrun₁, ⟨rfl, hheld₁⟩, hpost⟩ :=
    (hlate.and_ends (hinit (rounds.idle 0) (Ledger.storeless _ _))) {} target ⟨⟨rfl, rfl⟩, hfresh⟩
  obtain ⟨course, hstage⟩ := hpost rfl
  obtain ⟨schedule₂, outcome, w₂, t₂, hrun₂, ⟨results, rfl⟩, steps, hheld₂⟩ :=
    hloop w₁ t₁ ⟨hheld₁, course, by rwa [Nat.zero_mul]⟩
  obtain ⟨schedule₃, latch, w₃, t₃, hrun₃, hheld₃, hunset⟩ := Late.may_arm 2 w₂ t₂ hheld₂
  -- the thread goes on in the second iteration, but its task is of the first one
  have howned := (howns 0 0 0 0 (schedule₁ ++ (schedule₂ ++ (schedule₃ ++ []))) _ _ 1 results
    (hrun₁ _) (hrun₂ _) 2).1 latch _ (hrun₃ []) [.thread 0, .thread 0]
  refine hheld₃.not_startsOwned hunset ?_ howned
  rintro ⟨k, hk, hle, -⟩
  obtain rfl : k = 1 := by omega
  have hlt := (isTaskOf_of_mem (b := b) (c := config) (k := 0) (hduties ▸ List.mem_cons_self)).2
  have hle : 1 * config.threads.toNat ≤ d.2 := hle
  omega

end Benchmark

end BenchLoop
