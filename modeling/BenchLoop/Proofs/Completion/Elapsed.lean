/-
BenchLoop/Proofs/Completion/Elapsed.lean

The time that an iteration took is the difference of its two marks.  A mark is read off
the clock in one step and stored in a later one, so marks need not be stored in the order
in which they were read, and a late notification can overwrite the end with an earlier
reading.  Still the end never precedes the start: a thread subtracts rows only after the
start has been set, and it reads the clock for the end only after that.

    Countdown.Timed now c        the marks of a countdown are in order
    Countdown.Allows c now a     a step may be under way while the countdown is like that

say so of the shared state and of what is in flight.  `Countdown.Timed.exec` is the step
lemma; `World.Timed` is the invariant over all threads, kept by every turn
(`World.Timed.turn`) and so by any interleaving (`World.Timed.burst`).
-/
import BenchLoop.Loop
import BenchLoop.Proofs.Completion.Clock
import BenchLoop.Proofs.Completion.Pacing
import BenchLoop.Proofs.Machine.Ends

namespace BenchLoop

open CountdownAction

namespace Stopwatch

/-- Marks that are set and in order are the ends of the time between them. -/
theorem elapsed?_of_le {w : Stopwatch} (hstart : w.startMark ≠ 0) (hle : w.startMark ≤ w.endMark) :
    ∃ start finish, w.start? = some start ∧ w.finish? = some finish ∧ start ≤ finish ∧
      w.elapsed? = some (finish - start) := by
  have hfinish : w.endMark ≠ 0 := by
    intro h0
    rw [h0] at hle
    exact hstart (UInt64.le_zero_iff.1 hle)
  have hstart? : w.start? = some (w.startMark - 1) := if_neg hstart
  have hfinish? : w.finish? = some (w.endMark - 1) := if_neg hfinish
  -- a mark is one more than its reading
  have hone (mark : UInt64) (h : mark ≠ 0) : (1 : UInt64) ≤ mark := by
    rw [UInt64.le_iff_toNat_le, UInt64.toNat_one]
    exact Nat.pos_of_ne_zero fun h0 => h (UInt64.toNat_inj.1 h0)
  have hsub : w.startMark - 1 ≤ w.endMark - 1 := by
    rw [UInt64.le_iff_toNat_le, UInt64.toNat_sub_of_le _ _ (hone _ hstart),
      UInt64.toNat_sub_of_le _ _ (hone _ hfinish)]
    exact Nat.sub_le_sub_right (UInt64.le_iff_toNat_le.1 hle) _
  refine ⟨_, _, hstart?, hfinish?, hsub, ?_⟩
  rw [elapsed?, hstart?, hfinish?]
  show some (span _ _) = _
  rw [span, if_pos hsub]

theorem ReadBy.mono {now now' : Nat} {mark : UInt64} (h : ReadBy now mark) (hle : now ≤ now') :
    ReadBy now' mark := by
  obtain ⟨t, ht, he⟩ := h
  exact ⟨t, ht.trans hle, he⟩

/-- A mark that was read by now is not later than a reading of the clock. -/
theorem ReadBy.le_reading {now : Nat} {mark : UInt64} (h : ReadBy now mark)
    (hnow : now ≠ UInt64.size - 1) : mark ≤ reading now := by
  obtain ⟨t, ht, rfl⟩ := h
  exact reading_le ht fun h0 => hnow (reading_eq_zero_iff.1 h0)

end Stopwatch

open Stopwatch (ReadBy)

/-! ### One step on a countdown -/

namespace Countdown

/-- The marks of a countdown are in order while the clock shows `now`. -/
structure Timed (now : Nat) (c : Countdown) : Prop where
  start : c.watch.startMark ≠ 0 → ReadBy now c.watch.startMark
  finish : c.watch.endMark ≠ 0 → c.watch.startMark ≠ 0 ∧ c.watch.startMark ≤ c.watch.endMark
  /-- The latch is released only after the end was stored. -/
  opened : c.isComplete = true → c.watch.endMark ≠ 0

/-- What holds of a step that some thread has still to take.  Stores of a reset are none. -/
def Allows (c : Countdown) (now : Nat) : CountdownAction → Prop
  | readStart | subtract _ => True
  | claimStart mark => mark ≠ 0 ∧ ReadBy now mark
  | readEnd => c.watch.startMark ≠ 0
  | storeEnd mark => c.watch.startMark ≠ 0 ∧ c.watch.startMark ≤ mark
  | claimRelease | release => c.watch.endMark ≠ 0
  | clearStart | clearEnd | installLatch | armClaim _ | armPending _ => False

/-- Whatever `c` allows, `c'` allows at a later time: no mark is unset, and a start that is
set stays what it is. -/
structure Extends (c c' : Countdown) : Prop where
  start : c.watch.startMark ≠ 0 → c'.watch.startMark = c.watch.startMark
  finish : c.watch.endMark ≠ 0 → c'.watch.endMark ≠ 0

variable {c c' : Countdown} {now now' : Nat} {a b : CountdownAction}

theorem Extends.refl (c : Countdown) : Extends c c := ⟨fun _ => rfl, id⟩

theorem Allows.mono (h : c.Allows now a) (hc : Extends c c') (hle : now ≤ now') :
    c'.Allows now' a := by
  cases a with
  | claimStart mark => exact ⟨h.1, h.2.mono hle⟩
  | readEnd =>
    show c'.watch.startMark ≠ 0
    rw [hc.start h]
    exact h
  | storeEnd mark =>
    show c'.watch.startMark ≠ 0 ∧ c'.watch.startMark ≤ mark
    rw [hc.start h.1]
    exact h
  | claimRelease => exact hc.finish h
  | release => exact hc.finish h
  | readStart => trivial
  | subtract count => trivial
  | clearStart => cases h
  | clearEnd => cases h
  | installLatch => cases h
  | armClaim rows => cases h
  | armPending rows => cases h

theorem Timed.mono (h : c.Timed now) (hle : now ≤ now') : c.Timed now' :=
  ⟨fun hstart => (h.start hstart).mono hle, h.finish, h.opened⟩

/-- A claim of the start that wins finds no end stored, and one that loses changes nothing. -/
theorem Timed.exec_claimStart (h : c.Timed now) {mark : UInt64} (hread : ReadBy now mark) :
    (c.exec now (claimStart mark)).after.Timed now ∧
      Extends c (c.exec now (claimStart mark)).after := by
  by_cases hstart : c.watch.startMark = 0
  · have hunended : c.watch.endMark = 0 := by
      by_contra hend
      exact (h.finish hend).1 hstart
    have hafter : (c.exec now (claimStart mark)).after
        = { c with watch := { c.watch with startMark := mark } } := by
      simp [Countdown.exec, Stopwatch.claimStart, hstart]
    rw [hafter]
    exact ⟨⟨fun _ => hread, fun hend => absurd hunended hend, h.opened⟩,
      fun hne => absurd hstart hne, id⟩
  · have hafter : (c.exec now (claimStart mark)).after = c := by
      simp [Countdown.exec, Stopwatch.claimStart, hstart]
    rw [hafter]
    exact ⟨h, .refl c⟩

/-- A step of a thread that subtracts rows only once the start is set keeps the marks in
order, takes nothing back, and leads to a step that is allowed. -/
theorem Timed.exec (h : c.Timed now) (ha : c.Allows now a)
    (hbegun : 0 < a.units → c.watch.startMark ≠ 0) (hnow : now ≠ UInt64.size - 1) :
    (c.exec now a).after.Timed now ∧ Extends c (c.exec now a).after ∧
      ∀ b ∈ (c.exec now a).next, (c.exec now a).after.Allows now b := by
  have hset : Stopwatch.reading now ≠ 0 := fun h0 => hnow (Stopwatch.reading_eq_zero_iff.1 h0)
  cases a with
  | clearStart => cases ha
  | clearEnd => cases ha
  | installLatch => cases ha
  | armClaim rows => cases ha
  | armPending rows => cases ha
  | readStart =>
    refine ⟨h, .refl c, ?_⟩
    rintro b ⟨rfl⟩
    exact ⟨hset, now, le_rfl, rfl⟩
  | claimStart mark =>
    obtain ⟨htimed, hext⟩ := h.exec_claimStart ha.2
    exact ⟨htimed, hext, fun b hb => by cases hb⟩
  | subtract count =>
    by_cases h0 : count = 0
    · simp only [Countdown.exec, h0, if_true]
      exact ⟨h, .refl c, fun b hb => by cases hb⟩
    · have hstart : c.watch.startMark ≠ 0 := by
        apply hbegun
        exact Nat.pos_of_ne_zero fun hz => h0 (UInt32.toNat_inj.1 hz)
      simp only [Countdown.exec, h0, if_false]
      refine ⟨⟨h.start, h.finish, h.opened⟩, ⟨fun _ => rfl, id⟩, ?_⟩
      intro b hb
      split at hb
      · cases hb
        exact hstart
      · cases hb
  | readEnd =>
    -- the clock is read while the start is set, so the reading is not earlier than that
    refine ⟨h, .refl c, ?_⟩
    rintro b ⟨rfl⟩
    exact ⟨ha, (h.start ha).le_reading hnow⟩
  | storeEnd mark =>
    obtain ⟨hstart, hle⟩ := ha
    have hmark : mark ≠ 0 := by
      intro h0
      rw [h0] at hle
      exact hstart (UInt64.le_zero_iff.1 hle)
    -- whatever end was there before, the new one is not earlier than the start either
    refine ⟨⟨h.start, fun _ => ⟨hstart, hle⟩, fun _ => hmark⟩, ⟨fun _ => rfl, fun _ => hmark⟩, ?_⟩
    rintro b ⟨rfl⟩
    exact hmark
  | claimRelease =>
    refine ⟨⟨h.start, h.finish, h.opened⟩, ⟨fun _ => rfl, id⟩, ?_⟩
    intro b hb
    simp only [Countdown.exec] at hb
    split at hb
    · cases hb
    · cases hb
      exact ha
  | release =>
    refine ⟨⟨h.start, h.finish, fun _ => ha⟩, ⟨fun _ => rfl, id⟩, ?_⟩
    intro b hb
    cases hb

/-- A claim of the start subtracts nothing. -/
theorem units_of_isStart (ha : a.isStart = true) : a.units = 0 := by
  cases a <;> first | rfl | cases ha

/-- A start that is set stays set under every step but the stores of a reset. -/
theorem startMark_exec_of_set (ha : a.isWork = true) (h : c.watch.startMark ≠ 0) :
    (c.exec now a).after.watch.startMark ≠ 0 := by
  cases a with
  | claimStart mark =>
    simp only [Countdown.exec, Stopwatch.claimStart, h, if_false]
    exact h
  | subtract count =>
    simp only [Countdown.exec]
    split <;> exact h
  | clearStart => cases ha
  | _ => exact h

end Countdown

/-! ### All threads -/

namespace World

variable {id : ContextId} {w : World}

/-- The marks are in order, every step in flight is allowed, and no thread subtracts rows
before somebody has set the start. -/
structure Timed (id : ContextId) (w : World) : Prop where
  marks : (w.countdown id).Timed w.now
  calm : ∀ i, ∀ s ∈ w.remaining i, s.isCrash = false
  allowed : ∀ i, ∀ s ∈ w.remaining i, ∀ a, s.on? id = some a → (w.countdown id).Allows w.now a
  begun : ∀ i, (w.countdown id).watch.startMark ≠ 0 ∨ Step.Announced id (w.remaining i)

/-- What a step of a thread does to the marks, and what it leads to. -/
theorem Timed.step (h : w.Timed id) (hnow : w.now ≠ UInt64.size - 1) {i : ThreadId} {s : Step}
    {rest : List Step} (hi : w.remaining i = s :: rest) :
    let v := (w.exec (.thread i) s).2
    (v.countdown id).Timed w.now ∧ (w.countdown id).Extends (v.countdown id) ∧
      ∀ t ∈ (w.exec (.thread i) s).1, ∀ a, t.on? id = some a →
        (v.countdown id).Allows w.now a := by
  intro v
  cases hs : s.on? id with
  | none =>
    obtain ⟨hnext, hcountdown, -⟩ := exec_off w (.thread i) hs
    rw [hcountdown]
    refine ⟨h.marks, .refl _, ?_⟩
    intro t ht a ha
    rw [hnext t ht] at ha
    cases ha
  | some a =>
    obtain ⟨-, hcountdown, -⟩ := exec_on w (.thread i) hs
    have hmem := mem_remaining_of_eq hi
    have hbegun : 0 < a.units → (w.countdown id).watch.startMark ≠ 0 := by
      intro hunits
      rcases h.begun i with hset | hann
      · exact hset
      · -- the thread is at a row, so it is not at a claim of the start
        rw [hi] at hann
        rcases hann with hstart | ⟨hcounts, -⟩
        · rw [Step.isStart_of_on hs] at hstart
          rw [Countdown.units_of_isStart hstart] at hunits
          exact absurd hunits (Nat.lt_irrefl 0)
        · rw [Step.counts_of_on hs, decide_eq_false_iff_not] at hcounts
          exact absurd hunits hcounts
    obtain ⟨htimed, hext, hallows⟩ := h.marks.exec (h.allowed i s hmem a hs) hbegun hnow
    rw [hcountdown]
    refine ⟨htimed, hext, ?_⟩
    intro t ht b hb
    obtain ⟨a', ha', hnext⟩ := exec_next_on ht hb
    obtain rfl := Option.some.inj (hs.symm.trans ha')
    exact hallows b hnext

/-- A claim of the start sets it, or leads to the step that will. -/
theorem Timed.begun_step (h : w.Timed id) {i : ThreadId} {s : Step} {rest : List Step}
    (hi : w.remaining i = s :: rest)
    (hext : (w.countdown id).Extends ((w.exec (.thread i) s).2.countdown id)) :
    ((w.exec (.thread i) s).2.countdown id).watch.startMark ≠ 0 ∨
      Step.Announced id ((w.exec (.thread i) s).1.toList ++ rest) := by
  rcases h.begun i with hset | hann
  · left
    rw [hext.start hset]
    exact hset
  rw [hi] at hann
  rcases hann with hstart | ⟨-, hann⟩
  · cases hs : s.on? id with
    | none =>
      rw [Step.isStart_of_off hs] at hstart
      cases hstart
    | some a =>
      obtain ⟨hnext, hcountdown, -⟩ := exec_on w (.thread i) hs
      rw [Step.isStart_of_on hs] at hstart
      cases a with
      | readStart =>
        right
        rw [hnext]
        exact .inl (by simp [Step.isStart_of_on (Step.on?_count id s.task _), isStart])
      | claimStart mark =>
        left
        have hmem := mem_remaining_of_eq hi
        have hmark : mark ≠ 0 := (h.allowed i s hmem _ hs).1
        rw [hcountdown]
        simp only [Countdown.exec, Stopwatch.claimStart]
        split
        · exact hmark
        · next hne => exact hne
      | _ => cases hstart
  · right
    cases hexec : (w.exec (.thread i) s).1 with
    | none => exact hann
    | some t => exact .inr ⟨counts_exec hexec, hann⟩

theorem Timed.turn (h : w.Timed id) (hnow : w.now ≠ UInt64.size - 1) (t : Turn) :
    (w.turn t).Timed id := by
  obtain ⟨n, ht⟩ | ⟨i, s, rest, rfl, hi, ht⟩ := w.turn_cases t
  · -- time passes
    have hle : w.now ≤ w.now + n := Nat.le_add_right ..
    rw [ht]
    refine ⟨h.marks.mono hle, h.calm, ?_, h.begun⟩
    intro j s hs a ha
    exact (h.allowed j s hs a ha).mono (.refl _) hle
  · obtain ⟨htimed, hext, hallows⟩ := h.step hnow hi
    have hmem := mem_remaining_of_eq hi
    have hcrash : s.isCrash = false := h.calm i s hmem
    have hlater : w.now ≤ (w.turn (.thread i)).now := by
      rw [ht]
      exact @now_le_exec w (.thread i) s
    have hcountdown := countdown_turn hi id
    exact
      { marks := by
          rw [hcountdown]
          exact htimed.mono hlater
        calm := fun j t hmem => by
          obtain ⟨-, hnext⟩ | hold := mem_remaining_turn hi hmem
          · exact exec_isCrash hnext
          · exact h.calm j t hold
        allowed := fun j t hmem a ha => by
          rw [hcountdown]
          obtain ⟨-, hnext⟩ | hold := mem_remaining_turn hi hmem
          · exact (hallows t hnext a ha).mono (.refl _) hlater
          · exact (h.allowed j t hold a ha).mono hext hlater
        begun := fun j => by
          rw [hcountdown, remaining_turn hi hcrash]
          split
          · exact h.begun_step hi hext
          · -- a thread that has not moved finds the start set if it was
            refine (h.begun j).imp_left ?_
            intro hset
            rw [hext.start hset]
            exact hset }

/-- Any interleaving keeps the marks in order, unless the clock stands at its last reading,
which is stored as no reading. -/
theorem Timed.burst (h : w.Timed id) (turns : List Turn)
    (hclock : ∀ n, (w.burst (turns.take n)).now ≠ UInt64.size - 1) : (w.burst turns).Timed id := by
  induction turns generalizing w with
  | nil => exact h
  | cons t turns ih =>
    have hnow : w.now ≠ UInt64.size - 1 := hclock 0
    refine ih (h.turn hnow t) ?_
    intro n
    exact hclock (n + 1)

/-! ### The report -/

/-- The start has been set, and no thread is about to reset the countdown. -/
structure StartKept (id : ContextId) (w : World) : Prop where
  work : ∀ s ∈ w.inFlight, s.isWork id = true
  set : (w.countdown id).watch.startMark ≠ 0

/-- A step of a task leaves a start that is set alone. -/
theorem startMark_exec_of_set {actor : Actor} {s : Step} (hs : s.isWork id = true)
    (h : (w.countdown id).watch.startMark ≠ 0) :
    ((w.exec actor s).2.countdown id).watch.startMark ≠ 0 := by
  cases ha : s.on? id with
  | none =>
    rw [(exec_off w actor ha).2.1]
    exact h
  | some a =>
    rw [(exec_on w actor ha).2.1]
    exact Countdown.startMark_exec_of_set (Step.isWork_on hs ha) h

/-- Turns lead from steps of tasks to steps of tasks. -/
theorem isWork_turn (h : ∀ s ∈ w.inFlight, s.isWork id = true) (t : Turn) :
    ∀ s ∈ (w.turn t).inFlight, s.isWork id = true := by
  obtain ⟨n, ht⟩ | ⟨i, s, rest, rfl, hi, -⟩ := w.turn_cases t
  · rw [ht]
    exact h
  · have hs : s.isWork id = true := by
      apply h
      rw [mem_inFlight]
      exact ⟨i, by rw [hi]; exact List.mem_cons_self⟩
    obtain ⟨others, hpool, hpool'⟩ := inFlight_turn hi (Step.isCrash_of_isWork hs)
    rw [hpool']
    refine forall_exec ?_ fun t ht => isWork_exec ht
    rw [← hpool]
    exact h

theorem isWork_burst (h : ∀ s ∈ w.inFlight, s.isWork id = true) (turns : List Turn) :
    ∀ s ∈ (w.burst turns).inFlight, s.isWork id = true := by
  induction turns generalizing w with
  | nil => exact h
  | cons t turns ih => exact ih (isWork_turn h t)

theorem StartKept.turn (h : w.StartKept id) (t : Turn) : (w.turn t).StartKept id := by
  refine ⟨isWork_turn h.work t, ?_⟩
  obtain ⟨n, ht⟩ | ⟨i, s, rest, rfl, hi, -⟩ := w.turn_cases t
  · rw [ht]
    exact h.set
  · rw [countdown_turn hi]
    apply startMark_exec_of_set _ h.set
    apply h.work
    rw [mem_inFlight]
    exact ⟨i, by rw [hi]; exact List.mem_cons_self⟩

/-- What other threads do does not show in the coordinator's log. -/
theorem coordinatorLog_turn (w : World) (t : Turn) :
    (w.turn t).coordinatorLog = w.coordinatorLog := by
  obtain ⟨n, ht⟩ | ⟨i, s, rest, rfl, hi, -⟩ := w.turn_cases t
  · rw [ht]
    rfl
  · obtain ⟨⟨actor, event⟩, hjournal, hactor, -⟩ := exec_journal w (.thread i) s
    subst hactor
    rw [← journal_turn hi] at hjournal
    simp only [coordinatorLog, log, hjournal, List.reverse_cons, List.filterMap_append]
    cases event <;> simp

end World

namespace Benchmark

variable {σ : Type}

/-- Once the start has been set the report adds nothing to the coordinator's log. -/
theorem ends_report_started (b : Benchmark σ) (ctx : Context) (loop : UInt32)
    (entries : List (LogLevel × String)) :
    Run.Ends (fun w _ => w.StartKept ctx.id ∧ w.coordinatorLog = entries) (b.report ctx loop)
      fun _ w _ => w.coordinatorLog = entries := by
  have hstable : Stable (σ := σ) fun w _ => w.StartKept ctx.id ∧ w.coordinatorLog = entries := by
    intro w target t h
    exact ⟨h.1.turn t, by rw [w.coordinatorLog_turn t, h.2]⟩
  unfold report
  refine Run.Ends.bind (Q := fun started w _ =>
    started = true ∧ w.StartKept ctx.id ∧ w.coordinatorLog = entries) ?_ ?_
  · apply Run.Ends.look hstable
    intro w _ h
    exact ⟨bne_iff_ne.2 h.1.set, h⟩
  intro started
  apply Run.Ends.lift
  -- the warning is about a start that is not set
  rintro rfl
  simp only [Bool.not_true, Bool.and_false, Bool.false_eq_true, if_false]
  refine Run.Ends.bind (Q := fun _ w _ => w.StartKept ctx.id ∧ w.coordinatorLog = entries)
    (Run.Ends.look hstable fun w _ h => h) fun startMark => ?_
  refine Run.Ends.bind (Q := fun _ w _ => w.StartKept ctx.id ∧ w.coordinatorLog = entries)
    (Run.Ends.look hstable fun w _ h => h) fun endMark => ?_
  refine Run.Ends.bind (Run.Ends.note hstable (Q := fun _ w _ => w.coordinatorLog = entries) ?_)
    fun _ => Run.Ends.pure fun w _ h => h
  intro w _ h
  rw [← h.2]
  simp [World.coordinatorLog, World.log, World.note]

end Benchmark

/-! ### What the report is about -/

namespace World

variable {id : ContextId} {w : World}

/-- Right after a reset no mark is set, so there is nothing to be in order yet. -/
theorem Timed.of_reset {rows : UInt64} {c : Countdown} (hrows : rows ≠ 0)
    (hreset : w.countdown id = c.reset rows) (hcalls : ∀ s ∈ w.inFlight, s.isOpening id)
    (hannounced : ∀ i, Step.Announced id (w.remaining i))
    (hmarks : ∀ s ∈ w.inFlight, ∀ mark, s.on? id = some (.claimStart mark) →
      mark ≠ 0 ∧ ReadBy w.now mark) : w.Timed id := by
  have hmem {i : ThreadId} {s : Step} (hs : s ∈ w.remaining i) : s ∈ w.inFlight :=
    mem_inFlight.2 ⟨i, hs⟩
  refine ⟨?_, ?_, ?_, fun i => .inr (hannounced i)⟩
  · rw [hreset, Countdown.reset_eq]
    refine ⟨fun h => absurd rfl h, fun h => absurd rfl h, ?_⟩
    intro hopen
    simp [Countdown.isComplete, hrows] at hopen
  · intro i s hs
    exact Step.isCrash_of_isWork (Step.isWork_of_isOpening (hcalls s (hmem hs)))
  · intro i s hs a ha
    have hopening := hcalls s (hmem hs)
    have hleg := Step.leg?_of_isOpening hopening ha
    have hwork := Step.isWork_on (Step.isWork_of_isOpening hopening) ha
    cases a with
    | readStart => trivial
    | claimStart mark => exact hmarks s (hmem hs) mark ha
    | subtract count => trivial
    | readEnd => cases hleg
    | storeEnd mark => cases hleg
    | claimRelease => cases hleg
    | release => cases hleg
    | _ => cases hwork

theorem StartKept.of_set {v : World} (hwork : ∀ s ∈ v.inFlight, s.isWork id = true)
    (hset : (v.countdown id).watch.startMark ≠ 0) (hcountdown : w.countdown id = v.countdown id)
    (hthreads : w.threads = v.threads) : w.StartKept id := by
  refine ⟨?_, ?_⟩
  · rw [inFlight, hthreads]
    exact hwork
  · rw [hcountdown]
    exact hset

end World

end BenchLoop
