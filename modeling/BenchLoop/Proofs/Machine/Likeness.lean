/-
BenchLoop/Proofs/Machine/Likeness.lean

Worlds that are alike, seen through a lens.  The threads that both have are at the same steps,
their countdowns show the same, and their tasks have noted the same keys; only marks need not be
equal, where clocks are not compared, and texts of the log, where those are not.  Where clocks are
compared all that has happened is the same, in the same order, but for lines of the log.

    Lens.Alike l id k latch w w'

says so for the countdown of one context.  `k` tells how far the first reset has come: of the
five stores that a reset makes, the first `k` have been made, and only what they have stored
agrees.  From 5 on everything does.

There is one lemma for each thing that happens: a step that both take (`Alike.exec`), one that
only the first one takes (`Alike.skip`), a turn (`Alike.turn`), the turns of all threads to
their ends (`Alike.settle`), a thread that both start (`Alike.spawn`).
-/
import BenchLoop.Proofs.Completion.Tally
import BenchLoop.Proofs.Machine.Coupling

namespace BenchLoop

open CountdownAction

/-- An entry, unless it is a line of the log. -/
def Entry.deed? (e : Entry) : Option Entry :=
  match e.event with
  | .logged .. => none
  | _ => some e

/-- All that has happened but for lines of the log, in order. -/
def World.deeds (w : World) : List Entry := w.journal.reverse.filterMap Entry.deed?

namespace Lens

variable {l : Lens}

/-! ### Countdowns -/

/-- Marks that are compared: as they are, or only as set or unset.  The latter is said only if
`clear`, which is to say that no reading of the clock was stored as unset. -/
def Marks (l : Lens) (clear : Prop) (mark mark' : UInt64) : Prop :=
  (clear → (mark = 0 ↔ mark' = 0)) ∧ (l.times = true → mark = mark')

theorem Marks.later {clear clear' : Prop} {mark mark' : UInt64} (h : l.Marks clear mark mark')
    (hclear : clear' → clear) : l.Marks clear' mark mark' :=
  ⟨fun hc => h.1 (hclear hc), h.2⟩

theorem Marks.rfl {clear : Prop} {mark : UInt64} : l.Marks clear mark mark :=
  ⟨fun _ => .rfl, fun _ => .refl _⟩

/-- A claim sets a start that is unset and leaves one that is set, so that starts that agree
still do. -/
theorem Marks.claimStart {clear : Prop} {watch watch' : Stopwatch} {mark mark' : UInt64}
    (hstart : l.Marks clear watch.startMark watch'.startMark) (hmark : l.Marks clear mark mark') :
    l.Marks clear (watch.claimStart mark).2.startMark (watch'.claimStart mark').2.startMark := by
  simp only [Stopwatch.claimStart]
  refine ⟨?_, ?_⟩
  · intro hc
    have hiff := hstart.1 hc
    by_cases h0 : watch.startMark = 0
    · rw [if_pos h0, if_pos (hiff.1 h0)]
      exact hmark.1 hc
    · rw [if_neg h0, if_neg fun h0' => h0 (hiff.2 h0')]
      exact hiff
  · intro ht
    rw [← hstart.2 ht, ← hmark.2 ht]
    split
    · exact Eq.refl mark
    · exact hstart.2 ht

theorem endMark_claimStart (watch : Stopwatch) (mark : UInt64) :
    (watch.claimStart mark).2.endMark = watch.endMark := by
  unfold Stopwatch.claimStart
  split <;> exact Eq.refl watch.endMark

/-- Readings of the two clocks, before they are stored.  Where clocks are not compared the second
one stands still, at a reading that looks set. -/
def Readings (l : Lens) (mark mark' : UInt64) : Prop :=
  (l.times = true → mark = mark') ∧ (l.times = false → mark' ≠ 0)

theorem Readings.marks {clear : Prop} {mark mark' : UInt64} (h : l.Readings mark mark')
    (hset : clear → mark ≠ 0) : l.Marks clear mark mark' := by
  refine ⟨?_, h.1⟩
  intro hc
  cases ht : l.times with
  | true => rw [h.1 ht]
  | false => exact iff_of_false (hset hc) (h.2 ht)

/-- The clocks of two worlds that are compared.  Otherwise the second one stands still. -/
def Clocks (l : Lens) (w w' : World) : Prop :=
  if l.times then w'.now = w.now ∧ w'.pace = w.pace else w'.now = 0 ∧ w'.pace = 0

theorem Clocks.readings {w w' : World} (h : l.Clocks w w') :
    l.Readings (Stopwatch.reading w.now) (Stopwatch.reading w'.now) := by
  unfold Clocks at h
  refine ⟨?_, ?_⟩
  · intro ht
    rw [if_pos ht] at h
    rw [h.1]
  · intro ht
    rw [ht, if_neg Bool.false_ne_true] at h
    rw [h.1]
    decide

theorem exec_clock (w : World) (actor : Actor) (s : Step) :
    (w.exec actor s).2.now = w.now + w.pace ∧ (w.exec actor s).2.pace = w.pace := by
  obtain ⟨task, action⟩ := s
  cases action with
  | access store a => cases a <;> exact ⟨rfl, rfl⟩
  | _ => exact ⟨rfl, rfl⟩

/-- Clocks run at the same pace. -/
theorem Clocks.exec {w w' : World} (h : l.Clocks w w') {actor actor' : Actor} {s s' : Step} :
    l.Clocks (w.exec actor s).2 (w'.exec actor' s').2 := by
  unfold Clocks at h ⊢
  rw [(exec_clock w actor s).1, (exec_clock w actor s).2, (exec_clock w' actor' s').1,
    (exec_clock w' actor' s').2]
  split
  · next ht =>
    rw [if_pos ht] at h
    exact ⟨by rw [h.1, h.2], h.2⟩
  · next ht =>
    rw [if_neg ht] at h
    exact ⟨by rw [h.1, h.2], h.2⟩

/-- Steps that a task takes on the countdowns. -/
inductive Actions (l : Lens) : CountdownAction → CountdownAction → Prop
  | readStart : Actions l readStart readStart
  | claimStart {mark mark' : UInt64} :
    l.Readings mark mark' → Actions l (claimStart mark) (claimStart mark')
  | subtract (count : UInt32) : Actions l (subtract count) (subtract count)
  | readEnd : Actions l readEnd readEnd
  | storeEnd {mark mark' : UInt64} :
    l.Readings mark mark' → Actions l (storeEnd mark) (storeEnd mark')
  | claimRelease : Actions l claimRelease claimRelease
  | release : Actions l release release

theorem Actions.eq {a a' : CountdownAction} (h : l.Actions a a') (ht : l.times = true) :
    a = a' := by
  cases h with
  | claimStart hreading => rw [hreading.1 ht]
  | storeEnd hreading => rw [hreading.1 ht]
  | _ => rfl

/-- What two countdowns have in common once `k` stores of the first reset have been made.  Latches
are compared from the first one of the second run on, and `latch` is one that it has. -/
structure Counters (l : Lens) (clear : Prop) (k latch : Nat) (c c' : Countdown) : Prop where
  current : c.current = l.latches + c'.current
  latch : latch ≤ c'.current
  start : 1 ≤ k → l.Marks clear c.watch.startMark c'.watch.startMark
  finish : 2 ≤ k → l.Marks clear c.watch.endMark c'.watch.endMark
  uninstalled : k < 3 → c'.current + 1 = l.firstLatch
  installed : 3 ≤ k → l.firstLatch ≤ c'.current
  released : 3 ≤ k → ∀ i, l.firstLatch ≤ i → i ≤ c'.current →
    (c.latches.get (l.latches + i)).released = (c'.latches.get i).released
  claimed : 4 ≤ k → c.claimed = c'.claimed
  pending : 5 ≤ k → c.pending = c'.pending

namespace Counters

variable {clear clear' : Prop} {k latch now now' : Nat} {c c' : Countdown} {a a' : CountdownAction}

theorem later (h : l.Counters clear k latch c c') (hclear : clear' → clear) :
    l.Counters clear' k latch c c' where
  __ := h
  start hk := (h.start hk).later hclear
  finish hk := (h.finish hk).later hclear

theorem isComplete (h : l.Counters clear 5 latch c c') : c.isComplete = c'.isComplete := by
  unfold Countdown.isComplete
  rw [h.current]
  exact h.released (by omega) _ (h.installed (by omega)) le_rfl

/-- Writing the same into the current latch. -/
theorem released_set (h : l.Counters clear k latch c c') (hk : 3 ≤ k) (value : Latch) (i : Nat)
    (hi : l.firstLatch ≤ i) (hle : i ≤ c'.current) :
    ((c.latches.set c.current value).get (l.latches + i)).released
      = ((c'.latches.set c'.current value).get i).released := by
  rw [Table.get_set, Table.get_set, h.current]
  by_cases hcurrent : c'.current = i
  · rw [if_pos (congrArg _ hcurrent), if_pos hcurrent]
  · rw [if_neg (fun heq => hcurrent (Nat.add_left_cancel heq)), if_neg hcurrent]
    exact h.released hk i hi hle

/-- A step of a task has the same effect on both. -/
theorem exec (h : l.Counters clear 5 latch c c') (ha : l.Actions a a')
    (hset : clear → a.isBlank = false)
    (hclock : l.Readings (Stopwatch.reading now) (Stopwatch.reading now')) :
    l.Counters clear 5 latch (c.exec now a).after (c'.exec now' a').after ∧
      Option.Rel l.Actions (c.exec now a).next (c'.exec now' a').next := by
  cases ha with
  | readStart => exact ⟨h, .some (.claimStart hclock)⟩
  | @claimStart mark mark' hreading =>
    -- a reading that was stored as unset would not be there to be claimed
    have hmark : l.Marks clear mark mark' :=
      hreading.marks fun hc => beq_eq_false_iff_ne.1 (hset hc)
    refine ⟨?_, .none⟩
    exact
      { h with
        start := fun _ => (h.start (by omega)).claimStart hmark
        finish := fun hk => by
          simp only [Countdown.exec, endMark_claimStart]
          exact h.finish hk }
  | subtract count =>
    have hpending := h.pending (by omega)
    by_cases h0 : count = 0
    · simp only [Countdown.exec, h0, if_true]
      exact ⟨h, .none⟩
    · simp only [Countdown.exec, h0, if_false, hpending]
      refine ⟨{ h with pending := fun _ => rfl }, ?_⟩
      split
      · exact .some .readEnd
      · exact .none
  | readEnd => exact ⟨h, .some (.storeEnd hclock)⟩
  | storeEnd hreading =>
    have hmark := hreading.marks fun hc => beq_eq_false_iff_ne.1 (hset hc)
    exact ⟨{ h with finish := fun _ => hmark }, .some .claimRelease⟩
  | claimRelease =>
    refine ⟨{ h with claimed := fun _ => rfl }, ?_⟩
    simp only [Countdown.exec, h.claimed (by omega)]
    split
    · exact .none
    · exact .some .release
  | release =>
    refine ⟨{ h with released := fun hk => h.released_set hk ⟨true⟩ }, .none⟩

/-- Where clocks are compared it takes effect on both, or on neither. -/
theorem took_eq (h : l.Counters clear 5 latch c c') (ha : l.Actions a a') (ht : l.times = true) :
    (c.exec now a).took = (c'.exec now' a').took := by
  cases ha with
  | claimStart hreading =>
    have hstart : c.watch.startMark = c'.watch.startMark := (h.start (by omega)).2 ht
    simp only [Countdown.exec, Stopwatch.claimStart, hstart]
    split <;> rfl
  | subtract count =>
    simp only [Countdown.exec]
    split <;> rfl
  | claimRelease =>
    have hclaimed : c.claimed = c'.claimed := h.claimed (by omega)
    simp only [Countdown.exec, hclaimed]
  | release =>
    have hreleased : c.isComplete = c'.isComplete := h.isComplete
    exact congrArg not hreleased
  | _ => rfl

/-- Both install a latch: the first one to be compared, or the next one. -/
theorem exec_installLatch (h : l.Counters clear k latch c c') {t t' : Nat} (hk : k = 2 ∨ k = 5) :
    l.Counters clear (max k 3) latch (c.exec t installLatch).after
      (c'.exec t' installLatch).after := by
  have hcurrent : c.current + 1 = l.latches + (c'.current + 1) := by
    rw [h.current, Nat.add_assoc]
  have hinstalled : l.firstLatch ≤ c'.current + 1 := by
    rcases hk with rfl | rfl
    · exact (h.uninstalled (by omega)).symm.le
    · exact (h.installed (by omega)).trans (Nat.le_succ _)
  refine
    { current := hcurrent
      latch := h.latch.trans (Nat.le_succ _)
      start := fun _ => h.start (by omega)
      finish := fun hle => h.finish (by omega)
      uninstalled := fun hlt => absurd hlt (by omega)
      installed := fun _ => hinstalled
      released := fun _ i hi hle => ?_
      claimed := fun hle => h.claimed (by omega)
      pending := fun hle => h.pending (by omega) }
  simp only [Countdown.exec, Table.get_set, hcurrent, Nat.add_left_cancel_iff]
  by_cases hnew : c'.current + 1 = i
  · rw [if_pos hnew, if_pos hnew]
  · -- an older latch: there is none to compare if this is the first reset
    rw [if_neg hnew, if_neg hnew]
    have hold : i ≤ c'.current := by
      have : i ≤ c'.current + 1 := hle
      omega
    rcases hk with rfl | rfl
    · have := h.uninstalled (by omega)
      omega
    · exact h.released (by omega) i hi hold

/-- The store with number `j` of a reset: either the first reset has just come to it, or it is a
later reset. -/
theorem exec_reset (h : l.Counters clear k latch c c') {t t' : Nat} {rows : UInt64} {j : Nat}
    (hk : k = j ∨ k = 5)
    (ha : [clearStart, clearEnd, installLatch, armClaim rows, armPending rows][j]? = some a) :
    l.Counters clear (max k (j + 1)) latch (c.exec t a).after (c'.exec t' a).after := by
  -- a store makes its own part agree and leaves the others as they were
  match j, ha with
  | 0, rfl =>
    exact
      { h with
        start := fun _ => .rfl
        finish := fun hle => h.finish (by omega)
        uninstalled := fun hlt => h.uninstalled (by omega)
        installed := fun hle => h.installed (by omega)
        released := fun hle => h.released (by omega)
        claimed := fun hle => h.claimed (by omega)
        pending := fun hle => h.pending (by omega) }
  | 1, rfl =>
    exact
      { h with
        start := fun _ => h.start (by omega)
        finish := fun hle => .rfl
        uninstalled := fun hlt => h.uninstalled (by omega)
        installed := fun hle => h.installed (by omega)
        released := fun hle => h.released (by omega)
        claimed := fun hle => h.claimed (by omega)
        pending := fun hle => h.pending (by omega) }
  | 2, rfl => exact h.exec_installLatch hk
  | 3, rfl =>
    exact
      { h with
        start := fun _ => h.start (by omega)
        finish := fun hle => h.finish (by omega)
        uninstalled := fun hlt => h.uninstalled (by omega)
        installed := fun hle => h.installed (by omega)
        released := fun hle => h.released (by omega)
        claimed := fun _ => rfl
        pending := fun hle => h.pending (by omega) }
  | 4, rfl =>
    exact
      { h with
        start := fun _ => h.start (by omega)
        finish := fun hle => h.finish (by omega)
        uninstalled := fun hlt => h.uninstalled (by omega)
        installed := fun hle => h.installed (by omega)
        released := fun hle => h.released (by omega)
        claimed := fun _ => h.claimed (by omega)
        pending := fun _ => rfl }

end Counters

/-! ### Steps and entries -/

/-- Steps of the same task that tell of the same work. -/
inductive Works (l : Lens) (id : ContextId) : Step → Step → Prop
  | count (task : TaskId) {a a' : CountdownAction} :
    l.Actions a a' → Works l id ⟨some (l.tasks + task), .count id a⟩ ⟨some task, .count id a'⟩
  | visit (task : TaskId) (range : RowRange) (keys : List UInt32) :
    Works l id ⟨some (l.tasks + task), .visit range keys⟩ ⟨some task, .visit range keys⟩

theorem Works.eq {id : ContextId} {s s' : Step} (h : l.Works id s s') (ht : l.times = true) :
    s = s' := by
  cases h with
  | count task ha => rw [(l.whole ht).2, Nat.zero_add, ha.eq ht]
  | visit task range keys => rw [(l.whole ht).2, Nat.zero_add]

/-- Steps of the same task; lines that they log agree where texts are compared. -/
inductive Steps (l : Lens) (id : ContextId) : Step → Step → Prop
  | work {s s' : Step} : l.Works id s s' → Steps l id s s'
  | log (task : TaskId) {level level' : LogLevel} {message message' : String} :
    (l.texts = true → level = level' ∧ message = message') →
      Steps l id ⟨some (l.tasks + task), .log level message⟩
        ⟨some task, .log level' message'⟩

/-- The same actor in both worlds. -/
inductive Actors (l : Lens) : Actor → Actor → Prop
  | coordinator : Actors l .coordinator .coordinator
  | thread (i : ThreadId) : Actors l (.thread (l.threads + i)) (.thread i)

/-- What an actor of the first world is called in the second one. -/
def actor (l : Lens) : Actor → Actor
  | .coordinator => .coordinator
  | .thread i => .thread (i - l.threads)

theorem Actors.actor_eq {a a' : Actor} (h : l.Actors a a') : l.actor a = a' := by
  cases h with
  | coordinator => rfl
  | thread i => simp [actor]

theorem Actors.eq {a a' : Actor} (h : l.Actors a a') (ht : l.times = true) : a = a' := by
  cases h with
  | coordinator => rfl
  | thread i => rw [(l.whole ht).1, Nat.zero_add]

/-- What is compared of an entry: the keys that a task has noted, and where texts are compared
the lines that threads have logged. -/
def sight (l : Lens) (e : Entry) : Option Entry :=
  match e.event with
  | .performed ⟨task?, .visit range keys⟩ took =>
    match task? with
    | some task =>
      if task < l.tasks then none
      else some ⟨l.actor e.actor, .performed ⟨some (task - l.tasks), .visit range keys⟩ took⟩
    | none => none
  | .logged level message =>
    match e.actor with
    | .coordinator => none
    | .thread i =>
      if l.texts && l.threads ≤ i then some ⟨.thread (i - l.threads), .logged level message⟩
      else none
  | _ => none

/-- The visit that an entry is, if it is one that is compared. -/
def visit? (l : Lens) (e : Entry) : Option (TaskId × Actor × RowRange × List UInt32) :=
  match e.event with
  | .performed ⟨some task, .visit range keys⟩ _ =>
    if task < l.tasks then none else some (task - l.tasks, l.actor e.actor, range, keys)
  | _ => none

theorem visit?_sight (e : Entry) : l.visit? e = (l.sight e).bind (visit? {}) := by
  obtain ⟨actor, event⟩ := e
  cases event with
  | performed step took =>
    obtain ⟨task?, action⟩ := step
    cases action with
    | visit range keys =>
      cases task? with
      | none => rfl
      | some task =>
        simp only [visit?, sight]
        split
        · rfl
        · cases actor <;> rfl
    | _ => cases task? <;> rfl
  | logged level message =>
    cases actor with
    | coordinator => rfl
    | thread i =>
      simp only [visit?, sight]
      split <;> rfl
  | _ => rfl

/-- The second world is seen as it is. -/
def second (l : Lens) : Lens := { l with threads := 0, tasks := 0, whole := fun _ => ⟨rfl, rfl⟩ }

theorem sight_visit {a a' : Actor} (ha : l.Actors a a') (task : TaskId) (range : RowRange)
    (keys : List UInt32) (took : Bool) :
    l.sight ⟨a, .performed ⟨some (l.tasks + task), .visit range keys⟩ took⟩
      = l.second.sight ⟨a', .performed ⟨some task, .visit range keys⟩ took⟩ := by
  have hsecond : l.second.actor a' = a' := by cases a' <;> rfl
  have htask : l.second.tasks = 0 := rfl
  simp [sight, ha.actor_eq, htask, hsecond]

theorem sight_log {a a' : Actor} (ha : l.Actors a a') {level level' : LogLevel}
    {message message' : String} (h : l.texts = true → level = level' ∧ message = message') :
    l.sight ⟨a, .logged level message⟩ = l.second.sight ⟨a', .logged level' message'⟩ := by
  cases ha with
  | coordinator => rfl
  | thread i =>
    cases ht : l.texts with
    | false => simp [sight, second, ht]
    | true =>
      obtain ⟨rfl, rfl⟩ := h ht
      simp [sight, second, ht]

section Related

variable {id : ContextId} {s s' : Step}

theorem Steps.isCrash (h : l.Steps id s s') : s.isCrash = false ∧ s'.isCrash = false := by
  cases h with
  | work h => cases h <;> exact ⟨rfl, rfl⟩
  | log task h => exact ⟨rfl, rfl⟩

theorem Steps.weight (h : l.Steps id s s') : s.weight = s'.weight := by
  cases h with
  | work h =>
    cases h with
    | count task ha => cases ha <;> rfl
    | visit task range keys => rfl
  | log task h => rfl

theorem totalWeight_eq {steps steps' : List Step} (h : List.Forall₂ (l.Steps id) steps steps') :
    Step.totalWeight steps = Step.totalWeight steps' := by
  induction h with
  | nil => rfl
  | cons hs _ ih => rw [Step.totalWeight, Step.totalWeight, hs.weight, ih]

end Related

/-! ### The shared state -/

/-- What two worlds have in common but for their threads. -/
structure Shared (l : Lens) (id : ContextId) (k latch : Nat) (w w' : World) : Prop where
  counters : l.Counters w.NeverBlank k latch (w.countdown id) (w'.countdown id)
  clocks : l.Clocks w w'
  sights : w.journal.filterMap l.sight = w'.journal.filterMap l.second.sight
  deeds : l.times = true → w.journal.filterMap Entry.deed? = w'.journal.filterMap Entry.deed?

namespace Shared

variable {id : ContextId} {k latch : Nat} {w w' : World} {actor actor' : Actor} {s s' : Step}

/-- Steps that concern the countdown in the same way. -/
theorem exec_count (h : l.Shared id k latch w w') {task task' : Option TaskId} {k' : Nat}
    {a a' : CountdownAction}
    (hcounters : l.Counters (w.exec actor ⟨task, .count id a⟩).2.NeverBlank k' latch
      ((w.countdown id).exec w.now a).after ((w'.countdown id).exec w'.now a').after)
    (hdeed : l.times = true →
      (⟨actor, .performed ⟨task, .count id a⟩ ((w.countdown id).exec w.now a).took⟩ : Entry)
        = ⟨actor', .performed ⟨task', .count id a'⟩ ((w'.countdown id).exec w'.now a').took⟩) :
    l.Shared id k' latch (w.exec actor ⟨task, .count id a⟩).2
      (w'.exec actor' ⟨task', .count id a'⟩).2 := by
  obtain ⟨-, hcountdown, hjournal⟩ :=
    World.exec_on w actor (Step.on?_count id task a)
  obtain ⟨-, hcountdown', hjournal'⟩ :=
    World.exec_on w' actor' (Step.on?_count id task' a')
  refine ⟨?_, h.clocks.exec, ?_, ?_⟩
  · rw [hcountdown, hcountdown']
    exact hcounters
  · rw [hjournal, hjournal']
    exact h.sights
  · intro ht
    rw [hjournal, hjournal', hdeed ht]
    exact congrArg (List.cons _) (h.deeds ht)

/-- Steps that leave the countdown alone. -/
theorem exec_off (h : l.Shared id k latch w w') (hs : s.on? id = none) (hs' : s'.on? id = none)
    {e e' : Entry} (hjournal : (w.exec actor s).2.journal = e :: w.journal)
    (hjournal' : (w'.exec actor' s').2.journal = e' :: w'.journal)
    (he : l.sight e = l.second.sight e') (hdeed : l.times = true → e.deed? = e'.deed?) :
    l.Shared id k latch (w.exec actor s).2 (w'.exec actor' s').2 := by
  obtain ⟨-, hcountdown, -⟩ := World.exec_off w actor hs
  obtain ⟨-, hcountdown', -⟩ := World.exec_off w' actor' hs'
  refine ⟨?_, h.clocks.exec, ?_, ?_⟩
  · rw [hcountdown, hcountdown']
    exact h.counters.later World.NeverBlank.of_exec
  · rw [hjournal, hjournal', List.filterMap_cons, List.filterMap_cons, he, h.sights]
  · intro ht
    rw [hjournal, hjournal', List.filterMap_cons, List.filterMap_cons, hdeed ht, h.deeds ht]

/-- Steps of the same work. -/
theorem exec_work (h : l.Shared id 5 latch w w') (hactor : l.Actors actor actor')
    (hs : l.Works id s s') :
    l.Shared id 5 latch (w.exec actor s).2 (w'.exec actor' s').2 ∧
      Option.Rel (l.Works id) (w.exec actor s).1 (w'.exec actor' s').1 := by
  have hstep : l.times = true → s = s' := hs.eq
  cases hs with
  | @count task a a' ha =>
    have hclear : (w.exec actor ⟨some (l.tasks + task), .count id a⟩).2.NeverBlank →
        w.NeverBlank := World.NeverBlank.of_exec
    obtain ⟨hcounters, hnext⟩ :=
      (h.counters.later hclear).exec ha World.NeverBlank.isBlank h.clocks.readings
    refine ⟨h.exec_count hcounters ?_, ?_⟩
    · intro ht
      rw [hactor.eq ht, hstep ht, h.counters.took_eq ha ht]
    rw [(World.exec_on w actor (Step.on?_count id _ a)).1,
      (World.exec_on w' actor' (Step.on?_count id _ a')).1]
    exact rel_map hnext fun b b' hb => .count task hb
  | visit task range keys =>
    refine ⟨h.exec_off rfl rfl rfl rfl (sight_visit hactor task range keys true) ?_, .none⟩
    intro ht
    rw [hactor.eq ht, hstep ht]

/-- Steps of the same task. -/
theorem exec (h : l.Shared id 5 latch w w') (hactor : l.Actors actor actor')
    (hs : l.Steps id s s') :
    l.Shared id 5 latch (w.exec actor s).2 (w'.exec actor' s').2 ∧
      Option.Rel (l.Steps id) (w.exec actor s).1 (w'.exec actor' s').1 := by
  cases hs with
  | work hs =>
    obtain ⟨hshared, hnext⟩ := h.exec_work hactor hs
    exact ⟨hshared, rel_imp hnext fun t t' ht => .work ht⟩
  | log task htexts =>
    exact ⟨h.exec_off rfl rfl rfl rfl (sight_log hactor htexts) fun _ => rfl, .none⟩

/-- A step that only the first world takes, of a thread that only the first one has. -/
theorem skip (h : l.Shared id k latch w w') (hs : s.on? id = none)
    (htask : ∀ task, s.task = some task → task < l.tasks) {i : ThreadId} (hi : i < l.threads) :
    l.Shared id k latch (w.exec (.thread i) s).2 w' := by
  have htimes : l.times = false := l.times_eq_false (Nat.zero_lt_of_lt hi)
  obtain ⟨-, hcountdown, -⟩ := World.exec_off w (.thread i) hs
  obtain ⟨⟨actor, event⟩, hjournal, hactor, hevent⟩ := World.exec_journal w (.thread i) s
  have hsight : l.sight ⟨actor, event⟩ = none := by
    obtain rfl : actor = .thread i := hactor
    unfold sight
    split
    · next task? range keys took heq =>
      obtain ⟨hstep, -⟩ := hevent _ _ heq
      cases task? with
      | none => rfl
      | some task => exact if_pos (htask task (by rw [← hstep]))
    · simp [Nat.not_le.2 hi]
    · rfl
  exact
    { counters := by
        rw [hcountdown]
        exact h.counters.later World.NeverBlank.of_exec
      clocks := by
        have hclocks := h.clocks
        unfold Clocks at hclocks ⊢
        rw [htimes] at hclocks ⊢
        exact hclocks
      sights := by
        rw [hjournal, List.filterMap_cons, hsight]
        exact h.sights
      deeds := fun ht => by
        rw [htimes] at ht
        cases ht }

/-- Two views of the journals agree if both follow from what is compared. -/
theorem view_eq {α : Type} (h : l.Shared id k latch w w') (view : Entry → Option α)
    {f f' : Entry → Option α} (hf : ∀ e, f e = (l.sight e).bind view)
    (hf' : ∀ e, f' e = (l.second.sight e).bind view) :
    w.journal.reverse.filterMap f = w'.journal.reverse.filterMap f' := by
  have hsights : w.journal.reverse.filterMap l.sight
      = w'.journal.reverse.filterMap l.second.sight := by
    rw [List.filterMap_reverse, List.filterMap_reverse, h.sights]
  rw [funext hf, funext hf', ← List.filterMap_filterMap, ← List.filterMap_filterMap, hsights]

end Shared

/-! ### Worlds -/

/-- Two worlds that are alike, seen through a lens. -/
structure Alike (l : Lens) (id : ContextId) (k latch : Nat) (w w' : World) : Prop
    extends Shared l id k latch w w' where
  size : w.threads.size = l.threads + w'.threads.size
  /-- Threads that both have are at the same steps. -/
  lines : ∀ i, List.Forall₂ (l.Steps id) (w.remaining (l.threads + i)) (w'.remaining i)
  /-- Threads that only the first one has are done with the countdown. -/
  old : ∀ i < l.threads, ∀ s ∈ w.remaining i,
    s.on? id = none ∧ ∀ task, s.task = some task → task < l.tasks
  /-- The first reset comes before the first thread that both have. -/
  early : k < 5 → w'.threads.size = 0

namespace Alike

variable {id : ContextId} {k latch : Nat} {w w' : World}

/-- Nothing but the shared state has changed. -/
theorem of_shared {k' latch' : Nat} (h : l.Alike id k latch w w') {v v' : World}
    (hshared : l.Shared id k' latch' v v') (hthreads : v.threads = w.threads)
    (hthreads' : v'.threads = w'.threads) (hk : k ≤ k') :
    l.Alike id k' latch' v v' where
  toShared := hshared
  size := by rw [hthreads, hthreads']; exact h.size
  lines i := by
    simp only [World.remaining, hthreads, hthreads']
    exact h.lines i
  old i hi s hs := by
    simp only [World.remaining, hthreads] at hs
    exact h.old i hi s hs
  early hlt := by
    rw [hthreads']
    exact h.early (by omega)

/-- Where the second world has a thread, its countdown agrees. -/
theorem eq_five (h : l.Alike id k latch w w') (hk : k ≤ 5) (hsize : 0 < w'.threads.size) :
    k = 5 := by
  by_contra hne
  have := h.early (by omega)
  omega

/-- The next step of a thread that both have. -/
theorem turn_both (h : l.Alike id 5 latch w w') (i : ThreadId) :
    l.Alike id 5 latch (w.turn (.thread (l.threads + i))) (w'.turn (.thread i)) := by
  have hline := h.lines i
  cases hw : w.remaining (l.threads + i) with
  | nil =>
    rw [hw, List.forall₂_nil_left_iff] at hline
    have hidle : w.turn (.thread (l.threads + i)) = w := by simp [World.turn, hw]
    have hidle' : w'.turn (.thread i) = w' := by simp [World.turn, hline]
    rw [hidle, hidle']
    exact h
  | cons s rest =>
    rw [hw, List.forall₂_cons_left_iff] at hline
    obtain ⟨s', rest', hs, hrest, hw'⟩ := hline
    obtain ⟨hshared, hnext⟩ := h.toShared.exec (.thread i) hs
    have hturn : w.turn (.thread (l.threads + i))
        = { (w.exec (.thread (l.threads + i)) s).2 with
            threads := w.threads.modify (l.threads + i)
              (.proceed s (w.exec (.thread (l.threads + i)) s).1 rest) } := by
      simp only [World.turn, hw, World.exec_threads]
    have hturn' : w'.turn (.thread i)
        = { (w'.exec (.thread i) s').2 with
            threads := w'.threads.modify i (.proceed s' (w'.exec (.thread i) s').1 rest') } := by
      simp only [World.turn, hw', World.exec_threads]
    exact
      { toShared := by
          -- putting the thread forward leaves the shared state as the step has left it
          rw [hturn, hturn']
          exact ⟨hshared.counters, hshared.clocks, hshared.sights, hshared.deeds⟩
        size := by
          rw [World.size_threads_turn, World.size_threads_turn]
          exact h.size
        lines := fun j => by
          rw [World.remaining_turn hw hs.isCrash.1, World.remaining_turn hw' hs.isCrash.2]
          by_cases hj : j = i
          · -- the thread goes on with what its step leads to
            rw [if_pos (congrArg _ hj), if_pos hj]
            exact forall₂_sequel hnext hrest
          · rw [if_neg (fun heq => hj (Nat.add_left_cancel heq)), if_neg hj]
            exact h.lines j
        old := fun j hj t ht => by
          have hne : (Turn.thread (l.threads + i)) ≠ .thread j := by
            intro heq
            have hij : (l.threads + i : Nat) = j := Turn.thread.inj heq
            omega
          rw [World.remaining_turn_of_ne hne] at ht
          exact h.old j hj t ht
        early := fun hlt => absurd hlt (by omega) }

/-- The next step of a thread that only the first world has. -/
theorem turn_old (h : l.Alike id k latch w w') {i : Nat} (hi : i < l.threads) :
    l.Alike id k latch (w.turn (.thread i)) w' := by
  cases hw : w.remaining i with
  | nil =>
    have hidle : w.turn (.thread i) = w := by simp [World.turn, hw]
    rw [hidle]
    exact h
  | cons s rest =>
    obtain ⟨hs, htask⟩ := h.old i hi s (World.mem_remaining_of_eq hw)
    have hshared := h.toShared.skip hs htask hi
    have hturn : w.turn (.thread i)
        = { (w.exec (.thread i) s).2 with
            threads := w.threads.modify i (.proceed s (w.exec (.thread i) s).1 rest) } := by
      simp only [World.turn, hw, World.exec_threads]
    exact
      { toShared := by
          rw [hturn]
          exact ⟨hshared.counters, hshared.clocks, hshared.sights, hshared.deeds⟩
        size := by
          rw [World.size_threads_turn]
          exact h.size
        lines := fun j => by
          have hne : (Turn.thread i) ≠ .thread (l.threads + j) := by
            intro heq
            have hij : (i : Nat) = l.threads + j := Turn.thread.inj heq
            omega
          rw [World.remaining_turn_of_ne hne]
          exact h.lines j
        -- what the step leads to is as far from the countdown as the step itself
        old := fun j hj t ht => by
          obtain ⟨-, hnext⟩ | hold := World.mem_remaining_turn hw ht
          · refine ⟨(World.exec_off w (.thread i) hs).1 t hnext, ?_⟩
            intro task htask'
            rw [World.exec_task hnext] at htask'
            exact htask task htask'
          · exact h.old j hj t hold
        early := h.early }

/-- Time passes, in the second world only if clocks are compared. -/
theorem turn_wait (h : l.Alike id k latch w w') (n : Nat) :
    l.Alike id k latch (w.turn (.wait n)) (w'.burst (l.turns [.wait n])) := by
  cases ht : l.times with
  | true =>
    have hturns : l.turns [.wait n] = [.wait n] := by simp [turns, Lens.turn, ht]
    have hclocks := h.clocks
    unfold Clocks at hclocks
    rw [if_pos ht] at hclocks
    rw [hturns]
    refine h.of_shared ⟨h.counters, ?_, h.sights, h.deeds⟩ rfl rfl le_rfl
    unfold Clocks
    rw [if_pos ht]
    exact ⟨congrArg (· + n) hclocks.1, hclocks.2⟩
  | false =>
    have hturns : l.turns [.wait n] = [] := by simp [turns, Lens.turn, ht]
    have hclocks := h.clocks
    unfold Clocks at hclocks
    rw [ht, if_neg Bool.false_ne_true] at hclocks
    rw [hturns]
    refine h.of_shared ⟨h.counters, ?_, h.sights, h.deeds⟩ rfl rfl le_rfl
    unfold Clocks
    rw [ht, if_neg Bool.false_ne_true]
    exact hclocks

/-- A turn keeps worlds alike. -/
theorem turn (h : l.Alike id k latch w w') (hk : k ≤ 5) (t : Turn) :
    l.Alike id k latch (w.turn t) (w'.burst (l.turns [t])) := by
  cases t with
  | wait n => exact h.turn_wait n
  | thread i =>
    by_cases hi : i < l.threads
    · have hturns : l.turns [.thread i] = [] := by simp [turns, Lens.turn, hi]
      rw [hturns]
      exact h.turn_old hi
    · obtain ⟨j, rfl⟩ := Nat.exists_eq_add_of_le (Nat.le_of_not_lt hi)
      have hturns : l.turns [.thread (l.threads + j)] = [.thread j] := by
        simp [turns, Lens.turn]
      rw [hturns]
      by_cases hj : j < w'.threads.size
      · obtain rfl := h.eq_five hk (Nat.zero_lt_of_lt hj)
        exact h.turn_both j
      · -- there is no such thread in either world
        have hout : w.turn (.thread (l.threads + j)) = w := by
          have hle : w.threads.size ≤ l.threads + j := by
            rw [h.size]
            omega
          simp [World.turn, World.remaining_of_size_le hle]
        have hout' : w'.burst [.thread j] = w' := by
          show w'.turn (.thread j) = w'
          simp [World.turn, World.remaining_of_size_le (Nat.le_of_not_lt hj)]
        rw [hout, hout']
        exact h

theorem stable (hk : k ≤ 5) : l.Stable (l.Alike id k latch) := fun _ _ t h => h.turn hk t

/-- The turns of all threads to their ends are, for the threads that both have, the same. -/
theorem turns_settlingTurns (h : l.Alike id k latch w w') :
    l.turns w.settlingTurns = w'.settlingTurns := by
  have hweight (v : World) (i : ThreadId) :
      (v.threads[i]?.getD default).weight = Step.totalWeight (v.remaining i) := by
    unfold World.remaining Thread.weight
    cases v.threads[i]? <;> rfl
  have hold (i : ThreadId) (hi : i < l.threads) (n : Nat) :
      l.turns (List.replicate n (.thread i)) = [] := by
    simp [turns, Lens.turn, hi]
  have hboth (i : ThreadId) (n : Nat) :
      l.turns (List.replicate n (.thread (l.threads + i))) = List.replicate n (.thread i) := by
    simp [turns, Lens.turn]
  have hsplit : List.range w.threads.size
      = List.range l.threads ++ (List.range w'.threads.size).map (l.threads + ·) := by
    rw [h.size, List.range_add]
  unfold World.settlingTurns
  simp only [hweight, hsplit, List.flatMap_append, turns_append]
  -- threads that only the first world has take their turns there, and none in the second one
  have hnone : l.turns ((List.range l.threads).flatMap fun i =>
      List.replicate (Step.totalWeight (w.remaining i)) (.thread i)) = [] := by
    unfold turns
    rw [List.filterMap_flatMap]
    refine List.flatMap_eq_nil_iff.2 ?_
    intro i hi
    exact hold i (List.mem_range.1 hi) _
  rw [hnone, List.nil_append, List.flatMap_map]
  unfold turns
  rw [List.filterMap_flatMap]
  refine List.flatMap_congr ?_
  intro i _
  rw [totalWeight_eq (h.lines i)]
  exact hboth i _

/-- Threads that run to their ends keep worlds alike. -/
theorem settle (h : l.Alike id k latch w w') (hk : k ≤ 5) :
    l.Alike id k latch w.settle w'.settle := by
  unfold World.settle
  rw [← h.turns_settlingTurns]
  exact (stable hk).burst h _

/-- A thread that both start. -/
theorem spawn (h : l.Alike id 5 latch w w') (name : String) {steps steps' : List Step}
    (hsteps : List.Forall₂ (l.Steps id) steps steps') :
    l.Alike id 5 latch (w.spawn name steps).2 (w'.spawn name steps').2 where
  toShared := ⟨h.counters, h.clocks, h.sights, h.deeds⟩
  size := by
    rw [World.size_threads_spawn, World.size_threads_spawn, h.size]
    rfl
  lines i := by
    rw [World.remaining_spawn, World.remaining_spawn, h.size]
    by_cases hi : i = w'.threads.size
    · rw [if_pos (congrArg _ hi), if_pos hi]
      exact hsteps
    · rw [if_neg (fun heq => hi (Nat.add_left_cancel heq)), if_neg hi]
      exact h.lines i
  old i hi s hs := by
    have hne : i ≠ w.threads.size := by
      rw [h.size]
      omega
    rw [World.remaining_spawn, if_neg hne] at hs
    exact h.old i hi s hs
  early hlt := absurd hlt (by omega)

/-- The same steps of the coordinator. -/
theorem exec (h : l.Alike id 5 latch w w') {s s' : Step} (hs : l.Works id s s') :
    Option.Rel (l.Works id) (w.exec .coordinator s).1 (w'.exec .coordinator s').1 ∧
      l.Alike id 5 latch (w.exec .coordinator s).2 (w'.exec .coordinator s').2 := by
  obtain ⟨hshared, hnext⟩ := h.toShared.exec_work .coordinator hs
  exact ⟨hnext, h.of_shared hshared World.exec_threads World.exec_threads le_rfl⟩

/-- The store with number `j` of a reset by the coordinator. -/
theorem exec_reset (h : l.Alike id k latch w w') {rows : UInt64} {j : Nat} (hk : k = j ∨ k = 5)
    {a : CountdownAction}
    (ha : [clearStart, clearEnd, installLatch, armClaim rows, armPending rows][j]? = some a) :
    l.Alike id (max k (j + 1)) latch (w.exec .coordinator ⟨none, .count id a⟩).2
      (w'.exec .coordinator ⟨none, .count id a⟩).2 := by
  have hclear : (w.exec .coordinator ⟨none, .count id a⟩).2.NeverBlank → w.NeverBlank :=
    World.NeverBlank.of_exec
  -- stores are always said to take effect
  have htook (c : Countdown) (t : Nat) : (c.exec t a).took = true := by
    rcases j with _ | _ | _ | _ | _ | j <;> cases ha <;> rfl
  refine h.of_shared (h.toShared.exec_count ?_ ?_) World.exec_threads World.exec_threads
    (le_max_left ..)
  · exact (h.counters.later hclear).exec_reset hk ha
  · intro _
    rw [htook, htook]

/-- Its release of the current latch. -/
theorem exec_release (h : l.Alike id 5 latch w w') :
    l.Alike id 5 latch (w.exec .coordinator ⟨none, .count id release⟩).2
      (w'.exec .coordinator ⟨none, .count id release⟩).2 := by
  have hclear : (w.exec .coordinator ⟨none, .count id release⟩).2.NeverBlank → w.NeverBlank :=
    World.NeverBlank.of_exec
  obtain ⟨hcounters, -⟩ :=
    (h.counters.later hclear).exec .release (fun _ => rfl) h.clocks.readings
  refine h.of_shared (h.toShared.exec_count hcounters ?_) World.exec_threads World.exec_threads
    le_rfl
  intro ht
  rw [h.counters.took_eq .release ht]

theorem sight_note (l : Lens) {event : Event} (he : event.isStep = false) :
    l.sight ⟨.coordinator, event⟩ = none := by
  cases event <;> first | rfl | cases he

/-- What both coordinators note of their own; it is the same where clocks are compared. -/
theorem note (h : l.Alike id k latch w w') {e e' : Event} (he : e.isStep = false)
    (he' : e'.isStep = false) (hsame : l.times = true → e = e') :
    l.Alike id k latch (w.note .coordinator e) (w'.note .coordinator e') := by
  have hclear : (w.note .coordinator e).NeverBlank → w.NeverBlank := World.NeverBlank.of_note
  refine h.of_shared ⟨h.counters.later hclear, h.clocks, ?_, ?_⟩ rfl rfl le_rfl
  · show List.filterMap _ (_ :: _) = List.filterMap _ (_ :: _)
    rw [List.filterMap_cons, List.filterMap_cons, sight_note l he, sight_note _ he']
    exact h.sights
  · intro ht
    show List.filterMap _ (_ :: _) = List.filterMap _ (_ :: _)
    rw [List.filterMap_cons, List.filterMap_cons, h.deeds ht, hsame ht]

/-- A line of the log is compared with nothing. -/
theorem log_left (h : l.Alike id k latch w w') (level : LogLevel) (message : String) :
    l.Alike id k latch (w.note .coordinator (.logged level message)) w' :=
  h.of_shared ⟨h.counters.later World.NeverBlank.of_note, h.clocks, h.sights, h.deeds⟩ rfl rfl
    le_rfl

theorem log_right (h : l.Alike id k latch w w') (level : LogLevel) (message : String) :
    l.Alike id k latch w (w'.note .coordinator (.logged level message)) :=
  h.of_shared ⟨h.counters, h.clocks, h.sights, h.deeds⟩ rfl rfl le_rfl

theorem nextTask (h : l.Alike id k latch w w') :
    l.Alike id k latch w.nextTask.2 w'.nextTask.2 :=
  h.of_shared ⟨h.counters, h.clocks, h.sights, h.deeds⟩ rfl rfl le_rfl

/-- A later latch can be spoken of once it has been installed. -/
theorem latch_le (h : l.Alike id k latch w w') {latch' : Nat}
    (hle : latch' ≤ (w'.countdown id).current) : l.Alike id k latch' w w' :=
  h.of_shared ⟨{ h.counters with latch := hle }, h.clocks, h.sights, h.deeds⟩ rfl rfl le_rfl

end Alike

end Lens

end BenchLoop
