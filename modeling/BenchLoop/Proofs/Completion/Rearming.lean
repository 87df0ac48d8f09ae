/-
BenchLoop/Proofs/Completion/Rearming.lean

From one iteration to the next.  Between two iterations the countdown is quiet: threads
may still be about to claim the start or to notify no rows at all, but no notification is
under way (`Ledger.quiet`).  So none of the stores of a reset can be undone by a late
notification before the counter is armed, and the books are opened with nothing on them
(`ends_reset`).

When the latch of an iteration has been released and everything was handed out, the
books say that every notification has come to its end, which is quiet again
(`Ledger.quiet_of_released`).  And if all threads have come to their ends the latch has
been released (`Ledger.isComplete_of_idle`).
-/
import BenchLoop.Context
import BenchLoop.Proofs.Completion.Barrier

namespace BenchLoop

open CountdownAction

variable {id : ContextId}

/-! ### Quiet countdowns -/

/-- Whether a step leaves the counter alone and no notification is under way at it. -/
def Step.isQuiet (id : ContextId) (s : Step) : Bool :=
  s.isOpening id && (s.on? id).all fun a => a.units == 0

theorem Step.isOpening_of_isQuiet {s : Step} (h : s.isQuiet id = true) : s.isOpening id = true := by
  simp only [isQuiet, Bool.and_eq_true] at h
  exact h.1

theorem Step.tally_units_of_isQuiet {pool : Multiset Step} (h : ∀ s ∈ pool, s.isQuiet id) :
    Step.tally id units pool = 0 := by
  refine Step.tally_eq_zero id _ fun s hs a ha => ?_
  have := h s hs
  simp only [Step.isQuiet, ha, Option.all_some, Bool.and_eq_true, beq_iff_eq] at this
  exact this.2

/-- All that a quiet step does to a countdown is to mark the start, and the step that
follows it is quiet. -/
theorem Countdown.exec_of_isQuiet (c : Countdown) (now : Nat) {s : Step} {a : CountdownAction}
    (h : s.isQuiet id = true) (ha : s.on? id = some a) :
    (∃ mark, (c.exec now a).after = { c with watch.startMark := mark }) ∧
      ∀ b ∈ (c.exec now a).next, ∀ task, Step.isQuiet id ⟨task, .count id b⟩ = true := by
  have hwork := Step.isWork_on (Step.isWork_of_isOpening (Step.isOpening_of_isQuiet h)) ha
  have hleg := Step.leg?_of_isOpening (Step.isOpening_of_isQuiet h) ha
  have hunits : a.units = 0 := by
    simp only [Step.isQuiet, ha, Option.all_some, Bool.and_eq_true, beq_iff_eq] at h
    exact h.2
  cases a with
  | readStart =>
    refine ⟨⟨c.watch.startMark, rfl⟩, ?_⟩
    rintro b ⟨rfl⟩ task
    simp [Step.isQuiet, Step.isOpening, Step.isWork, Step.isCrash, Step.on?_count, isWork, leg?,
      units]
  | claimStart mark =>
    refine ⟨?_, fun b hb => by cases hb⟩
    simp only [exec, Stopwatch.claimStart]
    split
    · exact ⟨mark, rfl⟩
    · exact ⟨c.watch.startMark, rfl⟩
  | subtract count =>
    -- a quiet thread notifies no rows
    obtain rfl : count = 0 := UInt32.toNat_inj.1 hunits
    refine ⟨⟨c.watch.startMark, by simp [exec]⟩, ?_⟩
    simp [exec]
  | clearStart | clearEnd | installLatch | armClaim | armPending => simp [isWork] at hwork
  | readEnd | storeEnd | claimRelease | release => simp [leg?] at hleg

/-- A quiet countdown of which something is known that does not depend on the start. -/
def Ledger.poised (id : ContextId) (known : Countdown → Prop)
    (hknown : ∀ c mark, known c → known { c with watch.startMark := mark }) : Ledger id where
  holds _ c _ _ pool := (∀ s ∈ pool, s.isQuiet id) ∧ known c
  admits steps := steps = []
  sound h s hs := Step.isCrash_of_isWork (Step.isWork_of_isOpening
    (Step.isOpening_of_isQuiet (h.1 s hs)))
  later h _ := h
  note h _ := h
  exec {rest actor s pool w} h := by
    obtain ⟨hpool, hc⟩ := h
    have hs := hpool s (Multiset.mem_cons_self s pool)
    have hothers : ∀ t ∈ pool, t.isQuiet id := fun t ht => hpool t (Multiset.mem_cons_of_mem ht)
    cases ha : s.on? id with
    | none =>
      obtain ⟨hnext, hcountdown, -⟩ := World.exec_off w actor ha
      refine ⟨fun t ht => ?_, hcountdown ▸ hc⟩
      refine (Multiset.mem_add.1 ht).elim (fun ht => ?_) (hothers t)
      have hmem : t ∈ (w.exec actor s).1 := by simpa using ht
      have hoff := hnext t hmem
      simp [Step.isQuiet, Step.isOpening, Step.isWork, World.exec_isCrash hmem, hoff]
    | some a =>
      obtain ⟨hnext, hcountdown, -⟩ := World.exec_on w actor ha
      obtain ⟨⟨mark, hafter⟩, hquiet⟩ :=
        Countdown.exec_of_isQuiet (w.countdown id) w.now hs ha
      refine ⟨fun t ht => ?_, ?_⟩
      · refine (Multiset.mem_add.1 ht).elim (fun ht => ?_) (hothers t)
        rw [hnext] at ht
        simp only [Multiset.mem_coe, Option.mem_toList, Option.map_eq_some_iff] at ht
        obtain ⟨b, hb, rfl⟩ := ht
        exact hquiet b hb s.task
      · rw [hcountdown, hafter]
        exact hknown _ _ hc
  hand := by
    rintro rest c journal now pool steps rfl h
    rwa [Multiset.coe_nil, add_zero]

/-- Between two iterations: quiet, and the latch of reset number `n` is the latest one. -/
def Ledger.quiet (id : ContextId) (n : Nat) : Ledger id :=
  .poised id (·.current = n) fun _ _ h => h

/-- A countdown on which nothing has happened yet is quiet. -/
theorem Ledger.quiet_fresh (id : ContextId) (now pace : Nat) :
    (quiet id 0).inv 0 [] ({ now, pace } : World) :=
  ⟨nofun, by simp [World.countdown, Table.get]; rfl⟩

/-! ### Countdowns of an iteration -/

theorem Countdown.current_exec {c : Countdown} {now : Nat} {a : CountdownAction}
    (h : a.isWork = true) : (c.exec now a).after.current = c.current := by
  cases a <;> grind [exec, releaseLatch, CountdownAction.isWork]

/-- The books of the iteration that installed latch number `n`. -/
def Ledger.engaged (id : ContextId) (rows total n : Nat) : Ledger id where
  holds rest c journal now pool := (books id rows total).holds rest c journal now pool ∧
    c.current = n
  admits := (books id rows total).admits
  sound h := (books id rows total).sound h.1
  later h hle := ⟨(books id rows total).later h.1 hle, h.2⟩
  note h he := ⟨(books id rows total).note h.1 he, h.2⟩
  exec {rest actor s pool w} h := by
    refine ⟨(books id rows total).exec h.1, ?_⟩
    cases ha : s.on? id with
    | none => exact (World.exec_off w actor ha).2.1 ▸ h.2
    | some a =>
      have hwork := Step.isWork_on (h.1.work s (Multiset.mem_cons_self s pool)) ha
      rw [(World.exec_on w actor ha).2.1, Countdown.current_exec hwork]
      exact h.2
  hand ha h := ⟨(books id rows total).hand ha h.1, h.2⟩

namespace Ledger

variable {rows total n : Nat} {w : World}

/-- Once only quiet steps are in flight and everything was handed out, the latch has been
released: the rows have been subtracted, or there were none. -/
theorem isComplete_of_isQuiet (h : (engaged id rows rows n).inv 0 [] w)
    (hquiet : ∀ s ∈ w.inFlight, s.isQuiet id = true) : (w.countdown id).isComplete = true := by
  have hflow := h.1
  rw [Multiset.coe_nil, add_zero] at hflow
  have hlegs := Step.tally_due_of_isOpening fun s hs => Step.isOpening_of_isQuiet (hquiet s hs)
  have hunits := Step.tally_units_of_isQuiet hquiet
  have hbalance := hflow.balance
  rcases Nat.eq_zero_or_pos rows with h0 | hpos
  · have hrelease := hlegs .release
    have := hflow.releasing
    exact hflow.released.2 (by omega)
  · exact (hflow.settled hpos hlegs).1.2 (by omega)

/-- So it has once every thread has come to its end. -/
theorem isComplete_of_idle (h : (engaged id rows rows n).inv 0 [] w)
    (hidle : ∀ i, w.isIdle i = true) : (w.countdown id).isComplete = true :=
  isComplete_of_isQuiet h fun s hs => by
    rw [World.inFlight_eq_zero hidle] at hs
    exact absurd hs (Multiset.notMem_zero s)

/-- What the books say when the latch has been released and everything was handed out:
exactly the rows were subtracted and nothing of a notification is under way any more. -/
theorem exact_of_released (h : (engaged id rows rows n).inv 0 [] w)
    (hc : (w.countdown id).isComplete = true) :
    w.subtracted id = rows ∧ (w.countdown id).pending.toInt = 0 ∧
      Step.tally id units w.inFlight = 0 ∧ ∀ leg, Step.tally id (due leg) w.inFlight = 0 := by
  obtain ⟨hflow, -⟩ := h
  rw [Multiset.coe_nil, add_zero] at hflow
  -- the end was stored before the release, so all rows have been subtracted, and no more
  have hspent : Entry.tally id spent (Entry.sinceReset id w.journal) = rows := by
    have hbalance := hflow.balance
    rcases Nat.eq_zero_or_pos rows with h0 | hpos
    · omega
    · have := hflow.le_spent_of_stored (hflow.stored_of_isComplete hpos hc)
      omega
  -- each leg has been taken once at most, which leaves none in the pool
  have hbalance := hflow.balance
  have hreleased := hflow.released.1 hc
  have honce := hflow.once (le_refl _)
  have hcrossed := hflow.crossed
  have hstoring := hflow.storing
  have hclaiming := hflow.claiming
  have hwinning := hflow.winning
  have hreleasing := hflow.releasing
  refine ⟨hspent, ?_, by omega, ?_⟩
  · rw [hflow.pending, hspent]
    omega
  · intro leg
    cases leg <;> omega

/-- After its latch has been released an iteration is quiet. -/
theorem quiet_of_released (h : (engaged id rows rows n).inv 0 [] w)
    (hc : (w.countdown id).isComplete = true) : (quiet id n).inv 0 [] w := by
  obtain ⟨-, -, hunits, hlegs⟩ := exact_of_released h hc
  refine ⟨fun s hs => ?_, h.2⟩
  have hwork := h.1.work s hs
  rw [Multiset.coe_nil, add_zero] at hs
  cases ha : s.on? id with
  | none => simp [Step.isQuiet, Step.isOpening, hwork, ha]
  | some a =>
    have hleg : a.leg? = none := by
      cases hleg : a.leg? with
      | none => rfl
      | some leg =>
        have := Step.eq_zero_of_tally_eq_zero id _ (hlegs leg) hs ha
        simp [due, hleg] at this
    have h0 := Step.eq_zero_of_tally_eq_zero id _ hunits hs ha
    simp [Step.isQuiet, Step.isOpening, hwork, ha, hleg, h0]

end Ledger

/-! ### The reset -/

section Reset

variable {w : World} {known : Countdown → Prop}
variable {hknown : ∀ c mark, known c → known { c with watch.startMark := mark }}

/-- A store of the coordinator while the countdown is quiet. -/
theorem Ledger.poised_exec (a : CountdownAction) (known' : Countdown → Prop)
    (hknown' : ∀ c mark, known' c → known' { c with watch.startMark := mark })
    (h : (poised id known hknown).inv 0 [] w)
    (hnext : ∀ c now, (Countdown.exec now c a).next = none)
    (hafter : ∀ c now, known c → known' (Countdown.exec now c a).after) :
    (w.exec .coordinator ⟨none, .count id a⟩).1 = none ∧
      (poised id known' hknown').inv 0 [] (w.exec .coordinator ⟨none, .count id a⟩).2 := by
  have hon := World.exec_on w .coordinator (Step.on?_count id none a)
  obtain ⟨hstep, hcountdown, -⟩ := hon
  refine ⟨by rw [hstep, hnext]; rfl, ?_, ?_⟩
  · simpa [World.inFlight] using h.1
  · rw [hcountdown]
    exact hafter _ _ h.2

/-- The steps that are left of a reset once the counter is armed: without rows the
coordinator releases the latch itself. -/
def Countdown.afterArming (id : ContextId) (rows : UInt64) : List Step :=
  if rows = 0 then [⟨none, .count id .release⟩] else []

theorem Countdown.tally_afterArming (rows : UInt64) (f : CountdownAction → Nat) :
    Step.tally id f (afterArming id rows : Multiset Step)
      = if rows = 0 then f .release else 0 := by
  unfold afterArming
  split <;> simp [← Multiset.cons_zero, Step.on?_count]

theorem Countdown.isWork_afterArming {rows : UInt64} {s : Step} (h : s ∈ afterArming id rows) :
    s.isWork id = true := by
  unfold afterArming at h
  split at h
  · obtain rfl := List.mem_singleton.1 h
    simp [Step.isWork, Step.isCrash, Step.on?_count, isWork]
  · cases h

/-- What is known of a countdown when all but its counter has been reset for `rows` rows: latch
number `n` is closed, and its release is still to be claimed unless there are no rows. -/
structure Countdown.Readied (rows : UInt64) (n : Nat) (c : Countdown) : Prop where
  current : c.current = n
  unended : c.watch.endMark = 0
  closed : c.isComplete = false
  claimed : c.claimed = decide (rows = 0)

/-- Before the last store of a reset. -/
def Ledger.readied (id : ContextId) (rows : UInt64) (n : Nat) : Ledger id :=
  .poised id (Countdown.Readied rows n) fun _ _ h => ⟨h.current, h.unended, h.closed, h.claimed⟩

/-- The last store of a reset opens the books. -/
theorem Ledger.engaged_armPending {rows : UInt64} {n : Nat} (hmax : rows.toNat ≤ 2 ^ 32 - 1)
    (h : (readied id rows n).inv 0 [] w) :
    (w.exec .coordinator ⟨none, .count id (.armPending rows)⟩).1 = none ∧
      (engaged id rows.toNat rows.toNat n).inv rows.toNat (Countdown.afterArming id rows)
        (w.exec .coordinator ⟨none, .count id (.armPending rows)⟩).2 := by
  obtain ⟨hpool, hc⟩ := h
  rw [Multiset.coe_nil, add_zero] at hpool
  obtain ⟨hstep, hcountdown, hjournal⟩ := World.exec_on w .coordinator
    (Step.on?_count id none (.armPending rows))
  have hin : (w.exec .coordinator ⟨none, .count id (.armPending rows)⟩).2.inFlight
      = w.inFlight := by
    simp [World.inFlight]
  have hopening : ∀ s ∈ w.inFlight, s.isOpening id := fun s hs =>
    Step.isOpening_of_isQuiet (hpool s hs)
  -- nothing that is under way may count in the new books
  have hdue := Step.tally_due_of_isOpening hopening
  have hunits := Step.tally_units_of_isQuiet hpool
  have htotal : Step.tally id units (w.inFlight + (Countdown.afterArming id rows : Multiset Step))
      + rows.toNat = rows.toNat := by
    simp [Step.tally_add, hunits, Countdown.tally_afterArming, units]
  have hzero : rows.toNat = 0 ↔ rows = 0 := ⟨fun h => UInt64.toNat_inj.1 h, fun h => by simp [h]⟩
  refine ⟨by rw [hstep]; rfl, ?_, (congrArg Countdown.current hcountdown).trans hc.current⟩
  show Flow ..
  rw [hin, hjournal, hcountdown, Entry.sinceReset_of_isReset (by
    simp [Entry.isReset, Entry.on?, Step.on?])]
  conv => arg 3; rw [← htotal]
  -- without rows the coordinator itself has a release to make
  refine Flow.armed (by omega) (fun s hs => ?_) (fun leg hleg => ?_) ?_ ?_ ?_ hc.closed
    hc.unended
  · exact (Multiset.mem_add.1 hs).elim (fun hs => Step.isWork_of_isOpening (hopening s hs))
      Countdown.isWork_afterArming
  · rw [Step.tally_add, hdue, Countdown.tally_afterArming]
    cases leg <;> first | exact absurd rfl hleg | simp [due, leg?]
  · rw [Step.tally_add, hdue, Countdown.tally_afterArming]
    simp [due, leg?, hzero]
  · exact toInt_toInt64 (by omega)
  · show (w.countdown id).claimed = true ↔ _
    rw [hc.claimed, hzero, decide_eq_true_iff]

end Reset

/-- A store of the coordinator, and the steps after it. -/
theorem Context.ends_store {σ : Type} {ctx : Context} {known : Countdown → Prop}
    {hknown : ∀ c mark, known c → known { c with watch.startMark := mark }}
    {a : CountdownAction} {rest : List Step} {Q : Unit → World → σ → Prop}
    (known' : Countdown → Prop)
    (hknown' : ∀ c mark, known' c → known' { c with watch.startMark := mark })
    (hnext : ∀ c now, (Countdown.exec now c a).next = none)
    (hafter : ∀ c now, known c → known' (Countdown.exec now c a).after)
    (hrest : Run.Ends (fun w _ => (Ledger.poised ctx.id known' hknown').inv 0 [] w)
      (Run.perform rest) Q) :
    Run.Ends (fun w _ => (Ledger.poised ctx.id known hknown).inv 0 [] w)
      (Run.perform (ctx.count none a :: rest)) Q :=
  Run.Ends.perform_cons (fun w _ => (Ledger.poised ctx.id known' hknown').inv 0 [] w)
    (fun _ _ t h => Ledger.inv_turn h t)
    (fun _ _ h => Ledger.poised_exec a known' hknown' h hnext hafter) hrest

/-- All stores of a reset but that of the counter, whatever the threads do between them. -/
theorem Context.ends_reset_of_readied {σ : Type} {ctx : Context} {rows : UInt64} {n : Nat}
    {Q : Unit → World → σ → Prop}
    (hrest : Run.Ends (fun w _ => (Ledger.readied ctx.id rows (n + 1)).inv 0 [] w)
      (Run.perform (ctx.count none (.armPending rows) :: Countdown.afterArming ctx.id rows)) Q) :
    Run.Ends (fun w (_ : σ) => (Ledger.quiet ctx.id n).inv 0 [] w) (Run.perform (ctx.reset rows))
      Q := by
  have hlist : ctx.reset rows = ctx.count none .clearStart :: ctx.count none .clearEnd ::
      ctx.count none .installLatch :: ctx.count none (.armClaim rows) ::
      ctx.count none (.armPending rows) :: Countdown.afterArming ctx.id rows := by
    unfold reset Countdown.resetActions Countdown.afterArming
    split <;> rfl
  rw [hlist]
  -- what is known grows with each store but the first: a thread may set the start again
  refine ends_store (fun c => c.current = n) (fun _ _ h => h) (fun _ _ => rfl) (fun _ _ h => h) ?_
  refine ends_store (fun c => c.current = n ∧ c.watch.endMark = 0) (fun _ _ h => h)
    (fun _ _ => rfl) (fun _ _ h => ⟨h, rfl⟩) ?_
  refine ends_store (fun c => c.current = n + 1 ∧ c.watch.endMark = 0 ∧ c.isComplete = false)
    (fun _ _ h => h) (fun _ _ => rfl) (fun c _ h => ⟨congrArg (· + 1) h.1, h.2, ?_⟩) ?_
  · simp [Countdown.isComplete, Countdown.exec]
  exact ends_store (Countdown.Readied rows (n + 1)) _ (fun _ _ => rfl)
    (fun c _ h => ⟨h.1, h.2.1, h.2.2, rfl⟩) hrest

/-- A reset leads from a quiet countdown to the books of the next iteration, whatever the
threads do between its stores. -/
theorem Context.ends_reset {σ : Type} (ctx : Context) {rows : UInt64} (n : Nat)
    (hmax : rows.toNat ≤ 2 ^ 32 - 1) :
    Run.Ends (fun w (_ : σ) => (Ledger.quiet ctx.id n).inv 0 [] w) (Run.perform (ctx.reset rows))
      fun _ w _ => (Ledger.engaged ctx.id rows.toNat rows.toNat (n + 1)).inv rows.toNat [] w := by
  let engaged := Ledger.engaged ctx.id rows.toNat rows.toNat (n + 1)
  exact ends_reset_of_readied (Run.Ends.perform_cons
    (fun w _ => engaged.inv rows.toNat (Countdown.afterArming ctx.id rows) w)
    (fun _ _ t h => Ledger.inv_turn h t) (fun _ _ h => Ledger.engaged_armPending hmax h)
    (engaged.ends_perform _ _))

end BenchLoop
