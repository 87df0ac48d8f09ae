/-
BenchLoop/Proofs/Completion/Barrier.lean

The countdown as a barrier.  `World.Books` are the books of a countdown (`Flow`) over
everything that is in flight in a world: the steps of its threads, and those that the
coordinator has still to take itself.  Every turn of every thread keeps them
(`World.Books.turn`), so they hold whatever the schedule is.

Read off at the end of any sequence of turns they say when the barrier opens
(`World.barrier_burst`): not before the rows have been subtracted, once, and without
fail when no notification is under way any more.
-/
import BenchLoop.Proofs.Completion.Flow
import BenchLoop.Proofs.Machine.Regime

namespace BenchLoop

open CountdownAction

theorem Stopwatch.reading_ne_zero {nanos : Nat} (h : nanos < UInt64.size - 1) :
    reading nanos ≠ 0 := by
  intro h0
  have := offset?_reading h
  rw [h0] at this
  cases this

/-- A count of rows is the same number as a signed word. -/
theorem toInt_toInt64 {rows : UInt64} (h : rows.toNat < 2 ^ 63) :
    rows.toInt64.toInt = rows.toNat :=
  BitVec.toInt_eq_toNat_of_lt (show 2 * rows.toNat < 2 ^ 64 by omega)

/-! ### The books of a world -/

/-- The books of a countdown right after its counter was armed.  Without rows a release is
due from the start. -/
theorem Flow.armed {id : ContextId} {rows rest now : Nat} {c : Countdown} {pool : Multiset Step}
    (hfits : Step.tally id units pool + rest ≤ rows + 2 ^ 63)
    (hwork : ∀ s ∈ pool, s.isWork id)
    (hlegs : ∀ leg, leg ≠ .release → Step.tally id (due leg) pool = 0)
    (hrelease : Step.tally id (due .release) pool = if rows = 0 then 1 else 0)
    (hpending : c.pending.toInt = rows) (hclaimed : c.claimed = true ↔ rows = 0)
    (hcomplete : c.isComplete = false) (hend : c.watch.endMark = 0) :
    Flow id rows (Step.tally id units pool + rest) c [] now pool rest where
  fits := hfits
  work := hwork
  pending := by simp [hpending]
  balance := rfl
  crossed := by simp [hlegs]
  once _ := by simp [hlegs]
  storing := by simp [hlegs]
  claiming := by simp [hlegs]
  winning := by simpa using Nat.eq_zero_or_pos rows
  releasing := by
    simp only [hrelease, Entry.tally_nil]
    split <;> omega
  effective := rfl
  claimed := by simp [hclaimed]
  released := by simp [hcomplete]
  unended _ := hend
  ended h := absurd h (Nat.lt_irrefl 0)
  marks s hs mark hm := by
    have h0 := Step.eq_zero_of_tally_eq_zero id _ (hlegs .store nofun) hs hm
    simp [due, leg?] at h0

/-- A step of any actor keeps the books. -/
theorem Flow.exec {id : ContextId} {rows total rest : Nat} {w : World} {actor : Actor} {s : Step}
    {pool : Multiset Step}
    (h : Flow id rows total (w.countdown id) (Entry.sinceReset id w.journal) w.now (s ::ₘ pool)
      rest) :
    Flow id rows total ((w.exec actor s).2.countdown id)
      (Entry.sinceReset id (w.exec actor s).2.journal) (w.exec actor s).2.now
      (((w.exec actor s).1.toList : Multiset Step) + pool) rest := by
  have hwork := h.work s (Multiset.mem_cons_self s pool)
  refine Flow.later ?_ World.now_le_exec
  -- the step concerns another countdown, or posts itself in these books
  cases hs : s.on? id with
  | none =>
    obtain ⟨hnext, hcountdown, e, hjournal, he⟩ := World.exec_off w actor hs
    rw [hcountdown, hjournal, Entry.sinceReset_cons (Entry.isReset_of_off he)]
    refine h.off hs he fun t ht => ⟨hnext t (by simpa using ht), ?_⟩
    exact World.exec_isCrash (by simpa using ht)
  | some a =>
    obtain ⟨hnext, hcountdown, hjournal⟩ := World.exec_on w actor hs
    have he := Entry.on?_performed hs actor ((w.countdown id).exec w.now a).took
    have hreset := Entry.isReset_of_isWork he (Step.isWork_on hwork hs)
    rw [hcountdown, hjournal, Entry.sinceReset_cons hreset]
    exact h.on hs he hnext

/-- An entry that concerns nothing on the countdown does not show in the books. -/
theorem Flow.note {id : ContextId} {rows total rest now : Nat} {c : Countdown}
    {entries : List Entry} {pool : Multiset Step} {e : Entry}
    (h : Flow id rows total c entries now pool rest) (he : e.on? id = none) :
    Flow id rows total c (e :: entries) now pool rest := by
  have hentries (g : CountdownAction → Bool → Nat) :
      Entry.tally id g (e :: entries) = Entry.tally id g entries :=
    Entry.tally_cons_of_off he entries
  exact h.congr rfl (fun _ => rfl) (hentries _) (fun _ => hentries _) (fun _ => hentries _)
    rfl rfl rfl rfl h.work h.marks

/-- Steps at which no notification is under way are handed out against the rows that they
subtract. -/
theorem Flow.hand {id : ContextId} {rows total rest now : Nat} {c : Countdown}
    {entries : List Entry} {pool steps : Multiset Step}
    (h : Flow id rows total c entries now pool (Step.tally id units steps + rest))
    (hsteps : ∀ s ∈ steps, s.isOpening id) :
    Flow id rows total c entries now (pool + steps) rest := by
  -- the new steps are at no leg, so only what is still to be subtracted grows by their units
  have hdue (leg : Leg) :
      Step.tally id (due leg) (pool + steps) = Step.tally id (due leg) pool := by
    rw [Step.tally_add, Step.tally_due_of_isOpening hsteps, add_zero]
  have hunits := Step.tally_add id units pool steps
  have hbalance := h.balance
  exact
    { fits := h.fits
      work := fun s hs => (Multiset.mem_add.1 hs).elim (h.work s) fun hs =>
        Step.isWork_of_isOpening (hsteps s hs)
      pending := h.pending
      balance := by omega
      crossed := by rw [hdue]; exact h.crossed
      once := by rw [hdue]; exact h.once
      storing := by rw [hdue]; exact h.storing
      claiming := by rw [hdue]; exact h.claiming
      winning := h.winning
      releasing := by rw [hdue]; exact h.releasing
      effective := h.effective
      claimed := h.claimed
      released := h.released
      unended := h.unended
      ended := h.ended
      marks := fun s hs mark hm => (Multiset.mem_add.1 hs).elim (h.marks s · mark hm) fun hs => by
        have := Step.leg?_of_isOpening (hsteps s hs) hm
        simp [leg?] at this }

/-- The books of a countdown as an invariant: whatever is in flight is accounted for. -/
def Ledger.books (id : ContextId) (rows total : Nat) : Ledger id where
  holds rest c journal now pool := Flow id rows total c (Entry.sinceReset id journal) now pool rest
  admits steps := ∀ s ∈ steps, s.isOpening id
  sound h s hs := Step.isCrash_of_isWork (h.work s hs)
  later h hle := h.later hle
  note {rest c journal now pool e} h hstep := by
    have he : e.on? id = none := Entry.on?_of_isStep hstep
    rw [Entry.sinceReset_cons (Entry.isReset_of_off he)]
    exact h.note he
  exec h := h.exec
  hand ha h := h.hand fun s hs => ha s (by simpa using hs)

/-! ### What the books say about the barrier -/

namespace Flow

variable {id : ContextId} {rows total rest : Nat} {c : Countdown} {entries : List Entry}
variable {now : Nat} {pool : Multiset Step}

theorem stored_of_isComplete (h : Flow id rows total c entries now pool rest) (hrows : 0 < rows)
    (hc : c.isComplete = true) : 0 < Entry.tally id (taken .store) entries := by
  have := h.released.1 hc
  have := h.releasing
  have := h.winning
  have := h.claiming
  omega

theorem le_spent_of_stored (h : Flow id rows total c entries now pool rest)
    (hs : 0 < Entry.tally id (taken .store) entries) :
    rows ≤ Entry.tally id spent entries := by
  have := h.storing
  exact (h.crossed.1 (by omega)).2

/-- At most one release is under way or has been made. -/
theorem release_le_one (h : Flow id rows total c entries now pool rest) :
    Step.tally id (due .release) pool + Entry.tally id (taken .release) entries ≤ 1 := by
  have := h.releasing
  have := h.winning
  omega

/-- Once no notification is under way the barrier is open exactly if the rows have been
subtracted. -/
theorem settled (h : Flow id rows total c entries now pool rest) (hrows : 0 < rows)
    (hlegs : ∀ leg, Step.tally id (due leg) pool = 0) :
    (c.isComplete = true ↔ rows ≤ Entry.tally id spent entries) ∧
      (0 < Entry.tally id (taken .store) entries ↔ rows ≤ Entry.tally id spent entries) := by
  have hread := hlegs .read
  have hstore := hlegs .store
  have hclaim := hlegs .claim
  have hrelease := hlegs .release
  have hstored : rows ≤ Entry.tally id spent entries →
      0 < Entry.tally id (taken .store) entries := by
    intro hle
    have := h.crossed.2 ⟨by omega, hle⟩
    have := h.storing
    omega
  -- a stored end whose legs are done has come to the release
  refine ⟨⟨fun hc => h.le_spent_of_stored (h.stored_of_isComplete hrows hc), fun hle => ?_⟩,
    h.le_spent_of_stored, hstored⟩
  have := hstored hle
  have := h.claiming
  have := h.winning
  have := h.releasing
  exact h.released.2 (by omega)

theorem isFinished_of_stored (h : Flow id rows total c entries now pool rest)
    (hnow : now < UInt64.size - 1) (hs : 0 < Entry.tally id (taken .store) entries) :
    c.watch.isFinished = true := by
  obtain ⟨t, ht, hmark⟩ := h.ended hs
  rw [Stopwatch.isFinished, hmark, bne_iff_ne]
  exact Stopwatch.reading_ne_zero (lt_of_le_of_lt ht hnow)

/-- The end is set exactly if it was stored, short of the clock's last reading, which
cannot be told from no reading. -/
theorem isFinished_iff (h : Flow id rows total c entries now pool rest)
    (hnow : now < UInt64.size - 1) :
    c.watch.isFinished = true ↔ 0 < Entry.tally id (taken .store) entries := by
  refine ⟨fun hf => ?_, h.isFinished_of_stored hnow⟩
  rcases Nat.eq_zero_or_pos (Entry.tally id (taken .store) entries) with h0 | h0
  · simp [Stopwatch.isFinished, h.unended h0] at hf
  · exact h0

end Flow

namespace World

/-- The end has been stored since the last reset. -/
def EndStored (id : ContextId) (w : World) : Prop :=
  ∃ e ∈ w.sinceReset id, ∃ mark took, e.on? id = some (.storeEnd mark, took)

theorem endStored_iff {id : ContextId} {w : World} :
    w.EndStored id ↔ 0 < Entry.tally id (taken .store) (w.sinceReset id) := by
  constructor
  · rintro ⟨e, he, mark, took, ha⟩
    by_contra h0
    have h0 : Entry.tally id (taken .store) (w.sinceReset id) = 0 := by omega
    obtain ⟨l, l', hl⟩ := List.append_of_mem he
    rw [hl] at h0
    simp [Entry.tally, ha, taken, due, leg?] at h0
  · intro h
    obtain ⟨e, he, a, took, ha, hpos⟩ := Entry.exists_of_tally_pos h
    cases a <;> first
      | exact ⟨e, he, _, took, ha⟩
      | exact absurd hpos (by simp [taken, due, leg?])

theorem books_of_reset {id : ContextId} {rows : UInt64} {c : Countdown} {w : World}
    (hrows : 0 < rows.toNat) (hmax : rows.toNat ≤ 2 ^ 32 - 1)
    (hreset : w.countdown id = c.reset rows) (hnew : w.sinceReset id = [])
    (hcalls : ∀ s ∈ w.inFlight, s.isOpening id)
    (hsum : Step.tally id units w.inFlight ≤ 2 ^ 63) :
    (Ledger.books id rows.toNat (Step.tally id units w.inFlight)).inv 0 [] w := by
  have hne : rows ≠ 0 := by
    rintro rfl
    exact absurd hrows (by simp)
  have hlegs := Step.tally_due_of_isOpening hcalls
  show Flow ..
  rw [Multiset.coe_nil, add_zero, hreset, show Entry.sinceReset id w.journal = [] from hnew,
    Countdown.reset_eq]
  refine @Flow.armed id rows.toNat 0 w.now _ _ (by omega)
    (fun s hs => Step.isWork_of_isOpening (hcalls s hs)) (fun leg _ => hlegs leg) ?_ ?_ ?_ ?_ rfl
  · rw [hlegs, if_neg (by omega)]
  · exact toInt_toInt64 (by omega)
  · simp [hne]
    omega
  · simp [Countdown.isComplete, hne]

end World

end BenchLoop
