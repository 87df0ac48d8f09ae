/-
BenchLoop/Proofs/Completion/Flow.lean

The books of a countdown.  A notification that leaves nothing pending goes through four
more steps: it reads the clock, stores the end, takes the claim and, if it was the first
to take it, releases the latch.  Any number of notifications can be caught between any
two of these steps.  What holds in every state is that nothing gets lost on the way:
for each of the four steps, those that are due in flight and those that have been taken
since the last reset add up to the ones that led to them.

    Flow id rows total c entries now pool rest

says so of a countdown `c`, the journal `entries` since its last reset, the steps `pool`
in flight and `rest` rows whose notifications are still to be handed out:

* `pending`, `balance`: the counter shows the rows less those subtracted, and what was
  subtracted, is in flight and is still to come adds up to `total`;
* `crossed`: some notification set out to store the end exactly if the rows have been
  used up; `once`: at most one did if no more than the rows are notified;
* `storing`, `claiming`, `releasing`: the balance of each step;
* `claimed`, `released`, `ended`: what the shared state says about it.

`Flow.exec` is the step lemma: a step of whatever actor keeps the books.
-/
import BenchLoop.Proofs.Completion.Tally

namespace BenchLoop

/-! ### The books -/

/-- Whether a mark is a reading of a clock that shows `now` at present. -/
def Stopwatch.ReadBy (now : Nat) (mark : UInt64) : Prop :=
  ∃ t ≤ now, mark = reading t

open CountdownAction in
/-- The books of a countdown since its last reset.  The clock readings that are stored
were all taken by `now`. -/
structure Flow (id : ContextId) (rows total : Nat) (c : Countdown) (entries : List Entry)
    (now : Nat) (pool : Multiset Step) (rest : Nat) : Prop where
  /-- The counter cannot wrap. -/
  fits : total ≤ rows + 2 ^ 63
  work : ∀ s ∈ pool, s.isWork id
  pending : c.pending.toInt = rows - (Entry.tally id spent entries : Nat)
  balance : Step.tally id units pool + rest + Entry.tally id spent entries = total
  crossed : 0 < Step.tally id (due .read) pool + Entry.tally id (taken .read) entries ↔
    0 < Entry.tally id spent entries ∧
      rows ≤ Entry.tally id spent entries
  once : total ≤ rows →
    Step.tally id (due .read) pool + Entry.tally id (taken .read) entries ≤ 1
  storing : Entry.tally id (taken .read) entries
    = Step.tally id (due .store) pool + Entry.tally id (taken .store) entries
  claiming : Entry.tally id (taken .store) entries
    = Step.tally id (due .claim) pool + Entry.tally id (taken .claim) entries
  /-- Only the first one to take the claim wins it; without rows it is taken from the start. -/
  winning : rows = 0 ∧ Entry.tally id (won .claim) entries = 0 ∨
    0 < rows ∧ Entry.tally id (won .claim) entries
      = min 1 (Entry.tally id (taken .claim) entries)
  /-- Without rows the reset itself brings a release along. -/
  releasing : rows = 0 ∧
      Step.tally id (due .release) pool + Entry.tally id (taken .release) entries = 1 ∨
    0 < rows ∧ Step.tally id (due .release) pool + Entry.tally id (taken .release) entries
      = Entry.tally id (won .claim) entries
  effective : Entry.tally id (won .release) entries = Entry.tally id (taken .release) entries
  claimed : c.claimed = true ↔ rows = 0 ∨ 0 < Entry.tally id (taken .claim) entries
  released : c.isComplete = true ↔ 0 < Entry.tally id (taken .release) entries
  unended : Entry.tally id (taken .store) entries = 0 → c.watch.endMark = 0
  ended : 0 < Entry.tally id (taken .store) entries →
    Stopwatch.ReadBy now c.watch.endMark
  marks : ∀ s ∈ pool, ∀ mark, s.on? id = some (.storeEnd mark) →
    Stopwatch.ReadBy now mark

namespace Flow

variable {id : ContextId} {rows total rest : Nat} {c : Countdown} {entries : List Entry}
variable {now : Nat} {pool : Multiset Step}

theorem later {now' : Nat} (h : Flow id rows total c entries now pool rest) (hle : now ≤ now') :
    Flow id rows total c entries now' pool rest where
  __ := h
  ended h0 := by
    obtain ⟨t, ht, he⟩ := h.ended h0
    exact ⟨t, ht.trans hle, he⟩
  marks s hs mark hm := by
    obtain ⟨t, ht, he⟩ := h.marks s hs mark hm
    exact ⟨t, ht.trans hle, he⟩

open CountdownAction in
/-- The books are about sums and about four things that the countdown shows. -/
theorem congr {c' : Countdown} {entries' : List Entry} {pool' : Multiset Step}
    (h : Flow id rows total c entries now pool rest)
    (hunits : Step.tally id units pool' = Step.tally id units pool)
    (hdue : ∀ leg, Step.tally id (due leg) pool' = Step.tally id (due leg) pool)
    (hspent : Entry.tally id spent entries' = Entry.tally id spent entries)
    (htaken : ∀ leg, Entry.tally id (taken leg) entries' = Entry.tally id (taken leg) entries)
    (hwon : ∀ leg, Entry.tally id (won leg) entries' = Entry.tally id (won leg) entries)
    (hpending : c'.pending = c.pending) (hclaimed : c'.claimed = c.claimed)
    (hcomplete : c'.isComplete = c.isComplete) (hend : c'.watch.endMark = c.watch.endMark)
    (work : ∀ s ∈ pool', s.isWork id)
    (marks : ∀ s ∈ pool', ∀ mark, s.on? id = some (.storeEnd mark) →
      Stopwatch.ReadBy now mark) :
    Flow id rows total c' entries' now pool' rest := by
  obtain ⟨fits, -, pending, balance, crossed, once, storing, claiming, winning, releasing,
    effective, claimed, released, unended, ended, -⟩ := h
  constructor <;>
    first
    | assumption
    | simp only [hunits, hdue, hspent, htaken, hwon, hpending, hclaimed, hcomplete, hend]
      assumption

/-- Steps and entries that concern other countdowns do not show in the books. -/
theorem off {s : Step} {e : Entry} {next : List Step}
    (h : Flow id rows total c entries now (s ::ₘ pool) rest)
    (hs : s.on? id = none) (he : e.on? id = none)
    (hnext : ∀ t ∈ next, t.on? id = none ∧ t.isCrash = false) :
    Flow id rows total c (e :: entries) now ((next : Multiset Step) + pool) rest := by
  -- neither sum changes, so that all the accounts are as they were
  have hpool (f : CountdownAction → Nat) :
      Step.tally id f ((next : Multiset Step) + pool) = Step.tally id f (s ::ₘ pool) := by
    rw [Step.tally_add, Step.tally_cons, hs, Step.tally_eq_zero id f]
    · rfl
    · intro t ht a ha
      rw [(hnext t (by simpa using ht)).1] at ha
      cases ha
  have hentries (g : CountdownAction → Bool → Nat) :
      Entry.tally id g (e :: entries) = Entry.tally id g entries :=
    Entry.tally_cons_of_off he entries
  refine h.congr (hpool _) (fun _ => hpool _) (hentries _) (fun _ => hentries _)
    (fun _ => hentries _) rfl rfl rfl rfl ?_ ?_
  · intro t ht
    rcases Multiset.mem_add.1 ht with ht | ht
    · obtain ⟨h1, h2⟩ := hnext t (by simpa using ht)
      simp [Step.isWork, h1, h2]
    · exact h.work t (Multiset.mem_cons_of_mem ht)
  · intro t ht mark hm
    rcases Multiset.mem_add.1 ht with ht | ht
    · rw [(hnext t (by simpa using ht)).1] at hm
      cases hm
    · exact h.marks t (Multiset.mem_cons_of_mem ht) mark hm

theorem next_isWork {a b : CountdownAction} (h : (c.exec now a).next = some b) :
    b.isWork = true := by
  cases a <;> grind [Countdown.exec, CountdownAction.isWork]

theorem next_storeEnd {a : CountdownAction} {mark : UInt64}
    (h : (c.exec now a).next = some (.storeEnd mark)) : mark = Stopwatch.reading now := by
  cases a <;> grind [Countdown.exec]

/-- A word less a number of units is the difference of the two as long as that has a word. -/
theorem toInt_sub_ofNat {p : Int64} {n : Nat} (h : -2 ^ 63 ≤ p.toInt - n) :
    (p - Int64.ofNat n).toInt = p.toInt - n := by
  have hsize : Int64.size = 18446744073709551616 := rfl
  have hp := Int64.toInt_lt p
  rw [Int64.toInt_sub, Int64.toInt_ofNat', Int.sub_bmod_bmod]
  exact Int.bmod_eq_of_le (by omega) (by omega)

/-- How a step with a given effect changes what the books add up: the step is struck from
those in flight and entered as taken, and what follows it is in flight instead. -/
structure Posted (id : ContextId) (a : CountdownAction) (effect : CountdownEffect)
    (pool pool' : Multiset Step) (entries entries' : List Entry) (now : Nat) : Prop where
  pool (f : CountdownAction → Nat) :
    Step.tally id f pool' + f a = effect.next.elim 0 f + Step.tally id f pool
  entries (g : CountdownAction → Bool → Nat) :
    Entry.tally id g entries' = g a effect.took + Entry.tally id g entries
  work : ∀ s ∈ pool', s.isWork id
  marks : ∀ s ∈ pool', ∀ mark, s.on? id = some (.storeEnd mark) → Stopwatch.ReadBy now mark

theorem posted {s : Step} {e : Entry} {a : CountdownAction} {next : Option Step}
    (h : Flow id rows total c entries now (s ::ₘ pool) rest)
    (hs : s.on? id = some a) (he : e.on? id = some (a, (c.exec now a).took))
    (hnext : next = (c.exec now a).next.map (⟨s.task, .count id ·⟩)) :
    Posted id a (c.exec now a) (s ::ₘ pool) ((next.toList : Multiset Step) + pool)
      entries (e :: entries) now := by
  -- what is new in the pool are the steps that this one leads to
  have hmem : ∀ t ∈ (next.toList : Multiset Step), ∃ b, (c.exec now a).next = some b ∧
      t = ⟨s.task, .count id b⟩ := by
    intro t ht
    simp only [hnext, Multiset.mem_coe, Option.mem_toList, Option.map_eq_some_iff] at ht
    obtain ⟨b, hb, rfl⟩ := ht
    exact ⟨b, hb, rfl⟩
  exact
    { pool := fun f => by
        rw [Step.tally_add, Step.tally_cons, hs, hnext, Option.elim_some]
        cases (c.exec now a).next <;> simp [← Multiset.cons_zero, Step.on?_count] <;> omega
      entries := fun g => by
        rw [Entry.tally_cons, he]
        rfl
      work := fun t ht => by
        rcases Multiset.mem_add.1 ht with ht | ht
        · obtain ⟨b, hb, rfl⟩ := hmem t ht
          simp [Step.isWork, Step.isCrash, Step.on?_count, next_isWork hb]
        · exact h.work t (Multiset.mem_cons_of_mem ht)
      marks := fun t ht mark hm => by
        rcases Multiset.mem_add.1 ht with ht | ht
        · -- the only new store of an end has just read the clock
          obtain ⟨b, hb, rfl⟩ := hmem t ht
          rw [Step.on?_count, Option.some.injEq] at hm
          exact ⟨now, le_refl _, next_storeEnd (hm ▸ hb)⟩
        · exact h.marks t (Multiset.mem_cons_of_mem ht) mark hm }

/-! ### What one step does to the books

The steps of a notification follow one another, so what is due next is the step after the
one taken.  Only two of them look at the countdown: `subtract` at the counter, and
`claimRelease` at the claim. -/

section Laws

open CountdownAction

theorem due_le_one (leg : Leg) (a : CountdownAction) : due leg a ≤ 1 := by
  unfold due
  split <;> omega

variable {a : CountdownAction}

theorem units_next : (c.exec now a).next.elim 0 units = 0 := by
  cases h : (c.exec now a).next with
  | none => rfl
  | some b => exact Countdown.units_next h

theorem read_next : (c.exec now a).next.elim 0 (due .read)
    = if 0 < a.units ∧ c.pending.toInt ≤ a.units then 1 else 0 := by
  cases a with
  | subtract count =>
    have hpos : 0 < count.toNat ↔ count ≠ 0 := by
      rw [Nat.pos_iff_ne_zero, ← UInt32.toNat_zero, Ne, UInt32.toNat_inj]
    by_cases h0 : count = 0 <;> by_cases hle : c.pending.toInt ≤ count.toNat <;>
      simp [Countdown.exec, units, hpos, h0, hle, due, leg?]
  | claimRelease => cases h : c.claimed <;> simp [Countdown.exec, units, h, due, leg?]
  | _ => rfl

theorem store_next : (c.exec now a).next.elim 0 (due .store) = due .read a := by
  cases a <;> grind [Countdown.exec, due, leg?]

theorem claim_next : (c.exec now a).next.elim 0 (due .claim) = due .store a := by
  cases a <;> grind [Countdown.exec, due, leg?]

theorem release_next : (c.exec now a).next.elim 0 (due .release)
    = won .claim a (c.exec now a).took := by
  cases a <;> grind [Countdown.exec, won, due, leg?]

theorem won_claim : won .claim a (c.exec now a).took
    = if c.claimed then 0 else due .claim a := by
  cases a <;> grind [Countdown.exec, won, due, leg?]

theorem won_release : won .release a (c.exec now a).took
    = if c.isComplete then 0 else due .release a := by
  cases a <;> grind [Countdown.exec, Countdown.releaseLatch, Countdown.isComplete, Latch.release,
    won, due, leg?]

/-- A step of a task changes the counter by the rows that it subtracts. -/
theorem pending_after (ha : a.isWork = true) :
    (c.exec now a).after.pending = c.pending - Int64.ofNat a.units := by
  cases a with
  | subtract count =>
    simp only [Countdown.exec, units]
    split
    · next hzero => simp [hzero]
    · rfl
  | _ => first
    | exact (Int64.sub_zero _).symm
    | cases ha

theorem claimed_after (ha : a.isWork = true) :
    (c.exec now a).after.claimed = true ↔ c.claimed = true ∨ 0 < due .claim a := by
  cases a <;> grind [Countdown.exec, Countdown.releaseLatch, due, leg?, isWork]

theorem isComplete_after (ha : a.isWork = true) :
    (c.exec now a).after.isComplete = true ↔ c.isComplete = true ∨ 0 < due .release a := by
  cases a with
  | release =>
    simp [Countdown.exec, Countdown.releaseLatch, Countdown.isComplete, due, leg?]
  | _ => grind [Countdown.exec, Countdown.isComplete, due, leg?, isWork]

theorem endMark_after (ha : a.isWork = true) (h0 : due .store a = 0) :
    (c.exec now a).after.watch.endMark = c.watch.endMark := by
  cases a <;> grind [Countdown.exec, Countdown.releaseLatch, Stopwatch.claimStart, due, leg?,
    isWork]

theorem exists_storeEnd (h : due .store a ≠ 0) : ∃ mark, a = storeEnd mark := by
  cases a <;> first | exact absurd rfl h | exact ⟨_, rfl⟩

end Laws

section Posting

open CountdownAction

variable {a : CountdownAction} {pool' : Multiset Step} {entries' : List Entry}

theorem Posted.spent_eq (p : Posted id a (c.exec now a) pool pool' entries entries' now) :
    Entry.tally id spent entries' = a.units + Entry.tally id spent entries :=
  p.entries spent

theorem Posted.taken_eq (p : Posted id a (c.exec now a) pool pool' entries entries' now)
    (leg : Leg) :
    Entry.tally id (taken leg) entries' = due leg a + Entry.tally id (taken leg) entries :=
  p.entries (taken leg)

/-- A notification sets out to store the end exactly if it is the one that brings what is
spent up to the rows, or comes after it. -/
theorem reads_post (h : Flow id rows total c entries now pool rest)
    (p : Posted id a (c.exec now a) pool pool' entries entries' now) :
    Step.tally id (due .read) pool' + Entry.tally id (taken .read) entries'
      = (if 0 < a.units ∧ rows ≤ Entry.tally id spent entries' then 1 else 0)
        + (Step.tally id (due .read) pool + Entry.tally id (taken .read) entries) := by
  have hread := p.pool (due .read)
  have htaken := p.taken_eq .read
  have hreached : c.pending.toInt ≤ a.units ↔ rows ≤ Entry.tally id spent entries' := by
    rw [h.pending, p.spent_eq]
    omega
  simp only [read_next, hreached] at hread
  omega

/-- Whoever finds the claim free wins it. -/
theorem winning_post (h : Flow id rows total c entries now pool rest)
    (p : Posted id a (c.exec now a) pool pool' entries entries' now) :
    rows = 0 ∧ Entry.tally id (won .claim) entries' = 0 ∨
      0 < rows ∧ Entry.tally id (won .claim) entries'
        = min 1 (Entry.tally id (taken .claim) entries') := by
  have hwinning := h.winning
  have htaken := p.taken_eq .claim
  have hdue := due_le_one .claim a
  have hwon := p.entries (won .claim)
  simp only [won_claim, h.claimed] at hwon
  split at hwon <;> omega

/-- The release that is due next is the winner's. -/
theorem releasing_post (h : Flow id rows total c entries now pool rest)
    (p : Posted id a (c.exec now a) pool pool' entries entries' now) :
    rows = 0 ∧
        Step.tally id (due .release) pool' + Entry.tally id (taken .release) entries' = 1 ∨
      0 < rows ∧ Step.tally id (due .release) pool' + Entry.tally id (taken .release) entries'
        = Entry.tally id (won .claim) entries' := by
  have hrelease := p.pool (due .release)
  rw [release_next] at hrelease
  have hwon := p.entries (won .claim)
  have htaken := p.taken_eq .release
  have hreleasing := h.releasing
  have hwinning := h.winning_post p
  omega

/-- One release at most is due, so a release that is taken finds the latch closed. -/
theorem effective_post (h : Flow id rows total c entries now pool rest)
    (p : Posted id a (c.exec now a) pool pool' entries entries' now)
    (hin : due .release a ≤ Step.tally id (due .release) pool) :
    Entry.tally id (won .release) entries' = Entry.tally id (taken .release) entries' := by
  have heffective := h.effective
  have htaken := p.taken_eq .release
  have hreleasing := h.releasing
  have hwinning := h.winning
  have hwon := p.entries (won .release)
  simp only [won_release, h.released] at hwon
  split at hwon <;> omega

/-- What is posted keeps the books: every sum moves by what the step that was taken hands
on. -/
theorem post (h : Flow id rows total c entries now pool rest)
    (p : Posted id a (c.exec now a) pool pool' entries entries' now) (ha : a.isWork = true)
    (hin : ∀ f, f a ≤ Step.tally id f pool)
    (hmark : ∀ mark, a = storeEnd mark → Stopwatch.ReadBy now mark) :
    Flow id rows total (c.exec now a).after entries' now pool' rest := by
  have hbalance := h.balance
  have hspent := p.spent_eq
  have htaken := p.taken_eq
  have hunits := p.pool units
  have hunitsIn := hin units
  rw [units_next] at hunits
  exact
    { fits := h.fits
      work := p.work
      pending := by
        have hfits := h.fits
        have hpending := h.pending
        rw [pending_after ha, toInt_sub_ofNat (by omega), hpending, hspent]
        omega
      balance := by omega
      crossed := by
        have hcrossed := h.crossed
        rw [h.reads_post p]
        split <;> omega
      once := fun hle => by
        have honce := h.once hle
        have hcrossed := h.crossed
        rw [h.reads_post p]
        split <;> omega
      storing := by
        have hstore := p.pool (due .store)
        have hstoring := h.storing
        rw [store_next] at hstore
        rw [htaken, htaken]
        omega
      claiming := by
        have hclaim := p.pool (due .claim)
        have hclaiming := h.claiming
        rw [claim_next] at hclaim
        rw [htaken, htaken]
        omega
      winning := h.winning_post p
      releasing := h.releasing_post p
      effective := h.effective_post p (hin _)
      claimed := by
        rw [claimed_after ha, h.claimed, htaken]
        omega
      released := by
        rw [isComplete_after ha, h.released, htaken]
        omega
      unended := fun h0 => by
        rw [htaken] at h0
        rw [endMark_after ha (by omega)]
        exact h.unended (by omega)
      ended := fun h0 => by
        rw [htaken] at h0
        by_cases hs : due .store a = 0
        · rw [endMark_after ha hs]
          exact h.ended (by omega)
        · obtain ⟨mark, rfl⟩ := exists_storeEnd hs
          exact hmark mark rfl
      marks := p.marks }

end Posting

/-- A step on the countdown keeps the books. -/
theorem on {s : Step} {e : Entry} {a : CountdownAction} {next : Option Step}
    (h : Flow id rows total c entries now (s ::ₘ pool) rest)
    (hs : s.on? id = some a) (he : e.on? id = some (a, (c.exec now a).took))
    (hnext : next = (c.exec now a).next.map (⟨s.task, .count id ·⟩)) :
    Flow id rows total (c.exec now a).after (e :: entries) now
      ((next.toList : Multiset Step) + pool) rest := by
  have hmem := Multiset.mem_cons_self s pool
  refine h.post (h.posted hs he hnext) (Step.isWork_on (h.work s hmem) hs) (fun f => ?_) ?_
  · rw [Step.tally_cons, hs]
    exact Nat.le_add_right ..
  · rintro mark rfl
    exact h.marks s hmem mark hs

end Flow

end BenchLoop
