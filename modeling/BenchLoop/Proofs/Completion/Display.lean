/-
BenchLoop/Proofs/Completion/Display.lean

What the progress display shows is what has been subtracted since the last reset, up to the
total.  The counter is an account of that, at every moment and whatever the threads are
in the middle of:

    pending = total - subtracted        as words, so even where the counter wraps

(`World.Counts`, kept by every turn: `World.Counts.turn`).  As a number it says the same until
the counter leaves its word, and what is shown is then the smaller of the total and what was
subtracted (`World.Counts.toNat_position`).  What was subtracted only grows, so what is shown
does as well (`World.shown_faithful`).

Threads may do anything but reset the countdown: they may be in the middle of notifications
that began before the reset, notify more rows than there are, or panic.
-/
import BenchLoop.Config
import BenchLoop.Machine.Display
import BenchLoop.Proofs.Completion.Labour

namespace BenchLoop

open CountdownAction

variable {id : ContextId}

/-! ### All rows finished -/

/-- All rows count as finished exactly when the counter is used up. -/
theorem rowsFinished_eq_iff {total : UInt64} {pending : Int64} (h : pending.toInt ≤ total.toNat) :
    rowsFinished total pending = total ↔ pending.toInt ≤ 0 := by
  rw [← UInt64.toNat_inj, toNat_rowsFinished]
  show total.toNat - pending.toInt.toNat = total.toNat ↔ _
  omega

/-! ### One step -/

/-- Whether a step is one of the stores of a reset of the countdown. -/
def Step.isRearming (id : ContextId) (s : Step) : Bool := (s.on? id).any fun a => !a.isWork

theorem Step.isWork_of_not_isRearming {s : Step} {a : CountdownAction}
    (h : s.isRearming id = false) (ha : s.on? id = some a) : a.isWork = true := by
  simpa [isRearming, ha] using h

theorem Step.isRearming_of_isWork {s : Step} (h : s.isWork id = true) :
    s.isRearming id = false := by
  cases ha : s.on? id with
  | none => rw [isRearming, ha, Option.any_none]
  | some a => rw [isRearming, ha, Option.any_some, isWork_on h ha, Bool.not_true]

namespace World

variable {w : World} {s : Step} {rows total : UInt64}

/-- A step takes off the counter what it enters as subtracted, and nothing that follows it is
a store of a reset. -/
theorem exec_counts (w : World) (actor : Actor) (hs : s.isRearming id = false) :
    ∃ n, ((w.exec actor s).2.countdown id).pending
          = (w.countdown id).pending - Int64.ofNat n ∧
      (w.exec actor s).2.subtracted id = n + w.subtracted id ∧
      ∀ t ∈ (w.exec actor s).1, t.isRearming id = false := by
  have hnext (t : Step) (ht : t ∈ (w.exec actor s).1) : t.isRearming id = false :=
    Step.isRearming_of_isWork (isWork_exec ht)
  cases ha : s.on? id with
  | none =>
    obtain ⟨-, hcountdown, e, hjournal, he⟩ := exec_off w actor ha
    -- a step on another countdown counts for nothing here
    refine ⟨0, ?_, ?_, hnext⟩
    · rw [hcountdown]
      exact (Int64.sub_zero _).symm
    · rw [subtracted, sinceReset, hjournal, Entry.sinceReset_cons (Entry.isReset_of_off he),
        Entry.tally_cons_of_off he, Nat.zero_add]
      rfl
  | some a =>
    obtain ⟨-, hcountdown, hjournal⟩ := exec_on w actor ha
    have hwork := Step.isWork_of_not_isRearming hs ha
    have hon := Entry.on?_performed ha actor
    have hreset (took : Bool) := Entry.isReset_of_isWork (hon took) hwork
    refine ⟨a.units, ?_, ?_, hnext⟩
    · rw [hcountdown, Flow.pending_after hwork]
    · rw [subtracted, sinceReset, hjournal, Entry.sinceReset_cons (hreset _), Entry.tally_cons,
        hon]
      rfl

/-! ### Every moment of an iteration -/

/-- The counter shows `rows` less what has been subtracted since the last reset, and no thread
is about to reset the countdown. -/
structure Counts (id : ContextId) (rows : UInt64) (w : World) : Prop where
  kept : ∀ i, ∀ s ∈ w.remaining i, s.isRearming id = false
  pending : (w.countdown id).pending = rows.toInt64 - Int64.ofNat (w.subtracted id)

theorem Counts.of_reset {c : Countdown}
    (hreset : (w.countdown id).pending = (c.reset rows).pending) (hnew : w.subtracted id = 0)
    (hkept : ∀ s ∈ w.inFlight, s.isRearming id = false) : w.Counts id rows where
  kept i s hs := hkept s (mem_inFlight.2 ⟨i, hs⟩)
  pending := by
    rw [hreset, hnew, Countdown.reset_eq]
    exact (Int64.sub_zero _).symm

theorem Counts.turn (h : w.Counts id rows) (t : Turn) :
    (w.turn t).Counts id rows ∧ w.subtracted id ≤ (w.turn t).subtracted id := by
  obtain ⟨n, ht⟩ | ⟨i, s, rest, rfl, hi, -⟩ := w.turn_cases t
  · rw [ht]
    exact ⟨⟨h.kept, h.pending⟩, le_rfl⟩
  · have hs : s.isRearming id = false := h.kept i s (by rw [hi]; exact List.mem_cons_self)
    obtain ⟨n, hpending, hsub, hnext⟩ := w.exec_counts (.thread i) hs
    have hsub' : (w.turn (.thread i)).subtracted id = n + w.subtracted id := by
      rw [← hsub, subtracted, sinceReset, journal_turn hi, subtracted, sinceReset]
    refine ⟨⟨fun j t ht => ?_, ?_⟩, ?_⟩
    · exact (mem_remaining_turn hi ht).elim (fun ht => hnext t ht.2) (h.kept j t)
    · rw [countdown_turn hi, hpending, h.pending, Int64.sub_sub, hsub', Nat.add_comm,
        Int64.ofNat_add]
    · rw [hsub']
      exact Nat.le_add_left ..

/-- The counter is right at every moment, and what has been subtracted only grows. -/
theorem Counts.burst (h : w.Counts id rows) (turns : List Turn) :
    (w.burst turns).Counts id rows ∧ w.subtracted id ≤ (w.burst turns).subtracted id := by
  induction turns generalizing w with
  | nil => exact ⟨h, le_rfl⟩
  | cons t turns ih =>
    obtain ⟨hturn, hle⟩ := h.turn t
    obtain ⟨hburst, hle'⟩ := ih hturn
    exact ⟨hburst, hle.trans hle'⟩

section Moment

variable (h : w.Counts id total) (hmax : total.toNat ≤ Config.maxRows)
  (hsum : w.subtracted id ≤ 2 ^ 63)

include h hmax hsum

theorem Counts.toInt_pending :
    (w.countdown id).pending.toInt = (total.toNat : Int) - w.subtracted id := by
  have hmaxRows : Config.maxRows = 2 ^ 32 - 1 := rfl
  have htotal : total.toInt64.toInt = total.toNat := toInt_toInt64 (by omega)
  rw [h.pending, Flow.toInt_sub_ofNat (by omega), htotal]

/-- What is shown is what has been subtracted, or the total if that is less. -/
theorem Counts.toNat_position :
    (w.position id total).toNat = min total.toNat (w.subtracted id) := by
  rw [position, toNat_rowsFinished]
  show total.toNat - (w.countdown id).pending.toInt.toNat = _
  rw [h.toInt_pending hmax hsum]
  omega

theorem Counts.position_eq_iff :
    w.position id total = total ↔ (w.countdown id).pending.toInt ≤ 0 := by
  refine rowsFinished_eq_iff ?_
  rw [h.toInt_pending hmax hsum]
  omega

end Moment

/-! ### Polls -/

/-- The counter is right whenever it is read, and from one poll to the next what has been
subtracted only grows. -/
theorem Counts.polled (h : w.Counts id rows) (latch : Nat) (polls : List Poll) :
    (∀ v ∈ w.polled id latch polls, v.Counts id rows ∧ w.subtracted id ≤ v.subtracted id) ∧
      (w.polled id latch polls).Pairwise (·.subtracted id ≤ ·.subtracted id) := by
  induction polls generalizing w with
  | nil => exact ⟨nofun, .nil⟩
  | cons poll polls ih =>
    obtain ⟨hwaited, hle⟩ := h.burst poll.waiting
    obtain ⟨hread, hle'⟩ := hwaited.burst poll.reading
    obtain ⟨hall, hpairs⟩ := ih hread
    rw [World.polled]
    dsimp only
    split
    · exact ⟨nofun, .nil⟩
    · refine ⟨List.forall_mem_cons.2 ⟨⟨hread, hle.trans hle'⟩, fun v hv => ?_⟩,
        List.pairwise_cons.2 ⟨fun v hv => (hall v hv).2, hpairs⟩⟩
      obtain ⟨hcounts, hv⟩ := hall v hv
      exact ⟨hcounts, (hle.trans hle').trans hv⟩

/-- **The display is exact and never goes back.**  Take a world in which the counter is as a
reset for `total` rows leaves it, nothing has been subtracted since, and any threads that do
not reset the countdown themselves.

* After any turns of theirs what the display would show is what has been subtracted since
  the reset, up to the total, as long as that is not more than `2 ^ 63` rows; and it is the
  total exactly if the counter is at zero or below.
* Whatever the threads do around the polls of the display, what it shows never decreases, never
  exceeds the total, and is the total exactly where the counter is at zero or below. -/
theorem shown_faithful {c : Countdown} (hmax : total.toNat ≤ Config.maxRows)
    (hreset : (w.countdown id).pending = (c.reset total).pending) (hnew : w.subtracted id = 0)
    (hkept : ∀ s ∈ w.inFlight, s.isRearming id = false) :
    (∀ turns : List Turn, (w.burst turns).subtracted id ≤ 2 ^ 63 →
      ((w.burst turns).position id total).toNat
          = min total.toNat ((w.burst turns).subtracted id) ∧
        ((w.burst turns).position id total = total ↔
          ((w.burst turns).countdown id).pending.toInt ≤ 0)) ∧
    ∀ (latch : Nat) (polls : List Poll),
      (∀ v ∈ w.polled id latch polls, v.subtracted id ≤ 2 ^ 63) →
      (w.shown id latch total polls).Pairwise (· ≤ ·) ∧
        (∀ shown ∈ w.shown id latch total polls, shown ≤ total) ∧
        ∀ v ∈ w.polled id latch polls,
          (v.position id total = total ↔ (v.countdown id).pending.toInt ≤ 0) := by
  have hcounts : w.Counts id total := .of_reset hreset hnew hkept
  refine ⟨fun turns hsum => ?_, fun latch polls hsum => ?_⟩
  · obtain ⟨hburst, -⟩ := hcounts.burst turns
    exact ⟨hburst.toNat_position hmax hsum, hburst.position_eq_iff hmax hsum⟩
  · obtain ⟨hall, hpairs⟩ := hcounts.polled latch polls
    refine ⟨?_, ?_, fun v hv => (hall v hv).1.position_eq_iff hmax (hsum v hv)⟩
    · -- what was subtracted is in order, and so is its minimum with the total
      refine List.pairwise_map.2 (hpairs.imp_of_mem fun {u v} hu hv hle => ?_)
      rw [UInt64.le_iff_toNat_le, (hall u hu).1.toNat_position hmax (hsum u hu),
        (hall v hv).1.toNat_position hmax (hsum v hv)]
      exact min_le_min_left _ hle
    · rintro _ hmem
      obtain ⟨v, -, rfl⟩ := List.mem_map.1 hmem
      exact UInt64.le_iff_toNat_le.2 (rowsFinished_le total _)

/-- Two threads that notify two rows and three rows of two: the display shows one row, then all
of them, and all of them once more after the counter has gone below zero. -/
theorem shown_faithful_overcounted :
    let notify (task : TaskId) (count : UInt32) : Step := ⟨some task, .count 0 (.subtract count)⟩
    let w : World :=
      { countdowns := Table.set {} 0 (Countdown.reset {} 2)
        threads := #[{ name := "", todo := [notify 0 1, notify 0 1] },
          { name := "", todo := [notify 1 3] }] }
    let polls : List Poll := [⟨[.thread 0], []⟩, ⟨[], [.thread 0]⟩, ⟨[.thread 1], []⟩]
    (w.shown 0 1 2 polls = [1, 2, 2] ∧ (w.shown 0 1 2 polls).Pairwise (· ≤ ·)) ∧
      ((w.burst [.thread 0, .thread 0, .thread 1]).position 0 2).toNat = 2 := by
  intro notify w polls
  have hfaithful := @shown_faithful 0 w 2 {} (by decide) (by simp [w, countdown]) rfl (by decide)
  refine ⟨⟨by decide +kernel, (hfaithful.2 1 polls (by decide +kernel)).1⟩, ?_⟩
  obtain ⟨hexact, -⟩ := hfaithful.1 [.thread 0, .thread 0, .thread 1] (by decide +kernel)
  exact hexact.trans (by decide +kernel)

end World

end BenchLoop
