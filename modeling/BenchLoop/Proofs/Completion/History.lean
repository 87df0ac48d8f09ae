/-
BenchLoop/Proofs/Completion/History.lean

What a countdown shows after any sequence of calls, in closed form.

A call is an operation of a countdown that nobody interrupts: a reset, a notification, a
claim of the start, or the release of some latch by hand.  A reset makes everything anew,
whatever was there before, so only the calls since the latest one count: the rows that it
armed and the rows notified since give the counter, the end and most of the current latch
(`Countdown.Reflects`, kept by every call: `Reflects.after`).

Latches of earlier resets are out of reach for all calls but a release by hand
(`Countdown.released_afterAll`).
-/
import BenchLoop.Proofs.Completion.Barrier
import BenchLoop.Proofs.Completion.Clock

namespace BenchLoop

/-- An operation on a countdown with nobody in between. -/
inductive CountdownCall where
  | reset (rows : UInt64)
  /-- A notification of `count` rows while the clock shows `now`. -/
  | notify (now : Nat) (count : UInt32)
  /-- A claim of the start while the clock shows `now`. -/
  | mark (now : Nat)
  /-- A release of the latch with a given number by hand. -/
  | release (latch : Nat)
deriving Repr, DecidableEq

namespace CountdownCall

def isReset : CountdownCall → Bool
  | reset _ => true
  | _ => false

/-- The rows that a call notifies. -/
def count : CountdownCall → Nat
  | notify _ count => count.toNat
  | _ => 0

/-- What the clock shows to a call that may read it. -/
def clock? : CountdownCall → Option Nat
  | notify now _ | mark now => some now
  | _ => none

/-- The rows that some calls notify. -/
def notified (calls : List CountdownCall) : Nat := (calls.map count).sum

@[simp] theorem notified_append (calls more : List CountdownCall) :
    notified (calls ++ more) = notified calls + notified more := by
  simp [notified]

@[simp] theorem notified_singleton (a : CountdownCall) : notified [a] = a.count := by
  simp [notified]

end CountdownCall

open CountdownCall

namespace Countdown

/-- The countdown after a call. -/
def after (c : Countdown) : CountdownCall → Countdown
  | .reset rows => c.reset rows
  | .notify now count => c.notify now count
  | .mark now => (c.markStarted now).2
  | .release latch => (c.releaseLatch latch).2

/-- The countdown after some calls, one after the other. -/
def afterAll (c : Countdown) (calls : List CountdownCall) : Countdown := calls.foldl after c

@[simp] theorem afterAll_append (c : Countdown) (calls more : List CountdownCall) :
    c.afterAll (calls ++ more) = (c.afterAll calls).afterAll more :=
  List.foldl_append

@[simp] theorem afterAll_singleton (c : Countdown) (a : CountdownCall) :
    c.afterAll [a] = c.after a := rfl

/-! ### Since the latest reset -/

/-- What a countdown shows once `rows` rows were armed and the calls `since` were made. -/
structure Reflects (v : Countdown) (rows : UInt64) (since : List CountdownCall) : Prop where
  pending : v.pending.toInt = (rows.toNat : Int) - notified since
  complete : v.isComplete = true ↔
    rows = 0 ∨ rows.toNat ≤ notified since ∨ .release v.current ∈ since
  finished : v.watch.isFinished = true ↔ rows.toNat ≤ notified since ∧ 0 < notified since
  started : v.watch.isStarted = true ↔ ∃ now, .mark now ∈ since
  /-- The latch is taken care of exactly if there is nothing left to wait for. -/
  claimed : v.claimed = true ↔ rows.toNat ≤ notified since

namespace Reflects

variable {v : Countdown} {rows : UInt64} {since : List CountdownCall}

/-- A reset makes everything anew. -/
theorem reset (c : Countdown) (hrows : rows.toNat < 2 ^ 63) : Reflects (c.reset rows) rows [] := by
  have hzero : rows.toNat ≤ 0 ↔ rows = 0 := by
    rw [Nat.le_zero, ← UInt64.toNat_inj]
    rfl
  rw [reset_eq]
  exact
    { pending := by
        rw [toInt_toInt64 hrows, notified, List.map_nil, List.sum_nil, Nat.cast_zero, Int.sub_zero]
      complete := by simp [isComplete, notified, hzero]
      finished := by simp [Stopwatch.isFinished, notified]
      started := by simp [Stopwatch.isStarted]
      claimed := by simp [notified, hzero] }

/-- A notification counts its rows down, and ends the iteration once there are none left. -/
theorem notify (h : Reflects v rows since) {now : Nat} {count : UInt32}
    (hsum : notified since + count.toNat ≤ rows.toNat + 2 ^ 63)
    (hclock : now ≠ UInt64.size - 1) :
    Reflects (v.notify now count) rows (since ++ [.notify now count]) := by
  have hrelease (i : Nat) : .release i ∈ since ++ [.notify now count] ↔ .release i ∈ since := by
    simp
  have hmark : (∃ t, .mark t ∈ since ++ [.notify now count]) ↔ ∃ t, .mark t ∈ since := by
    simp
  have hnotified : notified (since ++ [.notify now count]) = notified since + count.toNat := by
    simp [CountdownCall.count]
  have hpending := h.pending
  have hcount := count.toNat_lt
  rw [notify_eq]
  by_cases h0 : count = 0
  · -- nothing is notified, and nothing changes
    rw [if_pos h0]
    rw [h0, UInt32.toNat_zero, Nat.add_zero, ← h0] at hnotified
    exact ⟨by rw [hnotified, h.pending], by rw [hnotified, hrelease, h.complete],
      by rw [hnotified, h.finished], by rw [hmark, h.started], by rw [hnotified, h.claimed]⟩
  have hpos : 0 < count.toNat := Nat.pos_of_ne_zero fun h => h0 (UInt32.toNat_inj.1 h)
  have hsub : (v.pending - Int64.ofNat count.toNat).toInt
      = (rows.toNat : Int) - (notified since + count.toNat : Nat) := by
    rw [Flow.toInt_sub_ofNat (by omega), hpending]
    omega
  rw [if_neg h0]
  by_cases hle : v.pending.toInt ≤ count.toNat
  · -- no rows are left: the end is stored, and the latch is open, by this call or by an earlier one
    have hreached : rows.toNat ≤ notified since + count.toNat := by omega
    rw [if_pos hle]
    refine ⟨by rw [hnotified]; exact hsub, ?_, ?_, by rw [hmark, ← h.started]; rfl,
      by simpa [hnotified] using hreached⟩
    · rw [hnotified, hrelease]
      refine iff_of_true ?_ (.inr (.inl hreached))
      show ((if v.claimed then v.latches else v.latches.set v.current ⟨true⟩).get
        v.current).released = true
      split
      · next hclaimed =>
        exact h.complete.2 (.inr (.inl (h.claimed.1 hclaimed)))
      · rw [Table.get_set_self]
    · rw [hnotified]
      refine iff_of_true ?_ ⟨hreached, by omega⟩
      exact bne_iff_ne.2 fun h => hclock (Stopwatch.reading_eq_zero_iff.1 h)
  · -- some rows are left, so some were left before
    have hleft : ¬ rows.toNat ≤ notified since + count.toNat := by omega
    have hleft' : ¬ rows.toNat ≤ notified since := by omega
    rw [if_neg hle]
    refine ⟨by rw [hnotified]; exact hsub, ?_, ?_, by rw [hmark, ← h.started], ?_⟩
    · have hcomplete := h.complete
      simp only [hleft', false_or] at hcomplete
      simp only [hnotified, hrelease, hleft, false_or]
      exact hcomplete
    · have hfinished := h.finished
      simp only [hleft', false_and] at hfinished
      simp only [hnotified, hleft, false_and]
      exact hfinished
    · have hclaimed := h.claimed
      simp only [hleft'] at hclaimed
      simp only [hnotified, hleft]
      exact hclaimed

/-- A claim of the start sets it unless it is set. -/
theorem mark (h : Reflects v rows since) {now : Nat} (hclock : now ≠ UInt64.size - 1) :
    Reflects (v.markStarted now).2 rows (since ++ [.mark now]) := by
  have hnotified : notified (since ++ [.mark now]) = notified since := by
    simp [CountdownCall.count]
  rw [markStarted_eq]
  refine ⟨by rw [hnotified, h.pending], ?_, ?_, ?_, by rw [hnotified, h.claimed]⟩
  · rw [hnotified]
    have hrelease (i : Nat) : .release i ∈ since ++ [.mark now] ↔ .release i ∈ since := by
      simp
    rw [hrelease]
    exact h.complete
  · rw [hnotified, ← h.finished]
    simp only [Stopwatch.isFinished, Stopwatch.claimStart]
    split <;> rfl
  -- a reading is stored as its successor, so only the last one would leave the mark unset
  · refine iff_of_true ?_ ⟨now, by simp⟩
    simp only [Stopwatch.isStarted, Stopwatch.claimStart]
    split
    · exact bne_iff_ne.2 fun h => hclock (Stopwatch.reading_eq_zero_iff.1 h)
    · next hset => exact bne_iff_ne.2 hset

/-- A release by hand opens the latch that it names and touches nothing else. -/
theorem release (h : Reflects v rows since) (i : Nat) :
    Reflects (v.releaseLatch i).2 rows (since ++ [.release i]) := by
  have hnotified : notified (since ++ [.release i]) = notified since := by
    simp [CountdownCall.count]
  refine ⟨by rw [hnotified]; exact h.pending, ?_, by rw [hnotified]; exact h.finished,
    ?_, by rw [hnotified]; exact h.claimed⟩
  · have hcomplete := h.complete
    simp only [isComplete, releaseLatch, Table.get_set, hnotified, List.mem_append,
      List.mem_singleton, CountdownCall.release.injEq] at hcomplete ⊢
    by_cases hi : i = v.current
    · simp [hi]
    · rw [if_neg hi, hcomplete]
      simp [Ne.symm hi]
  · rw [show (v.releaseLatch i).2.watch = v.watch from rfl, h.started]
    simp

/-- Every call but a reset keeps what the countdown shows in step with the calls. -/
theorem after (h : Reflects v rows since) {a : CountdownCall} (ha : a.isReset = false)
    (hsum : notified (since ++ [a]) ≤ rows.toNat + 2 ^ 63)
    (hclock : a.clock? ≠ some (UInt64.size - 1)) : Reflects (v.after a) rows (since ++ [a]) := by
  rw [notified_append, notified_singleton] at hsum
  cases a with
  | reset rows => cases ha
  | notify now count => exact h.notify hsum fun hnow => hclock (congrArg some hnow)
  | mark now => exact h.mark fun hnow => hclock (congrArg some hnow)
  | release i => exact h.release i

/-- What any number of calls after a reset lead to. -/
theorem afterAll (c : Countdown) (hrows : rows.toNat < 2 ^ 63)
    (hsince : ∀ a ∈ since, a.isReset = false) (hsum : notified since ≤ rows.toNat + 2 ^ 63)
    (hclock : ∀ a ∈ since, a.clock? ≠ some (UInt64.size - 1)) :
    Reflects ((c.reset rows).afterAll since) rows since := by
  induction since using List.reverseRecOn with
  | nil => exact reset c hrows
  | append_singleton since a ih =>
    rw [afterAll_append, afterAll_singleton]
    have hbefore {b : CountdownCall} (hb : b ∈ since) : b ∈ since ++ [a] :=
      List.mem_append_left _ hb
    have hlast : a ∈ since ++ [a] := List.mem_append_right _ (List.mem_singleton_self a)
    refine after (ih (fun b hb => hsince b (hbefore hb)) ?_ fun b hb => hclock b (hbefore hb))
      (hsince a hlast) hsum (hclock a hlast)
    rw [notified_append] at hsum
    omega

end Reflects

/-! ### Latches of earlier resets -/

theorem current_le_after (c : Countdown) (a : CountdownCall) : c.current ≤ (c.after a).current := by
  cases a <;> simp only [after, reset_eq, notify_eq, markStarted_eq, releaseLatch]
  · exact Nat.le_succ _
  · split_ifs <;> exact le_rfl
  · exact le_rfl
  · exact le_rfl

theorem current_le_afterAll (c : Countdown) (calls : List CountdownCall) :
    c.current ≤ (c.afterAll calls).current := by
  induction calls generalizing c with
  | nil => exact le_rfl
  | cons a calls ih => exact (c.current_le_after a).trans (ih _)

/-- A latch that is not the current one, nor a later one, can only be released by hand. -/
theorem released_after {c : Countdown} {i : Nat} (hi : i < c.current) (a : CountdownCall) :
    ((c.after a).latches.get i).released
      = ((c.latches.get i).released || decide (a = .release i)) := by
  cases a with
  | reset rows =>
    have hne : c.current + 1 ≠ i := by omega
    simp [after, reset_eq, Table.get_set, hne]
  | notify now count =>
    have hne : c.current ≠ i := by omega
    simp only [after, notify_eq]
    split_ifs <;> simp [Table.get_set, hne]
  | mark now => simp [after, markStarted_eq]
  | release j =>
    simp only [after, releaseLatch, Table.get_set, Latch.release]
    by_cases hj : j = i <;> simp [hj]

theorem released_afterAll {c : Countdown} {i : Nat} (hi : i < c.current)
    (calls : List CountdownCall) :
    ((c.afterAll calls).latches.get i).released
      = ((c.latches.get i).released || decide (.release i ∈ calls)) := by
  induction calls generalizing c with
  | nil => simp [afterAll]
  | cons a calls ih =>
    show (((c.after a).afterAll calls).latches.get i).released = _
    rw [ih (hi.trans_le (c.current_le_after a)), released_after hi]
    simp [Bool.or_assoc, eq_comm]

/-! ### The whole history -/

end Countdown

end BenchLoop
