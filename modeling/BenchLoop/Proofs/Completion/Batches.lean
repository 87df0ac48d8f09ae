/-
BenchLoop/Proofs/Completion/Batches.lean

Rows may be notified in any batches.  Notifications in a row amount to one notification of
all their rows, made at the time of one of them (`Countdown.exists_notifyAll_eq`): the last
one that left nothing pending, or, if there was none, any of them.

This holds for every state of the countdown, also where the counter wraps on the way.  A
counter wraps only after it has been used up, and what matters then has been done already: the
latch has been taken care of, and later notifications can do no more than store the end
again.  All this is in the case of two notifications (`Countdown.notify_notify`); the rest is
an induction on the batches.
-/
import BenchLoop.Proofs.Completion.Clock
import BenchLoop.Proofs.Completion.Flow

namespace BenchLoop

namespace Countdown

/-- The countdown after some notifications in a row.  Each comes with what the clock shows to it
and the rows that it notifies. -/
def notifyAll (c : Countdown) (batches : List (Nat × UInt32)) : Countdown :=
  batches.foldl (fun c batch => c.notify batch.1 batch.2) c

/-- Two countdowns that show the same.  Their ends may have been stored at different times. -/
structure Agrees (clocks : List Nat) (c d : Countdown) : Prop where
  pending : c.pending = d.pending
  claimed : c.claimed = d.claimed
  current : c.current = d.current
  /-- Every latch, the current one among them, has been released in both or in neither. -/
  latches : c.latches = d.latches
  startMark : c.watch.startMark = d.watch.startMark
  /-- So has the end been set, unless a clock showed the one time that looks like none. -/
  finished : UInt64.size - 1 ∉ clocks → c.watch.isFinished = d.watch.isFinished

theorem Agrees.refl (clocks : List Nat) (c : Countdown) : c.Agrees clocks c :=
  ⟨rfl, rfl, rfl, rfl, rfl, fun _ => rfl⟩

/-- The fewer clocks there are the fewer can have shown the wrong time. -/
theorem Agrees.mono {clocks clocks' : List Nat} {c d : Countdown} (h : c.Agrees clocks d)
    (hsub : clocks ⊆ clocks') : c.Agrees clocks' d :=
  { h with finished := fun hclock => h.finished fun hmem => hclock (hsub hmem) }

theorem notify_zero (c : Countdown) (now : Nat) : c.notify now 0 = c := by
  rw [notify_eq, if_pos rfl]

/-- Two notifications in a row are one of the rows of both. -/
theorem notify_notify (c : Countdown) (t u : Nat) {n m : UInt32}
    (hsum : n.toNat + m.toNat < UInt32.size) :
    ∃ v, (v = t ∨ v = u) ∧ (c.notify t n).notify u m = c.notify v (n + m) := by
  have hadd : (n + m).toNat = n.toNat + m.toNat := by
    rw [UInt32.toNat_add]
    exact Nat.mod_eq_of_lt hsum
  by_cases hn : n = 0
  · exact ⟨u, .inr rfl, by rw [hn, notify_zero, UInt32.zero_add]⟩
  by_cases hm : m = 0
  · exact ⟨t, .inl rfl, by rw [hm, notify_zero, UInt32.add_zero]⟩
  have hne : n + m ≠ 0 := by
    intro h
    have hpos : n.toNat ≠ 0 := fun h => hn (UInt32.toNat_inj.1 h)
    rw [h, UInt32.toNat_zero] at hadd
    omega
  have hpending : c.pending - Int64.ofNat n.toNat - Int64.ofNat m.toNat
      = c.pending - Int64.ofNat (n + m).toNat := by
    rw [Int64.sub_sub, hadd, Int64.ofNat_add]
  by_cases hcross : c.pending.toInt ≤ n.toNat
  · -- the first one finds the rows used up, and so would one of both
    have hboth : c.pending.toInt ≤ (n + m).toNat := by omega
    simp only [notify_eq, if_neg hn, if_neg hm, if_neg hne, if_pos hcross, if_pos hboth, if_true]
    by_cases hagain : (c.pending - Int64.ofNat n.toNat).toInt ≤ m.toNat
    · refine ⟨u, .inr rfl, ?_⟩
      rw [if_pos hagain, hpending]
      rfl
    · -- the counter has wrapped
      refine ⟨t, .inl rfl, ?_⟩
      rw [if_neg hagain, hpending]
  · -- some rows are left behind the first one, so the counter has not wrapped
    have hlt := n.toNat_lt
    have hleft : (c.pending - Int64.ofNat n.toNat).toInt = c.pending.toInt - n.toNat :=
      Flow.toInt_sub_ofNat (by omega)
    have hlast : c.pending.toInt - n.toNat ≤ m.toNat ↔ c.pending.toInt ≤ (n + m).toNat := by
      omega
    refine ⟨u, .inr rfl, ?_⟩
    simp only [notify_eq, if_neg hn, if_neg hm, if_neg hne, if_neg hcross, hleft, hlast, hpending]

/-- **Notifications in a row are one notification** of all their rows, made at the time of one of
them. -/
theorem exists_notifyAll_eq (c : Countdown) {batches : List (Nat × UInt32)} {sum : UInt32}
    (hne : batches ≠ []) (hsum : (batches.map fun batch => batch.2.toNat).sum = sum.toNat) :
    ∃ t ∈ batches.map Prod.fst, c.notifyAll batches = c.notify t sum := by
  induction batches generalizing c sum with
  | nil => exact absurd rfl hne
  | cons batch rest ih =>
    obtain ⟨t, n⟩ := batch
    rw [List.map_cons, List.sum_cons] at hsum
    dsimp only at hsum
    by_cases hrest : rest = []
    · subst hrest
      obtain rfl : n = sum := UInt32.toNat_inj.1 hsum
      exact ⟨t, List.mem_cons_self, rfl⟩
    -- the others make up the rest of the sum, and what they come to is merged with the first
    · have hlt := sum.toNat_lt
      have hsize : UInt32.size = 2 ^ 32 := rfl
      have hle : n ≤ sum := UInt32.le_iff_toNat_le.2 (by omega)
      have hsub : (sum - n).toNat = sum.toNat - n.toNat := UInt32.toNat_sub_of_le _ _ hle
      have hothers : (rest.map fun batch => batch.2.toNat).sum = (sum - n).toNat := by omega
      obtain ⟨u, hu, hall⟩ := ih (c.notify t n) hrest hothers
      obtain ⟨v, hv, hmerge⟩ := c.notify_notify t u (n := n) (m := sum - n) (by omega)
      refine ⟨v, ?_, ?_⟩
      · rcases hv with rfl | rfl
        · exact List.mem_cons_self
        · exact List.mem_cons_of_mem _ hu
      · show (c.notify t n).notifyAll rest = _
        rw [hall, hmerge, UInt32.add_comm, UInt32.sub_add_cancel]

/-- When rows are notified does not matter but for the time of the end. -/
theorem agrees_notify (c : Countdown) (t u : Nat) (count : UInt32) :
    (c.notify t count).Agrees [t, u] (c.notify u count) := by
  by_cases h0 : count = 0
  · rw [h0, notify_zero, notify_zero]
    exact .refl _ c
  simp only [notify_eq, if_neg h0]
  by_cases hcross : c.pending.toInt ≤ count.toNat
  · rw [if_pos hcross, if_pos hcross]
    refine ⟨rfl, rfl, rfl, rfl, rfl, fun hclock => ?_⟩
    simp only [List.mem_cons, List.not_mem_nil, or_false, not_or] at hclock
    have hset (now : Nat) (hnow : UInt64.size - 1 ≠ now) : (Stopwatch.reading now != 0) = true :=
      bne_iff_ne.2 fun h => hnow (Stopwatch.reading_eq_zero_iff.1 h).symm
    exact (hset t hclock.1).trans (hset u hclock.2).symm
  · rw [if_neg hcross, if_neg hcross]
    exact .refl _ _

/-- Batches leave what one notification of all their rows leaves. -/
theorem notifyAll_agrees_notify (c : Countdown) {batches : List (Nat × UInt32)} {sum : UInt32}
    (hsum : (batches.map fun batch => batch.2.toNat).sum = sum.toNat) (now : Nat) :
    (c.notifyAll batches).Agrees (now :: batches.map Prod.fst) (c.notify now sum) := by
  by_cases hne : batches = []
  · subst hne
    obtain rfl : 0 = sum := UInt32.toNat_inj.1 hsum
    rw [notify_zero]
    exact .refl _ c
  · obtain ⟨t, ht, hall⟩ := c.exists_notifyAll_eq hne hsum
    rw [hall]
    refine (c.agrees_notify t now sum).mono fun u hu => ?_
    rcases List.mem_pair.1 hu with rfl | rfl
    · exact List.mem_cons_of_mem _ ht
    · exact List.mem_cons_self

/-- **Batches do not matter.**  Take any state of a countdown and any batches of rows whose sum is a
32-bit count, whatever the clock shows to each.  They leave what one notification of the sum
leaves, and are one, made at the time of one of them.  So do as many notifications of single
rows, and so do the same batches in any other order. -/
theorem notifyAll_agrees (c : Countdown) {batches : List (Nat × UInt32)} {sum : UInt32}
    (hsum : (batches.map fun batch => batch.2.toNat).sum = sum.toNat) :
    (∀ now, (c.notifyAll batches).Agrees (now :: batches.map Prod.fst) (c.notify now sum)) ∧
    (batches ≠ [] → ∃ t ∈ batches.map Prod.fst, c.notifyAll batches = c.notify t sum) ∧
    (∀ times : List Nat, times.length = sum.toNat →
      ∀ now, (c.notifyAll (times.map (·, 1))).Agrees (now :: times) (c.notify now sum)) ∧
    ∀ others : List (Nat × UInt32), (others.map Prod.snd).Perm (batches.map Prod.snd) →
      (c.notifyAll others).Agrees (others.map Prod.fst ++ batches.map Prod.fst)
        (c.notifyAll batches) := by
  refine ⟨c.notifyAll_agrees_notify hsum, fun hne => c.exists_notifyAll_eq hne hsum,
    fun times htimes now => ?_, fun others hperm => ?_⟩
  · have hsingles : ((times.map (·, (1 : UInt32))).map fun batch => batch.2.toNat).sum
        = sum.toNat := by
      simpa [Function.comp_def] using htimes
    simpa [Function.comp_def] using c.notifyAll_agrees_notify hsingles now
  · have hother : (others.map fun batch => batch.2.toNat).sum = sum.toNat := by
      have hcounts := (hperm.map UInt32.toNat).sum_eq
      simp only [List.map_map, Function.comp_def] at hcounts
      exact hcounts.trans hsum
    by_cases hne : batches = []
    · subst hne
      obtain rfl : others = [] := List.map_eq_nil_iff.1 hperm.eq_nil
      exact .refl _ c
    · -- both are single notifications of the sum
      have hne' : others ≠ [] := by
        rintro rfl
        exact hne (List.map_eq_nil_iff.1 hperm.symm.eq_nil)
      obtain ⟨t, ht, hall⟩ := c.exists_notifyAll_eq hne hsum
      obtain ⟨u, hu, hall'⟩ := c.exists_notifyAll_eq hne' hother
      rw [hall, hall']
      refine (c.agrees_notify u t sum).mono fun v hv => ?_
      rcases List.mem_pair.1 hv with rfl | rfl
      · exact List.mem_append_left _ hu
      · exact List.mem_append_right _ ht

/-- A counter next to the least word wraps at the first of three batches; the latch, whose release
some earlier notification has taken on itself, stays closed. -/
theorem notifyAll_agrees_wrapped :
    let c : Countdown := { pending := Int64.minValue + 1, claimed := true }
    let batches : List (Nat × UInt32) := [(3, 2), (4, 0), (5, 7)]
    (batches.map fun batch => batch.2.toNat).sum = (9 : UInt32).toNat ∧
      (c.notifyAll batches).Agrees [8, 3, 4, 5] (c.notify 8 9) ∧
      (c.notifyAll batches).pending = Int64.maxValue - 7 := by
  intro c batches
  have hsum : (batches.map fun batch => batch.2.toNat).sum = (9 : UInt32).toNat := by decide
  have hagrees := (notifyAll_agrees c hsum).1 8
  exact ⟨hsum, hagrees, hagrees.pending.trans (by decide +kernel)⟩

end Countdown

end BenchLoop
