/-
BenchLoop/Proofs/Machine/Settling.lean

Left to themselves the threads come to their ends.  A turn of a thread makes the steps
ahead of it weigh less and leaves those of every other thread alone, so the turns of
`World.settle` are enough for each of them (`isIdle_settle`).
-/
import BenchLoop.Proofs.Machine.InFlight

namespace BenchLoop

theorem Step.weight_pos (s : Step) : 0 < s.weight := by
  unfold weight
  split
  · exact Countdown.weight_pos _
  · exact Nat.one_pos

theorem Step.eq_nil_of_totalWeight_eq_zero {steps : List Step} (h : totalWeight steps = 0) :
    steps = [] := by
  cases steps with
  | nil => rfl
  | cons s steps =>
    have := s.weight_pos
    simp only [totalWeight] at h
    omega

namespace World

theorem remaining_turn_of_ne {w : World} {t : Turn} {j : ThreadId} (h : t ≠ .thread j) :
    (w.turn t).remaining j = w.remaining j := by
  obtain ⟨n, ht⟩ | ⟨i, s, rest, rfl, -, ht⟩ := turn_cases w t
  · rw [ht]
    rfl
  · have hne : i ≠ j := fun hij => h (by rw [hij])
    rw [ht]
    simp [remaining, Array.getElem?_modify, hne]

theorem remaining_turn_of_nil {w : World} {t : Turn} {j : ThreadId} (h : w.remaining j = []) :
    (w.turn t).remaining j = [] := by
  by_cases ht : t = .thread j
  · subst ht
    simp [turn, h]
  · rw [remaining_turn_of_ne ht, h]

/-- A turn of a thread takes at least one from the weight of what it has ahead. -/
theorem totalWeight_turn (w : World) (i : ThreadId) :
    Step.totalWeight ((w.turn (.thread i)).remaining i)
      ≤ Step.totalWeight (w.remaining i) - 1 := by
  cases h : w.remaining i with
  | nil => simp [remaining_turn_of_nil h, Step.totalWeight]
  | cons s rest =>
    cases hs : s.isCrash with
    | true =>
      obtain ⟨task, action⟩ := s
      -- a panic leaves nothing of what the thread had ahead
      have hnil : (w.turn (.thread i)).remaining i = [] := by
        have hi := lt_size_of_remaining h
        cases action with
        | crash payload =>
          simp only [turn, h, exec_threads]
          simp [remaining, Array.getElem?_modify, Array.getElem?_eq_getElem hi, Thread.proceed,
            Thread.remaining]
        | _ => simp [Step.isCrash] at hs
      rw [hnil]
      exact Nat.zero_le _
    | false =>
      have hlt := w.exec_weight (.thread i) s
      rw [remaining_turn h hs i, if_pos rfl, Step.totalWeight_append]
      simp only [Step.totalWeight]
      omega

theorem remaining_burst_of_nil {w : World} {j : ThreadId} (h : w.remaining j = [])
    (turns : List Turn) : (w.burst turns).remaining j = [] := by
  unfold burst
  induction turns generalizing w with
  | nil => exact h
  | cons t turns ih => exact ih (remaining_turn_of_nil h)

theorem remaining_burst_replicate_of_ne {w : World} {i j : ThreadId} (h : j ≠ i) (n : Nat) :
    (w.burst (List.replicate n (.thread i))).remaining j = w.remaining j := by
  unfold burst
  induction n generalizing w with
  | zero => rfl
  | succ n ih =>
    rw [List.replicate_succ, List.foldl_cons, ih]
    exact remaining_turn_of_ne fun he => h (Turn.thread.inj he).symm

theorem remaining_burst_replicate {w : World} {i : ThreadId} {n : Nat}
    (h : Step.totalWeight (w.remaining i) ≤ n) :
    (w.burst (List.replicate n (.thread i))).remaining i = [] := by
  unfold burst
  induction n generalizing w with
  | zero => exact Step.eq_nil_of_totalWeight_eq_zero (Nat.le_zero.1 h)
  | succ n ih =>
    have := w.totalWeight_turn i
    rw [List.replicate_succ, List.foldl_cons]
    exact ih (by omega)

theorem burst_append (w : World) (turns more : List Turn) :
    w.burst (turns ++ more) = (w.burst turns).burst more :=
  List.foldl_append

/-- Threads that get turns enough, one after the other, have nothing left to do. -/
theorem remaining_burst_flatMap {n : ThreadId → Nat} {is : List ThreadId} {w : World}
    (h : ∀ i ∈ is, Step.totalWeight (w.remaining i) ≤ n i) {i : ThreadId} (hi : i ∈ is) :
    (w.burst (is.flatMap fun i => List.replicate (n i) (.thread i))).remaining i = [] := by
  induction is generalizing w with
  | nil => cases hi
  | cons k is ih =>
    rw [List.flatMap_cons, burst_append]
    have hk := remaining_burst_replicate (h k List.mem_cons_self)
    -- once it has come to its end no turn of the others gives a thread anything to do
    by_cases hik : i = k
    · subst hik
      exact remaining_burst_of_nil hk _
    · refine ih (fun j hj => ?_) ((List.mem_cons.1 hi).resolve_left hik)
      by_cases hjk : j = k
      · subst hjk
        rw [hk]
        exact Nat.zero_le _
      · rw [remaining_burst_replicate_of_ne hjk]
        exact h j (List.mem_cons_of_mem k hj)

theorem remaining_burst_flatMap_of_notMem {n : ThreadId → Nat} {is : List ThreadId} {w : World}
    {j : ThreadId} (hj : j ∉ is) :
    (w.burst (is.flatMap fun i => List.replicate (n i) (.thread i))).remaining j
      = w.remaining j := by
  induction is generalizing w with
  | nil => rfl
  | cons k is ih =>
    rw [List.flatMap_cons, burst_append, ih (List.not_mem_of_not_mem_cons hj)]
    exact remaining_burst_replicate_of_ne (List.ne_of_not_mem_cons hj) _

/-- All threads but one can come to their ends while that one takes no step. -/
theorem exists_burst_settling_others (w : World) (j : ThreadId) :
    ∃ turns, (w.burst turns).remaining j = w.remaining j ∧
      ∀ i, i ≠ j → (w.burst turns).remaining i = [] := by
  let others := (List.range w.threads.size).filter (· ≠ j)
  have hothers (i : ThreadId) : i ∈ others ↔ i < w.threads.size ∧ i ≠ j := by simp [others]
  refine ⟨others.flatMap fun i => List.replicate (Step.totalWeight (w.remaining i)) (.thread i),
    remaining_burst_flatMap_of_notMem fun h => ((hothers j).1 h).2 rfl, fun i hi => ?_⟩
  by_cases hsize : i < w.threads.size
  · exact remaining_burst_flatMap (fun _ _ => le_refl _) ((hothers i).2 ⟨hsize, hi⟩)
  · exact remaining_burst_of_nil (remaining_of_size_le (Nat.le_of_not_lt hsize)) _

/-- Once the threads have settled none has anything left to do. -/
theorem isIdle_settle (w : World) (i : ThreadId) : w.settle.isIdle i = true := by
  rw [isIdle, List.isEmpty_iff, settle, settlingTurns]
  by_cases hi : i < w.threads.size
  · refine remaining_burst_flatMap (fun j hj => ?_) (List.mem_range.2 hi)
    have hj := List.mem_range.1 hj
    rw [remaining_of_getElem? (Array.getElem?_eq_getElem hj), Array.getElem?_eq_getElem hj]
    exact le_refl _
  · exact remaining_burst_of_nil (remaining_of_size_le (Nat.le_of_not_lt hi)) _

end World

end BenchLoop
