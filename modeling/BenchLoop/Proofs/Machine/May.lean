/-
BenchLoop/Proofs/Machine/May.lean

What can happen to a program of the coordinator.

    Run.May P p Q

says that some schedule takes `p` from `P` to its end with `Q`, and is used up by then.
`Run.Ends` is about all schedules; here one is composed as the program goes along.  The
coordinator may take a step with no turn before it (`May.step`, `May.perform`), and while
it waits the threads take whatever turns end the wait (`May.waitUntil`).

What holds under every schedule holds under this one as well: `May.and_ends`.
-/
import BenchLoop.Proofs.Machine.Ends

namespace BenchLoop

variable {σ α β : Type}

namespace Run

/-- Some schedule takes the program from `P` to `Q`, whatever is left of it behind that. -/
def May (P : World → σ → Prop) (p : Run σ α) (Q : α → World → σ → Prop) : Prop :=
  ∀ w target, P w target → ∃ schedule a w' target',
    (∀ behind, p ⟨w, schedule ++ behind, target⟩ = .ok a ⟨w', behind, target'⟩) ∧ Q a w' target'

namespace May

variable {P P' : World → σ → Prop} {Q Q' : α → World → σ → Prop} {R : β → World → σ → Prop}
variable {p : Run σ α} {f : α → Run σ β}

theorem mono (h : May P p Q) (hP : ∀ w target, P' w target → P w target)
    (hQ : ∀ a w target, Q a w target → Q' a w target) : May P' p Q' := by
  intro w target hw
  obtain ⟨schedule, a, w', target', hrun, hpost⟩ := h w target (hP _ _ hw)
  exact ⟨schedule, a, w', target', hrun, hQ _ _ _ hpost⟩

theorem and_ends (h : May P p Q) (h' : Ends P' p Q') :
    May (fun w target => P w target ∧ P' w target) p
      (fun a w target => Q a w target ∧ Q' a w target) := by
  intro w target hw
  obtain ⟨schedule, a, w', target', hrun, hpost⟩ := h w target hw.1
  exact ⟨schedule, a, w', target', hrun, hpost, h'.of_eq hw.2 (hrun [])⟩

/-- A fact that does not speak of the state. -/
theorem lift {φ : Prop} (h : φ → May P p Q) : May (fun w target => φ ∧ P w target) p Q := by
  rintro w target ⟨hφ, hw⟩
  exact h hφ w target hw

protected theorem pure {a : α} (h : ∀ w target, P w target → Q a w target) :
    May P (pure a) Q :=
  fun w target hw => ⟨[], a, w, target, fun _ => rfl, h _ _ hw⟩

protected theorem bind (hp : May P p Q) (hf : ∀ a, May (Q a) (f a) R) : May P (p >>= f) R := by
  intro w target hw
  obtain ⟨schedule, a, w', target', hrun, hpost⟩ := hp w target hw
  obtain ⟨schedule', b, w'', target'', hrun', hpost'⟩ := hf a w' target' hpost
  refine ⟨schedule ++ schedule', b, w'', target'', fun behind => ?_, hpost'⟩
  show EStateM.bind p f _ = _
  rw [List.append_assoc]
  simp only [EStateM.bind, hrun, hrun']

/-- A step before which no thread takes a turn. -/
protected theorem step {g : World → α × World}
    (h : ∀ w target, P w target → Q (g w).1 (g w).2 target) : May P (Run.step g) Q :=
  fun w target hw => ⟨[[]], (g w).1, (g w).2, target, fun _ => rfl, h _ _ hw⟩

/-- Steps that the coordinator takes itself, one right after the other. -/
protected theorem perform {J : List Step → World → σ → Prop}
    (h : ∀ step rest w target, J (step :: rest) w target →
      J ((w.exec .coordinator step).1.toList ++ rest) (w.exec .coordinator step).2 target)
    (steps : List Step) : May (J steps) (Run.perform steps) fun _ => J [] := by
  intro w target hw
  suffices ∃ schedule w', (∀ behind, Session.perform ⟨w, schedule ++ behind, target⟩ steps
      = ⟨w', behind, target⟩) ∧ J [] w' target by
    obtain ⟨schedule, w', hrun, hw'⟩ := this
    exact ⟨schedule, (), w', target, fun behind => by rw [Run.perform, hrun], hw'⟩
  -- each step weighs more than those that it leads to
  induction hweight : Step.totalWeight steps using Nat.strong_induction_on
    generalizing w steps with
  | _ n ih =>
    cases steps with
    | nil => exact ⟨[], w, fun _ => by rw [Session.perform, List.nil_append], hw⟩
    | cons step rest =>
      have hlt := w.exec_weight .coordinator step
      obtain ⟨schedule, w', hrun, hw'⟩ := ih _ (by
        rw [← hweight, Step.totalWeight_append, Step.totalWeight]
        omega) _ _ (h step rest w target hw) rfl
      refine ⟨[] :: schedule, w', fun behind => ?_, hw'⟩
      rw [List.cons_append, Session.perform]
      exact hrun behind

/-- A wait that some turns bring to its end. -/
protected theorem waitUntil {cond : World → Bool} {Q : Unit → World → σ → Prop}
    (h : ∀ w target, P w target →
      ∃ turns, cond (w.burst turns) = true ∧ Q () (w.burst turns) target) :
    May P (Run.waitUntil cond) Q := by
  intro w target hw
  obtain ⟨turns, hcond, hpost⟩ := h w target hw
  refine ⟨[turns], (), w.burst turns, target, fun behind => ?_, hpost⟩
  rw [Run.waitUntil, List.singleton_append, Session.waitUntil, if_pos hcond]

end May

end Run

end BenchLoop
