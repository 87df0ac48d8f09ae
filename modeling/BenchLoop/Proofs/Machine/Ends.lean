/-
BenchLoop/Proofs/Machine/Ends.lean

What is certain of a program of the coordinator under every schedule.

    Run.Ends P p Q

says that `p`, begun in a world and target with `P`, comes to its end, and that its
result and the world and target it leaves satisfy `Q`.  The schedule is not mentioned:
`P` and `Q` speak of what is there between two steps of the coordinator, and since the
threads take any number of turns in between, what is known must survive a turn
(`Stable`).  There is one rule for each way to build a program; `Ends.waitUntil` is the
only one that asks for more than stability, since it has to end the wait.
-/
import BenchLoop.Machine.Session
import BenchLoop.Proofs.Machine.Settling

namespace BenchLoop

variable {σ α β : Type}

/-- Turns of threads preserve what is known. -/
def Stable (P : World → σ → Prop) : Prop :=
  ∀ w target t, P w target → P (w.turn t) target

theorem Stable.burst {P : World → σ → Prop} (hP : Stable P) {w : World} {target : σ}
    (h : P w target) (turns : List Turn) : P (w.burst turns) target := by
  unfold World.burst
  induction turns generalizing w with
  | nil => exact h
  | cons t turns ih => exact ih (hP w target t h)

theorem Stable.interleave {P : World → σ → Prop} (hP : Stable P) {s : Session σ}
    (h : P s.world s.target) : P s.interleave.world s.interleave.target := by
  obtain ⟨world, schedule, target⟩ := s
  cases schedule with
  | nil => exact h
  | cons burst schedule => exact hP.burst h burst

/-- Threads do not touch what the target keeps for itself. -/
theorem Session.target_interleave (s : Session σ) : s.interleave.target = s.target := by
  obtain ⟨world, schedule, target⟩ := s
  cases schedule <;> rfl

theorem Session.step_snd (f : World → α × World) (s : Session σ) :
    (s.step f).2.world = (f s.interleave.world).2 ∧
      (s.step f).2.target = s.interleave.target := by
  unfold Session.step
  split
  rename_i h
  rw [h]
  exact ⟨rfl, rfl⟩

/-! ### What lasts -/

/-- A relation of a world to a later one that no turn of a thread and no step of the coordinator
breaks. -/
structure World.Lasting (R : World → World → Prop) : Prop where
  refl (w : World) : R w w
  trans {w w' w'' : World} : R w w' → R w' w'' → R w w''
  turn (w : World) (t : Turn) : R w (w.turn t)
  exec (w : World) (s : Step) : R w (w.exec .coordinator s).2

namespace World.Lasting

variable {R : World → World → Prop}

theorem burst (h : Lasting R) (w : World) (turns : List Turn) : R w (w.burst turns) := by
  unfold World.burst
  induction turns generalizing w with
  | nil => exact h.refl w
  | cons t turns ih => exact h.trans (h.turn w t) (ih (w.turn t))

theorem interleave (h : Lasting R) (s : Session σ) : R s.world s.interleave.world := by
  obtain ⟨world, schedule, target⟩ := s
  cases schedule with
  | nil => exact h.refl world
  | cons burst schedule => exact h.burst world burst

theorem perform (h : Lasting R) (s : Session σ) (steps : List Step) :
    R s.world (s.perform steps).world ∧ (s.perform steps).target = s.target := by
  induction s, steps using Session.perform.induct with
  | case1 s =>
    rw [Session.perform]
    exact ⟨h.refl s.world, rfl⟩
  | case2 s step rest taken ih =>
    rw [Session.perform]
    simp only [taken, (Session.step_snd _ s).1, (Session.step_snd _ s).2] at ih
    exact ⟨h.trans (h.trans (h.interleave s) (h.exec _ step)) ih.1,
      ih.2.trans s.target_interleave⟩

/-- A wait lets bursts of turns pass, and settles all threads once the schedule is used up. -/
theorem waitUntil (h : Lasting R) {cond : World → Bool} {s s' : Session σ}
    (hwait : s.waitUntil cond = some s') : R s.world s'.world ∧ s'.target = s.target := by
  induction s using Session.waitUntil.induct (p := cond) with
  | case1 world target hc =>
    obtain rfl : ⟨world, [], target⟩ = s' := by simpa [Session.waitUntil, hc] using hwait
    exact ⟨h.refl world, rfl⟩
  | case2 world target hc settled hc' =>
    obtain rfl : ⟨settled, [], target⟩ = s' := by
      simpa [Session.waitUntil, hc, hc', settled] using hwait
    exact ⟨h.burst world _, rfl⟩
  | case3 world target hc settled hc' => simp_all [Session.waitUntil, settled]
  | case4 world burst schedule target after hc =>
    obtain rfl : ⟨after, schedule, target⟩ = s' := by
      simpa [Session.waitUntil, hc, after] using hwait
    exact ⟨h.burst world burst, rfl⟩
  | case5 world burst schedule target after hc ih =>
    obtain ⟨hworld, htarget⟩ := ih (by simpa [Session.waitUntil, hc, after] using hwait)
    exact ⟨h.trans (h.burst world burst) hworld, htarget⟩

end World.Lasting

namespace Run

theorem bind_apply (p : Run σ α) (f : α → Run σ β) (s : Session σ) :
    (p >>= f) s = match p s with
      | .ok a s' => f a s'
      | .error e s' => .error e s' := by
  show EStateM.bind p f s = _
  unfold EStateM.bind
  cases p s <;> rfl

/-- Under every schedule the program ends, with `Q` if it was begun with `P`. -/
def Ends (P : World → σ → Prop) (p : Run σ α) (Q : α → World → σ → Prop) : Prop :=
  ∀ s, P s.world s.target → ∃ a s', p s = .ok a s' ∧ Q a s'.world s'.target

namespace Ends

variable {P P' : World → σ → Prop} {Q Q' : α → World → σ → Prop} {R : β → World → σ → Prop}
variable {p : Run σ α} {f : α → Run σ β}

theorem mono (h : Ends P p Q) (hP : ∀ w target, P' w target → P w target)
    (hQ : ∀ a w target, Q a w target → Q' a w target) : Ends P' p Q' := by
  intro s hs
  obtain ⟨a, s', hrun, hpost⟩ := h s (hP _ _ hs)
  exact ⟨a, s', hrun, hQ _ _ _ hpost⟩

theorem post (h : Ends P p Q) (hQ : ∀ a w target, Q a w target → Q' a w target) : Ends P p Q' :=
  h.mono (fun _ _ h => h) hQ

theorem pre (h : Ends P p Q) (hP : ∀ w target, P' w target → P w target) : Ends P' p Q :=
  h.mono hP fun _ _ _ h => h

/-- Runs are the same whatever is known of them. -/
theorem and (h : Ends P p Q) (h' : Ends P' p Q') :
    Ends (fun w target => P w target ∧ P' w target) p
      (fun a w target => Q a w target ∧ Q' a w target) := by
  intro s hs
  obtain ⟨a, s', hrun, hpost⟩ := h s hs.1
  obtain ⟨a', s'', hrun', hpost'⟩ := h' s hs.2
  rw [hrun] at hrun'
  cases hrun'
  exact ⟨a, s', hrun, hpost, hpost'⟩

theorem ex {ι : Type} {P : ι → World → σ → Prop} (h : ∀ i, Ends (P i) p Q) :
    Ends (fun w target => ∃ i, P i w target) p Q := by
  rintro s ⟨i, hi⟩
  exact h i s hi

theorem of_eq (h : Ends P p Q) {s s' : Session σ} {a : α} (hs : P s.world s.target)
    (hrun : p s = .ok a s') : Q a s'.world s'.target := by
  obtain ⟨a', s'', hrun', hpost⟩ := h s hs
  rw [hrun] at hrun'
  cases hrun'
  exact hpost

/-- A fact that does not speak of the state. -/
theorem lift {φ : Prop} (h : φ → Ends P p Q) : Ends (fun w target => φ ∧ P w target) p Q := by
  rintro s ⟨hφ, hs⟩
  exact h hφ s hs

protected theorem pure {a : α} (h : ∀ w target, P w target → Q a w target) :
    Ends P (pure a) Q :=
  fun s hs => ⟨a, s, rfl, h _ _ hs⟩

protected theorem bind (hp : Ends P p Q) (hf : ∀ a, Ends (Q a) (f a) R) :
    Ends P (p >>= f) R := by
  intro s hs
  obtain ⟨a, s', hrun, hpost⟩ := hp s hs
  obtain ⟨b, s'', hrun', hpost'⟩ := hf a s' hpost
  refine ⟨b, s'', ?_, hpost'⟩
  show EStateM.bind p f s = _
  simp only [EStateM.bind, hrun, hrun']

theorem get_bind {g : Session σ → Run σ β}
    (h : ∀ s : Session σ, P s.world s.target →
      Ends (fun w target => w = s.world ∧ target = s.target) (g s) R) :
    Ends P (get >>= g) R :=
  fun s hs => h s hs s ⟨rfl, rfl⟩

protected theorem modify {g : Session σ → Session σ} {Q : Unit → World → σ → Prop}
    (h : ∀ s, P s.world s.target → Q () (g s).world (g s).target) : Ends P (modify g) Q :=
  fun s hs => ⟨(), g s, rfl, h s hs⟩

protected theorem step {g : World → α × World} (hP : Stable P)
    (h : ∀ w target, P w target → Q (g w).1 (g w).2 target) : Ends P (Run.step g) Q := by
  intro s hs
  refine ⟨(s.step g).1, (s.step g).2, rfl, ?_⟩
  rw [Session.step_fst, (Session.step_snd g s).1, (Session.step_snd g s).2]
  exact h _ _ (hP.interleave hs)

protected theorem look {g : World → α} (hP : Stable P)
    (h : ∀ w target, P w target → Q (g w) w target) : Ends P (Run.look g) Q :=
  Ends.step hP h

protected theorem note {event : Event} {Q : Unit → World → σ → Prop} (hP : Stable P)
    (h : ∀ w target, P w target → Q () (w.note .coordinator event) target) :
    Ends P (Run.note event) Q :=
  Ends.step hP h

protected theorem log {level : LogLevel} {message : String} {Q : Unit → World → σ → Prop}
    (hP : Stable P)
    (h : ∀ w target, P w target → Q () (w.note .coordinator (.logged level message)) target) :
    Ends P (Run.log level message) Q :=
  Ends.note hP h

protected theorem spawn {name : String} {todo : List Step} {Q : ThreadId → World → σ → Prop}
    (hP : Stable P)
    (h : ∀ w target, P w target → Q (w.spawn name todo).1 (w.spawn name todo).2 target) :
    Ends P (Run.spawn name todo) Q :=
  Ends.step hP h

/-- Steps that the coordinator takes itself, `J` being what is known while it has still to
take some of them. -/
protected theorem perform {J : List Step → World → σ → Prop} (hJ : ∀ own, Stable (J own))
    (h : ∀ step rest w target, J (step :: rest) w target →
      J ((w.exec .coordinator step).1.toList ++ rest) (w.exec .coordinator step).2 target)
    (steps : List Step) : Ends (J steps) (Run.perform steps) fun _ => J [] := by
  intro s hs
  refine ⟨(), s.perform steps, rfl, ?_⟩
  show J [] (s.perform steps).world (s.perform steps).target
  induction s, steps using Session.perform.induct with
  | case1 s =>
    rw [Session.perform]
    exact hs
  | case2 s step rest taken ih =>
    rw [Session.perform]
    refine ih ?_
    have hnext := h step rest _ _ ((hJ _).interleave hs)
    simp only [taken, Session.step_fst]
    rw [(Session.step_snd _ s).1, (Session.step_snd _ s).2]
    exact hnext

/-- A step of the coordinator that leads to no other, and those after it. -/
theorem perform_cons {step : Step} {rest : List Step} {Q : Unit → World → σ → Prop}
    (P' : World → σ → Prop) (hP : Stable P)
    (h : ∀ w target, P w target → (w.exec .coordinator step).1 = none ∧
      P' (w.exec .coordinator step).2 target)
    (hrest : Ends P' (Run.perform rest) Q) : Ends P (Run.perform (step :: rest)) Q := by
  intro s hs
  obtain ⟨hnone, hpost⟩ := h _ _ (hP.interleave hs)
  obtain ⟨u, s', hrun, hq⟩ := hrest (s.step fun w => w.exec .coordinator step).2 (by
    rw [(Session.step_snd _ s).1, (Session.step_snd _ s).2]
    exact hpost)
  refine ⟨u, s', ?_, hq⟩
  rw [← hrun]
  show EStateM.Result.ok () (s.perform (step :: rest)) = _
  rw [Session.perform, Session.step_fst, hnone]
  rfl

/-- A wait ends if its condition holds once no thread has anything left to do. -/
protected theorem waitUntil {cond : World → Bool} (hP : Stable P)
    (hend : ∀ w target, P w target → (∀ i, w.isIdle i = true) → cond w = true) :
    Ends P (Run.waitUntil cond) fun _ w target => P w target ∧ cond w = true := by
  intro s hs
  have hwait : ∃ s', s.waitUntil cond = some s' ∧ P s'.world s'.target ∧ cond s'.world = true := by
    induction s using Session.waitUntil.induct (p := cond) with
    | case1 world target hc => exact ⟨_, by simp [Session.waitUntil, hc], hs, hc⟩
    | case2 world target hc settled hc' =>
      exact ⟨⟨settled, [], target⟩, by simp_all [Session.waitUntil, settled], hP.burst hs _, hc'⟩
    | case3 world target hc settled hc' =>
      exact absurd (hend _ _ (hP.burst hs _) world.isIdle_settle) hc'
    | case4 world burst schedule target after hc =>
      exact ⟨⟨after, schedule, target⟩, by simp_all [Session.waitUntil, after], hP.burst hs _, hc⟩
    | case5 world burst schedule target after hc ih =>
      obtain ⟨s', hrun, hpost⟩ := ih (hP.burst hs _)
      exact ⟨s', by simpa [Session.waitUntil, hc, after] using hrun, hpost⟩
  obtain ⟨s', hrun, hpost⟩ := hwait
  exact ⟨(), s', by simp [Run.waitUntil, hrun], hpost⟩

end Ends

/-- The result of a program and the session that it leaves, if it comes to its end. -/
def ending? (p : Run σ α) (s : Session σ) : Option (α × Session σ) :=
  EStateM.run' (do return (← p, ← get)) s

theorem ending?_eq_some_iff {p : Run σ α} {s s' : Session σ} {a : α} :
    p.ending? s = some (a, s') ↔ p s = .ok a s' := by
  have hbind : (do return (← p, ← get) : Run σ (α × Session σ)) s
      = EStateM.bind p (fun a => do return (a, ← get)) s := rfl
  unfold ending? EStateM.run' EStateM.run
  rw [hbind]
  cases hp : p s with
  | ok a' s'' =>
    simp only [EStateM.bind, hp]
    constructor
    · intro h
      cases h
      rfl
    · intro h
      cases h
      rfl
  | error e s'' => simp [EStateM.bind, hp]

end Run

end BenchLoop
