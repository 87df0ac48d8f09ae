/-
BenchLoop/Proofs/Machine/Regime.lean

Invariants of an iteration, and how to get one.  While tasks are built and at work the
coordinator takes steps of its own, hands steps to threads and writes to the journal,
and threads take turns in between.  An invariant has to survive all of it; what is left
to show about a loop is then that it does nothing else.

* `Regime` is an invariant with the reasons why it survives.  It knows which duties have
  still to be handed out (`rest`) and which steps the coordinator has still to take itself
  (`own`), and says which steps the task for a duty may bring along (`admits`).
* `Balance` is an invariant of the shared state and the multiset of all steps in flight,
  the coordinator's among them.  One step of one actor, whoever it is, is all that has to
  be checked of it: `Balance.regime`.  A `Ledger` is a balance that concerns one countdown
  only.
* `Line` is a law that the steps of each single thread obey, in order: `Line.regime`.
* `Regime.both` joins two regimes.
-/
import BenchLoop.Proofs.Completion.Tally
import BenchLoop.Proofs.Machine.Ends

namespace BenchLoop

open CountdownAction

variable {id : ContextId}

/-- A range with the number of the task that is to be built for it. -/
abbrev Duty := RowRange × TaskId

/-- An invariant of an iteration. -/
structure Regime where
  inv : (rest : Multiset Duty) → (own : List Step) → World → Prop
  /-- The steps that the task for a duty may bring along. -/
  admits : Duty → List Step → Prop
  calm {rest own w} : inv rest own w → ∀ s ∈ w.inFlight, s.isCrash = false
  turn {rest own w} : inv rest own w → ∀ t, inv rest own (w.turn t)
  exec {rest s own w} : inv rest (s :: own) w →
    inv rest ((w.exec .coordinator s).1.toList ++ own) (w.exec .coordinator s).2
  /-- The coordinator sets out to do the work of a task itself. -/
  take {d rest steps w} : admits d steps → inv (d ::ₘ rest) [] w → inv rest steps w
  spawn {d rest steps w} : admits d steps → inv (d ::ₘ rest) [] w →
    ∀ name, inv rest [] (w.spawn name steps).2
  enqueue {d rest steps w} : admits d steps → inv (d ::ₘ rest) [] w →
    ∀ i < w.threads.size, inv rest [] (w.enqueue i steps)
  /-- A thread may be started that has nothing to do yet. -/
  hire {rest own w} : inv rest own w → ∀ name, inv rest own (w.spawn name []).2
  note {rest own w} : inv rest own w → ∀ event, event.isStep = false →
    inv rest own (w.note .coordinator event)
  /-- Nothing depends on the number of tasks. -/
  frame {rest own w} : inv rest own w → ∀ tasks, inv rest own { w with tasks }

namespace Regime

/-- Nothing depends on what is stored. -/
def Storeless (r : Regime) : Prop :=
  ∀ rest own w, r.inv rest own w → ∀ stores, r.inv rest own { w with stores }

/-- Both of two regimes. -/
def both (r r' : Regime) : Regime where
  inv rest own w := r.inv rest own w ∧ r'.inv rest own w
  admits d steps := r.admits d steps ∧ r'.admits d steps
  calm h := r.calm h.1
  turn h t := ⟨r.turn h.1 t, r'.turn h.2 t⟩
  exec h := ⟨r.exec h.1, r'.exec h.2⟩
  take ha h := ⟨r.take ha.1 h.1, r'.take ha.2 h.2⟩
  spawn ha h name := ⟨r.spawn ha.1 h.1 name, r'.spawn ha.2 h.2 name⟩
  enqueue ha h i hi := ⟨r.enqueue ha.1 h.1 i hi, r'.enqueue ha.2 h.2 i hi⟩
  hire h name := ⟨r.hire h.1 name, r'.hire h.2 name⟩
  note h event he := ⟨r.note h.1 event he, r'.note h.2 event he⟩
  frame h tasks := ⟨r.frame h.1 tasks, r'.frame h.2 tasks⟩

theorem Storeless.both {r r' : Regime} (h : r.Storeless) (h' : r'.Storeless) :
    (r.both r').Storeless :=
  fun rest own w hw stores => ⟨h rest own w hw.1 stores, h' rest own w hw.2 stores⟩

theorem stable {σ : Type} (r : Regime) (rest : Multiset Duty) (own : List Step) :
    Stable fun w (_ : σ) => r.inv rest own w :=
  fun _ _ t h => r.turn h t

/-- The coordinator can take the steps itself that it has set out to take. -/
theorem ends_perform {σ : Type} (r : Regime) (rest : Multiset Duty) (steps : List Step) :
    Run.Ends (fun w (_ : σ) => r.inv rest steps w) (Run.perform steps)
      fun _ w _ => r.inv rest [] w := by
  let J (own : List Step) (w : World) (_ : σ) : Prop := r.inv rest own w
  exact Run.Ends.perform (J := J) (r.stable rest) (fun _ _ _ _ h => r.exec h) steps

theorem burst (r : Regime) {rest : Multiset Duty} {own : List Step} {w : World}
    (h : r.inv rest own w) (turns : List Turn) : r.inv rest own (w.burst turns) :=
  @Stable.burst Unit _ (r.stable rest own) w () h turns

end Regime

/-! ### Invariants of all steps in flight -/

/-- An invariant of the shared state and of the steps in flight, whichever actor holds which of
them.  What has still to be handed out is told by `rest`. -/
structure Balance (ρ : Type) where
  holds : (rest : ρ) → World → (pool : Multiset Step) → Prop
  sound {rest w pool} : holds rest w pool → ∀ s ∈ pool, s.isCrash = false
  later {rest w pool} : holds rest w pool → ∀ nanos,
    holds rest { w with now := w.now + nanos } pool
  note {rest w pool} : holds rest w pool → ∀ event, event.isStep = false →
    holds rest (w.note .coordinator event) pool
  exec {rest w pool actor s} : holds rest w (s ::ₘ pool) →
    holds rest (w.exec actor s).2 (((w.exec actor s).1.toList : Multiset Step) + pool)
  /-- It does not matter which threads there are, nor how many tasks. -/
  frame {rest w pool} : holds rest w pool → ∀ threads tasks,
    holds rest { w with threads, tasks } pool

namespace Balance

variable {ρ : Type} {b : Balance ρ} {rest : ρ} {own : List Step} {w : World}

/-- What a balance says of a world in which the coordinator has still to take some steps. -/
def inv (b : Balance ρ) (rest : ρ) (own : List Step) (w : World) : Prop :=
  b.holds rest w (w.inFlight + (own : Multiset Step))

theorem inv_turn (h : b.inv rest own w) (t : Turn) : b.inv rest own (w.turn t) := by
  obtain ⟨n, ht⟩ | ⟨i, s, todo, rfl, hi, ht⟩ := w.turn_cases t
  · rw [ht]
    exact b.later h n
  · have hmem : s ∈ w.inFlight + (own : Multiset Step) :=
      Multiset.mem_add.2 (.inl (World.mem_inFlight_of_eq hi))
    obtain ⟨others, ho, ho'⟩ := World.inFlight_turn hi (b.sound h s hmem)
    unfold inv at h ⊢
    rw [ho, Multiset.cons_add] at h
    rw [ho', add_assoc, ht]
    exact b.frame (b.exec h) _ _

theorem inv_exec {s : Step} (h : b.inv rest (s :: own) w) :
    b.inv rest ((w.exec .coordinator s).1.toList ++ own) (w.exec .coordinator s).2 := by
  have hin : (w.exec .coordinator s).2.inFlight = w.inFlight := by simp [World.inFlight]
  unfold inv at h ⊢
  rw [← Multiset.cons_coe, Multiset.add_cons] at h
  rw [hin, ← Multiset.coe_add, add_left_comm]
  exact b.exec h

theorem inv_burst (h : b.inv rest own w) (turns : List Turn) : b.inv rest own (w.burst turns) := by
  unfold World.burst
  induction turns generalizing w with
  | nil => exact h
  | cons t turns ih => exact ih (inv_turn h t)

/-- The coordinator can take the steps itself that it has set out to take. -/
theorem ends_perform {σ : Type} (b : Balance ρ) (rest : ρ) (steps : List Step) :
    Run.Ends (fun w (_ : σ) => b.inv rest steps w) (Run.perform steps)
      fun _ w _ => b.inv rest [] w := by
  let J (own : List Step) (w : World) (_ : σ) : Prop := b.inv rest own w
  exact Run.Ends.perform (J := J) (fun _ _ _ t h => inv_turn h t) (fun _ _ _ _ h => inv_exec h)
    steps

/-- A balance that looks at one side only of what has still to be handed out. -/
def comap {ρ' : Type} (b : Balance ρ) (f : ρ' → ρ) : Balance ρ' where
  holds rest := b.holds (f rest)
  sound := b.sound
  later := b.later
  note := b.note
  exec := b.exec
  frame := b.frame

/-- A balance is an invariant of an iteration if steps can be handed out. -/
def regime (b : Balance (Multiset Duty)) (admits : Duty → List Step → Prop)
    (hand : ∀ {d steps rest w pool}, admits d steps → b.holds (d ::ₘ rest) w pool →
      b.holds rest w (pool + (steps : Multiset Step))) : Regime where
  inv := b.inv
  admits
  calm h s hs := b.sound h s (Multiset.mem_add.2 (.inl hs))
  turn := inv_turn
  exec := inv_exec
  take {d rest steps w} ha h := by
    have := hand ha h
    rwa [Multiset.coe_nil, add_zero] at this
  spawn {d rest steps w} ha h name := by
    have := hand ha h
    rw [Multiset.coe_nil, add_zero] at this
    rw [inv, World.inFlight_spawn, Multiset.coe_nil, add_zero]
    exact b.frame this _ _
  enqueue {d rest steps w} ha h i hi := by
    have := hand ha h
    rw [Multiset.coe_nil, add_zero] at this
    rw [inv, World.inFlight_enqueue hi, Multiset.coe_nil, add_zero]
    exact b.frame this _ _
  hire h name := by
    rw [inv, World.inFlight_spawn, Multiset.coe_nil, add_zero]
    exact b.frame h _ _
  note h := b.note h
  frame h tasks := b.frame h _ tasks

end Balance

/-! ### Invariants of one countdown -/

/-- An invariant of a countdown, the journal, the clock and the steps in flight. -/
structure Ledger (id : ContextId) where
  holds : (rest : Nat) → Countdown → (journal : List Entry) → (now : Nat) → Multiset Step → Prop
  /-- The steps that tasks may bring along. -/
  admits : List Step → Prop
  sound {rest c journal now pool} : holds rest c journal now pool → ∀ s ∈ pool, s.isCrash = false
  later {rest c journal now now' pool} : holds rest c journal now pool → now ≤ now' →
    holds rest c journal now' pool
  note {rest c journal now pool} {e : Entry} : holds rest c journal now pool →
    e.event.isStep = false → holds rest c (e :: journal) now pool
  exec {rest actor s pool} {w : World} :
    holds rest (w.countdown id) w.journal w.now (s ::ₘ pool) →
    holds rest ((w.exec actor s).2.countdown id) (w.exec actor s).2.journal
      (w.exec actor s).2.now (((w.exec actor s).1.toList : Multiset Step) + pool)
  hand {rest c journal now pool steps} : admits steps →
    holds (Step.tally id units steps + rest) c journal now pool →
    holds rest c journal now (pool + (steps : Multiset Step))

namespace Ledger

/-- A ledger looks at nothing but its countdown, the journal and the clock. -/
def balance (l : Ledger id) : Balance Nat where
  holds rest w := l.holds rest (w.countdown id) w.journal w.now
  sound := l.sound
  later h nanos := l.later h (Nat.le_add_right _ nanos)
  note h _ he := l.note h he
  exec h := l.exec h
  frame h _ _ := h

/-- What a ledger says of a world in which the coordinator has still to take some steps. -/
def inv (l : Ledger id) (rest : Nat) (own : List Step) (w : World) : Prop :=
  l.holds rest (w.countdown id) w.journal w.now (w.inFlight + (own : Multiset Step))

variable {l : Ledger id} {rest : Nat} {own steps : List Step} {w : World}

theorem inv_turn (h : l.inv rest own w) (t : Turn) : l.inv rest own (w.turn t) :=
  l.balance.inv_turn h t

theorem inv_burst (h : l.inv rest own w) (turns : List Turn) : l.inv rest own (w.burst turns) :=
  l.balance.inv_burst h turns

theorem ends_perform {σ : Type} (l : Ledger id) (rest : Nat) (steps : List Step) :
    Run.Ends (fun w (_ : σ) => l.inv rest steps w) (Run.perform steps)
      fun _ w _ => l.inv rest [] w :=
  l.balance.ends_perform rest steps

/-- A ledger is an invariant of an iteration whose tasks notify the rows of their duties. -/
def regime (l : Ledger id) (notified : Duty → Nat) : Regime :=
  (l.balance.comap fun rest : Multiset Duty => (rest.map notified).sum).regime
    (fun d steps => l.admits steps ∧ Step.tally id units steps = notified d)
    fun {d steps rest w pool} ha h => by
      refine l.hand ha.1 ?_
      rw [ha.2, ← Multiset.sum_cons, ← Multiset.map_cons]
      exact h

theorem storeless (l : Ledger id) (notified : Duty → Nat) : (l.regime notified).Storeless :=
  fun _ _ _ h _ => h

/-- No step in flight is a panic. -/
def calm (id : ContextId) : Ledger id where
  holds _ _ _ _ pool := ∀ s ∈ pool, s.isCrash = false
  admits steps := ∀ s ∈ steps, s.isCrash = false
  sound h := h
  later h _ := h
  note h _ := h
  exec h := World.forall_exec h fun _ => World.exec_isCrash
  hand ha h s hs := (Multiset.mem_add.1 hs).elim (h s) fun hs => ha s (by simpa using hs)

end Ledger

/-! ### Laws for single threads -/

/-- A law that the steps of a single thread obey, in order. -/
structure Line where
  holds : List Step → Prop
  nil : holds []
  calm {steps} : holds steps → ∀ s ∈ steps, s.isCrash = false
  append {steps more} : holds steps → holds more → holds (steps ++ more)
  exec {s rest} : holds (s :: rest) → ∀ (w : World) (actor : Actor),
    holds ((w.exec actor s).1.toList ++ rest)

/-- Every thread obeys the law, and so does the coordinator. -/
def Line.regime (l : Line) : Regime where
  inv _ own w := (∀ i, l.holds (w.remaining i)) ∧ l.holds own
  admits _ steps := l.holds steps
  calm h s hs := by
    obtain ⟨i, hi⟩ := World.mem_inFlight.1 hs
    exact l.calm (h.1 i) s hi
  turn {rest own w} h t := by
    obtain ⟨n, ht⟩ | ⟨i, s, todo, rfl, hi, -⟩ := w.turn_cases t
    · rw [ht]
      exact h
    · have hline := h.1 i
      rw [hi] at hline
      refine ⟨fun j => ?_, h.2⟩
      rw [World.remaining_turn hi (l.calm hline s List.mem_cons_self)]
      split
      · exact l.exec hline w _
      · exact h.1 j
  exec {rest s own w} h := by
    refine ⟨fun j => ?_, l.exec h.2 w _⟩
    have hremaining : (w.exec .coordinator s).2.remaining j = w.remaining j := by
      simp only [World.remaining, World.exec_threads]
    rw [hremaining]
    exact h.1 j
  take ha h := ⟨h.1, ha⟩
  spawn {d rest steps w} ha h name := by
    refine ⟨fun i => ?_, h.2⟩
    rw [World.remaining_spawn]
    split
    · exact ha
    · exact h.1 i
  enqueue {d rest steps w} ha h i hi := by
    refine ⟨fun j => ?_, h.2⟩
    rw [World.remaining_enqueue hi]
    split
    · exact l.append (h.1 j) ha
    · exact h.1 j
  hire {rest own w} h name := by
    refine ⟨fun i => ?_, h.2⟩
    rw [World.remaining_spawn]
    split
    · exact l.nil
    · exact h.1 i
  note h _ _ := h
  frame h _ := h

end BenchLoop
