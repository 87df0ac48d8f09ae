/-
BenchLoop/Proofs/Loop/Stage.lean

What is known between two steps of the coordinator in an iteration: the invariant of a
regime, what the benchmark knows of its target, that no thread has panicked, how many
tasks have been asked for, and its course so far: exactly which hooks have been called,
and which waits have ended, in order.

There is one lemma for each thing that the coordinator does, on worlds (`Stage.turn`,
`Stage.exec`, ...) and as a rule on programs (`Stage.ends_log`, `Stage.ends_note`, ...).
-/
import BenchLoop.Loop
import BenchLoop.Proofs.Machine.Regime

namespace BenchLoop

namespace World

variable {id : ContextId} {w : World}

theorem crashed_proceed (s : Step) (next : Option Step) (rest : List Step) (t : Thread) :
    (Thread.proceed s next rest t).crashed = (t.crashed || s.isCrash) := by
  obtain ⟨task, action⟩ := s
  cases action <;> simp [Thread.proceed, Step.isCrash]

/-- A thread panics by the turn in which it comes to a panic, and no other thread does. -/
theorem hasCrashed_turn_thread {i : ThreadId} {s : Step} {rest : List Step}
    (hi : w.remaining i = s :: rest) (j : ThreadId) :
    (w.turn (.thread i)).hasCrashed j = (w.hasCrashed j || (decide (i = j) && s.isCrash)) := by
  have hthread := Array.getElem?_eq_getElem (lt_size_of_remaining hi)
  simp only [turn, hi, exec_threads, hasCrashed, Array.getElem?_modify]
  -- only the thread whose turn it is has changed
  split
  · next hij =>
    subst hij
    simp [hthread, crashed_proceed]
  · next hij => simp [hij]

theorem hasCrashed_turn (t : Turn) (hcalm : ∀ s ∈ w.inFlight, s.isCrash = false) (j : ThreadId) :
    (w.turn t).hasCrashed j = w.hasCrashed j := by
  obtain ⟨n, ht⟩ | ⟨i, s, rest, rfl, hi, -⟩ := w.turn_cases t
  · rw [ht]
    rfl
  · have hs := hcalm s (mem_inFlight_of_eq hi)
    rw [hasCrashed_turn_thread hi, hs, Bool.and_false, Bool.or_false]

theorem hasCrashed_spawn (name : String) (steps : List Step) (h : ∀ j, w.hasCrashed j = false)
    (j : ThreadId) : (w.spawn name steps).2.hasCrashed j = false := by
  have := h j
  simp only [hasCrashed, spawn, Array.getElem?_push] at this ⊢
  split
  · rfl
  · exact this

theorem hasCrashed_enqueue (i : ThreadId) (steps : List Step) (j : ThreadId) :
    (w.enqueue i steps).hasCrashed j = w.hasCrashed j := by
  simp only [hasCrashed, enqueue, Array.getElem?_modify]
  split
  · cases w.threads[j]? <;> rfl
  · rfl

theorem course_note (actor : Actor) (event : Event) :
    (w.note actor event).course = w.course ++ event.marks :=
  course_of_journal (w := w) (e := ⟨actor, event⟩) rfl

end World

variable {σ : Type}

/-- What is known between two steps of the coordinator.  The steps `own` are still for
itself to take; `known` says what there is to know of the target, given the number of
threads. -/
structure Stage (r : Regime) (known : Nat → σ → Prop) (rest : Multiset Duty) (own : List Step)
    (tasks : TaskId) (course : List Event) (w : World) (target : σ) : Prop where
  inv : r.inv rest own w
  known : known w.threads.size target
  sound : ∀ i, w.hasCrashed i = false
  tasks : w.tasks = tasks
  course : w.course = course

namespace Stage

variable {r : Regime} {known : Nat → σ → Prop} {rest : Multiset Duty} {own steps : List Step}
variable {d : Duty} {tasks : TaskId} {course : List Event} {w : World} {target : σ}

/-- Where every run begins. -/
protected theorem fresh {now pace : Nat} (hinv : r.inv 0 [] ({ now, pace } : World))
    (hknown : known 0 target) : Stage r known 0 [] 0 [] ({ now, pace } : World) target :=
  ⟨hinv, hknown, fun _ => rfl, rfl, rfl⟩

/-- The target can be exchanged, and what is known of it put in other words. -/
theorem imp {known' : Nat → σ → Prop} {target' : σ}
    (h : Stage r known rest own tasks course w target)
    (hknown : known w.threads.size target → known' w.threads.size target') :
    Stage r known' rest own tasks course w target' :=
  ⟨h.inv, hknown h.known, h.sound, h.tasks, h.course⟩

protected theorem turn (h : Stage r known rest own tasks course w target) (t : Turn) :
    Stage r known rest own tasks course (w.turn t) target where
  inv := r.turn h.inv t
  known := by rw [World.size_threads_turn]; exact h.known
  sound i := (World.hasCrashed_turn t (r.calm h.inv) i).trans (h.sound i)
  tasks := (w.tasks_turn t).trans h.tasks
  course := (w.course_turn t).trans h.course

theorem stable : Stable (Stage r known rest own tasks course) :=
  fun _ _ t h => h.turn t

protected theorem exec {s : Step} (h : Stage r known rest (s :: own) tasks course w target) :
    Stage r known rest ((w.exec .coordinator s).1.toList ++ own) tasks course
      (w.exec .coordinator s).2 target where
  inv := r.exec h.inv
  known := by rw [World.exec_threads]; exact h.known
  sound i := by
    have := h.sound i
    simp only [World.hasCrashed, World.exec_threads] at this ⊢
    exact this
  tasks := World.exec_tasks.trans h.tasks
  course := World.exec_course.trans h.course

protected theorem note (h : Stage r known rest own tasks course w target) (event : Event)
    (he : event.isStep = false) :
    Stage r known rest own tasks (course ++ event.marks) (w.note .coordinator event) target where
  inv := r.note h.inv event he
  known := h.known
  sound := h.sound
  tasks := h.tasks
  course := by rw [World.course_note, h.course]

protected theorem nextTask (h : Stage r known rest own tasks course w target) :
    w.nextTask.1 = tasks ∧ Stage r known rest own (tasks + 1) course w.nextTask.2 target :=
  ⟨h.tasks, r.frame h.inv _, h.known, h.sound, congrArg (· + 1) h.tasks, h.course⟩

protected theorem stored (hr : r.Storeless) (h : Stage r known rest own tasks course w target)
    (stores : Table Store) : Stage r known rest own tasks course { w with stores } target :=
  ⟨hr rest own w h.inv stores, h.known, h.sound, h.tasks, h.course⟩

protected theorem spawn (hmono : ∀ n m target, known n target → n ≤ m → known m target)
    (hsteps : r.admits d steps) (h : Stage r known (d ::ₘ rest) [] tasks course w target)
    (name : String) : Stage r known rest [] tasks course (w.spawn name steps).2 target where
  inv := r.spawn hsteps h.inv name
  known := hmono _ _ _ h.known (by simp)
  sound := World.hasCrashed_spawn name steps h.sound
  tasks := h.tasks
  course := h.course

protected theorem hire (hmono : ∀ n m target, known n target → n ≤ m → known m target)
    (h : Stage r known rest own tasks course w target) (name : String) :
    Stage r known rest own tasks course (w.spawn name []).2 target where
  inv := r.hire h.inv name
  known := hmono _ _ _ h.known (by simp)
  sound := World.hasCrashed_spawn name [] h.sound
  tasks := h.tasks
  course := h.course

protected theorem enqueue (hsteps : r.admits d steps)
    (h : Stage r known (d ::ₘ rest) [] tasks course w target) {i : ThreadId}
    (hi : i < w.threads.size) :
    Stage r known rest [] tasks course (w.enqueue i steps) target where
  inv := r.enqueue hsteps h.inv i hi
  known := by rw [World.size_threads_enqueue]; exact h.known
  sound j := (World.hasCrashed_enqueue i steps j).trans (h.sound j)
  tasks := h.tasks
  course := h.course

/-! ### Programs -/

theorem ends_log (level : LogLevel) (message : String) :
    Run.Ends (Stage r known rest own tasks course) (Run.log level message)
      fun _ => Stage r known rest own tasks course :=
  .log stable fun _ _ h => by
    simpa [Event.marks] using h.note (.logged level message) rfl

/-- Hooks that are called and waits that end are part of the course. -/
theorem ends_note {event : Event} (he : event.isStep = false) :
    Run.Ends (Stage r known rest own tasks course) (Run.note event)
      fun _ => Stage r known rest own tasks (course ++ event.marks) :=
  .note stable fun _ _ h => h.note event he

theorem ends_look {α : Type} (f : World → α) :
    Run.Ends (Stage r known rest own tasks course) (Run.look f : Run σ α)
      fun _ => Stage r known rest own tasks course :=
  .look stable fun _ _ h => h

theorem ends_nextTask :
    Run.Ends (Stage r known rest own tasks course) (Run.step World.nextTask) fun task w target =>
      task = tasks ∧ Stage r known rest own (tasks + 1) course w target :=
  .step stable fun _ _ h => h.nextTask

theorem ends_spawn (hmono : ∀ n m target, known n target → n ≤ m → known m target)
    (hsteps : r.admits d steps) (name : String) :
    Run.Ends (Stage r known (d ::ₘ rest) [] tasks course)
      (Run.spawn name steps) fun _ => Stage r known rest [] tasks course :=
  .spawn stable fun _ _ h => h.spawn hmono hsteps name

/-- The coordinator does the work of a task itself. -/
theorem ends_perform (hsteps : r.admits d steps) :
    Run.Ends (Stage r known (d ::ₘ rest) [] tasks course)
      (Run.perform steps) fun _ => Stage r known rest [] tasks course := by
  let J (own : List Step) : World → σ → Prop := Stage r known rest own tasks course
  refine (Run.Ends.perform (J := J) (fun _ => stable) (fun _ _ _ _ h => h.exec) steps).pre ?_
  exact fun _ _ h => ⟨r.take hsteps h.inv, h.known, h.sound, h.tasks, h.course⟩

/-- Steps of the coordinator itself can lead from one regime to another; nothing else that is
known changes meanwhile. -/
theorem ends_exchange {r' : Regime} {rest' : Multiset Duty}
    (hsteps : ∀ s ∈ steps, s.isCrash = false)
    (h : Run.Ends (fun w (_ : σ) => r.inv rest [] w) (Run.perform steps)
      fun _ w _ => r'.inv rest' [] w) :
    Run.Ends (Stage r known rest [] tasks course) (Run.perform steps)
      fun _ => Stage r' known rest' [] tasks course := by
  -- the threads stay sound meanwhile, since no step in flight is a panic
  let calm : Regime := (Ledger.calm 0).regime fun _ => 0
  let J (own : List Step) : World → σ → Prop := Stage calm known 0 own tasks course
  have hframe : Run.Ends (J steps) (Run.perform steps) fun _ => J [] :=
    Run.Ends.perform (J := J) (fun _ => stable) (fun _ _ _ _ h => h.exec) steps
  refine (h.and hframe).mono (fun w target h => ⟨h.inv, ?_, h.known, h.sound, h.tasks, h.course⟩)
    fun _ w target h => ⟨h.1, h.2.known, h.2.sound, h.2.tasks, h.2.course⟩
  exact fun s hs => (Multiset.mem_add.1 hs).elim (r.calm h.inv s) (hsteps s)

end Stage

end BenchLoop
