/-
BenchLoop/Proofs/Machine/InFlight.lean

Steps in flight.  What the threads of a world still have to do is one multiset of
steps, whichever thread holds which of them:

    w.inFlight

A turn takes one step out of it and puts back the step that follows, if one does
(`inFlight_turn`); starting a thread or handing it more to do adds steps.  An invariant
over any number of threads is then a statement about the shared state and this
multiset, and one step of one actor is all that has to be looked at.

`Step.on?` and `Entry.on?` single out what concerns the countdown of one context.
`World.exec` is described through them: `exec_on` for a step on that countdown,
`exec_off` for every other step.
-/
import Mathlib
import BenchLoop.Machine.World

namespace BenchLoop

/-! ### Steps and entries on one countdown -/

/-- What a step does to the countdown of a context, if it acts on that. -/
def Step.on? (id : ContextId) (s : Step) : Option CountdownAction :=
  match s.action with
  | .count context a => if context = id then some a else none
  | _ => none

/-- What a step does to a store, if it acts on one. -/
def Step.access? (s : Step) : Option (StoreId × RowAccess) :=
  match s.action with
  | .access store a => some (store, a)
  | _ => none

/-- What an entry says was done to the countdown of a context, and whether it took effect. -/
def Entry.on? (id : ContextId) (e : Entry) : Option (CountdownAction × Bool) :=
  match e.event with
  | .performed step took => (step.on? id).map (·, took)
  | _ => none

theorem Entry.on?_performed {id : ContextId} {s : Step} {a : CountdownAction}
    (ha : s.on? id = some a) (actor : Actor) (took : Bool) :
    Entry.on? id ⟨actor, .performed s took⟩ = some (a, took) := by
  simp [on?, ha]

theorem Step.on?_count (id : ContextId) (task : Option TaskId) (a : CountdownAction) :
    Step.on? id ⟨task, .count id a⟩ = some a := by
  simp [on?]

theorem Step.on?_eq_some {id : ContextId} {s : Step} {a : CountdownAction} :
    s.on? id = some a ↔ s.action = .count id a := by
  obtain ⟨task, action⟩ := s
  cases action <;> simp [on?, eq_comm]

/-- The hook whose call an event is, if it is one. -/
def Event.hooks : Event → List HookCall
  | .called hook => [hook]
  | _ => []

/-- The call of a hook or the end of a wait that an event is, if it is one. -/
def Event.marks (e : Event) : List Event :=
  match e with
  | .called _ | .released _ => [e]
  | _ => []

/-- Whether an event is a step of some actor. -/
def Event.isStep : Event → Bool
  | .performed .. => true
  | _ => false

theorem Entry.on?_of_isStep {id : ContextId} {e : Entry} (h : e.event.isStep = false) :
    e.on? id = none := by
  obtain ⟨actor, event⟩ := e
  cases event with
  | performed step took => cases h
  | _ => rfl

/-- Whether the thread that takes a step panics in it. -/
def Step.isCrash (s : Step) : Bool :=
  match s.action with
  | .crash _ => true
  | _ => false

namespace World

/-- The calls of hooks and the ends of waits, the earliest first. -/
def course (w : World) : List Event := w.journal.reverse.flatMap fun e => e.event.marks

/-- The calls of hooks are part of the course. -/
theorem calls_eq (w : World) : w.calls = w.course.flatMap Event.hooks := by
  rw [course, List.flatMap_assoc, calls, List.filterMap_eq_flatMap_toList]
  refine List.flatMap_congr fun e _ => ?_
  obtain ⟨actor, event⟩ := e
  cases event <;> rfl

/-- The steps that the threads still have to take. -/
def inFlight (w : World) : Multiset Step :=
  (w.threads.toList.flatMap Thread.remaining : List Step)

theorem remaining_of_getElem? {w : World} {i : ThreadId} {t : Thread}
    (h : w.threads[i]? = some t) : w.remaining i = t.remaining := by
  simp [remaining, h]

theorem remaining_of_size_le {w : World} {i : ThreadId} (h : w.threads.size ≤ i) :
    w.remaining i = [] := by
  simp [remaining, Array.getElem?_eq_none h]

theorem mem_inFlight {w : World} {s : Step} : s ∈ w.inFlight ↔ ∃ i, s ∈ w.remaining i := by
  simp only [inFlight, Multiset.mem_coe, List.mem_flatMap]
  constructor
  · rintro ⟨t, ht, hs⟩
    obtain ⟨i, hi⟩ := List.mem_iff_getElem?.1 ht
    refine ⟨i, ?_⟩
    rwa [remaining_of_getElem? (by simpa using hi)]
  · rintro ⟨i, hs⟩
    cases h : w.threads[i]? with
    | none => simp [remaining, h] at hs
    | some t =>
      refine ⟨t, ?_, by rwa [remaining_of_getElem? h] at hs⟩
      exact List.mem_iff_getElem?.2 ⟨i, by simpa using h⟩

/-- The step that a thread is at is one of those that it has ahead. -/
theorem mem_remaining_of_eq {w : World} {i : ThreadId} {s : Step} {rest : List Step}
    (h : w.remaining i = s :: rest) : s ∈ w.remaining i := by
  rw [h]
  exact List.mem_cons_self

theorem mem_inFlight_of_eq {w : World} {i : ThreadId} {s : Step} {rest : List Step}
    (h : w.remaining i = s :: rest) : s ∈ w.inFlight :=
  mem_inFlight.2 ⟨i, mem_remaining_of_eq h⟩

theorem inFlight_eq_zero {w : World} (h : ∀ i, w.isIdle i) : w.inFlight = 0 := by
  refine Multiset.eq_zero_of_forall_notMem fun s hs => ?_
  obtain ⟨i, hi⟩ := mem_inFlight.1 hs
  have := h i
  simp only [isIdle, List.isEmpty_iff] at this
  rw [this] at hi
  cases hi

/-- Changing one thread exchanges its steps for those that it has afterwards. -/
theorem inFlight_modify {w : World} {i : ThreadId} {t : Thread} (h : w.threads[i]? = some t)
    (f : Thread → Thread) :
    ({ w with threads := w.threads.modify i f } : World).inFlight + (t.remaining : Multiset Step)
      = w.inFlight + ((f t).remaining : Multiset Step) := by
  obtain ⟨hi, rfl⟩ := Array.getElem?_eq_some_iff.1 h
  -- the threads before it and behind it are the same, and add up on both sides
  have hl : w.threads.toList
      = w.threads.toList.take i ++ w.threads[i] :: w.threads.toList.drop (i + 1) := by
    conv_lhs => rw [← List.take_append_drop i w.threads.toList]
    rw [List.drop_eq_getElem_cons (by simpa using hi)]
    simp
  have hm : (w.threads.modify i f).toList
      = w.threads.toList.take i ++ f w.threads[i] :: w.threads.toList.drop (i + 1) := by
    rw [Array.toList_modify, List.modify_eq_take_cons_drop (by simpa using hi)]
    simp
  simp only [inFlight]
  rw [hm]
  conv_rhs => rw [hl]
  simp only [List.flatMap_append, List.flatMap_cons, ← Multiset.coe_add]
  abel

@[simp] theorem inFlight_spawn (w : World) (name : String) (steps : List Step) :
    (w.spawn name steps).2.inFlight = w.inFlight + (steps : Multiset Step) := by
  simp [spawn, inFlight, Thread.remaining]

theorem inFlight_enqueue {w : World} {i : ThreadId} (h : i < w.threads.size)
    (steps : List Step) :
    (w.enqueue i steps).inFlight = w.inFlight + (steps : Multiset Step) := by
  have := inFlight_modify (Array.getElem?_eq_getElem h) (·.hand steps)
  simp only [Thread.remaining_hand, ← Multiset.coe_add] at this
  rw [← add_assoc, add_right_comm] at this
  exact add_right_cancel this

theorem remaining_spawn (w : World) (name : String) (steps : List Step) (i : ThreadId) :
    (w.spawn name steps).2.remaining i = if i = w.threads.size then steps else w.remaining i := by
  simp only [remaining, spawn, Array.getElem?_push]
  split
  · rfl
  · rfl

theorem remaining_enqueue {w : World} {i : ThreadId} (h : i < w.threads.size)
    (steps : List Step) (j : ThreadId) :
    (w.enqueue i steps).remaining j
      = if j = i then w.remaining j ++ steps else w.remaining j := by
  simp only [remaining, enqueue, Array.getElem?_modify]
  split
  · next hj =>
    subst hj
    simp [Array.getElem?_eq_getElem h]
  · next hj => rw [if_neg (Ne.symm hj)]

/-! ### One step of an actor -/

section Exec

variable {id : ContextId} {w : World} {actor : Actor} {s : Step}

@[simp] theorem exec_threads : (w.exec actor s).2.threads = w.threads := by
  obtain ⟨task, action⟩ := s
  cases action with
  | access store a => cases a <;> rfl
  | _ => rfl

@[simp] theorem exec_tasks : (w.exec actor s).2.tasks = w.tasks := by
  obtain ⟨task, action⟩ := s
  cases action with
  | access store a => cases a <;> rfl
  | _ => rfl

theorem now_le_exec : w.now ≤ (w.exec actor s).2.now := by
  obtain ⟨task, action⟩ := s
  cases action with
  | access store a => cases a <;> exact Nat.le_add_right ..
  | _ => exact Nat.le_add_right ..

/-- Only a step on a countdown leads to another one, on the same countdown and for the same
task. -/
theorem exec_next {t : Step} (h : t ∈ (w.exec actor s).1) :
    ∃ context a b, s.on? context = some a ∧
      ((w.countdown context).exec w.now a).next = some b ∧ t = ⟨s.task, .count context b⟩ := by
  obtain ⟨task, action⟩ := s
  simp only [exec, Option.mem_def, Option.map_eq_some_iff] at h
  obtain ⟨action', hnext, rfl⟩ := h
  cases action with
  | count context a =>
    simp only [perform, Option.map_eq_some_iff] at hnext
    obtain ⟨b, hb, rfl⟩ := hnext
    exact ⟨context, a, b, Step.on?_count context task a, hb, rfl⟩
  | access store a => cases a <;> cases hnext
  | _ => cases hnext

/-- What follows a step and acts on a countdown is what this countdown has led the step to. -/
theorem exec_next_on {t : Step} {b : CountdownAction} (h : t ∈ (w.exec actor s).1)
    (hb : t.on? id = some b) :
    ∃ a, s.on? id = some a ∧ ((w.countdown id).exec w.now a).next = some b := by
  obtain ⟨context, a, b', ha, hnext, rfl⟩ := exec_next h
  rw [Step.on?_eq_some] at hb
  cases hb
  exact ⟨a, ha, hnext⟩

theorem exec_task {t : Step} (h : t ∈ (w.exec actor s).1) : t.task = s.task := by
  obtain ⟨context, a, b, -, -, rfl⟩ := exec_next h
  rfl

theorem exec_isCrash {t : Step} (h : t ∈ (w.exec actor s).1) : t.isCrash = false := by
  obtain ⟨context, a, b, -, -, rfl⟩ := exec_next h
  rfl

/-- What holds of all steps in flight, one of which is taken, holds afterwards if it holds of
the step that follows. -/
theorem forall_exec {p : Step → Prop} {pool : Multiset Step} (hpool : ∀ t ∈ s ::ₘ pool, p t)
    (hnext : ∀ t ∈ (w.exec actor s).1, p t) :
    ∀ t ∈ ((w.exec actor s).1.toList : Multiset Step) + pool, p t := fun t ht =>
  (Multiset.mem_add.1 ht).elim (fun ht => hnext t (by simpa using ht)) fun ht =>
    hpool t (Multiset.mem_cons_of_mem ht)

/-- A step is entered into the journal as itself, or as the text that it logs. -/
theorem exec_journal (w : World) (actor : Actor) (s : Step) :
    ∃ e : Entry, (w.exec actor s).2.journal = e :: w.journal ∧ e.actor = actor ∧
      ∀ s' took, e.event = .performed s' took → s' = s ∧ took = (w.perform s.action).1 := by
  obtain ⟨task, action⟩ := s
  cases action with
  | access store a =>
    cases a <;> exact ⟨_, rfl, rfl, by rintro s' took ⟨rfl, -⟩; exact ⟨rfl, rfl⟩⟩
  | log level message => exact ⟨_, rfl, rfl, nofun⟩
  | _ => exact ⟨_, rfl, rfl, by rintro s' took ⟨rfl, -⟩; exact ⟨rfl, rfl⟩⟩

theorem course_of_journal {w' : World} {e : Entry} (h : w'.journal = e :: w.journal) :
    w'.course = w.course ++ e.event.marks := by
  simp [course, h]

/-- No step calls a hook or ends a wait. -/
@[simp] theorem exec_course : (w.exec actor s).2.course = w.course := by
  obtain ⟨task, action⟩ := s
  cases action with
  | access store a => cases a <;> exact (course_of_journal rfl).trans (List.append_nil _)
  | _ => exact (course_of_journal rfl).trans (List.append_nil _)

/-- A step on a countdown, in terms of the effect that it has there. -/
theorem exec_on (w : World) (actor : Actor) {a : CountdownAction} (h : s.on? id = some a) :
    (w.exec actor s).1
        = ((w.countdown id).exec w.now a).next.map (⟨s.task, .count id ·⟩) ∧
      (w.exec actor s).2.countdown id = ((w.countdown id).exec w.now a).after ∧
      (w.exec actor s).2.journal
        = ⟨actor, .performed s ((w.countdown id).exec w.now a).took⟩ :: w.journal := by
  obtain ⟨task, action⟩ := s
  rw [Step.on?_eq_some] at h
  subst h
  refine ⟨?_, ?_, rfl⟩
  · simp only [exec, perform, countdown, Option.map_map]
    rfl
  · simp [exec, perform, note, countdown]

/-- A step on something else leaves the countdown alone, and so does what follows it. -/
theorem exec_off (w : World) (actor : Actor) (h : s.on? id = none) :
    (∀ t ∈ (w.exec actor s).1, t.on? id = none) ∧
      (w.exec actor s).2.countdown id = w.countdown id ∧
      ∃ e : Entry, (w.exec actor s).2.journal = e :: w.journal ∧ e.on? id = none := by
  obtain ⟨task, action⟩ := s
  cases action with
  | count context a =>
    have hne : context ≠ id := by simpa [Step.on?] using h
    refine ⟨?_, ?_, _, rfl, ?_⟩
    · intro t ht
      simp only [exec, perform, Option.map_map, Option.mem_def, Option.map_eq_some_iff] at ht
      obtain ⟨b, -, rfl⟩ := ht
      simp [Step.on?, hne]
    · simp [exec, perform, note, countdown, Table.get_set, hne]
    · simpa [Entry.on?] using h
  | access store a => cases a <;> exact ⟨by simp [exec, perform], rfl, _, rfl, rfl⟩
  | _ => exact ⟨by simp [exec, perform], rfl, _, rfl, rfl⟩

end Exec

/-! ### One turn -/

/-- All that a turn can be: time passes, or a thread takes its next step. -/
theorem turn_cases (w : World) (t : Turn) :
    (∃ n, w.turn t = { w with now := w.now + n }) ∨
      ∃ i s rest, t = .thread i ∧ w.remaining i = s :: rest ∧
        w.turn t =
          { (w.exec (.thread i) s).2 with
            threads := w.threads.modify i (.proceed s (w.exec (.thread i) s).1 rest) } := by
  cases t with
  | wait n => exact .inl ⟨n, rfl⟩
  | thread i =>
    cases h : w.remaining i with
    | nil => exact .inl ⟨0, by simp [turn, h]⟩
    | cons s rest =>
      refine .inr ⟨i, s, rest, rfl, h, ?_⟩
      simp only [turn, h, exec_threads]

@[simp] theorem tasks_turn (w : World) (t : Turn) : (w.turn t).tasks = w.tasks := by
  obtain ⟨n, h⟩ | ⟨i, s, rest, -, -, h⟩ := turn_cases w t <;> simp [h]

@[simp] theorem course_turn (w : World) (t : Turn) : (w.turn t).course = w.course := by
  obtain ⟨n, h⟩ | ⟨i, s, rest, -, -, h⟩ := turn_cases w t
  · rw [h]; rfl
  · rw [h]; exact @exec_course w (.thread i) s

@[simp] theorem size_threads_turn (w : World) (t : Turn) :
    (w.turn t).threads.size = w.threads.size := by
  obtain ⟨n, h⟩ | ⟨i, s, rest, -, -, h⟩ := turn_cases w t <;> simp [h]

@[simp] theorem size_threads_spawn (w : World) (name : String) (steps : List Step) :
    (w.spawn name steps).2.threads.size = w.threads.size + 1 :=
  Array.size_push _

@[simp] theorem size_threads_enqueue (w : World) (i : ThreadId) (steps : List Step) :
    (w.enqueue i steps).threads.size = w.threads.size :=
  Array.size_modify

theorem lt_size_of_remaining {w : World} {i : ThreadId} {s : Step} {rest : List Step}
    (h : w.remaining i = s :: rest) : i < w.threads.size := by
  by_contra hi
  rw [remaining_of_size_le (Nat.le_of_not_lt hi)] at h
  cases h

theorem remaining_proceed {s : Step} (h : s.isCrash = false) (next : Option Step)
    (rest : List Step) (t : Thread) :
    (Thread.proceed s next rest t).remaining = next.toList ++ rest := by
  obtain ⟨task, action⟩ := s
  cases action <;> first | rfl | simp [Step.isCrash] at h

theorem journal_turn {w : World} {i : ThreadId} {s : Step} {rest : List Step}
    (h : w.remaining i = s :: rest) :
    (w.turn (.thread i)).journal = (w.exec (.thread i) s).2.journal := by
  simp only [turn, h]

theorem countdown_turn {w : World} {i : ThreadId} {s : Step} {rest : List Step}
    (h : w.remaining i = s :: rest) (id : ContextId) :
    (w.turn (.thread i)).countdown id = (w.exec (.thread i) s).2.countdown id := by
  simp only [turn, h, countdown]

/-- What the threads hold after one of them has taken a step. -/
theorem remaining_turn {w : World} {i : ThreadId} {s : Step} {rest : List Step}
    (h : w.remaining i = s :: rest) (hs : s.isCrash = false) (j : ThreadId) :
    (w.turn (.thread i)).remaining j
      = if j = i then (w.exec (.thread i) s).1.toList ++ rest else w.remaining j := by
  have hi := lt_size_of_remaining h
  simp only [turn, h, exec_threads]
  split
  · next hj =>
    subst hj
    simp [remaining, Array.getElem?_modify, Array.getElem?_eq_getElem hi,
      remaining_proceed hs]
  · next hj => simp [remaining, Array.getElem?_modify, Ne.symm hj]

/-- A thread that panics loses what it had to do. -/
theorem remaining_turn_of_isCrash {w : World} {i : ThreadId} {s : Step} {rest : List Step}
    (h : w.remaining i = s :: rest) (hs : s.isCrash = true) (j : ThreadId) :
    (w.turn (.thread i)).remaining j = if j = i then [] else w.remaining j := by
  have hi := lt_size_of_remaining h
  obtain ⟨task, action⟩ := s
  cases action with
  | crash payload =>
    simp only [turn, h, exec_threads]
    split
    · next hj =>
      subst hj
      simp [remaining, Array.getElem?_modify, Array.getElem?_eq_getElem hi, Thread.proceed,
        Thread.remaining]
    · next hj => simp [remaining, Array.getElem?_modify, Ne.symm hj]
  | _ => cases hs

/-- Whatever a thread holds after a turn it held before, or it has just taken the step that leads
there. -/
theorem mem_remaining_turn {w : World} {i j : ThreadId} {s t : Step} {rest : List Step}
    (h : w.remaining i = s :: rest) (ht : t ∈ (w.turn (.thread i)).remaining j) :
    j = i ∧ t ∈ (w.exec (.thread i) s).1 ∨ t ∈ w.remaining j := by
  cases hcrash : s.isCrash with
  | false =>
    rw [remaining_turn h hcrash] at ht
    split at ht
    · next hj =>
      rw [hj, h]
      rcases List.mem_append.1 ht with ht | ht
      · exact .inl ⟨rfl, by simpa using ht⟩
      · exact .inr (List.mem_cons_of_mem s ht)
    · exact .inr ht
  | true =>
    -- the thread has panicked, and nothing is left of what it had to do
    rw [remaining_turn_of_isCrash h hcrash] at ht
    split at ht
    · cases ht
    · exact .inr ht

/-- A turn of a thread takes a step out of those in flight and puts back the one that
follows it. -/
theorem inFlight_turn {w : World} {i : ThreadId} {s : Step} {rest : List Step}
    (h : w.remaining i = s :: rest) (hs : s.isCrash = false) :
    ∃ others, w.inFlight = s ::ₘ others ∧
      (w.turn (.thread i)).inFlight
        = ((w.exec (.thread i) s).1.toList : Multiset Step) + others := by
  have hi := lt_size_of_remaining h
  obtain ⟨others, ho⟩ := Multiset.exists_cons_of_mem (mem_inFlight_of_eq h)
  refine ⟨others, ho, ?_⟩
  -- replacing the thread takes out its line and puts in the new one, which share their rest
  have hm := inFlight_modify (Array.getElem?_eq_getElem hi)
    (.proceed s (w.exec (.thread i) s).1 rest)
  have hr : w.threads[i].remaining = s :: rest := by
    rw [← h, remaining_of_getElem? (Array.getElem?_eq_getElem hi)]
  rw [hr, remaining_proceed hs, ho, ← Multiset.cons_coe, ← Multiset.coe_add,
    Multiset.add_cons, Multiset.cons_add, Multiset.cons_inj_right] at hm
  have ht : (w.turn (.thread i)).inFlight
      = ({ w with threads := w.threads.modify i (.proceed s (w.exec (.thread i) s).1 rest) }
          : World).inFlight := by
    simp only [turn, h, exec_threads, inFlight]
  rw [ht]
  rw [← add_assoc, add_comm others] at hm
  exact add_right_cancel hm

end World

end BenchLoop
