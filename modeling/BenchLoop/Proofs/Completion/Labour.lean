/-
BenchLoop/Proofs/Completion/Labour.lean

What single threads have done, in order, and what that amounts to on a countdown that is
never reset.

    w.labour i

are the steps that thread `i` has taken in its own right, the earliest first.  Steps that
only follow from another one, such as those of a notification that found nothing left
pending, are left out, as is what a thread has logged.  Together with what the thread has
still to do this is its script:

* no turn of any thread changes a script (`script_turn`), so a thread does what it has been
  handed from the front, each thing once, whatever the others do;
* what a thread is handed goes to the end of its script (`script_enqueue`).

An `account` of a countdown says that its counter has lost what the threads have subtracted
from it, and nothing else.
-/
import BenchLoop.Proofs.Completion.Starting
import BenchLoop.Proofs.Machine.Regime

namespace BenchLoop

open CountdownAction

/-- Whether an action is only ever taken because another one was. -/
def CountdownAction.isSequel : CountdownAction → Bool
  | claimStart _ | readEnd | storeEnd _ | claimRelease | release => true
  | _ => false

/-- Whether a step is taken in its own right. -/
def Step.isLabour (s : Step) : Bool :=
  match s.action with
  | .count _ a => !a.isSequel
  | .log .. => false
  | _ => true

/-- The step that a thread has taken in its own right, if the entry is about one. -/
def Entry.labour? (i : ThreadId) (e : Entry) : Option Step :=
  match e.event with
  | .performed s _ => if e.actor = .thread i ∧ s.isLabour = true then some s else none
  | _ => none

theorem Countdown.isSequel_next {c : Countdown} {now : Nat} {a b : CountdownAction}
    (h : (c.exec now a).next = some b) : b.isSequel = true := by
  cases a with
  | readStart | readEnd | storeEnd mark =>
    obtain rfl := Option.some.inj h
    rfl
  | subtract count =>
    simp only [exec] at h
    split at h
    · cases h
    · dsimp only at h
      split at h <;> cases h
      rfl
  | claimRelease =>
    simp only [exec] at h
    split at h <;> cases h
    rfl
  | _ => cases h

/-- Nothing that merely follows subtracts rows. -/
theorem CountdownAction.units_of_isSequel {a : CountdownAction} (h : a.isSequel = true) :
    a.units = 0 := by
  cases a <;> first | rfl | cases h

theorem Step.isSequel_of_not_isLabour {id : ContextId} {s : Step} {a : CountdownAction}
    (h : s.isLabour = false) (ha : s.on? id = some a) : a.isSequel = true := by
  rw [Step.on?_eq_some] at ha
  simpa [isLabour, ha] using h

namespace World

variable {w : World} {actor : Actor} {s : Step}

/-- What the step leads to is not taken in its own right. -/
theorem isLabour_exec {t : Step} (h : t ∈ (w.exec actor s).1) : t.isLabour = false := by
  obtain ⟨context, a, b, -, hnext, rfl⟩ := exec_next h
  simp [Step.isLabour, Countdown.isSequel_next hnext]

/-! ### Labour and scripts -/

/-- The steps that a thread has taken in its own right, the earliest first. -/
def labour (w : World) (i : ThreadId) : List Step := w.journal.reverse.filterMap (Entry.labour? i)

/-- The steps that a thread has taken or will take in its own right, in order. -/
def script (w : World) (i : ThreadId) : List Step :=
  w.labour i ++ (w.remaining i).filter Step.isLabour

theorem labour_of_journal {w' : World} {e : Entry} (h : w'.journal = e :: w.journal)
    (i : ThreadId) : w'.labour i = w.labour i ++ (e.labour? i).toList := by
  rw [labour, h, List.reverse_cons, List.filterMap_append, labour]
  cases he : e.labour? i <;> simp [he]

theorem labour_exec (w : World) (actor : Actor) (s : Step) (i : ThreadId) :
    (w.exec actor s).2.labour i
      = w.labour i ++ if actor = .thread i ∧ s.isLabour = true then [s] else [] := by
  obtain ⟨task, action⟩ := s
  -- whatever else it does, a step is entered as it is, unless it is a line of the log
  have hentry (w' : World) (took : Bool) (hjournal : w'.journal
      = ⟨actor, .performed ⟨task, action⟩ took⟩ :: w.journal) : w'.labour i = w.labour i ++
        if actor = .thread i ∧ Step.isLabour ⟨task, action⟩ = true then [⟨task, action⟩]
        else [] := by
    rw [labour_of_journal hjournal, Entry.labour?]
    dsimp only
    split <;> rfl
  cases action with
  | log level message =>
    refine (labour_of_journal (w := w) rfl i).trans ?_
    simp [Entry.labour?, Step.isLabour]
  | access store a => cases a <;> exact hentry _ _ rfl
  | _ => exact hentry _ _ rfl

/-- **No turn changes a script.** -/
theorem script_turn (t : Turn) (hcalm : ∀ s ∈ w.inFlight, s.isCrash = false) (i : ThreadId) :
    (w.turn t).script i = w.script i := by
  obtain ⟨n, ht⟩ | ⟨j, s, rest, rfl, hj, ht⟩ := w.turn_cases t
  · rw [ht]
    rfl
  · have hs := hcalm s (mem_inFlight_of_eq hj)
    have hnext : (w.exec (.thread j) s).1.toList.filter Step.isLabour = [] :=
      List.filter_eq_nil_iff.2 fun t ht => by simp [isLabour_exec (by simpa using ht)]
    have hlabour : (w.turn (.thread j)).labour i = (w.exec (.thread j) s).2.labour i := by
      rw [labour, labour, journal_turn hj]
    rw [script, hlabour, labour_exec, remaining_turn hj hs, script]
    by_cases hij : i = j
    · subst hij
      rw [if_pos rfl, List.filter_append, hnext, hj, List.filter_cons]
      cases s.isLabour <;> simp
    · have hne : Actor.thread j ≠ .thread i := fun h => hij (Actor.thread.inj h).symm
      rw [if_neg fun h => hne h.1, if_neg hij, List.append_nil]

theorem script_note (event : Event) (i : ThreadId) :
    (w.note .coordinator event).script i = w.script i := by
  rw [script, labour_of_journal (w := w) (e := ⟨.coordinator, event⟩) rfl]
  cases event <;> simp [Entry.labour?, script, note, remaining]

/-- A thread that is started with nothing to do has an empty script. -/
theorem script_spawn (name : String) (i : ThreadId) :
    (w.spawn name []).2.script i = w.script i := by
  rw [script, remaining_spawn]
  split
  · next hi =>
    rw [script, hi, remaining_of_size_le (le_refl _)]
    rfl
  · rfl

theorem script_enqueue {i : ThreadId} (h : i < w.threads.size) (steps : List Step)
    (j : ThreadId) : (w.enqueue i steps).script j
      = if j = i then w.script j ++ steps.filter Step.isLabour else w.script j := by
  rw [script, remaining_enqueue h]
  split
  · rw [List.filter_append, ← List.append_assoc]
    rfl
  · rfl

/-! ### Rules for single threads -/

/-- All that threads have done or will do is fit for them, and only threads have done anything. -/
structure Obeys (rule : ThreadId → Step → Prop) (w : World) : Prop where
  todo : ∀ i, ∀ s ∈ w.remaining i, rule i s
  done : ∀ e ∈ w.journal, ∀ s took, e.event = .performed s took →
    ∃ i, e.actor = .thread i ∧ rule i s

namespace Obeys

variable {rule rule' : ThreadId → Step → Prop}

theorem mono (h : w.Obeys rule) (hrule : ∀ i s, rule i s → rule' i s) : w.Obeys rule' where
  todo i s hs := hrule i s (h.todo i s hs)
  done e he s took hevent := by
    obtain ⟨i, hi, hs⟩ := h.done e he s took hevent
    exact ⟨i, hi, hrule i s hs⟩

/-- A rule that extends to whatever follows a step is obeyed further on. -/
protected theorem turn (h : w.Obeys rule) (t : Turn)
    (hnext : ∀ (w : World) i s t, rule i s → t ∈ (w.exec (.thread i) s).1 → rule i t) :
    (w.turn t).Obeys rule := by
  obtain ⟨n, ht⟩ | ⟨j, s, rest, rfl, hj, ht⟩ := w.turn_cases t
  · rw [ht]
    exact ⟨h.todo, h.done⟩
  · have hs : rule j s := h.todo j s (by rw [hj]; exact List.mem_cons_self)
    refine ⟨fun i t ht => ?_, ?_⟩
    · obtain ⟨rfl, ht⟩ | ht := mem_remaining_turn hj ht
      · exact hnext w i s t hs ht
      · exact h.todo i t ht
    · obtain ⟨e, hjournal, hactor, he⟩ := w.exec_journal (.thread j) s
      rw [journal_turn hj, hjournal]
      refine List.forall_mem_cons.2 ⟨fun s' took hevent => ?_, h.done⟩
      obtain ⟨rfl, -⟩ := he s' took hevent
      exact ⟨j, hactor, hs⟩

protected theorem note (h : w.Obeys rule) {event : Event} (he : event.isStep = false) :
    (w.note .coordinator event).Obeys rule := by
  refine ⟨h.todo, List.forall_mem_cons.2 ⟨fun s took hevent => ?_, h.done⟩⟩
  obtain rfl : event = .performed s took := hevent
  cases he

protected theorem spawn (h : w.Obeys rule) (name : String) :
    (w.spawn name []).2.Obeys rule := by
  refine ⟨fun i s hs => ?_, h.done⟩
  rw [remaining_spawn] at hs
  split at hs
  · cases hs
  · exact h.todo i s hs

protected theorem enqueue (h : w.Obeys rule) {i : ThreadId} (hi : i < w.threads.size)
    {steps : List Step} (hsteps : ∀ s ∈ steps, rule i s) : (w.enqueue i steps).Obeys rule := by
  refine ⟨fun j s hs => ?_, h.done⟩
  rw [remaining_enqueue hi] at hs
  split at hs
  · next hj =>
    subst hj
    exact (List.mem_append.1 hs).elim (h.todo j s) (hsteps s)
  · exact h.todo j s hs

end Obeys

end World

/-! ### Countdowns that are never reset -/

/-- The counter of a countdown has lost what was subtracted from it; all that was subtracted or
will be amounts to a total. -/
structure Account (id : ContextId) (initial : Countdown) (total : Nat) (c : Countdown)
    (journal : List Entry) (pool : Multiset Step) : Prop where
  work : ∀ s ∈ pool, s.isWork id = true
  total : Entry.tally id spent journal + Step.tally id units pool = total
  pending : c.pending = initial.pending - Int64.ofNat (Entry.tally id spent journal)
  untouched : (∀ e ∈ journal, e.on? id = none) → c = initial

namespace Account

variable {id : ContextId} {initial : Countdown} {total : Nat}

/-- An account is an invariant of all steps in flight. -/
def balance (id : ContextId) (initial : Countdown) : Balance Nat where
  holds total w pool := Account id initial total (w.countdown id) w.journal pool
  sound h s hs := Step.isCrash_of_isWork (h.work s hs)
  later h _ := ⟨h.work, h.total, h.pending, h.untouched⟩
  note {total w pool} h event he := by
    have hoff : Entry.on? id ⟨.coordinator, event⟩ = none := Entry.on?_of_isStep he
    have htally : Entry.tally id spent (w.note .coordinator event).journal
        = Entry.tally id spent w.journal := by
      rw [show (w.note .coordinator event).journal = ⟨.coordinator, event⟩ :: w.journal from rfl,
        Entry.tally_cons, hoff]
      exact Nat.zero_add _
    refine ⟨h.work, ?_, ?_, fun huntouched => h.untouched (List.forall_mem_cons.1 huntouched).2⟩
    · rw [htally]
      exact h.total
    · rw [htally]
      exact h.pending
  exec {total w pool actor s} h := by
    have hs := h.work s (Multiset.mem_cons_self s pool)
    obtain ⟨e, hjournal, -, he⟩ := w.journal_exec actor hs
    have hnext : Step.tally id units ((w.exec actor s).1.toList : Multiset Step) = 0 :=
      Step.tally_eq_zero id _ fun t ht a ha => by
        obtain ⟨a', -, hnext⟩ := World.exec_next_on (by simpa using ht) ha
        exact Countdown.units_next hnext
    have htally : Entry.tally id spent (w.exec actor s).2.journal
        = (s.on? id).elim 0 units + Entry.tally id spent w.journal := by
      rw [hjournal, Entry.tally_cons, he]
      cases s.on? id <;> rfl
    have htotal := h.total
    rw [Step.tally_cons] at htotal
    refine ⟨World.forall_exec h.work fun _ => World.isWork_exec, ?_, ?_, fun huntouched => ?_⟩
    · rw [htally, Step.tally_add, hnext]
      omega
    · rw [htally]
      cases hon : s.on? id with
      | none =>
        rw [(World.exec_off w actor hon).2.1, h.pending, Option.elim_none, Nat.zero_add]
      | some a =>
        rw [(World.exec_on w actor hon).2.1, Flow.pending_after (Step.isWork_on hs hon), h.pending,
          Option.elim_some, Int64.sub_sub, Nat.add_comm, Int64.ofNat_add]
    · rw [hjournal] at huntouched
      obtain ⟨hoff, huntouched⟩ := List.forall_mem_cons.1 huntouched
      rw [he, Option.map_eq_none_iff] at hoff
      rw [(World.exec_off w actor hoff).2.1]
      exact h.untouched huntouched
  frame h _ _ := ⟨h.work, h.total, h.pending, h.untouched⟩

end Account

/-! ### What threads have subtracted -/

theorem Step.tally_singleton (id : ContextId) (f : CountdownAction → Nat) (s : Step) :
    Step.tally id f ([s] : List Step) = (s.on? id).elim 0 f := by
  simp [tally]

/-- The entry about a step of a thread says as much of a countdown as the step itself, as far as
that is labour. -/
theorem Entry.sum_labour {id : ContextId} {e : Entry} {n : Nat}
    (h : e.on? id ≠ none → ∃ i < n, e.actor = .thread i) :
    ((e.on? id).elim 0 fun p => spent p.1 p.2)
      = ∑ i ∈ Finset.range n, Step.tally id units ((e.labour? i).toList : List Step) := by
  obtain ⟨actor, event⟩ := e
  cases event with
  | performed s took =>
    have htally (i : ThreadId) :
        Step.tally id units ((labour? i ⟨actor, .performed s took⟩).toList : List Step)
          = if actor = .thread i then (s.on? id).elim 0 units else 0 := by
      simp only [labour?]
      split
      · next hlabour => rw [if_pos hlabour.1, Option.toList_some, Step.tally_singleton]
      · next hnot =>
        rw [Option.toList_none, Multiset.coe_nil, Step.tally_zero]
        split
        · next hactor =>
          -- the step merely followed from another one
          have hsequel : s.isLabour = false := by simpa [hactor] using hnot
          cases hon : s.on? id with
          | none => rfl
          | some a =>
            exact (units_of_isSequel (Step.isSequel_of_not_isLabour hsequel hon)).symm
        · rfl
    simp only [htally]
    cases hon : s.on? id with
    | none => simp [on?, hon]
    | some a =>
      obtain ⟨j, hj, rfl⟩ := h (by simp [on?, hon])
      simp [on?, hon, spent, hj]
  | _ => simp [on?, labour?]

/-- If only threads act on a countdown, what was subtracted from it is what their labour
subtracts. -/
theorem World.tally_spent {id : ContextId} {w : World} {n : Nat}
    (h : ∀ e ∈ w.journal, e.on? id ≠ none → ∃ i < n, e.actor = .thread i) :
    Entry.tally id spent w.journal
      = ∑ i ∈ Finset.range n, Step.tally id units (w.labour i : List Step) := by
  have hlabour (i : ThreadId) : Step.tally id units (w.labour i : List Step)
      = Step.tally id units (w.journal.filterMap (Entry.labour? i) : List Step) := by
    rw [labour, List.filterMap_reverse, Multiset.coe_reverse]
  simp only [hlabour]
  generalize w.journal = journal at h
  induction journal with
  | nil => simp
  | cons e journal ih =>
    obtain ⟨he, hjournal⟩ := List.forall_mem_cons.1 h
    -- an entry counts for the thread that made it, and for no other
    have hcons (i : ThreadId) : Step.tally id units ((e :: journal).filterMap (Entry.labour? i) :
        List Step) = Step.tally id units ((e.labour? i).toList : List Step)
          + Step.tally id units (journal.filterMap (Entry.labour? i) : List Step) := by
      rw [List.filterMap_cons, ← Step.tally_add, Multiset.coe_add]
      cases e.labour? i <;> rfl
    simp only [hcons]
    rw [Entry.tally_cons, Finset.sum_add_distrib, ih hjournal, Entry.sum_labour he]

end BenchLoop
