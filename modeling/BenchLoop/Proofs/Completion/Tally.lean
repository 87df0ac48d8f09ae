/-
BenchLoop/Proofs/Completion/Tally.lean

Sums over what happens to one countdown.  `Step.tally` adds up a number over steps in
flight, `Entry.tally` over entries of the journal; either skips what concerns other
countdowns.  The numbers that matter are the rows that steps subtract (`units`,
`spent`), and for each step that a notification goes through once the rows are used up,
how often it is due, was taken and took effect (`due`, `taken`, `won`).

The entries in question are those since the last reset (`World.sinceReset`).
-/
import BenchLoop.Proofs.Machine.InFlight

namespace BenchLoop

/-! ### Sums over steps and entries -/

/-- The sum of `f` over what steps do to a countdown. -/
def Step.tally (id : ContextId) (f : CountdownAction → Nat) (pool : Multiset Step) : Nat :=
  (pool.map fun s => (s.on? id).elim 0 f).sum

/-- The sum of `f` over what entries say was done to a countdown. -/
def Entry.tally (id : ContextId) (f : CountdownAction → Bool → Nat) (entries : List Entry) : Nat :=
  (entries.map fun e => (e.on? id).elim 0 fun p => f p.1 p.2).sum

section Tally

variable (id : ContextId) (f : CountdownAction → Nat) (g : CountdownAction → Bool → Nat)

@[simp] theorem Step.tally_zero : Step.tally id f 0 = 0 := rfl

@[simp] theorem Step.tally_cons (s : Step) (pool : Multiset Step) :
    Step.tally id f (s ::ₘ pool) = (s.on? id).elim 0 f + Step.tally id f pool := by
  simp [tally]

@[simp] theorem Step.tally_add (pool more : Multiset Step) :
    Step.tally id f (pool + more) = Step.tally id f pool + Step.tally id f more := by
  simp [tally]

@[simp] theorem Entry.tally_nil : Entry.tally id g [] = 0 := rfl

@[simp] theorem Entry.tally_cons (e : Entry) (entries : List Entry) :
    Entry.tally id g (e :: entries)
      = ((e.on? id).elim 0 fun p => g p.1 p.2) + Entry.tally id g entries := by
  simp [tally]

variable {id g} in
/-- Entries that concern other countdowns count for nothing. -/
theorem Entry.tally_cons_of_off {e : Entry} (he : e.on? id = none) (entries : List Entry) :
    Entry.tally id g (e :: entries) = Entry.tally id g entries := by
  rw [tally_cons, he]
  exact Nat.zero_add _

theorem Step.tally_eq_zero {pool : Multiset Step}
    (h : ∀ s ∈ pool, ∀ a, s.on? id = some a → f a = 0) : Step.tally id f pool = 0 := by
  refine Multiset.sum_eq_zero fun n hn => ?_
  obtain ⟨s, hs, rfl⟩ := Multiset.mem_map.1 hn
  cases ha : s.on? id with
  | none => rfl
  | some a => exact h s hs a ha

theorem Step.eq_zero_of_tally_eq_zero {pool : Multiset Step} (h : Step.tally id f pool = 0)
    {s : Step} (hs : s ∈ pool) {a : CountdownAction} (ha : s.on? id = some a) : f a = 0 := by
  obtain ⟨others, rfl⟩ := Multiset.exists_cons_of_mem hs
  rw [Step.tally_cons, ha] at h
  exact Nat.eq_zero_of_add_eq_zero_right h

theorem Entry.eq_zero_of_tally_eq_zero {entries : List Entry} (h : Entry.tally id g entries = 0)
    {e : Entry} (he : e ∈ entries) {a : CountdownAction} {took : Bool}
    (ha : e.on? id = some (a, took)) : g a took = 0 := by
  have := (List.sum_eq_zero_iff.1 h) _ (List.mem_map_of_mem he)
  simpa [ha] using this

end Tally

theorem Entry.exists_of_tally_pos {id : ContextId} {g : CountdownAction → Bool → Nat}
    {entries : List Entry} (h : 0 < Entry.tally id g entries) :
    ∃ e ∈ entries, ∃ a took, e.on? id = some (a, took) ∧ 0 < g a took := by
  induction entries with
  | nil => exact absurd h (Nat.lt_irrefl 0)
  | cons e entries ih =>
    rw [Entry.tally_cons] at h
    by_cases ht : 0 < Entry.tally id g entries
    · obtain ⟨e', he', rest⟩ := ih ht
      exact ⟨e', List.mem_cons_of_mem e he', rest⟩
    · cases he : e.on? id with
      | none =>
        simp only [he, Option.elim_none] at h
        omega
      | some p =>
        simp only [he, Option.elim_some] at h
        exact ⟨e, List.mem_cons_self, p.1, p.2, he, by omega⟩

/-! ### The steps of a notification -/

namespace CountdownAction

/-- The rows that a step subtracts. -/
def units : CountdownAction → Nat
  | subtract count => count.toNat
  | _ => 0

/-- The rows that an action that was taken has subtracted. -/
def spent (a : CountdownAction) (_ : Bool) : Nat := a.units

/-- The steps of a notification that found nothing left pending, in order. -/
inductive Leg where
  | read
  | store
  | claim
  | release
deriving Repr, DecidableEq

/-- Which of these steps an action is, if any. -/
def leg? : CountdownAction → Option Leg
  | clearStart | clearEnd | installLatch | armClaim _ | armPending _ => none
  | readStart | claimStart _ | subtract _ => none
  | readEnd => some .read
  | storeEnd _ => some .store
  | claimRelease => some .claim
  | release => some .release

/-- 1 for the given step of a notification, 0 for any other action. -/
def due (leg : Leg) (a : CountdownAction) : Nat := if a.leg? = some leg then 1 else 0

/-- The same for an action that was taken, whether or not it took effect. -/
def taken (leg : Leg) (a : CountdownAction) (_ : Bool) : Nat := due leg a

/-- The same for an action that took effect. -/
def won (leg : Leg) (a : CountdownAction) (took : Bool) : Nat := if took then due leg a else 0

/-- Whether an action belongs to tasks: all do but the stores of a reset. -/
def isWork : CountdownAction → Bool
  | clearStart | clearEnd | installLatch | armClaim _ | armPending _ => false
  | _ => true

end CountdownAction

/-- Whether a step is one that tasks take and that does not panic. -/
def Step.isWork (id : ContextId) (s : Step) : Bool :=
  !s.isCrash && (s.on? id).all CountdownAction.isWork

theorem Step.isCrash_of_isWork {id : ContextId} {s : Step} (h : s.isWork id = true) :
    s.isCrash = false := by
  simp only [isWork, Bool.and_eq_true, Bool.not_eq_true'] at h
  exact h.1

theorem Step.isWork_on {id : ContextId} {s : Step} {a : CountdownAction}
    (h : s.isWork id = true) (ha : s.on? id = some a) : a.isWork = true := by
  simp only [isWork, ha, Option.all_some, Bool.and_eq_true] at h
  exact h.2

/-- Whether an entry is the last store of a reset of the countdown. -/
def Entry.isReset (id : ContextId) (e : Entry) : Bool :=
  match e.on? id with
  | some (.armPending _, _) => true
  | _ => false

/-- The entries of a journal since the countdown of a context was last reset, the latest
first. -/
def Entry.sinceReset (id : ContextId) (journal : List Entry) : List Entry :=
  journal.takeWhile fun e => !e.isReset id

theorem Entry.sinceReset_cons {id : ContextId} {e : Entry} {journal : List Entry}
    (he : e.isReset id = false) : sinceReset id (e :: journal) = e :: sinceReset id journal := by
  simp [sinceReset, he]

theorem Entry.sinceReset_of_isReset {id : ContextId} {e : Entry} {journal : List Entry}
    (he : e.isReset id = true) : sinceReset id (e :: journal) = [] := by
  simp [sinceReset, he]

theorem Entry.isReset_of_off {id : ContextId} {e : Entry} (h : e.on? id = none) :
    e.isReset id = false := by
  simp [isReset, h]

theorem Entry.isReset_of_isWork {id : ContextId} {e : Entry} {a : CountdownAction} {took : Bool}
    (h : e.on? id = some (a, took)) (ha : a.isWork = true) : e.isReset id = false := by
  rw [isReset, h]
  cases a <;> first | rfl | cases ha

namespace World

/-- What has happened since the countdown of a context was last reset, the latest first. -/
def sinceReset (id : ContextId) (w : World) : List Entry := Entry.sinceReset id w.journal

/-- The rows that have been subtracted since the last reset. -/
def subtracted (id : ContextId) (w : World) : Nat :=
  Entry.tally id CountdownAction.spent (w.sinceReset id)

end World

open CountdownAction

/-- Whatever a step leads to subtracts nothing. -/
theorem Countdown.units_next {c : Countdown} {now : Nat} {a b : CountdownAction}
    (h : (c.exec now a).next = some b) : b.units = 0 := by
  cases a <;> grind [exec, CountdownAction.units]

/-- An entry that took effect was taken. -/
theorem Entry.won_le_taken (id : ContextId) (leg : Leg) (e : Entry) :
    ((e.on? id).elim 0 fun p => won leg p.1 p.2)
      ≤ (e.on? id).elim 0 fun p => taken leg p.1 p.2 := by
  cases e.on? id with
  | none => exact le_refl _
  | some p =>
    simp only [Option.elim_some, won, taken]
    split <;> omega

theorem Entry.tally_won_le (id : ContextId) (leg : Leg) (entries : List Entry) :
    Entry.tally id (won leg) entries ≤ Entry.tally id (taken leg) entries :=
  List.sum_le_sum fun e _ => e.won_le_taken id leg

/-- If as many steps took effect as were taken, then all of them did. -/
theorem Entry.took_of_tally_eq {id : ContextId} {leg : Leg} {entries : List Entry}
    (h : Entry.tally id (won leg) entries = Entry.tally id (taken leg) entries)
    {e : Entry} (he : e ∈ entries) {a : CountdownAction} {took : Bool}
    (ha : e.on? id = some (a, took)) (hleg : a.leg? = some leg) : took = true := by
  induction entries with
  | nil => cases he
  | cons e' entries ih =>
    -- no entry took effect more often than it was taken, so the sums agree entry by entry
    have hle := Entry.tally_won_le id leg entries
    have hle' := e'.won_le_taken id leg
    rw [Entry.tally_cons, Entry.tally_cons] at h
    rcases List.mem_cons.1 he with rfl | he
    · cases took with
      | true => rfl
      | false =>
        simp only [ha, Option.elim_some, won, taken, due, hleg, if_true, Bool.false_eq_true,
          if_false] at h
        omega
    · exact ih (by omega) he

/-! ### Steps at which no notification is under way -/

/-- Whether a task can be at this step while none of its notifications is under way, and
does not panic in it. -/
def Step.isOpening (id : ContextId) (s : Step) : Bool :=
  s.isWork id && (s.on? id).all fun a => a.leg?.isNone

theorem Step.isWork_of_isOpening {id : ContextId} {s : Step} (h : s.isOpening id = true) :
    s.isWork id = true := by
  simp only [isOpening, Bool.and_eq_true] at h
  exact h.1

theorem Step.leg?_of_isOpening {id : ContextId} {s : Step} {a : CountdownAction}
    (h : s.isOpening id = true) (ha : s.on? id = some a) : a.leg? = none := by
  simp only [isOpening, ha, Option.all_some, Bool.and_eq_true, Option.isNone_iff_eq_none] at h
  exact h.2

theorem Step.tally_due_of_isOpening {id : ContextId} {pool : Multiset Step}
    (h : ∀ s ∈ pool, s.isOpening id) (leg : Leg) : Step.tally id (due leg) pool = 0 := by
  refine Step.tally_eq_zero id _ fun s hs a ha => ?_
  simp [due, Step.leg?_of_isOpening (h s hs) ha]

end BenchLoop
