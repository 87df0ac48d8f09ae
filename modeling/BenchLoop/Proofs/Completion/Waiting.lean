/-
BenchLoop/Proofs/Completion/Waiting.lean

A latch under its lock, with any number of threads inside and any order of their steps.

What one thread can do next depends on its call, on the point where it stands and on the
flag alone (`LatchCall.Goes`); what this does to the lock, the flag and the queue is told
by the points it goes between (`WaitingRoom.pass`).  So every move is described once
(`move_cases`), and what follows is about such a pass.

* `Orderly`: the holder is the one thread at a point inside the lock, the answers given
  agree with the flag, one release call at most has set it, and as long as it is set with
  threads left in the queue, somebody is about to notify them (`orderly_after`);
* `failed_expired`, `expired_taken`: where a limited wait that has failed comes from;
* `one_shot_latch`: what the callers of a latch rely on, whatever the scheduler does.
-/
import BenchLoop.Completion.Latch.Waiting
import Mathlib.Data.List.Induction
import Mathlib.Tactic.SplitIfs

namespace BenchLoop

/-! ### One thread -/

/-- At this point of a call the lock is in the thread's hands. -/
def LatchPoint.holds : LatchPoint → Bool
  | .testing | .notifying | .expired => true
  | _ => false

namespace LatchCall

/-- Where a thread goes from one point of its call, the flag being as it is. -/
inductive Goes (released : Bool) : LatchCall → LatchPoint → LatchPoint → Prop where
  | locks (call) : Goes released call .entering .testing
  | relocks (call) : Goes released call (.woken false) .testing
  | relocksLate (call) : Goes released call (.woken true) .expired
  | refused : released = true → Goes released .release .testing (.returned false)
  | sets : released = false → Goes released .release .testing .notifying
  | notifies (call) : Goes released call .notifying (.returned true)
  | looks : Goes released .isReleased .testing (.returned released)
  | passes (call) : released = true → call = .wait ∨ call = .waitAtMost →
      Goes released call .testing (.returned true)
  | joins (call) : released = false → call = .wait ∨ call = .waitAtMost →
      Goes released call .testing .queued
  | wakes (call) : Goes released call .queued (.woken false)
  | expires : Goes released .waitAtMost .queued (.woken true)
  | answers (call) : Goes released call .expired (.returned released)

/-- The points a call can stand at, the flag being as it is.  Only a release call
notifies and only a limited wait runs out of time; an answer that speaks of a release is
given after one only. -/
def Admits (released : Bool) : LatchCall → LatchPoint → Prop
  | _, .entering | _, .testing => True
  | .release, .notifying | .release, .returned _ => released = true
  | .isReleased, .returned answer => answer = true → released = true
  | .wait, .queued | .wait, .woken false => True
  | .wait, .returned answer => answer = true ∧ released = true
  | .waitAtMost, .queued | .waitAtMost, .woken _ | .waitAtMost, .expired => True
  | .waitAtMost, .returned answer => answer = true → released = true
  | _, _ => False

variable {released : Bool} {call : LatchCall} {p q : LatchPoint}

/-- A later flag admits what an earlier one does. -/
theorem Admits.mono {later : Bool} (h : Admits released call p)
    (hle : released = true → later = true) : Admits later call p := by
  unfold Admits at h ⊢
  split at h <;> simp_all

/-- Each step leads to a point that the call can stand at. -/
theorem Goes.admits (h : Goes released call p q) (hp : Admits released call p) :
    Admits (released || q = .notifying) call q := by
  cases h with
  | notifies | wakes | answers | relocksLate => cases call <;> simp_all [Admits]
  | passes _ hreleased hcall | joins _ hreleased hcall =>
    rcases hcall with rfl | rfl <;> simp_all [Admits]
  | _ => simp_all [Admits]

/-- Only a release call goes on to notify. -/
theorem Goes.call_eq_release (h : Goes released call p .notifying) : call = .release := by
  cases h
  rfl

/-- Nobody joins the queue of a set flag. -/
theorem Goes.released_eq_false (h : Goes released call p .queued) : released = false := by
  cases h with
  | joins _ hreleased => exact hreleased

/-- A limited wait whose time has run out has been woken by that. -/
theorem Goes.eq_woken (h : Goes released call p .expired) : p = .woken true := by
  cases h
  rfl

/-- A limited wait fails only after its time has run out, and on a flag that is not set. -/
theorem Goes.eq_expired (h : Goes released .waitAtMost p (.returned false)) :
    p = .expired ∧ released = false := by
  generalize hanswer : LatchPoint.returned false = q at h
  cases h <;> simp_all

/-- The points of a release call that has set the flag. -/
def HasSet : LatchCall → LatchPoint → Prop
  | .release, .notifying => True
  | .release, .returned answer => answer = true
  | _, _ => False

theorem hasSet_iff :
    call.HasSet p ↔ call = .release ∧ (p = .notifying ∨ p = .returned true) := by
  cases call <;> cases p <;> simp [HasSet]

theorem HasSet.released_eq (h : call.HasSet p) (hp : Admits released call p) :
    released = true := by
  obtain ⟨rfl, rfl | rfl⟩ := hasSet_iff.1 h
  · exact hp
  · exact hp

/-- A release call that has set the flag stays one that has. -/
theorem Goes.hasSet (h : Goes released call p q) (hp : call.HasSet p) : call.HasSet q := by
  obtain ⟨rfl, rfl | rfl⟩ := hasSet_iff.1 hp
  · cases h with
    | notifies => exact rfl
  · cases h

/-- Only where the flag was not set does a call become one that has set it. -/
theorem Goes.hasSet_cases (h : Goes released call p q) (hadm : Admits released call p)
    (hq : call.HasSet q) : call.HasSet p ∨ released = false := by
  obtain ⟨rfl, rfl | rfl⟩ := hasSet_iff.1 hq
  · cases h with
    | sets hreleased => exact .inr hreleased
  · cases h with
    | notifies => exact .inl trivial
    | passes _ _ hcall => simp at hcall
    | answers => exact hadm.elim

end LatchCall

/-! ### One move -/

namespace WaitingRoom

variable {room : WaitingRoom} {i j : Nat} {v : Visitor} {p : LatchPoint}

/-- The room after the `i`-th thread, which is `v`, has gone on to another point.  The
lock changes hands as the two points say, whoever goes on to notify sets the flag, and
whoever has notified has woken the queue. -/
def pass (room : WaitingRoom) (i : Nat) (v : Visitor) (p : LatchPoint) : WaitingRoom where
  latch := ⟨room.latch.released || p = .notifying⟩
  holder :=
    if p.holds = v.point.holds then room.holder else if p.holds then some i else none
  visitors :=
    ((if v.point = .notifying then room.notifyAll else room).place i p).visitors

/-- The room after its `i`-th thread has gone on, as its call and the flag allow it; if it
takes the lock, the lock was free. -/
def Passes (room : WaitingRoom) (i : Nat) (later : WaitingRoom) : Prop :=
  ∃ v p, room.visitors[i]? = some v ∧ v.call.Goes room.latch.released v.point p ∧
    (p.holds → v.point.holds ∨ room.holder = none) ∧ later = room.pass i v p

/-- A thread that wants the lock takes it if it is free, and else stands still. -/
theorem lock_cases (hv : room.visitors[i]? = some v) (hnot : ¬v.point.holds)
    (hp : p.holds) (hne : p ≠ .notifying)
    (hgoes : v.call.Goes room.latch.released v.point p) :
    (room.lock? i p).getD room = room ∨ room.Passes i ((room.lock? i p).getD room) := by
  cases hfree : room.holder with
  | some k => exact .inl (by simp [lock?, hfree])
  | none =>
    have hpoint : v.point ≠ .notifying := by rintro h; simp [h, LatchPoint.holds] at hnot
    exact .inr ⟨v, p, hv, hgoes, fun _ => .inr hfree,
      by simp [lock?, hfree, pass, place, hp, hnot, hpoint, hne]⟩

/-- A thread that looks at the flag. -/
theorem passes_test (room : WaitingRoom) {call : LatchCall}
    (hv : room.visitors[i]? = some ⟨call, .testing⟩) : room.Passes i (room.test i call) := by
  obtain ⟨⟨released⟩, holder, visitors⟩ := room
  have goes : ∀ p, call.Goes released .testing p →
      (WaitingRoom.mk ⟨released⟩ holder visitors).test i call =
        pass ⟨⟨released⟩, holder, visitors⟩ i ⟨call, .testing⟩ p →
      Passes ⟨⟨released⟩, holder, visitors⟩ i (test ⟨⟨released⟩, holder, visitors⟩ i call) :=
    fun p hgoes heq => ⟨_, p, hv, hgoes, fun _ => .inl rfl, heq⟩
  -- four calls meet a flag that is set or not
  cases released with
  | false =>
    cases call with
    | release =>
      exact goes .notifying (.sets rfl)
        (by simp [test, pass, place, LatchPoint.holds, Latch.release])
    | isReleased =>
      exact goes (.returned false) .looks (by simp [test, pass, place, unlock, LatchPoint.holds])
    | wait | waitAtMost =>
      exact goes .queued (.joins _ rfl (by simp))
        (by simp [test, pass, place, unlock, LatchPoint.holds])
  | true =>
    cases call with
    | release =>
      exact goes (.returned false) (.refused rfl)
        (by simp [test, pass, place, unlock, LatchPoint.holds])
    | isReleased =>
      exact goes (.returned true) .looks (by simp [test, pass, place, unlock, LatchPoint.holds])
    | wait | waitAtMost =>
      exact goes (.returned true) (.passes _ rfl (by simp))
        (by simp [test, pass, place, unlock, LatchPoint.holds])

/-- **What a move can do**: it changes nothing, or lets one thread go on. -/
theorem move_cases (room : WaitingRoom) (m : Move) :
    room.move m = room ∨ ∃ i, room.Passes i (room.move m) := by
  cases m with
  | wake i expired =>
    simp only [move, wake?]
    split
    · next call hv =>
      split
      · exact .inl rfl
      · next hcan =>
        refine .inr ⟨i, _, .woken expired, hv, ?_, by simp [LatchPoint.holds],
          by simp [pass, place, LatchPoint.holds]⟩
        cases expired with
        | false => exact .wakes call
        | true =>
          obtain rfl : call = .waitAtMost := by simpa using hcan
          exact .expires
    · exact .inl rfl
  | step i =>
    simp only [move, step?]
    split
    · exact .inl rfl
    · next v hv =>
      obtain ⟨call, point⟩ := v
      cases point with
      | queued | returned answer => exact .inl rfl
      | entering =>
        exact (lock_cases hv (by simp [LatchPoint.holds]) rfl (by simp) (.locks call)).imp_right
          fun h => ⟨i, h⟩
      | woken expired =>
        refine (lock_cases hv (by simp [LatchPoint.holds]) ?_ ?_ ?_).imp_right fun h => ⟨i, h⟩
        · cases expired <;> rfl
        · cases expired <;> simp
        · cases expired with
          | false => exact .relocks call
          | true => exact .relocksLate call
      -- this thread holds the lock already
      | testing => exact .inr ⟨i, passes_test room hv⟩
      | notifying =>
        exact .inr ⟨i, _, .returned true, hv, .notifies call, by simp [LatchPoint.holds],
          by simp [pass, place, LatchPoint.holds, unlock, notifyAll]⟩
      | expired =>
        exact .inr ⟨i, _, .returned room.latch.released, hv, .answers call,
          by simp [LatchPoint.holds], by simp [pass, place, LatchPoint.holds, unlock]⟩

/-! ### What each thread shows afterwards -/

/-- The call of the `i`-th thread. -/
def call? (room : WaitingRoom) (i : Nat) : Option LatchCall :=
  room.visitors[i]?.map Visitor.call

/-- Where the `i`-th thread stands. -/
def point? (room : WaitingRoom) (i : Nat) : Option LatchPoint :=
  room.visitors[i]?.map Visitor.point

theorem answer?_eq_some {answer : Bool} :
    room.answer? i = some answer ↔ room.point? i = some (.returned answer) := by
  cases h : room.visitors[i]? with
  | none => simp [answer?, point?, h]
  | some v =>
    obtain ⟨call, point⟩ := v
    cases point <;> simp [answer?, point?, h]

theorem visitors_pass (j : Nat) :
    (room.pass i v p).visitors[j]? = room.visitors[j]?.map fun u =>
      if i = j then { u with point := p }
      else if v.point = .notifying ∧ u.point = .queued then { u with point := .woken false }
      else u := by
  simp only [pass, place]
  by_cases hnotify : v.point = .notifying <;> by_cases hij : i = j <;>
    cases hu : room.visitors[j]? <;> simp [notifyAll, hnotify, hij, hu]
  split <;> rfl

/-- Nobody is given another call. -/
theorem call?_pass (j : Nat) : (room.pass i v p).call? j = room.call? j := by
  simp only [call?, visitors_pass, Option.map_map]
  congr 1
  funext u
  simp only [Function.comp_apply, apply_ite Visitor.call, ite_self]

theorem point?_pass_self (hv : room.visitors[i]? = some v) :
    (room.pass i v p).point? i = some p := by
  simp [point?, visitors_pass, hv]

/-- The other threads stand where they stood, except that a notified queue is woken. -/
theorem point?_pass_of_ne (hij : i ≠ j) :
    (room.pass i v p).point? j = (room.point? j).map fun q =>
      if v.point = .notifying ∧ q = .queued then .woken false else q := by
  simp only [point?, visitors_pass, Option.map_map, if_neg hij]
  congr 1
  funext u
  simp only [Function.comp_apply, apply_ite Visitor.point]

/-- Whoever comes in stands at the end and is about to take the lock. -/
theorem visitors_enter (call : LatchCall) (j : Nat) :
    (room.enter call).visitors[j]? =
      if j = room.visitors.length then some { call } else room.visitors[j]? := by
  rcases Nat.lt_trichotomy j room.visitors.length with hlt | rfl | hgt
  · rw [if_neg (Nat.ne_of_lt hlt)]
    exact List.getElem?_append_left hlt
  · rw [if_pos rfl]
    exact List.getElem?_concat_length
  · rw [if_neg (Nat.ne_of_gt hgt), List.getElem?_eq_none (Nat.le_of_lt hgt)]
    exact List.getElem?_eq_none (by simpa [enter] using Nat.succ_le_of_lt hgt)

/-! ### What every room keeps -/

/-- The lock is in the hands of the `i`-th thread, going by where it stands. -/
def Holds (room : WaitingRoom) (i : Nat) : Prop := ∃ p, room.point? i = some p ∧ p.holds

/-- The call of the `i`-th thread is a release that has set the flag. -/
def HasSet (room : WaitingRoom) (i : Nat) : Prop :=
  ∃ v, room.visitors[i]? = some v ∧ v.call.HasSet v.point

/-- The rooms that can come about. -/
structure Orderly (room : WaitingRoom) : Prop where
  /-- Everyone stands at a point of its call that the flag allows. -/
  admits : ∀ (i : Nat) (v : Visitor), room.visitors[i]? = some v →
    v.call.Admits room.latch.released v.point
  /-- The lock is held by the thread that says so, and by no other. -/
  holder : ∀ i, room.holder = some i ↔ room.Holds i
  /-- As long as the flag is set and somebody is queued, somebody is about to notify. -/
  notified : room.latch.released = true → ∀ i, room.point? i = some .queued →
    ∃ j, room.point? j = some .notifying
  /-- A flag that is set has been set by a release call. -/
  setter : room.latch.released = true → ∃ i, room.HasSet i
  /-- No two calls have set it. -/
  unique : ∀ i j, room.HasSet i → room.HasSet j → i = j

theorem orderly_empty : Orderly {} where
  admits := by simp
  holder := by simp [Holds, point?]
  notified := by simp
  setter := by simp
  unique := by simp [HasSet]

theorem HasSet.released (h : room.Orderly) (hi : room.HasSet i) :
    room.latch.released = true := by
  obtain ⟨v, hv, hset⟩ := hi
  exact hset.released_eq (h.admits i v hv)

theorem released_pass :
    (room.pass i v p).latch.released = (room.latch.released || p = .notifying) := rfl

theorem holder_pass_eq : (room.pass i v p).holder =
    if p.holds = v.point.holds then room.holder else if p.holds then some i else none := rfl

theorem holds_pass_of_ne (hij : i ≠ j) : (room.pass i v p).Holds j ↔ room.Holds j := by
  simp only [Holds, point?_pass_of_ne hij, Option.map_eq_some_iff]
  constructor
  · rintro ⟨_, ⟨q, hq, rfl⟩, hholds⟩
    split_ifs at hholds
    · cases hholds
    · exact ⟨q, hq, hholds⟩
  · rintro ⟨q, hq, hholds⟩
    refine ⟨_, ⟨q, hq, rfl⟩, ?_⟩
    rw [if_neg (by rintro ⟨-, rfl⟩; cases hholds)]
    exact hholds

section Pass

variable (hv : room.visitors[i]? = some v)
  (hgoes : v.call.Goes room.latch.released v.point p)
include hv hgoes

theorem Orderly.admits_pass (h : room.Orderly) (j : Nat) (u : Visitor)
    (hu : (room.pass i v p).visitors[j]? = some u) :
    u.call.Admits (room.pass i v p).latch.released u.point := by
  rw [visitors_pass, Option.map_eq_some_iff] at hu
  obtain ⟨u₀, hu₀, rfl⟩ := hu
  have hadm := h.admits j u₀ hu₀
  rw [released_pass]
  split_ifs with hij hnotified
  · obtain rfl : u₀ = v := by simpa [← hij, hv] using hu₀.symm
    exact hgoes.admits hadm
  · -- a woken thread: its call was one that queues
    rw [hnotified.2] at hadm
    revert hadm
    cases u₀.call <;> simp [LatchCall.Admits]
  · exact hadm.mono fun hreleased => by simp [hreleased]

theorem hasSet_pass (hj : room.HasSet j) : (room.pass i v p).HasSet j := by
  obtain ⟨u, hu, hset⟩ := hj
  refine ⟨_, by rw [visitors_pass, hu, Option.map_some], ?_⟩
  split_ifs with hij hnotified
  · obtain rfl : u = v := by simpa [← hij, hv] using hu.symm
    exact hgoes.hasSet hset
  · -- whoever was queued has set nothing
    rw [hnotified.2, LatchCall.hasSet_iff] at hset
    simp at hset
  · exact hset

/-- A call that has set the flag after a step had done so before, or has just done so. -/
theorem Orderly.hasSet_of_pass (h : room.Orderly) (hj : (room.pass i v p).HasSet j) :
    room.HasSet j ∨ i = j ∧ room.latch.released = false := by
  obtain ⟨u, hu, hset⟩ := hj
  rw [visitors_pass, Option.map_eq_some_iff] at hu
  obtain ⟨u₀, hu₀, rfl⟩ := hu
  split_ifs at hset with hij hnotified
  · obtain rfl : u₀ = v := by simpa [← hij, hv] using hu₀.symm
    rcases hgoes.hasSet_cases (h.admits j u₀ hu₀) hset with hset | hreleased
    · exact .inl ⟨u₀, hu₀, hset⟩
    · exact .inr ⟨hij, hreleased⟩
  · rw [LatchCall.hasSet_iff] at hset
    simp at hset
  · exact .inl ⟨u₀, hu₀, hset⟩

theorem Orderly.unique_pass (h : room.Orderly) (j k : Nat) (hj : (room.pass i v p).HasSet j)
    (hk : (room.pass i v p).HasSet k) : j = k := by
  rcases h.hasSet_of_pass hv hgoes hj, h.hasSet_of_pass hv hgoes hk with
    ⟨hj | ⟨rfl, hnot⟩, hk | ⟨rfl, hnot'⟩⟩
  · exact h.unique j k hj hk
  · simp [hj.released h] at hnot'
  · simp [hk.released h] at hnot
  · rfl

theorem Orderly.setter_pass (h : room.Orderly)
    (hreleased : (room.pass i v p).latch.released = true) :
    ∃ j, (room.pass i v p).HasSet j := by
  rcases hold : room.latch.released with _ | _
  · -- the flag has just been set, by the thread that goes on to notify
    obtain rfl : p = .notifying := by simpa [released_pass, hold] using hreleased
    exact ⟨i, ⟨v.call, .notifying⟩, by simp [visitors_pass, hv],
      by simp [hgoes.call_eq_release, LatchCall.HasSet]⟩
  · obtain ⟨j, hj⟩ := h.setter hold
    exact ⟨j, hasSet_pass hv hgoes hj⟩

theorem Orderly.notified_pass (h : room.Orderly)
    (hreleased : (room.pass i v p).latch.released = true) (j : Nat)
    (hj : (room.pass i v p).point? j = some .queued) :
    ∃ k, (room.pass i v p).point? k = some .notifying := by
  by_cases hp : p = .notifying
  · exact ⟨i, by rw [point?_pass_self hv, hp]⟩
  have hold : room.latch.released = true := by simpa [released_pass, hp] using hreleased
  have hij : i ≠ j := by
    rintro rfl
    obtain rfl : p = .queued := by simpa [point?_pass_self hv] using hj
    simp [hgoes.released_eq_false] at hold
  rw [point?_pass_of_ne hij, Option.map_eq_some_iff] at hj
  obtain ⟨q, hq, hqueued⟩ := hj
  split_ifs at hqueued with hnotified
  -- who is about to notify is still there, for a pass past that would have emptied the queue
  obtain ⟨k, hk⟩ := h.notified hold j (hqueued ▸ hq)
  have hnot : v.point ≠ .notifying := fun hnotify => hnotified ⟨hnotify, hqueued⟩
  have hik : i ≠ k := by
    rintro rfl
    exact hnot (by simpa [point?, hv] using hk)
  exact ⟨k, by simp [point?_pass_of_ne hik, hk]⟩

omit hgoes in
theorem Orderly.holder_pass (h : room.Orderly)
    (hlock : p.holds → v.point.holds ∨ room.holder = none) (j : Nat) :
    (room.pass i v p).holder = some j ↔ (room.pass i v p).Holds j := by
  have hself : room.holder = some i ↔ v.point.holds := by
    rw [h.holder]
    simp [Holds, point?, hv]
  rw [holder_pass_eq]
  by_cases hij : i = j
  · subst hij
    simp only [Holds, point?_pass_self hv, Option.some_inj, exists_eq_left']
    split_ifs <;> simp_all
  · rw [holds_pass_of_ne hij, ← h.holder]
    -- the lock stays with its holder, is taken while it is free, or is given back
    split_ifs with hsame hp
    · rfl
    · have hfree := (hlock hp).resolve_left (by simp_all)
      simp [hij, hfree]
    · have hheld : room.holder = some i := hself.2 (by simp_all)
      simp [hij, hheld]

end Pass

theorem Orderly.of_passes (h : room.Orderly) {later : WaitingRoom} (hp : room.Passes i later) :
    later.Orderly := by
  obtain ⟨v, p, hv, hgoes, hlock, rfl⟩ := hp
  exact
    { admits := h.admits_pass hv hgoes
      holder := h.holder_pass hv hlock
      notified := h.notified_pass hv hgoes
      setter := h.setter_pass hv hgoes
      unique := h.unique_pass hv hgoes }

/-! ### Any run -/

/-- What can happen in a waiting room. -/
inductive Happening where
  /-- A thread comes in with a call. -/
  | enter (call : LatchCall)
  /-- The scheduler moves one of the threads inside. -/
  | move (m : Move)
deriving Repr, DecidableEq

/-- The room after something has happened. -/
def happen (room : WaitingRoom) : Happening → WaitingRoom
  | .enter call => room.enter call
  | .move m => room.move m

/-- A room that was empty, its flag not set, after some happenings. -/
def after (hs : List Happening) : WaitingRoom := hs.foldl happen {}

@[simp] theorem after_concat (hs : List Happening) (h : Happening) :
    after (hs ++ [h]) = (after hs).happen h := by
  simp [after]

/-- **What a happening can do**: nothing, let one thread go on, or let one in. -/
theorem happen_cases (room : WaitingRoom) (h : Happening) :
    room.happen h = room ∨ (∃ i, room.Passes i (room.happen h)) ∨
      ∃ call, room.happen h = room.enter call := by
  cases h with
  | enter call => exact .inr (.inr ⟨call, rfl⟩)
  | move m => exact (room.move_cases m).imp_right .inl

/-- Whoever has come in does not do anything yet. -/
theorem point?_enter (call : LatchCall) (j : Nat) :
    (room.enter call).point? j =
      if j = room.visitors.length then some .entering else room.point? j := by
  simp only [point?, visitors_enter]
  split_ifs <;> rfl

theorem hasSet_enter (call : LatchCall) : (room.enter call).HasSet j ↔ room.HasSet j := by
  simp only [HasSet, visitors_enter]
  split_ifs with hj
  · simp [hj, LatchCall.hasSet_iff]
  · rfl

theorem Orderly.enter (h : room.Orderly) (call : LatchCall) : (room.enter call).Orderly where
  admits j u hu := by
    rw [visitors_enter] at hu
    split_ifs at hu with hj
    · obtain rfl := Option.some_inj.1 hu
      cases call <;> trivial
    · exact h.admits j u hu
  holder j := by
    -- the newcomer waits for the lock without holding it
    have hlast : ¬room.Holds room.visitors.length := by simp [Holds, point?]
    refine (h.holder j).trans ?_
    simp only [Holds, point?_enter]
    split_ifs with hj
    · subst hj
      exact iff_of_false hlast (by simp [LatchPoint.holds])
    · rfl
  notified hreleased j hj := by
    rw [point?_enter] at hj
    split_ifs at hj with hlast
    · cases hj
    obtain ⟨k, hk⟩ := h.notified hreleased j hj
    refine ⟨k, ?_⟩
    rw [point?_enter, if_neg, hk]
    rintro rfl
    simp [point?] at hk
  setter hreleased := (h.setter hreleased).imp fun k => (hasSet_enter call).2
  unique j k hj hk := h.unique j k ((hasSet_enter call).1 hj) ((hasSet_enter call).1 hk)

/-- **What every happening keeps.** -/
theorem Orderly.happen (h : room.Orderly) (e : Happening) : (room.happen e).Orderly := by
  rcases room.happen_cases e with heq | ⟨i, hp⟩ | ⟨call, heq⟩
  · rwa [heq]
  · exact h.of_passes hp
  · exact heq ▸ h.enter call

theorem orderly_after (hs : List Happening) : (after hs).Orderly := by
  induction hs using List.reverseRecOn with
  | nil => exact orderly_empty
  | append_singleton hs e ih => exact after_concat hs e ▸ ih.happen e

/-! ### What stays -/

theorem released_happen (h : room.latch.released = true) (e : Happening) :
    (room.happen e).latch.released = true := by
  rcases room.happen_cases e with heq | ⟨i, v, p, hv, -, -, heq⟩ | ⟨call, heq⟩ <;> rw [heq]
  · exact h
  · simp [released_pass, h]
  · exact h

theorem hasSet_happen (h : room.HasSet j) (e : Happening) : (room.happen e).HasSet j := by
  rcases room.happen_cases e with heq | ⟨i, v, p, hv, hgoes, -, heq⟩ | ⟨call, heq⟩ <;> rw [heq]
  · exact h
  · exact hasSet_pass hv hgoes h
  · exact (hasSet_enter call).2 h

/-- What every happening keeps is kept by all that come later. -/
theorem after_append_of_happen {P : WaitingRoom → Prop}
    (hP : ∀ room e, P room → P (room.happen e)) (hs later : List Happening) (h : P (after hs)) :
    P (after (hs ++ later)) := by
  induction later using List.reverseRecOn with
  | nil => simpa using h
  | append_singleton later e ih =>
    rw [← List.append_assoc, after_concat]
    exact hP _ e ih

theorem released_append (hs later : List Happening) (h : (after hs).latch.released = true) :
    (after (hs ++ later)).latch.released = true :=
  after_append_of_happen (P := fun room => room.latch.released = true)
    (fun _ e h => released_happen h e) hs later h

/-- **Where a thread comes from.**  It stood there before, has just come in, has just been
notified, or has gone on by itself. -/
theorem point?_happen {e : Happening} (h : (room.happen e).point? i = some p) :
    room.point? i = some p ∨ p = .entering ∨ p = .woken false ∨
      ∃ v, room.visitors[i]? = some v ∧ v.call.Goes room.latch.released v.point p ∧
        (p.holds → v.point.holds ∨ room.holder = none) ∧ room.happen e = room.pass i v p := by
  rcases room.happen_cases e with heq | ⟨j, v, q, hv, hgoes, hlock, heq⟩ | ⟨call, heq⟩
  · exact .inl (heq ▸ h)
  · rw [heq] at h
    by_cases hji : j = i
    · subst hji
      obtain rfl : q = p := by simpa [point?_pass_self hv] using h
      exact .inr (.inr (.inr ⟨v, hv, hgoes, hlock, heq⟩))
    · rw [point?_pass_of_ne hji, Option.map_eq_some_iff] at h
      obtain ⟨q, hq, rfl⟩ := h
      split_ifs
      · exact .inr (.inr (.inl rfl))
      · exact .inl hq
  · rw [heq, point?_enter] at h
    split_ifs at h
    · exact .inr (.inl (Option.some_inj.1 h).symm)
    · exact .inl h

/-- A thread keeps its call. -/
theorem call?_happen {e : Happening} {call : LatchCall}
    (h : (room.happen e).call? i = some call) (hp : room.point? i ≠ none) :
    room.call? i = some call := by
  rcases room.happen_cases e with heq | ⟨j, v, q, hv, -, -, heq⟩ | ⟨call', heq⟩
  · exact heq ▸ h
  · rwa [heq, call?_pass] at h
  · rw [heq] at h
    simp only [call?, visitors_enter] at h
    split_ifs at h with hi
    · simp [point?, hi] at hp
    · exact h

/-- A wait whose time has run out took the lock at some moment. -/
theorem expired_taken {hs : List Happening} (h : (after hs).point? i = some .expired) :
    ∃ before e since, hs = before ++ e :: since ∧
      (after before).point? i = some (.woken true) ∧ (after before).holder = none ∧
      (after (before ++ [e])).holder = some i := by
  induction hs using List.reverseRecOn with
  | nil => simp [after, point?] at h
  | append_singleton hs e ih =>
    have horderly := orderly_after (hs ++ [e])
    have hholder := (horderly.holder i).2 ⟨_, h, rfl⟩
    rw [after_concat] at h
    rcases point?_happen h with hsame | hentering | hwoken | ⟨v, hv, hgoes, hlock, -⟩
    · obtain ⟨before, e', since, rfl, hbefore⟩ := ih hsame
      exact ⟨before, e', since ++ [e], by simp, hbefore⟩
    · cases hentering
    · cases hwoken
    · have hwoken := hgoes.eq_woken
      -- the lock was free, for the thread itself did not hold it
      have hfree := (hlock rfl).resolve_left (by simp [hwoken, LatchPoint.holds])
      exact ⟨hs, e, [], rfl, by simp [point?, hv, hwoken], hfree, hholder⟩

/-- A limited wait that has failed looked at the flag at some moment, after its time had
run out, and found it not set. -/
theorem failed_expired {hs : List Happening} (hcall : (after hs).call? i = some .waitAtMost)
    (h : (after hs).point? i = some (.returned false)) :
    ∃ before since, hs = before ++ since ∧ (after before).point? i = some .expired ∧
      (after before).latch.released = false := by
  induction hs using List.reverseRecOn with
  | nil => simp [after, point?] at h
  | append_singleton hs e ih =>
    rw [after_concat] at h hcall
    rcases point?_happen h with hsame | hentering | hwoken | ⟨v, hv, hgoes, -, heq⟩
    · obtain ⟨before, since, rfl, hbefore⟩ := ih (call?_happen hcall (by simp [hsame])) hsame
      exact ⟨before, since ++ [e], by simp, hbefore⟩
    · cases hentering
    · cases hwoken
    · have hv' : v.call = .waitAtMost := by
        rw [heq, call?_pass, call?, hv] at hcall
        exact Option.some_inj.1 hcall
      rw [hv'] at hgoes
      obtain ⟨hexpired, hnot⟩ := hgoes.eq_expired
      exact ⟨hs, [e], rfl, by simp [point?, hv, hexpired], hnot⟩

/-- Nobody stays behind: with the flag set and the lock free, each thread inside that goes
on by itself gets an answer. -/
theorem Orderly.answer?_advance (h : room.Orderly) (hreleased : room.latch.released = true)
    (hfree : room.holder = none) (hi : i < room.visitors.length) :
    ∃ answer, (room.advance i).answer? i = some answer := by
  obtain ⟨⟨call, point⟩, hv⟩ : ∃ v, room.visitors[i]? = some v :=
    ⟨_, List.getElem?_eq_getElem hi⟩
  have hpoint : room.point? i = some point := by simp [point?, hv]
  have hnot : ∀ j, ¬room.Holds j := fun j hj => by simpa [hfree] using (h.holder j).2 hj
  simp only [advance, longestCall, List.replicate, List.foldl_cons, List.foldl_nil]
  cases point with
  | entering =>
    cases call <;> simp [move, step?, lock?, place, test, unlock, answer?, hv, hfree, hreleased]
  | woken expired =>
    cases call <;> cases expired <;>
      simp [move, step?, lock?, place, test, unlock, answer?, hv, hfree, hreleased]
  | returned answer => simp [move, step?, answer?, hv]
  -- who waits here while the flag is set is about to be notified by someone who holds the lock
  | queued =>
    obtain ⟨j, hj⟩ := h.notified hreleased i hpoint
    exact (hnot j ⟨_, hj, rfl⟩).elim
  | testing | notifying | expired => exact (hnot i ⟨_, hpoint, rfl⟩).elim

/-- The release call that has set the flag answers that it has, at the latest with its
next step. -/
theorem HasSet.answers (h : room.HasSet i) : room.call? i = some .release ∧
    (room.answer? i = some true ∨ (room.move (.step i)).answer? i = some true) := by
  obtain ⟨⟨call, point⟩, hv, hset⟩ := h
  cases call <;> cases point <;> simp only [LatchCall.HasSet] at hset
  · exact ⟨by simp [call?, hv],
      .inr (by simp [move, step?, answer?, hv, unlock, place, notifyAll])⟩
  · subst hset
    exact ⟨by simp [call?, hv], .inl (by simp [answer?, hv])⟩

/-- A release call that has answered is the one that has set the flag, or says that it is not. -/
theorem Orderly.release_answers (h : room.Orderly) (hi : room.HasSet i) {answer : Bool}
    (hcall : room.call? j = some .release) (hanswer : room.answer? j = some answer) :
    answer = true ↔ j = i := by
  rw [answer?_eq_some] at hanswer
  obtain ⟨v, hv, hcall⟩ := Option.map_eq_some_iff.1 hcall
  have hpoint : v.point = .returned answer := by simpa [point?, hv] using hanswer
  constructor
  · rintro rfl
    exact h.unique j i ⟨v, hv, by simp [hcall, hpoint, LatchCall.HasSet]⟩ hi
  · rintro rfl
    obtain ⟨u, hu, hset⟩ := hi
    obtain rfl : u = v := by simpa [hv] using hu.symm
    simpa [hcall, hpoint, LatchCall.HasSet] using hset

/-- An answer agrees with the flag as the call of the thread has it. -/
theorem Orderly.admits_answer (h : room.Orderly) {call : LatchCall} {answer : Bool}
    (hcall : room.call? i = some call) (hanswer : room.answer? i = some answer) :
    call.Admits room.latch.released (.returned answer) := by
  rw [answer?_eq_some] at hanswer
  obtain ⟨v, hv, rfl⟩ := Option.map_eq_some_iff.1 hcall
  have hpoint : v.point = .returned answer := by simpa [point?, hv] using hanswer
  exact hpoint ▸ h.admits i v hv

/-- **A one-shot latch without lost wake-ups.**  Let any threads come in with any calls,
and let the scheduler move them in any order, wake them for no reason and let their time
run out.

The flag stays set once it is set.  A release that has returned has found it set or has
set it, and one call alone has: it says so with its next step at the latest, while every
other release says that it has not, now and at any later time.  A wait returns on a set
flag only; a limited wait that says the latch was released says so of a set flag, and one
that says it was not took the lock again, after its time had run out, while the flag was
not set.  Finally nobody is queued where the flag is set and the lock free, and everyone
inside who then goes on by himself gets his answer. -/
theorem one_shot_latch (hs : List Happening) :
    ((after hs).latch.released = true →
      (∀ later, (after (hs ++ later)).latch.released = true) ∧
      ∃ i, (after hs).call? i = some .release ∧
        ((after hs).answer? i = some true ∨
          ((after hs).move (.step i)).answer? i = some true) ∧
        ∀ later j answer, (after (hs ++ later)).call? j = some .release →
          (after (hs ++ later)).answer? j = some answer → (answer = true ↔ j = i)) ∧
    (∀ i answer, (after hs).call? i = some .release → (after hs).answer? i = some answer →
      (after hs).latch.released = true) ∧
    (∀ i answer, (after hs).call? i = some .wait → (after hs).answer? i = some answer →
      (after hs).latch.released = true) ∧
    (∀ i, (after hs).call? i = some .waitAtMost → (after hs).answer? i = some true →
      (after hs).latch.released = true) ∧
    (∀ i, (after hs).call? i = some .waitAtMost → (after hs).answer? i = some false →
      ∃ before e since, hs = before ++ e :: since ∧
        (after before).point? i = some (.woken true) ∧ (after before).holder = none ∧
        (after (before ++ [e])).holder = some i ∧
        (after (before ++ [e])).latch.released = false) ∧
    ((after hs).latch.released = true → (after hs).holder = none →
      ∀ i < (after hs).visitors.length, (after hs).point? i ≠ some .queued ∧
        ∃ answer, ((after hs).advance i).answer? i = some answer) := by
  have horderly := orderly_after hs
  refine ⟨fun hreleased => ⟨fun later => released_append hs later hreleased, ?_⟩,
    ?_, ?_, ?_, ?_, ?_⟩
  · obtain ⟨i, hi⟩ := horderly.setter hreleased
    refine ⟨i, hi.answers.1, hi.answers.2, fun later j answer hcall hanswer => ?_⟩
    have hlater := after_append_of_happen (P := fun room => room.HasSet i)
      (fun _ e h => hasSet_happen h e) hs later hi
    exact (orderly_after _).release_answers hlater hcall hanswer
  · exact fun i answer hcall hanswer => horderly.admits_answer hcall hanswer
  · exact fun i answer hcall hanswer => (horderly.admits_answer hcall hanswer).2
  · exact fun i hcall hanswer => horderly.admits_answer hcall hanswer rfl
  · intro i hcall hanswer
    obtain ⟨before, since, rfl, hexpired, hnot⟩ :=
      failed_expired hcall (answer?_eq_some.1 hanswer)
    obtain ⟨first, e, rest, rfl, hwoken, hfree, hholder⟩ := expired_taken hexpired
    refine ⟨first, e, rest ++ since, by simp, hwoken, hfree, hholder, ?_⟩
    -- a flag set at that moment would have been set when the thread looked at it
    by_contra hset
    have := released_append (first ++ [e]) rest (by simpa using hset)
    simp [hnot] at this
  · refine fun hreleased hfree i hi => ⟨fun hqueued => ?_,
      horderly.answer?_advance hreleased hfree hi⟩
    obtain ⟨j, hj⟩ := horderly.notified hreleased i hqueued
    simpa [hfree] using (horderly.holder j).2 ⟨_, hj, rfl⟩

end WaitingRoom

end BenchLoop
