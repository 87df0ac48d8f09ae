/-
BenchLoop/Proofs/Target/RoundRobin.lean

The turns of the workers of a pool.  A pool is followed through a stretch of its life in which its
workers stay the same (`WorkerPool.Stretch`): there are calls that ask it for tasks, and between
them happens whatever leaves the pool alone.  As long as the workers run, the calls are queued to
them in turn, from the worker on at which the cursor stands (`Stretch.forall₂_queuedTo`).

So how often a worker has its turn is a matter of counting residues.  In a window of `k` numbers,
wherever it begins, each residue modulo `w` comes `k / w` times, or once more
(`WorkerPool.count_window`).
-/
import Mathlib.Data.Int.CardIntervalMod
import BenchLoop.Proofs.Loop.Stage
import BenchLoop.Proofs.Target.Serving

namespace BenchLoop

/-! ### Threads from one world to a later one -/

/-- No thread is lost on the way, and none that has panicked runs again. -/
structure World.Precedes (w w' : World) : Prop where
  threads : w.threads.size ≤ w'.threads.size
  crashed : ∀ i, w.hasCrashed i = true → w'.hasCrashed i = true

namespace World

variable {w w' w'' : World}

theorem Precedes.refl (w : World) : w.Precedes w := ⟨Nat.le_refl _, fun _ h => h⟩

theorem Precedes.trans (h : w.Precedes w') (h' : w'.Precedes w'') : w.Precedes w'' :=
  ⟨Nat.le_trans h.threads h'.threads, fun i hi => h'.crashed i (h.crashed i hi)⟩

theorem precedes_of_threads (h : w'.threads = w.threads) : w.Precedes w' := by
  refine ⟨Nat.le_of_eq (congrArg Array.size h.symm), fun i hi => ?_⟩
  rw [hasCrashed, h]
  exact hi

theorem precedes_note (actor : Actor) (event : Event) : w.Precedes (w.note actor event) :=
  precedes_of_threads rfl

theorem precedes_exec (actor : Actor) (s : Step) : w.Precedes (w.exec actor s).2 :=
  precedes_of_threads exec_threads

theorem precedes_enqueue (i : ThreadId) (steps : List Step) : w.Precedes (w.enqueue i steps) :=
  ⟨Nat.le_of_eq (size_threads_enqueue w i steps).symm, fun j hj => by
    rwa [hasCrashed_enqueue]⟩

theorem precedes_spawn (name : String) (todo : List Step) :
    w.Precedes (w.spawn name todo).2 := by
  refine ⟨by simp, fun i hi => ?_⟩
  have hlt : i < w.threads.size := by
    by_contra hge
    simp [hasCrashed, Array.getElem?_eq_none (Nat.le_of_not_lt hge)] at hi
  rw [hasCrashed] at hi ⊢
  simp only [spawn, Array.getElem?_push, if_neg (Nat.ne_of_lt hlt)]
  exact hi

theorem precedes_turn (t : Turn) : w.Precedes (w.turn t) := by
  refine ⟨Nat.le_of_eq (size_threads_turn w t).symm, fun j hj => ?_⟩
  obtain ⟨n, ht⟩ | ⟨i, s, rest, rfl, hi, -⟩ := w.turn_cases t
  · rw [ht]
    exact hj
  · rw [hasCrashed_turn_thread hi, hj, Bool.true_or]

theorem precedes_lasting : Lasting Precedes where
  refl := .refl
  trans := .trans
  turn _ := precedes_turn
  exec _ := precedes_exec .coordinator

end World

namespace WorkerPool

/-! ### Residues in a window -/

/-- How often a residue comes among the first `n` numbers. -/
theorem count_residue {w : Nat} (n : Nat) {v : Nat} (hv : v < w) :
    Nat.count (fun j => j % w = v) n = n / w + if v < n % w then 1 else 0 := by
  have hcard := Nat.count_modEq_card n (Nat.zero_lt_of_lt hv) v
  simp only [Nat.ModEq, Nat.mod_eq_of_lt hv] at hcard
  exact hcard

/-- Rounded up a quotient is one greater, unless nothing remains. -/
theorem add_sub_one_div {w : Nat} (hw : 0 < w) (k : Nat) :
    (k + w - 1) / w = k / w + if k % w = 0 then 0 else 1 := by
  have hk := Nat.div_add_mod k w
  have hrest := Nat.mod_lt k hw
  have hsum : k + w - 1 = w * (k / w) + (k % w + w - 1) := by omega
  rw [hsum, Nat.mul_add_div hw]
  split_ifs with h
  · rw [h, Nat.zero_add, Nat.div_eq_of_lt (Nat.sub_one_lt_of_lt hw)]
  · have hone : (k % w + w - 1) / w = 1 := Nat.div_eq_of_lt_le (by omega) (by omega)
    rw [hone]

/-- Among `k` numbers in a row each residue comes as often as any other, or once more. -/
theorem count_window {w : Nat} (c k : Nat) {v : Nat} (hv : v < w) :
    Nat.count (fun j => (c + j) % w = v) k = k / w ∨
      Nat.count (fun j => (c + j) % w = v) k = (k + w - 1) / w := by
  have hw := Nat.zero_lt_of_lt hv
  have hsplit := Nat.count_add (fun j => j % w = v) c k
  rw [count_residue _ hv, count_residue _ hv, Nat.add_div hw, Nat.add_mod] at hsplit
  have hc := Nat.mod_lt c hw
  have hk := Nat.mod_lt k hw
  rw [add_sub_one_div hw]
  -- whether the remainders of `c` and `k` make up another round
  by_cases hcarry : w ≤ c % w + k % w
  · rw [if_pos hcarry, Nat.mod_eq_sub_mod hcarry, Nat.mod_eq_of_lt (by omega)] at hsplit
    split_ifs at hsplit ⊢ <;> omega
  · rw [if_neg hcarry, Nat.mod_eq_of_lt (by omega)] at hsplit
    split_ifs at hsplit ⊢ <;> omega

/-- How often something comes in a list of values. -/
theorem count_map_range {α : Type} [DecidableEq α] (f : Nat → α) (a : α) (k : Nat) :
    ((List.range k).map f).count a = Nat.count (fun j => f j = a) k := by
  induction k with
  | zero => rfl
  | succ k ih =>
    rw [List.range_succ, List.map_append, List.count_append, ih, Nat.count_succ, List.map_singleton,
      List.count_singleton]
    simp only [beq_iff_eq]

/-! ### Calls -/

/-- A call that asks the pool for a task, and what became of it. -/
structure Creation where
  task : TaskId
  range : RowRange
  ctx : Context
  outcome : HookOutcome (RowTask WorkerPool)
  before : Session WorkerPool
  after : Session WorkerPool

/-- The call has succeeded, and its range is the last job of a worker. -/
structure Creation.QueuedTo (c : Creation) (worker : ThreadId) : Prop where
  accepted : c.outcome = .ok (WorkerPool.task c.before.target.jobs c.task c.range)
  queued : c.after.world = c.before.interleave.world.enqueue worker
    (jobSteps c.before.target.jobs worker c.task c.range c.ctx)

/-- A stretch of the life of a pool, with the calls that ask it for tasks.  Whatever else happens
leaves the pool alone. -/
inductive Stretch : Session WorkerPool → List Creation → Session WorkerPool → Prop
  | rest (s : Session WorkerPool) : Stretch s [] s
  | other {s s' s'' : Session WorkerPool} {calls : List Creation} :
    s'.target = s.target → s.world.Precedes s'.world → Stretch s' calls s'' → Stretch s calls s''
  | call {s s' s'' : Session WorkerPool} {calls : List Creation} {id : TaskId} {range : RowRange}
    {ctx : Context} {outcome : HookOutcome (RowTask WorkerPool)} :
    benchmark.createTask id range ctx s = .ok outcome s' → Stretch s' calls s'' →
    Stretch s (⟨id, range, ctx, outcome, s, s'⟩ :: calls) s''

variable {s s' s'' : Session WorkerPool} {calls calls' : List Creation}
variable {id : TaskId} {range : RowRange} {ctx : Context}

/-- The worker whose turn it is when the cursor stands at `n`, if there are any workers. -/
def turnOf (workers : Array ThreadId) (n : Nat) : ThreadId := workers.getD (n % workers.size) 0

theorem turnOf_eq {workers : Array ThreadId} {n : Nat} (hlt : n % workers.size < workers.size) :
    turnOf workers n = workers[n % workers.size] := by
  rw [turnOf, Array.getD_eq_getD_getElem?, Array.getElem?_eq_getElem hlt, Option.getD_some]

theorem nextWorker?_eq {p : WorkerPool} (hp : 0 < p.workers.size) :
    p.nextWorker? = some (turnOf p.workers p.cursor.toNat) := by
  have hlt := Nat.mod_lt p.cursor.toNat hp
  rw [nextWorker?, turnOf_eq hlt, Array.getElem?_eq_getElem hlt]

theorem turnOf_mem {workers : Array ThreadId} (hworkers : 0 < workers.size) (n : Nat) :
    turnOf workers n ∈ workers := by
  have hlt := Nat.mod_lt n hworkers
  rw [turnOf_eq hlt]
  exact Array.getElem_mem hlt

/-- Distinct workers have their turns at different residues. -/
theorem turnOf_eq_iff {workers : Array ThreadId} (hdistinct : workers.toList.Nodup) {v : Nat}
    (hv : v < workers.size) (n : Nat) : turnOf workers n = workers[v] ↔ n % workers.size = v := by
  have hlt := Nat.mod_lt n (Nat.zero_lt_of_lt hv)
  rw [turnOf_eq hlt, ← Array.getElem_toList hlt, ← Array.getElem_toList hv,
    hdistinct.getElem_inj_iff]

/-- A call leaves the workers as they are. -/
theorem workers_of_createTask {outcome : HookOutcome (RowTask WorkerPool)}
    (h : benchmark.createTask id range ctx s = .ok outcome s') :
    s'.target.workers = s.target.workers ∧ s.world.Precedes s'.world := by
  cases hnext : s.target.nextWorker? with
  | none =>
    rw [createTask_of_nil (nextWorker?_eq_none_iff.1 hnext)] at h
    cases h
    exact ⟨rfl, .refl _⟩
  | some worker =>
    rw [createTask_apply hnext] at h
    dsimp only at h
    split at h <;> cases h
    · exact ⟨rfl, World.precedes_lasting.interleave s⟩
    · exact ⟨rfl, (World.precedes_lasting.interleave s).trans (World.precedes_enqueue _ _)⟩

/-- If the worker whose turn it is has not panicked even afterwards, the call is queued to it. -/
theorem queuedTo_of_createTask {outcome : HookOutcome (RowTask WorkerPool)} {worker : ThreadId}
    (hnext : s.target.nextWorker? = some worker) (hrunning : s'.world.hasCrashed worker = false)
    (h : benchmark.createTask id range ctx s = .ok outcome s') :
    Creation.QueuedTo ⟨id, range, ctx, outcome, s, s'⟩ worker ∧
      s'.target = { s.target with cursor := s.target.cursor + 1, jobs := s.target.jobs + 1 } := by
  rw [createTask_apply hnext] at h
  dsimp only at h
  split at h <;> cases h
  · next hcrashed => exact absurd hcrashed (Bool.eq_false_iff.1 hrunning)
  · exact ⟨⟨rfl, rfl⟩, rfl⟩

/-! ### Stretches -/

namespace Stretch

protected theorem append (h : Stretch s calls s') (h' : Stretch s' calls' s'') :
    Stretch s (calls ++ calls') s'' := by
  induction h with
  | rest s => exact h'
  | other htarget hworld _ ih => exact .other htarget hworld (ih h')
  | call hcall _ ih => exact .call hcall (ih h')

/-- The workers of a stretch are the same from its beginning to its end. -/
theorem workers (h : Stretch s calls s') :
    s'.target.workers = s.target.workers ∧ s.world.Precedes s'.world := by
  induction h with
  | rest s => exact ⟨rfl, .refl _⟩
  | other htarget hworld _ ih => exact ⟨htarget ▸ ih.1, hworld.trans ih.2⟩
  | call hcall _ ih =>
    have hkept := workers_of_createTask hcall
    exact ⟨ih.1.trans hkept.1, hkept.2.trans ih.2⟩

/-- Its calls are queued to the workers in turn, if none of them panics. -/
theorem forall₂_queuedTo (h : Stretch s calls s') (hworkers : 0 < s.target.workers.size)
    (hrunning : ∀ i ∈ s.target.workers, s'.world.hasCrashed i = false)
    (hle : s.target.cursor.toNat + calls.length ≤ UInt64.size) :
    List.Forall₂ Creation.QueuedTo calls ((List.range calls.length).map fun j =>
      turnOf s.target.workers (s.target.cursor.toNat + j)) := by
  induction h with
  | rest s => exact .nil
  | other htarget hworld _ ih =>
    rw [htarget] at ih
    exact ih hworkers hrunning hle
  | @call s s₁ s' calls id range ctx outcome hcall hrest ih =>
    have hnext := nextWorker?_eq hworkers
    -- who has not panicked in the end had not panicked when the call was made
    have hfirst : s₁.world.hasCrashed (turnOf s.target.workers s.target.cursor.toNat) = false := by
      by_contra hcrashed
      have hend := hrest.workers.2.crashed _ (Bool.eq_true_of_not_eq_false hcrashed)
      rw [hrunning _ (turnOf_mem hworkers _)] at hend
      cases hend
    obtain ⟨hqueued, htarget⟩ := queuedTo_of_createTask hnext hfirst hcall
    rw [List.length_cons] at hle
    -- the cursor wraps behind the last call only
    have hcursor : (s.target.cursor + 1).toNat = (s.target.cursor.toNat + 1) % UInt64.size :=
      UInt64.toNat_add _ _
    have htail : (List.range calls.length).map (fun j =>
          turnOf s.target.workers ((s.target.cursor + 1).toNat + j))
        = (List.range calls.length).map fun j =>
          turnOf s.target.workers (s.target.cursor.toNat + (j + 1)) := by
      refine List.map_congr_left fun j hj => ?_
      have hj' := List.mem_range.1 hj
      rw [hcursor, Nat.mod_eq_of_lt (by omega), Nat.add_assoc, Nat.add_comm 1]
    rw [List.length_cons, List.range_succ_eq_map, List.map_cons, List.map_map]
    refine .cons hqueued ?_
    rw [htarget] at ih
    have hqueue := ih hworkers hrunning (by
      have hmod := Nat.mod_le (s.target.cursor.toNat + 1) UInt64.size
      rw [hcursor]
      omega)
    exact htail ▸ hqueue

/-- **In a stretch of calls each worker gets its share of them**, rounded down or up. -/
theorem balanced (h : Stretch s calls s') (hworkers : 0 < s.target.workers.size)
    (hdistinct : s.target.workers.toList.Nodup)
    (hrunning : ∀ i ∈ s.target.workers, s'.world.hasCrashed i = false)
    (hle : s.target.cursor.toNat + calls.length ≤ UInt64.size) :
    ∃ queue : List ThreadId, List.Forall₂ Creation.QueuedTo calls queue ∧
      (∀ i ∈ queue, i ∈ s.target.workers) ∧ ∀ i ∈ s.target.workers,
        queue.count i = calls.length / s.target.workers.size ∨
          queue.count i
            = (calls.length + s.target.workers.size - 1) / s.target.workers.size := by
  refine ⟨_, h.forall₂_queuedTo hworkers hrunning hle, fun i hi => ?_, fun i hi => ?_⟩
  · obtain ⟨j, -, rfl⟩ := List.mem_map.1 hi
    exact turnOf_mem hworkers _
  · obtain ⟨v, hv, rfl⟩ := Array.mem_iff_getElem.1 hi
    simp only [count_map_range, turnOf_eq_iff hdistinct hv]
    exact count_window _ _ hv

end Stretch

end WorkerPool

end BenchLoop
