/-
BenchLoop/Proofs/Loop/Verdict.lean

How a loop ends, in terms of the tasks that can be built.  The first task that cannot be
built decides: what comes after it does not matter, and what came before it went well.

* `Conduct.looping_of_built`: if every task can be built, the loop ends well;
* `Conduct.outcome_of_looping`: if the loop ends well, every task could be built;
* `Conduct.looping_of_failed`, `Conduct.looping_of_panicked`: the first task that cannot be
  built ends the loop.

Besides, only two things can stop a loop, both with a panic: there can be more ranges than
a list has room for, and the name of the benchmark can make no name for a thread.  Neither
is the case if it is `Conduct.Startable`.
-/
import BenchLoop.Proofs.Loop.Accounts

namespace BenchLoop

/-! ### Names of threads -/

/-- Only the zero character has a zero byte. -/
theorem ThreadName.zero_notMem_bytes {name : String} (h : '\x00' ∉ name.toList) :
    0 ∉ bytes name := by
  intro h0
  obtain ⟨c, hc, hbyte⟩ := List.mem_flatMap.1 h0
  have hpos (n : Nat) (hn : n % 256 ≠ 0) : (0 : UInt8) ≠ UInt8.ofNat n := by
    intro h
    have := congrArg UInt8.toNat h
    simp at this
    omega
  have hzero : c = '\x00' := by
    refine Char.toNat_inj.1 ?_
    simp only [String.utf8EncodeChar] at hbyte
    split at hbyte
    · rw [List.mem_singleton] at hbyte
      by_contra hne
      exact hpos _ (by change c.val.toNat ≠ 0 at hne; omega) hbyte
    · -- in an encoding of several bytes each has its highest bit set
      exfalso
      split at hbyte
      · simp only [List.mem_cons, List.not_mem_nil, or_false] at hbyte
        rcases hbyte with h | h <;> exact hpos _ (by omega) h
      split at hbyte
      · simp only [List.mem_cons, List.not_mem_nil, or_false] at hbyte
        rcases hbyte with h | h | h <;> exact hpos _ (by omega) h
      · simp only [List.mem_cons, List.not_mem_nil, or_false] at hbyte
        rcases hbyte with h | h | h | h <;> exact hpos _ (by omega) h
  exact h (hzero ▸ hc)

/-- A range has a zero character in its name only if the benchmark has one. -/
theorem RowRange.zero_notMem_name {benchmark : String} (h : '\x00' ∉ benchmark.toList)
    (start stop : UInt64) : '\x00' ∉ (ofBounds benchmark start stop).name.toList := by
  have hdigits : '\x00' ∉ (toString start).toList := by
    intro h0
    have h0 : '\x00' ∈ Nat.toDigits 10 start.toNat := by
      simpa [toString, Nat.repr_eq_ofList_toDigits] using h0
    exact absurd (Nat.isDigit_of_mem_toDigits (by decide) (by decide) h0) (by decide)
  have hname : (ofBounds benchmark start stop).name.toList
      = benchmark.toList ++ '-' :: (toString start).toList := by
    simp [ofBounds, toString]
  rw [hname]
  simp [h, hdigits]

namespace Conduct

variable {m : Conduct}

/-! ### Building -/

theorem building_append {built duties : List Duty} (h : ∀ d ∈ built, m.outcome d.2 = .ok ()) :
    m.building (built ++ duties) = m.building duties := by
  induction built with
  | nil => rfl
  | cons d built ih =>
    obtain ⟨hd, hbuilt⟩ := List.forall_mem_cons.1 h
    rw [List.cons_append, building, hd]
    exact ih hbuilt

theorem building_eq_ok_iff {duties : List Duty} :
    m.building duties = .ok () ↔ ∀ d ∈ duties, m.outcome d.2 = .ok () := by
  induction duties with
  | nil => simp [building]
  | cons d duties ih =>
    rw [building, List.forall_mem_cons]
    cases hd : m.outcome d.2 with
    | ok u => simpa using ih
    | failed cause => simp
    | panicked p => simp

/-! ### Iterations -/

variable {σ : Type} {b : Benchmark σ} {c : Config}

/-- Nothing but a hook can stop the iterations: there is room for the ranges, and every thread
has a name. -/
def Startable (m : Conduct) (b : Benchmark σ) (c : Config) (k : Nat) : Prop :=
  PartitionFault.ofThreads? c.threads = none ∧ m.startFault? (b.duties c k) = none

theorem startable (hname : '\x00' ∉ b.name.toList)
    (hthreads : PartitionFault.ofThreads? c.threads = none) (k : Nat) : m.Startable b c k := by
  refine ⟨hthreads, List.findSome?_eq_none_iff.2 fun d hd => ?_⟩
  obtain ⟨bounds, -, hrange⟩ := List.mem_map.1
    (List.fst_mem_of_mem_zipIdx (List.mem_filter.1 hd).1)
  rw [← hrange]
  exact ThreadName.refusal?_eq_none (ThreadName.zero_notMem_bytes
    (RowRange.zero_notMem_name hname bounds.1 bounds.2))

theorem iterating_eq_ok {k : Nat} (hstart : m.Startable b c k)
    (h : ∀ t, c.isTaskOf k t → m.outcome t = .ok ()) : m.iterating b c k = .ok () := by
  have hbuilding : m.building (b.duties c k) = .ok () :=
    building_eq_ok_iff.2 fun d hd => h d.2 (Benchmark.isTaskOf_of_mem hd)
  simp only [iterating, dispatching, hstart.1, launching, hbuilding, hstart.2]

end Conduct

theorem Config.isTaskOf_div (c : Config) (hthreads : 0 < c.threads.toNat) (t : Nat) :
    c.isTaskOf (t / c.threads.toNat) t := by
  refine ⟨Nat.div_mul_le_self .., ?_⟩
  rw [Nat.mul_comm]
  exact Nat.lt_mul_div_succ t hthreads

namespace Benchmark

variable {σ : Type} {b : Benchmark σ} {c : Config}

/-- The first duties of an iteration are those of the first ranges. -/
theorem take_duties (b : Benchmark σ) (c : Config) (k j : Nat) : (b.duties c k).take j
    = ((taskRanges b.name c.rows c.threads).take j).zipIdx (k * c.threads.toNat) := by
  refine List.ext_getElem? fun i => ?_
  rw [List.getElem?_take, List.getElem?_zipIdx, List.getElem?_take, duties, dutiesFrom,
    List.getElem?_zipIdx]
  split <;> rfl

/-- The duty of task number `j` of an iteration, between those before it and those after it. -/
theorem duties_split (b : Benchmark σ) {c : Config} (k : Nat) {j : Nat}
    (hj : j < c.threads.toNat) :
    ∃ range after, (taskRanges b.name c.rows c.threads)[j]? = some range ∧
      b.duties c k = (b.duties c k).take j ++ (range, k * c.threads.toNat + j) :: after ∧
      ∀ d ∈ (b.duties c k).take j, k * c.threads.toNat ≤ d.2 ∧ d.2 < k * c.threads.toNat + j := by
  have hlength : j < (taskRanges b.name c.rows c.threads).length := by rwa [length_taskRanges]
  have hlength' : j < (b.duties c k).length := by rwa [duties, dutiesFrom, List.length_zipIdx]
  refine ⟨(taskRanges b.name c.rows c.threads)[j], (b.duties c k).drop (j + 1),
    List.getElem?_eq_getElem hlength, ?_, fun d hd => ?_⟩
  · conv_lhs => rw [← List.take_append_drop j (b.duties c k), List.drop_eq_getElem_cons hlength']
    simp only [duties, dutiesFrom, List.getElem_zipIdx]
  · rw [take_duties] at hd
    have := List.snd_lt_add_of_mem_zipIdx hd
    rw [List.length_take_of_le hlength.le] at this
    exact ⟨List.le_snd_of_mem_zipIdx hd, this⟩

/-- The place of a task among the duties of its iteration. -/
theorem duties_eq {k t : Nat} (h : c.isTaskOf k t) :
    ∃ range before after,
      (taskRanges b.name c.rows c.threads)[t - k * c.threads.toNat]? = some range ∧
      b.duties c k = before ++ (range, t) :: after ∧
      ∀ d ∈ before, k * c.threads.toNat ≤ d.2 ∧ d.2 < t := by
  obtain ⟨hle, hlt⟩ := h
  rw [Nat.succ_mul] at hlt
  obtain ⟨j, rfl⟩ := Nat.exists_eq_add_of_le hle
  obtain ⟨range, after, hrange, hduties, hbefore⟩ := b.duties_split (c := c) k (j := j) (by omega)
  exact ⟨range, (b.duties c k).take j, after, by rwa [Nat.add_sub_cancel_left], hduties, hbefore⟩

end Benchmark

namespace Conduct

variable {m : Conduct} {σ : Type} {b : Benchmark σ} {c : Config}

/-- The first task that cannot be built ends its iteration. -/
theorem iterating_of_failed {k t : Nat} (ht : c.isTaskOf k t)
    (hthreads : PartitionFault.ofThreads? c.threads = none)
    (hbefore : ∀ i < t, m.outcome i = .ok ()) {cause : Failure} (h : m.outcome t = .failed cause) :
    ∃ range, (taskRanges b.name c.rows c.threads)[t - k * c.threads.toNat]? = some range ∧
      m.iterating b c k = .failed (.taskCreation range.start range.stop cause) := by
  obtain ⟨range, before, after, hrange, hduties, hlt⟩ := Benchmark.duties_eq (b := b) ht
  refine ⟨range, hrange, ?_⟩
  have hbuilding : m.building (b.duties c k)
      = .failed (.taskCreation range.start range.stop cause) := by
    rw [hduties, building_append fun d hd => hbefore d.2 (hlt d hd).2, building, h]
  simp only [iterating, dispatching, hthreads, launching, hbuilding]

theorem iterating_of_panicked {k t : Nat} (ht : c.isTaskOf k t)
    (hthreads : PartitionFault.ofThreads? c.threads = none)
    (hbefore : ∀ i < t, m.outcome i = .ok ()) {p : Payload} (h : m.outcome t = .panicked p) :
    m.iterating b c k = .panicked p := by
  obtain ⟨range, before, after, -, hduties, hlt⟩ := Benchmark.duties_eq (b := b) ht
  have hbuilding : m.building (b.duties c k) = .panicked p := by
    rw [hduties, building_append fun d hd => hbefore d.2 (hlt d hd).2, building, h]
  simp only [iterating, dispatching, hthreads, launching, hbuilding]

theorem outcome_of_building {k t : Nat} (h : m.building (b.duties c k) = .ok ())
    (ht : c.isTaskOf k t) : m.outcome t = .ok () := by
  obtain ⟨range, before, after, -, hduties, -⟩ := Benchmark.duties_eq (b := b) ht
  exact building_eq_ok_iff.1 h (range, t) (by simp [hduties])

/-- If an iteration ends well, all its tasks could be built. -/
theorem outcome_of_iterating {k t : Nat} (h : m.iterating b c k = .ok ()) (ht : c.isTaskOf k t) :
    m.outcome t = .ok () := by
  refine outcome_of_building (b := b) ?_ ht
  simp only [iterating, dispatching, launching] at h
  cases hb : m.building (b.duties c k) with
  | ok u => rfl
  | failed e | panicked p =>
    rw [hb] at h
    split at h <;> cases h

/-! ### Loops -/

theorem looping_eq_ok_iff {first count : Nat} :
    m.looping b c first count = .ok () ↔
      ∀ k, first ≤ k → k < first + count → m.iterating b c k = .ok () := by
  induction count generalizing first with
  | zero => simp [looping]; omega
  | succ count ih =>
    rw [looping]
    constructor
    · intro h k hle hlt
      cases hfirst : m.iterating b c first with
      | ok u =>
        rw [hfirst] at h
        rcases Nat.eq_or_lt_of_le hle with rfl | hlt'
        · exact hfirst
        · exact ih.1 h k hlt' (by omega)
      | failed e | panicked p =>
        rw [hfirst] at h
        cases h
    · intro h
      rw [h first (le_refl _) (by omega)]
      exact ih.2 fun k hle hlt => h k (by omega) (by omega)

/-- The first iteration that does not end well ends the loop. -/
theorem looping_of_iterating {first count k : Nat} (hle : first ≤ k) (hlt : k < first + count)
    (hbefore : ∀ j, first ≤ j → j < k → m.iterating b c j = .ok ())
    (h : m.iterating b c k ≠ .ok ()) : m.looping b c first count = m.iterating b c k := by
  induction count generalizing first with
  | zero => omega
  | succ count ih =>
    rw [looping]
    rcases Nat.eq_or_lt_of_le hle with rfl | hlt'
    · split
      · next hok => exact absurd hok h
      · rfl
    · rw [hbefore first (le_refl _) hlt']
      exact ih hlt' (by omega) fun j hj => hbefore j (by omega)

/-- There is one first iteration that does not end well. -/
theorem Breaks.unique {first count k k' : Nat} (h : m.Breaks b c first count k)
    (h' : m.Breaks b c first count k') : k = k' := by
  rcases Nat.lt_trichotomy k k' with hlt | heq | hlt
  · exact absurd (h'.before k h.le hlt) h.broken
  · exact heq
  · exact absurd (h.before k' h'.le hlt) h'.broken

theorem looping_of_breaks {first count k : Nat} (h : m.Breaks b c first count k) :
    m.looping b c first count = m.iterating b c k :=
  looping_of_iterating h.le h.lt h.before h.broken

variable {count t : Nat}

/-- If every task can be built the loop ends well. -/
theorem looping_of_built (hstart : ∀ k, m.Startable b c k)
    (h : ∀ t < count * c.threads.toNat, m.outcome t = .ok ()) :
    m.looping b c 0 count = .ok () := by
  refine looping_eq_ok_iff.2 fun k _ hk => iterating_eq_ok (hstart k) fun t ht => h t ?_
  exact ht.2.trans_le (Nat.mul_le_mul_right _ (by omega))

/-- If the loop ends well, every task could be built. -/
theorem outcome_of_looping (hthreads : 0 < c.threads.toNat)
    (h : m.looping b c 0 count = .ok ()) (ht : t < count * c.threads.toNat) :
    m.outcome t = .ok () := by
  have hk : t / c.threads.toNat < 0 + count := by
    rwa [Nat.zero_add, Nat.div_lt_iff_lt_mul hthreads]
  exact outcome_of_iterating (looping_eq_ok_iff.1 h _ (Nat.zero_le _) hk)
    (c.isTaskOf_div hthreads t)

/-- The iteration of the first task that cannot be built is the last. -/
theorem looping_of_stopped (hstart : ∀ k, m.Startable b c k) (hthreads : 0 < c.threads.toNat)
    (ht : t < count * c.threads.toNat) (hbefore : ∀ i < t, m.outcome i = .ok ())
    (h : m.iterating b c (t / c.threads.toNat) ≠ .ok ()) :
    m.looping b c 0 count = m.iterating b c (t / c.threads.toNat) := by
  have hk : t / c.threads.toNat < 0 + count := by
    rwa [Nat.zero_add, Nat.div_lt_iff_lt_mul hthreads]
  refine looping_of_iterating (Nat.zero_le _) hk (fun j _ hj => ?_) h
  refine iterating_eq_ok (hstart j) fun i hi => hbefore i ?_
  calc i < (j + 1) * c.threads.toNat := hi.2
    _ ≤ t / c.threads.toNat * c.threads.toNat := Nat.mul_le_mul_right _ hj
    _ ≤ t := Nat.div_mul_le_self ..

/-- The first task that cannot be built ends the loop, with its range. -/
theorem looping_of_failed (hstart : ∀ k, m.Startable b c k) (hthreads : 0 < c.threads.toNat)
    (ht : t < count * c.threads.toNat) (hbefore : ∀ i < t, m.outcome i = .ok ())
    {cause : Failure} (h : m.outcome t = .failed cause) :
    ∃ range, (taskRanges b.name c.rows c.threads)[t % c.threads.toNat]? = some range ∧
      m.looping b c 0 count = .failed (.taskCreation range.start range.stop cause) := by
  obtain ⟨range, hrange, hiterating⟩ := iterating_of_failed (b := b)
    (c.isTaskOf_div hthreads t) (hstart 0).1 hbefore h
  refine ⟨range, ?_, ?_⟩
  · rwa [← Nat.mod_eq_sub_div_mul] at hrange
  · rw [looping_of_stopped hstart hthreads ht hbefore (by rw [hiterating]; nofun), hiterating]

theorem looping_of_panicked (hstart : ∀ k, m.Startable b c k) (hthreads : 0 < c.threads.toNat)
    (ht : t < count * c.threads.toNat) (hbefore : ∀ i < t, m.outcome i = .ok ())
    {p : Payload} (h : m.outcome t = .panicked p) : m.looping b c 0 count = .panicked p := by
  have hiterating := iterating_of_panicked (b := b) (c.isTaskOf_div hthreads t) (hstart 0).1
    hbefore h
  rw [looping_of_stopped hstart hthreads ht hbefore (by rw [hiterating]; nofun), hiterating]

end Conduct

end BenchLoop
