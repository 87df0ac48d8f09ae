/-
BenchLoop/Proofs/Loop/RollCall.lean

Which tasks are asked for in a run, and which are torn down, in order.

* If every task of an iteration can be built, its tasks are asked for range by range; then
  the latch is released, and then each of them is torn down once, in the same order
  (`Script.fullRound`), whatever the teardowns before it did.
* The first task that cannot be built is the last that is asked for in the run.  Those built
  before it in the same iteration are torn down once, in order (`Script.brokenRound`), and
  the next hook is the one that destroys the benchmark.  None of the tasks of that iteration
  that need a thread takes a step, then or later (`World.Spares`).

`Script.rollCall` says that the course of any run is made up of such rounds and nothing
else.
-/
import BenchLoop.Proofs.Loop.Lifecycle

namespace BenchLoop

/-- Task number `j` of an iteration is one of its tasks. -/
theorem Config.isTaskOf_add (c : Config) (k : Nat) {j : Nat} (hj : j < c.threads.toNat) :
    c.isTaskOf k (k * c.threads.toNat + j) := by
  refine ⟨Nat.le_add_right .., ?_⟩
  rw [Nat.succ_mul]
  exact Nat.add_lt_add_left hj _

/-! ### Courses of iterations and loops -/

namespace Conduct

variable {m : Conduct}

/-- As long as tasks can be built, nothing is torn down. -/
theorem buildCourse_append {built before duties : List Duty}
    (h : ∀ d ∈ before, m.outcome d.2 = .ok ()) :
    m.buildCourse built (before ++ duties)
      = before.flatMap m.created ++ m.buildCourse (built ++ before) duties := by
  induction before generalizing built with
  | nil =>
    rw [List.append_nil]
    rfl
  | cons d before ih =>
    obtain ⟨hd, hbefore⟩ := List.forall_mem_cons.1 h
    have hrest := @ih (built ++ [d]) hbefore
    rw [List.append_assoc, List.singleton_append] at hrest
    rw [List.cons_append, buildCourse, hd, List.flatMap_cons, List.append_assoc]
    exact congrArg (m.created d ++ ·) hrest

variable {σ : Type} {b : Benchmark σ} {c : Config}

theorem iterationCourse_of_built {k : Nat} (hstart : m.Startable b c k)
    (h : ∀ t, c.isTaskOf k t → m.outcome t = .ok ()) (loop : UInt32) :
    m.iterationCourse b c k loop
      = (b.duties c k).flatMap m.created ++ .released loop :: m.stops (b.duties c k) := by
  have hduties : ∀ d ∈ b.duties c k, m.outcome d.2 = .ok () :=
    fun d hd => h d.2 (Benchmark.isTaskOf_of_mem hd)
  have hbuild : m.buildCourse [] (b.duties c k ++ []) = _ := m.buildCourse_append hduties
  rw [List.append_nil] at hbuild
  rw [iterationCourse_of_ok (iterating_eq_ok hstart h), dispatchCourse, hstart.1]
  dsimp only
  rw [hbuild, buildCourse, List.append_nil]

/-- The first task that cannot be built is the last that is asked for.  Those before it are torn
down if it has failed, but not if it has panicked. -/
theorem iterationCourse_of_unbuilt {k : Nat} {before after : List Duty} {d : Duty}
    (hthreads : PartitionFault.ofThreads? c.threads = none)
    (hduties : b.duties c k = before ++ d :: after)
    (hbefore : ∀ e ∈ before, m.outcome e.2 = .ok ()) (h : m.outcome d.2 ≠ .ok ())
    (loop : UInt32) : m.iterationCourse b c k loop
      = (before ++ [d]).flatMap m.created ++ match m.outcome d.2 with
        | .failed _ => m.stops before
        | _ => [] := by
  have hmem : d ∈ b.duties c k := by simp [hduties]
  have hne : m.iterating b c k ≠ .ok () := fun hok =>
    h (outcome_of_iterating hok (Benchmark.isTaskOf_of_mem hmem))
  rw [iterationCourse_of_ne_ok hne, dispatchCourse, hthreads]
  dsimp only
  rw [hduties, buildCourse_append hbefore, List.nil_append, buildCourse, List.flatMap_append,
    List.flatMap_singleton, List.append_assoc]
  congr 2
  split
  · next hok => exact absurd hok h
  · next hfailed => rw [hfailed]
  · next hpanicked => rw [hpanicked]

/-- Iterations that end well follow each other. -/
theorem loopCourse_of_ok {first count : Nat}
    (h : ∀ k < count, m.iterating b c (first + k) = .ok ()) (loop : UInt32) (more : Nat) :
    m.loopCourse b c first loop (count + more)
      = (List.range count).flatMap (fun k => m.iterationCourse b c (first + k) (loop + .ofNat k))
        ++ m.loopCourse b c (first + count) (loop + .ofNat count) more := by
  induction count generalizing first loop with
  | zero => simp
  | succ count ih =>
    have hfirst : m.iterating b c first = .ok () := h 0 (Nat.zero_lt_succ count)
    have hrest (k : Nat) (hk : k < count) : m.iterating b c (first + 1 + k) = .ok () := by
      rw [Nat.add_right_comm]
      exact h (k + 1) (Nat.succ_lt_succ hk)
    -- numbers of iterations wrap, and so do their sums
    have hnumber (k : Nat) : loop + 1 + UInt32.ofNat k = loop + UInt32.ofNat (k + 1) := by
      rw [UInt32.ofNat_add, UInt32.add_assoc, UInt32.add_comm 1]
      rfl
    rw [Nat.add_right_comm, loopCourse, hfirst, List.range_succ_eq_map, List.flatMap_cons,
      List.flatMap_map, List.append_assoc]
    dsimp only
    rw [ih hrest (loop + 1), hnumber]
    simp only [hnumber, Nat.add_zero, Nat.add_right_comm first 1, Nat.add_assoc first,
      Nat.succ_eq_add_one]
    simp

end Conduct

/-! ### Tasks that never take a step -/

/-- Whether a step is none of some tasks. -/
def Step.Avoids (p : TaskId → Prop) (s : Step) : Prop := ∀ t, s.task = some t → ¬ p t

/-- Whether an entry is no step of some tasks. -/
def Entry.Avoids (p : TaskId → Prop) (e : Entry) : Prop :=
  ∀ s took, e.event = .performed s took → s.Avoids p

/-- Some tasks have not taken any step, and no thread has a step of theirs to take. -/
def World.Spares (p : TaskId → Prop) (w : World) : Prop :=
  (∀ s ∈ w.inFlight, s.Avoids p) ∧ ∀ e ∈ w.journal, e.Avoids p

/-- If some tasks are spared then so are the fewer. -/
theorem World.Spares.anti {p q : TaskId → Prop} {w : World} (h : w.Spares p)
    (hpq : ∀ t, q t → p t) : w.Spares q :=
  ⟨fun s hs t ht hq => h.1 s hs t ht (hpq t hq),
    fun e he s took hevent t ht hq => h.2 e he s took hevent t ht (hpq t hq)⟩

/-- Some tasks never take a step. -/
def Ledger.spared (id : ContextId) (p : TaskId → Prop) : Ledger id where
  holds _ _ journal _ pool :=
    (∀ s ∈ pool, s.isCrash = false ∧ s.Avoids p) ∧ ∀ e ∈ journal, e.Avoids p
  admits steps := ∀ s ∈ steps, s.isCrash = false ∧ s.Avoids p
  sound h s hs := (h.1 s hs).1
  later h _ := h
  note {rest c journal now pool e} h hstep := by
    refine ⟨h.1, List.forall_mem_cons.2 ⟨fun s took hevent => ?_, h.2⟩⟩
    simp [hevent, Event.isStep] at hstep
  exec {rest actor s pool w} h := by
    obtain ⟨hpool, hjournal⟩ := h
    have hs := (hpool s (Multiset.mem_cons_self s pool)).2
    refine ⟨World.forall_exec hpool fun t ht => ⟨World.exec_isCrash ht, fun i hi => ?_⟩, ?_⟩
    · rw [World.exec_task ht] at hi
      exact hs i hi
    · obtain ⟨e, hentry, -, he⟩ := w.exec_journal actor s
      rw [hentry]
      refine List.forall_mem_cons.2 ⟨fun s' took hevent => ?_, hjournal⟩
      rwa [(he s' took hevent).1]
  hand ha h := ⟨fun s hs => (Multiset.mem_add.1 hs).elim (h.1 s) fun hs =>
    ha s (by simpa using hs), h.2⟩

theorem Ledger.spared_anti {id : ContextId} {p q : TaskId → Prop} (hpq : ∀ t, q t → p t)
    {notified : Duty → Nat} {rest : Multiset Duty} {w : World}
    (h : ((spared id p).regime notified).inv rest [] w) :
    ((spared id q).regime notified).inv rest [] w :=
  ⟨fun s hs => ⟨(h.1 s hs).1, fun t ht hq => (h.1 s hs).2 t ht (hpq t hq)⟩,
    fun e he s took hevent t ht hq => h.2 e he s took hevent t ht (hpq t hq)⟩

theorem Ledger.spared_fresh (id : ContextId) (p : TaskId → Prop) (now pace : Nat) :
    (spared id p).inv 0 [] ({ now, pace } : World) :=
  ⟨nofun, nofun⟩

theorem Ledger.spares {id : ContextId} {p : TaskId → Prop} {notified : Duty → Nat}
    {rest : Multiset Duty} {w : World} (h : ((spared id p).regime notified).inv rest [] w) :
    w.Spares p :=
  ⟨fun s hs => (h.1 s (Multiset.mem_add.2 (.inl hs))).2, h.2⟩

/-- The tasks that take no step before iteration number `k` has come to its wait: those of later
iterations, and those that need a thread while not every task can be built. -/
def Conduct.Excused {σ : Type} (m : Conduct) (b : Benchmark σ) (c : Config) (k t : Nat) : Prop :=
  (k + 1) * c.threads.toNat ≤ t ∨
    (c.isTaskOf k t ∧ m.threaded t = true ∧ m.building (b.duties c k) ≠ .ok ())

/-- Tasks take no step before they are started. -/
def Rounds.sparing {σ : Type} {b : Benchmark σ} {m : Conduct} {ctx : Context}
    (rounds : Rounds b m ctx) (hm : m.Orderly b ctx) : rounds.Extra where
  idle k := (Ledger.spared ctx.id (k * ctx.config.threads.toNat ≤ ·)).regime m.notified
  busy k := (Ledger.spared ctx.id (m.Excused b ctx.config k)).regime m.notified
  arm k := by
    -- the steps of a reset are of no task
    have hlater (t : TaskId) (ht : m.Excused b ctx.config k t) :
        k * ctx.config.threads.toNat ≤ t := by
      rcases ht with h | ⟨h, -⟩
      · exact (Nat.mul_le_mul_right _ (Nat.le_succ k)).trans h
      · exact h.1
    refine ((Ledger.spared ctx.id (m.Excused b ctx.config k)).ends_perform 0 _).mono
      (fun w _ h => ?_) fun _ _ _ h => h
    have h := Ledger.spared_anti hlater h
    refine ⟨fun s hs => (Multiset.mem_add.1 hs).elim (fun hs => ?_) fun hs =>
      ⟨Context.isCrash_of_mem_reset hs, fun t ht => ?_⟩, h.2⟩
    · exact h.1 s (Multiset.mem_add.2 (.inl hs))
    · obtain ⟨a, -, rfl⟩ := List.mem_map.1 hs
      cases ht
  admits k d hd hands steps hline := by
    refine ⟨fun s hs => ⟨?_, fun t ht hexcused => ?_⟩, hm.tally k d hd steps hline⟩
    · exact Step.isCrash_of_isWork (Step.isWork_of_isOpening (hm.opening k d hd steps hline s hs))
    · obtain rfl := Option.some.inj ((hm.own k d hd steps hline s hs).symm.trans ht)
      rcases hexcused with h | ⟨-, hthreaded, hbuilding⟩
      · exact absurd (Benchmark.isTaskOf_of_mem hd).2 (Nat.not_lt.2 h)
      · exact hbuilding (hands.2 hthreaded)
  closes _ _ h _ := Ledger.spared_anti (fun _ => .inl) h

/-! ### The roll call of a script -/

namespace Script

variable (s : Script) (config : Config)

/-- What a script records of its first hook. -/
def opening (pending : Int) : List Event :=
  if s.recordsHooks then [.called (.init pending)] else []

/-- What it records of its last hook. -/
def closing : List Event := if s.recordsHooks then [.called .destroy] else []

/-- Tasks for some ranges are asked for. -/
def requests (ranges : List RowRange) : List Event :=
  ranges.map fun range => .called (.create range)

/-- The tasks for some duties are torn down, as far as they record it. -/
def teardowns (duties : List Duty) : List Event :=
  duties.flatMap fun d => if (s.task d.2).recordsStop then [.called (.stop d.1)] else []

/-- The course of iteration number `k`, counted from 0, if every task can be built. -/
def fullRound (k : Nat) : List Event :=
  requests (taskRanges s.name config.rows config.threads) ++
    .released (.ofNat (k + 1)) :: s.teardowns (s.benchmark.duties config k)

/-- Its course if task number `j`, counted from 0, is the first that cannot be built. -/
def brokenRound (k j : Nat) : List Event :=
  requests ((taskRanges s.name config.rows config.threads).take (j + 1)) ++
    s.teardowns ((s.benchmark.duties config k).take j)

/-- The course of a run, by which tasks can be built. -/
structure RollCall (w : World) : Prop where
  /-- Without a benchmark no task is asked for. -/
  unprepared : s.init ≠ .ok () → ∃ pending, w.course = s.opening pending
  /-- If every task can be built, every iteration is a full round. -/
  full : s.init = .ok () →
    (∀ t < config.loops.toNat * config.threads.toNat, s.create t = .ok ()) →
    ∃ pending, w.course = s.opening pending ++
      (List.range config.loops.toNat).flatMap (s.fullRound config) ++ s.closing
  /-- The first task that cannot be built breaks its round, which is then the last.  The tasks of
  that round that need a thread never take a step. -/
  broken : s.init = .ok () →
    ∀ k < config.loops.toNat, ∀ j < config.threads.toNat,
    (∀ t < k * config.threads.toNat + j, s.create t = .ok ()) →
    ∀ cause, s.create (k * config.threads.toNat + j) = .failed cause →
    (∃ pending, w.course = s.opening pending ++
      (List.range k).flatMap (s.fullRound config) ++ s.brokenRound config k j ++ s.closing) ∧
    ∀ turns, (w.burst turns).Spares fun t => config.isTaskOf k t ∧ (s.task t).drive? = none

variable {s config}
variable {ctx : Context}

theorem flatMap_created (duties : List Duty) :
    duties.flatMap (s.conduct ctx).created = requests (duties.map Prod.fst) := by
  rw [requests, List.map_map, List.map_eq_flatMap]
  rfl

theorem iterationCourse_of_built (hstart : s.Startable config) {k : Nat}
    (h : ∀ t, config.isTaskOf k t → s.create t = .ok ()) :
    (s.conduct ctx).iterationCourse s.benchmark config k (1 + .ofNat k) = s.fullRound config k := by
  have hranges : (s.benchmark.duties config k).map Prod.fst
      = taskRanges s.name config.rows config.threads := List.zipIdx_map_fst ..
  have hloop : 1 + UInt32.ofNat k = .ofNat (k + 1) := by
    rw [UInt32.add_comm, UInt32.ofNat_add]
    rfl
  rw [Conduct.iterationCourse_of_built (Conduct.startable hstart.1 hstart.2 k) h, flatMap_created,
    hranges, hloop]
  rfl

/-- The tasks of an iteration are asked for up to the first one that cannot be built. -/
theorem iterationCourse_of_unbuilt (hstart : s.Startable config) {k j : Nat}
    (hj : j < config.threads.toNat)
    (hbefore : ∀ t < k * config.threads.toNat + j, s.create t = .ok ())
    (h : s.create (k * config.threads.toNat + j) ≠ .ok ()) (loop : UInt32) :
    (s.conduct ctx).iterationCourse s.benchmark config k loop
      = requests ((taskRanges s.name config.rows config.threads).take (j + 1)) ++
        match s.create (k * config.threads.toNat + j) with
        | .failed _ => s.teardowns ((s.benchmark.duties config k).take j)
        | _ => [] := by
  obtain ⟨range, after, hrange, hduties, hlt⟩ := s.benchmark.duties_split k hj
  have hrange : (taskRanges s.name config.rows config.threads)[j]? = some range := hrange
  have hranges : ((s.benchmark.duties config k).take j).map Prod.fst
      = (taskRanges s.name config.rows config.threads).take j := by
    rw [Benchmark.take_duties, List.zipIdx_map_fst]
    rfl
  rw [Conduct.iterationCourse_of_unbuilt hstart.2 hduties (fun e he => hbefore e.2 (hlt e he).2) h,
    flatMap_created, List.map_append, hranges, List.take_add_one, hrange]
  rfl

theorem loopCourse_of_built (ctx : Context) (hstart : s.Startable config) {count : Nat}
    (h : ∀ t < count * config.threads.toNat, s.create t = .ok ()) (more : Nat) :
    (s.conduct ctx).loopCourse s.benchmark config 0 1 (count + more)
      = (List.range count).flatMap (s.fullRound config)
        ++ (s.conduct ctx).loopCourse s.benchmark config count (1 + .ofNat count) more := by
  have htasks {k : Nat} (hk : k < count) (t : Nat) (ht : config.isTaskOf k t) :
      s.create t = .ok () := h t (ht.2.trans_le (Nat.mul_le_mul_right _ hk))
  have hiterating : ∀ k < count, (s.conduct ctx).iterating s.benchmark config (0 + k) = .ok () :=
    fun k hk => by
      rw [Nat.zero_add]
      exact Conduct.iterating_eq_ok (Conduct.startable hstart.1 hstart.2 k) (htasks hk)
  rw [Conduct.loopCourse_of_ok hiterating, Nat.zero_add]
  congr 1
  refine List.flatMap_congr fun k hk => ?_
  rw [Nat.zero_add]
  exact iterationCourse_of_built hstart (htasks (List.mem_range.1 hk))

/-- A loop in which every task can be built consists of full rounds. -/
theorem loopCourse_full (hstart : s.Startable config) {count : Nat}
    (h : ∀ t < count * config.threads.toNat, s.create t = .ok ()) :
    (s.conduct ctx).loopCourse s.benchmark config 0 1 count
      = (List.range count).flatMap (s.fullRound config) := by
  have := loopCourse_of_built ctx hstart h 0
  simpa [Conduct.loopCourse] using this

/-- The iteration of the first task that cannot be built is the first that does not end
well. -/
theorem breaks_of_unbuilt (ctx : Context) (hstart : s.Startable config) {count k j : Nat}
    (hk : k < count) (hj : j < config.threads.toNat)
    (hbefore : ∀ t < k * config.threads.toNat + j, s.create t = .ok ())
    (h : s.create (k * config.threads.toNat + j) ≠ .ok ()) :
    (s.conduct ctx).building (s.benchmark.duties config k) ≠ .ok () ∧
      (s.conduct ctx).Breaks s.benchmark config 0 count k := by
  have hmember := config.isTaskOf_add k hj
  refine ⟨fun hok => ?_, Nat.zero_le k, by rwa [Nat.zero_add], fun i _ hi => ?_, fun hok => ?_⟩
  · exact h (Conduct.outcome_of_building (m := s.conduct ctx) hok hmember)
  · refine Conduct.iterating_eq_ok (Conduct.startable hstart.1 hstart.2 i) fun t ht =>
      hbefore t ?_
    calc t < (i + 1) * config.threads.toNat := ht.2
      _ ≤ k * config.threads.toNat := Nat.mul_le_mul_right _ hi
      _ ≤ k * config.threads.toNat + j := Nat.le_add_right ..
  · exact h (Conduct.outcome_of_iterating hok hmember)

theorem breaks_of_failed (ctx : Context) (hstart : s.Startable config) {count k j : Nat}
    (hk : k < count) (hj : j < config.threads.toNat)
    (hbefore : ∀ t < k * config.threads.toNat + j, s.create t = .ok ()) {cause : Failure}
    (h : s.create (k * config.threads.toNat + j) = .failed cause) :
    (s.conduct ctx).building (s.benchmark.duties config k) ≠ .ok () ∧
      (s.conduct ctx).Breaks s.benchmark config 0 count k := by
  refine breaks_of_unbuilt ctx hstart hk hj hbefore ?_
  rw [h]
  exact nofun

/-- The round of the first task that cannot be built is the last of the loop. -/
theorem loopCourse_of_unbuilt (ctx : Context) (hstart : s.Startable config) {count k j : Nat}
    (hk : k < count) (hj : j < config.threads.toNat)
    (hbefore : ∀ t < k * config.threads.toNat + j, s.create t = .ok ())
    (h : s.create (k * config.threads.toNat + j) ≠ .ok ()) :
    (s.conduct ctx).loopCourse s.benchmark config 0 1 count
      = (List.range k).flatMap (s.fullRound config) ++
        (s.conduct ctx).iterationCourse s.benchmark config k (1 + .ofNat k) := by
  have hbroken := (breaks_of_unbuilt ctx hstart hk hj hbefore h).2.broken
  obtain ⟨more, rfl⟩ := Nat.exists_eq_add_of_lt hk
  rw [Nat.add_assoc, loopCourse_of_built ctx hstart fun t ht => hbefore t (by omega),
    Conduct.loopCourse]
  congr 1
  split
  · next hok => exact absurd hok hbroken
  · exact List.append_nil _

/-- The first task that cannot be built breaks the last round of the loop. -/
theorem loopCourse_broken (hstart : s.Startable config) {count k j : Nat} (hk : k < count)
    (hj : j < config.threads.toNat)
    (hbefore : ∀ t < k * config.threads.toNat + j, s.create t = .ok ()) {cause : Failure}
    (h : s.create (k * config.threads.toNat + j) = .failed cause) :
    (s.conduct ctx).loopCourse s.benchmark config 0 1 count
      = (List.range k).flatMap (s.fullRound config) ++ s.brokenRound config k j := by
  have hne : s.create (k * config.threads.toNat + j) ≠ .ok () := by
    rw [h]
    exact nofun
  rw [loopCourse_of_unbuilt ctx hstart hk hj hbefore hne,
    iterationCourse_of_unbuilt hstart hj hbefore hne, h, brokenRound]

/-- A run comes to its end, and where the tasks of an iteration cannot all be built those that
need a thread never take a step. -/
theorem exists_ended_sparing (s : Script) {config : Config} (id : ContextId) (drawn : UInt64)
    (hvalid : config.fault? = none)
    (htotal : ∀ k < config.loops.toNat, (∀ t, config.isTaskOf k t → s.create t = .ok ()) →
      ((s.benchmark.duties config k).map s.notified).sum = config.rows.toNat)
    (now pace : Nat) (schedule : Schedule) :
    let ctx := Context.ofConfig id config drawn
    ∃ outcome s', s.benchmark.run ctx ⟨{ now, pace }, schedule, ()⟩ = .ok outcome s' ∧
      s.Ended ctx outcome s'.world ∧ ∀ k, s.init = .ok () →
        (s.conduct ctx).building (s.benchmark.duties config k) ≠ .ok () →
        (s.conduct ctx).Breaks s.benchmark config 0 config.loops.toNat k → ∀ turns,
          (s'.world.burst turns).Spares fun t =>
            config.isTaskOf k t ∧ (s.task t).drive? = none := by
  intro ctx
  obtain ⟨-, hmax⟩ := config.fault?_eq_none_iff.1 hvalid
  let rounds := Rounds.accounted s.benchmark (s.orderly ctx) hmax
  let sparing := rounds.extend (rounds.sparing (s.orderly ctx))
  have hregular (k : Nat) (hk : k < config.loops.toNat)
      (hok : (s.conduct ctx).iterating s.benchmark config k = .ok ()) : sparing.regular k :=
    regular_accounted id drawn hvalid htotal hmax k hk hok
  have hfresh : (sparing.idle 0).inv 0 [] ({ now, pace } : World) :=
    ⟨Ledger.quiet_fresh id now pace, Ledger.spared_fresh id _ now pace⟩
  obtain ⟨outcome, s', hrun, hended, hleft⟩ :=
    ends_run sparing hregular ⟨{ now, pace }, schedule, ()⟩ (.fresh hfresh trivial)
  refine ⟨outcome, s', hrun, hended, fun k hinit hbuilding hbreaks turns => ?_⟩
  obtain ⟨r, rest, ⟨hlooping, -⟩ | ⟨k', hbreaks', rfl⟩, hinv⟩ := hleft hinit
  · exact absurd ((Conduct.looping_of_breaks hbreaks).symm.trans hlooping) hbreaks.broken
  · -- the loop has stopped in that iteration, so what it was to hand out is still spared
    obtain rfl := hbreaks.unique hbreaks'
    have hspared := (sparing.busy k).burst hinv turns
    exact (Ledger.spares hspared.2).anti fun t ht =>
      .inr ⟨ht.1, by simp [conduct, ht.2], hbuilding⟩

/-- A run that nothing but its hooks could stop, of which one course is known. -/
theorem exists_course_of_run (s : Script) (config : Config) (hvalid : config.fault? = none)
    (hreporting : ∀ t, (s.task t).reporting = .eachRow) (hinit : s.init = .ok ())
    {course : List Event}
    (hloop : (s.conduct (.ofConfig 0 config 1)).loopCourse s.benchmark config 0 1
      config.loops.toNat = course) :
    ∃ outcome s' pending, s.benchmark.run (.ofConfig 0 config 1) ⟨{}, [], ()⟩ = .ok outcome s' ∧
      s'.world.course = s.opening pending ++ (course ++ s.closing) := by
  obtain ⟨outcome, s', hrun, ⟨⟨pending, hcourse⟩, -⟩⟩ := exists_ended s 0 1 hvalid
    (fun k _ _ => sum_notified (Config.threads_pos hvalid) hreporting k) 0 0 []
  refine ⟨outcome, s', pending, hrun, ?_⟩
  rw [hcourse, if_pos hinit, ← hloop]
  rfl

end Script

end BenchLoop
