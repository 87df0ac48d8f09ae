/-
BenchLoop/Proofs/Target/Errands.lean

Who has accessed which rows.  An access that a step makes for a task is an errand of that
task, and the journal lists the errands that have been run (`World.errands`).

No errand is lost and none is run twice.  Whatever the tasks of an iteration have been
given is at any time run already, in flight, or still to be handed out (`Balance.errands`),
and since a row is notified only after its access, all of it has been run when the wait of
the iteration is over.  So the journal lists exactly the errands of the tasks so far
(`Rounds.errands_eq`), and those of one iteration can be told by the numbers of its tasks
(`Benchmark.filter_errandsBefore`).
-/
import BenchLoop.Proofs.Target.Consecutive

namespace BenchLoop

open CountdownAction

/-- An access to a row, with the task that it is made for. -/
abbrev Errand := TaskId × RowAccess

/-- The errand that a step runs. -/
def Step.errand? (s : Step) : Option Errand :=
  s.task.bind fun t => s.access?.map fun a => (t, a.2)

/-- The errand that has been run, going by an entry. -/
def Entry.errand? (e : Entry) : Option Errand :=
  match e.event with
  | .performed s _ => s.errand?
  | _ => none

/-- The errands that have been run so far. -/
def World.errands (w : World) : Multiset Errand :=
  (w.journal : Multiset Entry).filterMap Entry.errand?

/-- The errands among some steps. -/
def Step.errands (pool : Multiset Step) : Multiset Errand := pool.filterMap Step.errand?

/-! ### Errands in flight -/

namespace Step

theorem errands_add (pool more : Multiset Step) :
    errands (pool + more) = errands pool + errands more :=
  Multiset.filterMap_add _ pool more

theorem errands_cons (s : Step) (pool : Multiset Step) :
    errands (s ::ₘ pool) = (s.errand?.toList : Multiset Errand) + errands pool := by
  cases h : s.errand? <;> simp [errands, h]

/-- Where no access is in flight no errand is. -/
theorem errands_eq_zero {pool : Multiset Step} (h : ∀ s ∈ pool, s.access? = none) :
    errands pool = 0 := by
  refine Multiset.eq_zero_of_forall_notMem fun x hx => ?_
  obtain ⟨s, hs, hx⟩ := (Multiset.mem_filterMap _ _).1 hx
  simp [errand?, h s hs] at hx

end Step

namespace World

variable {w : World} {actor : Actor} {s : Step}

/-- A step runs its errand, and leads to no other. -/
theorem errands_exec (pool : Multiset Step) :
    (w.exec actor s).2.errands + Step.errands (((w.exec actor s).1.toList : Multiset Step) + pool)
      = w.errands + Step.errands (s ::ₘ pool) := by
  have hnext : Step.errands ((w.exec actor s).1.toList : Multiset Step) = 0 :=
    Step.errands_eq_zero fun t ht => access?_exec (by simpa using ht)
  have hrun : (w.exec actor s).2.errands = (s.errand?.toList : Multiset Errand) + w.errands := by
    obtain ⟨task, action⟩ := s
    cases action with
    | access store a => cases a <;> cases task <;> rfl
    | _ => cases task <;> rfl
  rw [Step.errands_add, hnext, zero_add, Step.errands_cons, hrun]
  abel

theorem errands_note (event : Event) (he : event.isStep = false) :
    (w.note actor event).errands = w.errands := by
  cases event with
  | performed s took => cases he
  | _ => rfl

end World

/-- What tasks have been given is run, in flight or still to be handed out. -/
def Balance.errands (due : Duty → Multiset Errand) (total : Multiset Errand) :
    Balance (Multiset Duty) where
  holds rest w pool := (∀ s ∈ pool, s.isCrash = false) ∧
    w.errands + Step.errands pool + rest.bind due = total
  sound h := h.1
  later h _ := h
  note h event he := ⟨h.1, by rw [World.errands_note event he]; exact h.2⟩
  exec {rest w pool actor s} h :=
    ⟨World.forall_exec h.1 fun _ => World.exec_isCrash, by rw [World.errands_exec]; exact h.2⟩
  frame h _ _ := h

/-- Tasks come with the errands that they are due. -/
def Regime.errands (due : Duty → Multiset Errand) (total : Multiset Errand) : Regime :=
  (Balance.errands due total).regime
    (fun d steps => (∀ s ∈ steps, s.isCrash = false) ∧ Step.errands steps = due d)
    fun {d steps rest w pool} ha h => by
      refine ⟨fun s hs => (Multiset.mem_add.1 hs).elim (h.1 s) fun hs => ha.1 s hs, ?_⟩
      rw [Step.errands_add, ha.2, ← h.2, Multiset.cons_bind]
      abel

theorem Regime.storeless_errands {due : Duty → Multiset Errand} {total : Multiset Errand} :
    (errands due total).Storeless :=
  fun _ _ _ h _ => h

/-- Nothing has been run where nothing has happened. -/
theorem Regime.errands_fresh (due : Duty → Multiset Errand) (now pace : Nat) :
    (errands due 0).inv 0 [] ({ now, pace } : World) :=
  ⟨nofun, rfl⟩

/-! ### The errands of a walk -/

/-- Steps that are all of one task run its accesses. -/
theorem Step.errands_of_task {steps : List Step} {t : TaskId}
    (h : ∀ s ∈ steps, s.task = some t) :
    errands steps = (accesses steps).map fun a => (t, a.2) := by
  rw [errands, accesses, Multiset.map_filterMap, Multiset.filterMap_coe, Multiset.filterMap_coe]
  refine congrArg _ (List.filterMap_congr fun s hs => ?_)
  simp [errand?, h s hs]

namespace Context

variable (ctx : Context)

/-- A task accesses each of its rows in some way. -/
def rowErrands (f : Nat → UInt32 → RowAccess) (d : Duty) : List Errand :=
  d.1.rows.filterMap fun row => (ctx.key? row).map fun key => (d.2, f row key)

/-- The errands of a task that walks through its rows. -/
def walkErrands (d : Duty) : Multiset Errand :=
  (ctx.keyed d.1).map fun row => (d.2, MemoryMap.access ctx row)

variable {ctx} {p : StoreId → Prop} {d : Duty} {steps : List Step}

theorem Walks.errands (h : ctx.Walks p d steps) (hkeys : ctx.keyFault? d.1 = none) :
    Step.errands steps = ctx.walkErrands d := by
  obtain ⟨store, -, haccesses⟩ := h.accesses
  rw [Step.errands_of_task fun s hs => (h.isOpening hkeys s hs).2, haccesses, Multiset.map_coe,
    List.map_map]
  rfl

/-- If all rows of a range have keys then its task accesses every one of them. -/
theorem walkErrands_eq {f : Nat → UInt32 → RowAccess}
    (hf : ∀ row key, MemoryMap.access ctx (row, key) = f row key)
    (hreach : ctx.reach d.1 = d.1.rowCount) : ctx.walkErrands d = ctx.rowErrands f d := by
  rw [walkErrands, rowErrands, keyed, hreach, RowRange.rows, List.map_filterMap]
  refine congrArg _ (List.filterMap_congr fun row _ => ?_)
  simp [Function.comp_def, hf]

end Context

/-- The steps of a reset are no errands. -/
theorem Context.errands_reset (ctx : Context) (rows : UInt64) :
    Step.errands (ctx.reset rows) = 0 :=
  Step.errands_eq_zero fun s hs => by
    obtain ⟨a, -, rfl⟩ := List.mem_map.1 (Multiset.mem_coe.1 hs)
    rfl

/-! ### Iteration after iteration -/

/-- All accesses are allowed, and nothing is known of the stores. -/
def StoreLaw.any : StoreLaw where
  may _ _ := True
  tells _ _ := True
  known _ _ _ := True
  brings _ _ := True
  insert _ _ := ⟨trivial, trivial⟩
  lookup _ _ := ⟨trivial, trivial⟩
  hand _ _ := trivial

section Rounds

variable {σ : Type} (b : Benchmark σ) {config : Config} (threaded : Bool) (p : StoreId → Prop)
variable (id : ContextId) (drawn : UInt64)

/-- The errands of the tasks of the first `k` iterations. -/
def Benchmark.errandsBefore (b : Benchmark σ) (ctx : Context) : (k : Nat) → Multiset Errand
  | 0 => 0
  | k + 1 => errandsBefore b ctx k + (b.duties ctx.config k : Multiset Duty).bind ctx.walkErrands

theorem StoreLaw.governs_any (hvalid : config.fault? = none) :
    any.Governs (fun _ => True) b (.ofConfig id config drawn) p where
  opens _ _ _ := trivial
  closes _ _ := trivial
  admits _ _ hd _ hwalks :=
    hwalks.admits (Conduct.reach_of_mem_duties b id drawn hvalid hd).2 (fun _ _ _ _ => trivial)
      fun _ _ => trivial

/-- The rounds of tasks that walk through their rows, in whatever way they access them. -/
def Rounds.ordered (hvalid : config.fault? = none) :
    Rounds b (.walking (.ofConfig id config drawn) threaded p) (.ofConfig id config drawn) :=
  (Rounds.walking b threaded p id drawn hvalid).extend
    (Rounds.stocked threaded hvalid (StoreLaw.governs_any b p id drawn hvalid))

/-- What errands have been run, before and during each iteration. -/
def Rounds.errands (hvalid : config.fault? = none) :
    (Rounds.ordered b threaded p id drawn hvalid).Extra where
  idle k := .errands (Context.ofConfig id config drawn).walkErrands
    (b.errandsBefore (.ofConfig id config drawn) k)
  busy k := .errands (Context.ofConfig id config drawn).walkErrands
    (b.errandsBefore (.ofConfig id config drawn) (k + 1))
  arm k := by
    refine (Regime.ends_perform _ _ _).pre fun w _ h => ⟨fun s hs => ?_, ?_⟩
    · exact (Multiset.mem_add.1 hs).elim (fun hs => h.1 s (by simpa using hs))
        Context.isCrash_of_mem_reset
    · have hidle := h.2
      rw [Multiset.coe_nil, add_zero, Multiset.zero_bind, add_zero] at hidle
      rw [Step.errands_add, Context.errands_reset, add_zero, hidle]
      rfl
  admits k d hd _ steps hline := by
    obtain ⟨-, hkeys⟩ := Conduct.reach_of_mem_duties b id drawn hvalid hd
    refine ⟨fun s hs => ?_, hline.errands hkeys⟩
    exact Step.isCrash_of_isWork (Step.isWork_of_isOpening (hline.isOpening hkeys s hs).1)
  closes _ _ h _ := h

variable {b threaded p id drawn} {w : World} {k : Nat}

/-- Between two iterations all errands so far have been run. -/
theorem Rounds.errands_eq {hvalid : config.fault? = none}
    (h : (((ordered b threaded p id drawn hvalid).extend
      (errands b threaded p id drawn hvalid)).idle k).inv 0 [] w) :
    w.errands = b.errandsBefore (.ofConfig id config drawn) k := by
  obtain ⟨⟨-, hstill⟩, -, herrands⟩ := h
  have hnone : Step.errands (w.inFlight + (([] : List Step) : Multiset Step)) = 0 :=
    Step.errands_eq_zero fun s hs => StoreLaw.access?_of_still hstill s (by simpa using hs)
  rwa [hnone, add_zero, Multiset.zero_bind, add_zero] at herrands

instance (c : Config) (k : Nat) : DecidablePred (c.isTaskOf k) := fun _ =>
  inferInstanceAs (Decidable (_ ∧ _))

theorem Context.fst_of_mem_walkErrands {ctx : Context} {d : Duty} {e : Errand}
    (h : e ∈ ctx.walkErrands d) : e.1 = d.2 := by
  obtain ⟨row, -, rfl⟩ := List.mem_map.1 (Multiset.mem_coe.1 h)
  rfl

/-- The errands before an iteration are those of tasks with lower numbers. -/
theorem Benchmark.fst_of_mem_errandsBefore {ctx : Context} {e : Errand}
    (h : e ∈ b.errandsBefore ctx k) : e.1 < k * ctx.config.threads.toNat := by
  induction k with
  | zero => exact absurd h (Multiset.notMem_zero e)
  | succ k ih =>
    rcases Multiset.mem_add.1 h with h | h
    · exact (ih h).trans_le (Nat.mul_le_mul_right _ (Nat.le_succ k))
    · obtain ⟨d, hd, he⟩ := Multiset.mem_bind.1 h
      rw [Context.fst_of_mem_walkErrands he]
      exact (Benchmark.isTaskOf_of_mem (Multiset.mem_coe.1 hd)).2

/-- The errands of an iteration are told by the numbers of its tasks. -/
theorem Benchmark.filter_errandsBefore (b : Benchmark σ) (ctx : Context) (k : Nat) :
    (b.errandsBefore ctx (k + 1)).filter (fun e => ctx.config.isTaskOf k e.1)
      = (b.duties ctx.config k : Multiset Duty).bind ctx.walkErrands := by
  have hbefore : (b.errandsBefore ctx k).filter (fun e => ctx.config.isTaskOf k e.1) = 0 :=
    Multiset.filter_eq_nil.2 fun e he h =>
      absurd (fst_of_mem_errandsBefore he) (Nat.not_lt.2 h.1)
  rw [errandsBefore, Multiset.filter_add, hbefore, zero_add, Multiset.filter_eq_self]
  intro e he
  obtain ⟨d, hd, he⟩ := Multiset.mem_bind.1 he
  rw [Context.fst_of_mem_walkErrands he]
  exact Benchmark.isTaskOf_of_mem (Multiset.mem_coe.1 hd)

end Rounds

end BenchLoop
