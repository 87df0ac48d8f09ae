/-
BenchLoop/Proofs/Target/Labels.lean

The operation that a result line reports and the one that was measured.  Two places decide
it: the label of a measurement (`Config.labels`), and the tasks that insert or look up their
rows (`Config.isWrite`).  They decide alike whenever the operation is set.  Left unset next
to a set order it is reported as a write, while the tasks look their rows up.

`Benchmark.ReportsAccesses` says so of a benchmark, going by the accesses that the journal
has of the tasks of an iteration; `reportsAccesses_builtin` proves it for the built-in targets,
and `reported_as_write` shows the one case where the two places differ.
-/
import BenchLoop.Proofs.Target.Errands

namespace BenchLoop

/-! ### What the tasks of an iteration have done -/

section Accessed

variable {σ : Type} (b : Benchmark σ) (ctx : Context) (k : Nat)

/-- Each task of iteration number `k` has accessed each of its rows once, in a certain way,
and has accessed nothing else. -/
def World.Accessed (f : Nat → UInt32 → RowAccess) (w : World) : Prop :=
  w.errands.filter (fun e => ctx.config.isTaskOf k e.1)
    = ((b.duties ctx.config k).flatMap (ctx.rowErrands f) : List Errand)

/-- They have inserted their rows. -/
def World.Inserted (w : World) : Prop :=
  w.Accessed b ctx k fun row key => .insert key (UInt64.ofNat row)

/-- They have looked their rows up. -/
def World.LookedUp (w : World) : Prop := w.Accessed b ctx k fun _ key => .lookup key

variable {b ctx k} {config : Config} {id : ContextId} {drawn : UInt64} {w : World}

/-- With rows they have not done both. -/
theorem World.Inserted.not_lookedUp (hvalid : config.fault? = none)
    (hrows : 0 < config.rows.toNat) (h : w.Inserted b (.ofConfig id config drawn) k) :
    ¬ w.LookedUp b (.ofConfig id config drawn) k := by
  intro h'
  let ctx := Context.ofConfig id config drawn
  obtain ⟨d, hd, hrow⟩ := Benchmark.exists_duty (b := b) hvalid k hrows
  obtain ⟨key, hkey, -⟩ := Context.exists_key id drawn hvalid hrows
  have hmem : (d.2, RowAccess.insert key (UInt64.ofNat 0)) ∈
      (b.duties config k).flatMap (ctx.rowErrands fun row key => .insert key (UInt64.ofNat row)) :=
    List.mem_flatMap.2 ⟨d, hd, List.mem_filterMap.2 ⟨0, hrow, by rw [hkey]; rfl⟩⟩
  have hmem' : (d.2, RowAccess.insert key (UInt64.ofNat 0)) ∈
      (b.duties config k).flatMap (ctx.rowErrands fun _ key => .lookup key) :=
    Multiset.mem_coe.1 ((h.symm.trans h') ▸ Multiset.mem_coe.2 hmem)
  obtain ⟨d', -, hd'⟩ := List.mem_flatMap.1 hmem'
  obtain ⟨row, -, heq⟩ := List.mem_filterMap.1 hd'
  obtain ⟨key', -, heq⟩ := Option.map_eq_some_iff.1 heq
  cases (Prod.mk.inj heq).2

/-- Tasks that walk through their rows access them as the configuration says. -/
theorem World.accessed_of_errands (hvalid : config.fault? = none) {f : Nat → UInt32 → RowAccess}
    (hf : ∀ row key, MemoryMap.access (.ofConfig id config drawn) (row, key) = f row key)
    (h : w.errands = b.errandsBefore (.ofConfig id config drawn) (k + 1)) :
    w.Accessed b (.ofConfig id config drawn) k f := by
  let ctx := Context.ofConfig id config drawn
  have hwalk (d : Duty) (hd : d ∈ b.duties config k) : ctx.walkErrands d = ctx.rowErrands f d :=
    Context.walkErrands_eq hf (Conduct.reach_of_mem_duties b id drawn hvalid hd).1
  rw [Accessed, h, Benchmark.filter_errandsBefore, ← Multiset.coe_bind]
  exact Multiset.bind_congr fun d hd => hwalk d (Multiset.mem_coe.1 hd)

end Accessed

/-! ### What is reported -/

section Reports

variable {σ : Type} {b : Benchmark σ} {config : Config}

/-- The operation that an iteration reports is the one that its tasks have performed: after any
number of iterations that went well, and whatever the schedule is, the tasks of an iteration with
a measurement have by then inserted their rows or looked them up as configured, and never both.
If the operation is set, any label says which.  If it is not, the tasks have looked their rows up
and any label says that they were written. -/
def Benchmark.ReportsAccesses (b : Benchmark σ) (config : Config) (target : σ) : Prop :=
  ∀ (id : ContextId) (drawn : UInt64) (now pace : Nat) (schedule : Schedule)
    (s₁ s₂ : Session σ) (k : Nat) (results : List Measurement),
    let ctx := Context.ofConfig id config drawn
    b.init ctx ⟨{ now, pace }, schedule, target⟩ = .ok (.ok ()) s₁ →
    b.iterateFrom ctx 1 k s₁ = .ok (.ok results) s₂ → ∀ loop : UInt32,
    ∃ outcome s₃, b.iterate ctx loop s₂ = .ok outcome s₃ ∧ ∀ x, outcome = .ok x → ∀ turns,
      let w := s₃.world.burst turns
      (w.Inserted b ctx k ↔ config.isWrite = true) ∧
        (w.LookedUp b ctx k ↔ config.isWrite = false) ∧
        ∀ operation, x.operation? = some operation →
          (config.write?.isSome = true →
            (operation = .write ↔ w.Inserted b ctx k) ∧
              (operation = .read ↔ w.LookedUp b ctx k)) ∧
          (config.write? = none →
            operation = .write ∧ w.LookedUp b ctx k ∧ ¬ w.Inserted b ctx k)

variable {id : ContextId} {drawn : UInt64} {k : Nat} {w : World}

/-- When the errands of an iteration have been run, they have been run as configured. -/
theorem World.inserted_iff (hvalid : config.fault? = none) (hrows : 0 < config.rows.toNat)
    (h : w.errands = b.errandsBefore (.ofConfig id config drawn) (k + 1)) :
    (w.Inserted b (.ofConfig id config drawn) k ↔ config.isWrite = true) ∧
      (w.LookedUp b (.ofConfig id config drawn) k ↔ config.isWrite = false) := by
  cases hwrite : config.isWrite with
  | true =>
    have hinserted : w.Inserted b (.ofConfig id config drawn) k :=
      accessed_of_errands hvalid (fun _ _ => if_pos hwrite) h
    simpa [hinserted] using hinserted.not_lookedUp hvalid hrows
  | false =>
    have hlooked : w.LookedUp b (.ofConfig id config drawn) k :=
      accessed_of_errands hvalid (fun _ _ => if_neg (by simp [Context.ofConfig, hwrite])) h
    simpa [hlooked] using fun hinserted : w.Inserted b (.ofConfig id config drawn) k =>
      hinserted.not_lookedUp hvalid hrows hlooked

/-- A label that goes by a set operation says which. -/
theorem Config.operation_of_labels {write : Bool} (hwrite : config.write? = some write)
    {operation : Operation} (h : config.labels.2 = some operation) :
    (operation = .write ↔ config.isWrite = true) ∧
      (operation = .read ↔ config.isWrite = false) := by
  unfold labels at h
  cases hrandom : config.random? with
  | none => simp [hrandom] at h
  | some random =>
    simp only [hrandom, Option.some.injEq] at h
    cases write <;> subst h <;> simp [isWrite, hwrite]

/-- A label without one says that rows are written. -/
theorem Config.operation_of_labels_unset (hwrite : config.write? = none) {operation : Operation}
    (h : config.labels.2 = some operation) : operation = .write := by
  unfold labels at h
  cases hrandom : config.random? with
  | none => simp [hrandom] at h
  | some random => simpa [hrandom, hwrite, eq_comm] using h

variable {known : Nat → σ → Prop} {target : σ}

/-- A benchmark whose tasks walk through their rows reports what they have performed. -/
theorem Benchmark.reportsAccesses_of_walking {threaded : Bool} {p : StoreId → Prop}
    (hvalid : config.fault? = none) (hrows : 0 < config.rows.toNat)
    (hb : ∀ ctx, b.Follows (.walking ctx threaded p) ctx known)
    (hinit : ∀ id drawn, b.Readies (.ofConfig id config drawn) known target) :
    b.ReportsAccesses config target := by
  intro id drawn now pace schedule s₁ s₂ k results ctx hbegin hearlier loop
  let rounds := (Rounds.ordered b threaded p id drawn hvalid).extend
    (Rounds.errands b threaded p id drawn hvalid)
  have hregular (k : Nat) : rounds.regular k :=
    Conduct.rows_walking b threaded p id drawn hvalid k
  have hstoreless : (rounds.idle 0).Storeless := fun _ _ _ h stores =>
    ⟨⟨Ledger.storeless _ _ _ _ _ h.1.1 stores, StoreLaw.still_restock h.1.2 trivial⟩,
      Regime.storeless_errands _ _ _ h.2 stores⟩
  have hfresh : (rounds.idle 0).inv 0 [] ({ now, pace } : World) :=
    ⟨⟨Ledger.quiet_fresh id now pace, nofun, trivial, nofun⟩, Regime.errands_fresh _ now pace⟩
  obtain ⟨course, hstage⟩ := stage_of_iterateFrom (hb ctx) rounds hregular (hinit id drawn)
    hstoreless hfresh hbegin hearlier
  obtain ⟨outcome, s₃, hiterate, -, hends⟩ :=
    ends_iterate (hb ctx) rounds (fun _ => hregular k) loop s₂ hstage
  refine ⟨outcome, s₃, hiterate, ?_⟩
  rintro x rfl turns w
  obtain ⟨total, average, ⟨rfl⟩, hdone⟩ | ⟨hne, -⟩ := hends
  · have herrands : w.errands = b.errandsBefore ctx (k + 1) :=
      Rounds.errands_eq ((rounds.idle (k + 1)).burst hdone.inv.2 turns)
    obtain ⟨hinserted, hlooked⟩ := World.inserted_iff hvalid hrows herrands
    refine ⟨hinserted, hlooked, fun operation hlabel => ⟨fun hset => ?_, fun hunset => ?_⟩⟩
    · obtain ⟨write, hwrite⟩ := Option.isSome_iff_exists.1 hset
      rw [hinserted, hlooked]
      exact Config.operation_of_labels hwrite hlabel
    · -- the label has a default of its own, and the tasks have another
      have hread : config.isWrite = false := by simp [Config.isWrite, hunset]
      exact ⟨Config.operation_of_labels_unset hunset hlabel, hlooked.2 hread,
        fun h => by simp [hinserted.1 h] at hread⟩
  · exact absurd rfl hne

end Reports

/-! ### The built-in targets -/

section Builtin

variable {config : Config} (hvalid : config.fault? = none) (hrows : 0 < config.rows.toNat)
include hvalid hrows

theorem MemoryMap.reportsAccesses : benchmark.ReportsAccesses config () :=
  Benchmark.reportsAccesses_of_walking hvalid hrows follows fun _ _ => readies _

theorem WorkerPool.reportsAccesses (size : UInt64) :
    benchmark.ReportsAccesses config { size } :=
  Benchmark.reportsAccesses_of_walking hvalid hrows
    (fun ctx => follows ctx (q := fun _ => True) (p := fun _ => True) fun _ _ _ _ => trivial)
    (readies hvalid size)

/-- **What is reported is what was measured**, when the operation is set.  Take a valid
configuration with rows, set or unset as it may be.  In both built-in targets, with any number of
threads and workers and on any schedule, every iteration reports the accesses of its tasks. -/
theorem reportsAccesses_builtin :
    MemoryMap.benchmark.ReportsAccesses config () ∧
      ∀ size, WorkerPool.benchmark.ReportsAccesses config { size } :=
  ⟨MemoryMap.reportsAccesses hvalid hrows, WorkerPool.reportsAccesses hvalid hrows⟩

omit hvalid hrows in
/-- The second iteration of a serial write run of the map in memory. -/
theorem reportsAccesses_serial_write :
    let config : Config := { rows := 3, threads := 2, random? := some false, write? := some true }
    let ctx := Context.ofConfig 0 config 7
    ∃ s₁ s₂ s₃ results x,
      MemoryMap.benchmark.init ctx ⟨{}, [[], [.thread 0]], ()⟩ = .ok (.ok ()) s₁ ∧
      MemoryMap.benchmark.iterateFrom ctx 1 1 s₁ = .ok (.ok results) s₂ ∧
      MemoryMap.benchmark.iterate ctx 2 s₂ = .ok (.ok x) s₃ ∧
      x.operation? = some .write ∧ s₃.world.Inserted MemoryMap.benchmark ctx 1 := by
  intro config ctx
  have hvalid : config.fault? = none := by decide
  have hruns : ((MemoryMap.benchmark.init ctx).ending? ⟨{}, [[], [.thread 0]], ()⟩).any (fun r₁ =>
      r₁.1 = .ok () && ((MemoryMap.benchmark.iterateFrom ctx 1 1).ending? r₁.2).any fun r₂ =>
        r₂.1.void = .ok () && ((MemoryMap.benchmark.iterate ctx 2).ending? r₂.2).any fun r₃ =>
          r₃.1.map (·.operation?) = .ok (some .write)) = true := by decide +kernel
  simp only [Option.any_eq_true, Bool.and_eq_true, decide_eq_true_eq, Prod.exists,
    Run.ending?_eq_some_iff] at hruns
  -- the three parts of the run, as it comes out
  obtain ⟨_, s₁, hinit, rfl, outcome₁, s₂, hearlier, hok₁, outcome₂, s₃, hiterate, hok₂⟩ := hruns
  obtain ⟨results, rfl⟩ := Outcome.exists_of_void_eq_ok hok₁
  obtain ⟨x, rfl, hlabel⟩ := Outcome.exists_of_map_eq_ok hok₂
  obtain ⟨outcome, s₃', hiterate', hreports⟩ := (reportsAccesses_builtin hvalid (by decide)).1 0 7
    0 0 _ s₁ s₂ 1 results hinit hearlier 2
  rw [hiterate] at hiterate'
  cases hiterate'
  exact ⟨s₁, s₂, s₃, results, x, hinit, hearlier, hiterate, hlabel, (hreports x rfl []).1.2 rfl⟩

omit hvalid hrows in
/-- With the order set and the operation left unset, rows that have been looked up are reported
as written. -/
theorem reported_as_write :
    let config : Config := { rows := 3, threads := 2, random? := some true }
    let ctx := Context.ofConfig 0 config 7
    config.fault? = none ∧ 0 < config.rows.toNat ∧ ∃ s₁ s₂ x,
      MemoryMap.benchmark.init ctx ⟨{}, [], ()⟩ = .ok (.ok ()) s₁ ∧
      MemoryMap.benchmark.iterate ctx 1 s₁ = .ok (.ok x) s₂ ∧
      x.operation? = some .write ∧ s₂.world.LookedUp MemoryMap.benchmark ctx 0 ∧
      ¬ s₂.world.Inserted MemoryMap.benchmark ctx 0 := by
  intro config ctx
  have hvalid : config.fault? = none := by decide
  refine ⟨hvalid, by decide, ?_⟩
  have hruns : ((MemoryMap.benchmark.init ctx).ending? ⟨{}, [], ()⟩).any (fun r₁ =>
      r₁.1 = .ok () && ((MemoryMap.benchmark.iterate ctx 1).ending? r₁.2).any fun r₂ =>
        r₂.1.map (·.operation?) = .ok (some .write)) = true := by decide +kernel
  simp only [Option.any_eq_true, Bool.and_eq_true, decide_eq_true_eq, Prod.exists,
    Run.ending?_eq_some_iff] at hruns
  obtain ⟨_, s₁, hinit, rfl, outcome, s₂, hiterate, hok⟩ := hruns
  obtain ⟨x, rfl, hlabel⟩ := Outcome.exists_of_map_eq_ok hok
  obtain ⟨outcome', s₂', hiterate', hreports⟩ := MemoryMap.reportsAccesses hvalid (by decide) 0 7
    0 0 _ s₁ s₁ 0 [] hinit rfl 1
  rw [hiterate] at hiterate'
  cases hiterate'
  obtain ⟨-, -, hlabels⟩ := hreports x rfl []
  obtain ⟨-, hlooked, hinserted⟩ := (hlabels .write hlabel).2 rfl
  exact ⟨s₁, s₂, x, hinit, hiterate, hlabel, hlooked, hinserted⟩

end Builtin

end BenchLoop
