/-
BenchLoop/Proofs/Target/MemoryRuns.lean

The store of the map in memory over consecutive runs of one benchmark.

* In a write run the store holds each row under its key, and nothing else, whenever the wait
  of an iteration is over.
* In a read run it holds the keys `1, …, rows` from the beginning to the end, and no look-up
  misses.
* After a run it is empty, and remains so, although the threads of the run are never joined.

A write run and a read run differ in the law that their tasks obey; everything else is
proved for both at once (`Tracks`).
-/
import BenchLoop.Proofs.Target.Consecutive

namespace BenchLoop

namespace MemoryMap

/-- Loading adds the keys to a store. -/
theorem getElem?_foldl_insert (keys : List UInt32) (s : Store) (key : UInt32) :
    (keys.foldl (fun s key => s.insert key key.toUInt64) s)[key]?
      = if key ∈ keys then some key.toUInt64 else s[key]? := by
  induction keys generalizing s with
  | nil => simp
  | cons key' keys ih =>
    rw [List.foldl_cons, ih, Store.getElem?_insert]
    by_cases hmem : key ∈ keys
    · simp [hmem]
    · by_cases heq : key' = key
      · simp [heq]
      · simp [hmem, heq, Ne.symm heq]

/-- An empty store that has been loaded holds the keys and nothing else. -/
theorem loaded_load (rows : UInt32) : (load rows {}).Loaded rows.toNat := by
  have hmem (key : UInt32) : key ∈ (consecutiveKeys rows).toList ↔
      1 ≤ key.toNat ∧ key.toNat ≤ rows.toNat := by
    rw [← List.mem_map_of_injective (f := UInt32.toNat) fun _ _ => UInt32.toNat_inj.1,
      map_toNat_consecutiveKeys, List.mem_range'_1]
    omega
  intro key row
  have hempty : ({} : Store)[key]? = none := Std.ExtTreeMap.getElem?_empty
  rw [load, ← Array.foldl_toList, getElem?_foldl_insert, hempty]
  split
  · next h =>
    have hbounds := (hmem key).1 h
    rw [Option.some.injEq, ← UInt64.toNat_inj, UInt32.toNat_toUInt64]
    exact ⟨fun heq => ⟨heq.symm, hbounds⟩, fun heq => heq.1.symm⟩
  · next h => exact ⟨nofun, fun heq => absurd ((hmem key).2 heq.2) h⟩

/-- The store is empty. -/
def Cleared (stores : Table Store) : Prop := stores.get store = {}

/-- How the store is prepared for a run: read runs load it. -/
def prepared (config : Config) (stores : Table Store) : Table Store :=
  if config.isWrite then stores else stores.modify store (load config.rows.toUInt32)

/-! ### What the store holds -/

variable {config : Config} {id : ContextId} {drawn : UInt64}

/-- The store holds the keys `1, …, rows`, and every access so far was a look-up that found its
key. -/
structure Serves (rows : Nat) (w : World) : Prop where
  loaded : (w.stores.get store).Loaded rows
  hits : ∀ e ∈ w.journal, e.Tells fun a took => took = true ∧ ∃ key, a = .lookup key

/-- What a law of stores has to do with the mode of a run. -/
structure Tracks (config : Config) (id : ContextId) (drawn : UInt64) (l : StoreLaw)
    (q : Table Store → Prop) : Prop where
  governed : benchmark.Governed config id drawn true (· = store) (fun _ _ => True) l q
  prepared : ∀ stores, Cleared stores → q (prepared config stores)
  filled (w : World) : config.isWrite = true → l.regime.inv 0 [] w →
    (StoreLaw.still l.tells q).regime.inv 0 [] w → ∀ key row, w.row? store key = some row ↔
      row.toNat < config.rows.toNat ∧
        (Context.ofConfig id config drawn).key? row.toNat = some key
  serves (w : World) (rest : Multiset Duty) : config.isWrite = false →
    l.regime.inv rest [] w → Serves config.rows.toNat w
  still (w : World) : config.isWrite = false →
    (StoreLaw.still l.tells q).regime.inv 0 [] w → Serves config.rows.toNat w

/-- For each run there is a law. -/
theorem exists_tracks (id : ContextId) (drawn : UInt64) (hvalid : config.fault? = none) :
    ∃ l q, Tracks config id drawn l q := by
  cases hwrite : config.isWrite with
  | true =>
    -- a write run starts from nothing and puts each row in
    refine ⟨_, _, ⟨follows _, by decide, StoreLaw.governs_filling hvalid hwrite⟩,
      fun stores hcleared => ?_, fun w _ h hstill key row => ?_,
      fun _ _ h => absurd (hwrite.symm.trans h) nofun,
      fun _ h => absurd (hwrite.symm.trans h) nofun⟩
    · rintro _ rfl key row hstored
      rw [MemoryMap.prepared, if_pos hwrite, show stores.get store = {} from hcleared] at hstored
      exact absurd (Std.ExtTreeMap.getElem?_empty.symm.trans hstored) nofun
    · have hfilled := StoreLaw.filled h hstill key row
      simp only [exists_eq_left] at hfilled
      exact hfilled
  | false =>
    -- a read run is given all keys, and what it looks up leaves them there
    refine ⟨_, _, ⟨follows _, by decide, StoreLaw.governs_reading (fun _ h => h) hvalid hwrite⟩,
      fun stores hcleared => ?_, fun _ h => absurd (hwrite.symm.trans h) nofun,
      fun w rest _ h => ⟨h.known, h.told⟩, fun w _ h => ⟨h.known, h.told⟩⟩
    have hrows : config.rows.toUInt32.toNat = config.rows.toNat := by
      have hmax := (config.fault?_eq_none_iff.1 hvalid).2
      have hsize : Config.maxRows < 2 ^ 32 := by decide
      rw [UInt64.toNat_toUInt32, Nat.mod_eq_of_lt (by omega)]
    have hload := loaded_load config.rows.toUInt32
    rw [hrows] at hload
    rw [MemoryMap.prepared, if_neg (by simp [hwrite]), Table.get_modify_self,
      show stores.get store = {} from hcleared]
    exact hload

/-! ### Runs -/

section Runs

variable {l : StoreLaw} {q : Table Store → Prop} {k : Nat}

/-- Initialising a benchmark whose store is empty always ends well, and prepares the store. -/
theorem ends_prepare (hvalid : config.fault? = none) {tells : RowAccess → Bool → Prop}
    (hq : ∀ stores, Cleared stores → q (prepared config stores)) :
    Run.Ends (Between config id drawn (fun _ _ => True) tells Cleared k)
      (benchmark.init (.ofConfig id config drawn)) fun outcome w target =>
        outcome = .ok () ∧ Between config id drawn (fun _ _ => True) tells q k w target := by
  have hconfig : (Context.ofConfig id config drawn).config = config := rfl
  simp only [benchmark, init, hconfig]
  cases hwrite : config.isWrite with
  | true =>
    simp only [prepared, hwrite, if_true] at hq
    exact .pure fun w target h => ⟨rfl, h.restock (hq w.stores h.still.known)⟩
  | false =>
    simp only [prepared, hwrite, Bool.false_eq_true, if_false] at hq
    refine Run.Ends.bind (Run.Ends.step (Q := fun filled w target => filled = true ∧
      Between config id drawn (fun _ _ => True) tells q k w target) Between.stable
      fun w target h => ?_) fun filled => Run.Ends.lift ?_
    · have hcleared : (w.stores.get store).size = 0 := by
        rw [show w.stores.get store = {} from h.still.known]
        rfl
      -- the rows of a checked configuration fit into a table that is empty
      have hroom : (w.stores.get store).size + config.rows.toNat ≤ Capacity.tableRoom := by
        have hmax := (config.fault?_eq_none_iff.1 hvalid).2
        have : Config.maxRows ≤ Capacity.tableRoom := by decide
        omega
      rw [fill, if_pos hroom]
      exact ⟨rfl, h.restock (hq w.stores h.still.known)⟩
    · rintro rfl
      exact (Between.ends_log _ _).bind fun _ => .pure fun _ _ h => ⟨rfl, h⟩

/-- A run always begins well, and prepares the store. -/
theorem ends_start (hvalid : config.fault? = none) (htracks : Tracks config id drawn l q) :
    Run.Ends (Between config id drawn (fun _ _ => True) l.tells Cleared k)
      (benchmark.start (.ofConfig id config drawn)) fun outcome w target =>
        outcome = .ok () ∧ Between config id drawn (fun _ _ => True) l.tells q k w target :=
  Benchmark.ends_start Between.ends_log (ends_prepare hvalid htracks.prepared)

/-- A run empties the store at its end. -/
theorem ends_conclude (outcome : Outcome HarnessError (List Measurement)) :
    Run.Ends (Between config id drawn (fun _ _ => True) l.tells q k) (benchmark.conclude outcome)
      fun _ => Between config id drawn (fun _ _ => True) l.tells Cleared k := by
  have hdestroy : Run.Ends (Between config id drawn (fun _ _ => True) l.tells q k)
      benchmark.destroy fun _ => Between config id drawn (fun _ _ => True) l.tells Cleared k := by
    refine Run.Ends.bind (Run.Ends.step
      (Q := fun _ => Between config id drawn (fun _ _ => True) l.tells Cleared k) Between.stable
      fun w target h => h.restock ?_) fun _ => .pure fun _ _ h => h
    exact Table.get_set_self _ _ _
  refine (Benchmark.ends_conclude hdestroy (fun _ => Between.ends_log) outcome).post ?_
  rintro outcome w target ⟨-, -, h⟩
  exact h

/-- A run leaves the store as empty as it was. -/
theorem ends_run (hvalid : config.fault? = none) (htracks : Tracks config id drawn l q) :
    Run.Ends
      (fun w target => ∃ k, Between config id drawn (fun _ _ => True) l.tells Cleared k w target)
      (benchmark.run (.ofConfig id config drawn))
      fun _ w target => ∃ k, Between config id drawn (fun _ _ => True) l.tells Cleared k w target :=
    by
  rw [Benchmark.run_eq]
  refine Run.Ends.ex fun k => (ends_start hvalid htracks).bind fun outcome => Run.Ends.lift ?_
  rintro rfl
  refine (htracks.governed.ends_iterateFrom hvalid k _ 1).bind fun outcome => ?_
  refine Run.Ends.pre (P := fun w target =>
    ∃ k', Between config id drawn (fun _ _ => True) l.tells q k' w target)
    (Run.Ends.ex fun k' => ?_) fun w target h => h.2.1
  exact (ends_conclude outcome).post fun _ _ _ h => ⟨k', h⟩

end Runs

/-- **The store over consecutive runs.**  Once any number of runs have come to their end the
store is empty, and remains so while threads of these runs still take turns.  In the run after
them the store is prepared, then goes through any number of iterations.

* In a write run the end of the wait of the next iteration finds each row under its key in the
  store, and nothing else, whatever the threads still do.
* In a read run the store holds all keys, and every look-up of a task has found its key: after
  the store has been prepared, between iterations and during them. -/
theorem contents (hvalid : config.fault? = none) (id : ContextId) (drawn : UInt64)
    (count now pace : Nat) (schedule : Schedule) :
    let ctx := Context.ofConfig id config drawn
    let Reads (w : World) : Prop := config.isWrite = false → w.Remains (Serves config.rows.toNat)
    ∃ s₀, benchmark.runs ctx count ⟨{ now, pace }, schedule, ()⟩ = .ok () s₀ ∧
      s₀.world.Remains (fun w => w.stores.get store = {}) ∧
      ∃ s₁, benchmark.start ctx s₀ = .ok (.ok ()) s₁ ∧ Reads s₁.world ∧
        ∀ k, ∃ outcome s₂, benchmark.iterateFrom ctx 1 k s₁ = .ok outcome s₂ ∧ Reads s₂.world ∧
          (PartitionFault.ofThreads? config.threads = none → ∃ results, outcome = .ok results) ∧
          ∀ results, outcome = .ok results → ∀ loop,
            (∃ latch s₃, Benchmark.arm ctx loop s₂ = .ok latch s₃ ∧ Reads s₃.world) ∧
            ∃ outcome s₃, benchmark.engage ctx loop s₂ = .ok outcome s₃ ∧ Reads s₃.world ∧
              (PartitionFault.ofThreads? config.threads = none → ∃ tasks, outcome = .ok tasks) ∧
              ∀ tasks, outcome = .ok tasks → config.isWrite = true →
                s₃.world.Remains fun w => ∀ key row, w.row? store key = some row ↔
                  row.toNat < config.rows.toNat ∧ ctx.key? row.toNat = some key := by
  intro ctx Reads
  obtain ⟨l, q, htracks⟩ := exists_tracks id drawn hvalid
  have hb := htracks.governed
  have hstill (w : World) (h : (StoreLaw.still l.tells q).regime.inv 0 [] w) : Reads w :=
    fun hread turns => htracks.still _ hread (Regime.burst _ h turns)
  obtain ⟨_, s₀, hruns, k₀, h₀⟩ := Benchmark.ends_runs (ends_run hvalid htracks) count
    ⟨{ now, pace }, schedule, ()⟩ ⟨0, .fresh now pace trivial rfl⟩
  obtain ⟨_, s₁, hstart, rfl, h₁⟩ := ends_start hvalid htracks s₀ h₀
  refine ⟨s₀, hruns, fun turns => (Regime.burst _ h₀.still turns).known, s₁, hstart,
    hstill _ h₁.still, fun k => ?_⟩
  obtain ⟨outcome, s₂, hloop, hok, ⟨k', h₂⟩, hresults⟩ :=
    hb.ends_iterateFrom hvalid k₀ k 1 s₁ h₁
  refine ⟨outcome, s₂, hloop, hstill _ h₂.still, hok, fun results hout loop => ⟨?_, ?_⟩⟩
  · obtain ⟨latch, s₃, harm, h₃⟩ :=
      hb.ends_arm hvalid _ loop s₂ (hresults results hout)
    exact ⟨latch, s₃, harm, fun hread turns =>
      htracks.serves _ _ hread (Regime.burst _ h₃ turns)⟩
  · obtain ⟨outcome', s₃, hengage, hok', hlaw, h₃, -⟩ :=
      hb.ends_engage hvalid _ loop s₂ (hresults results hout)
    refine ⟨outcome', s₃, hengage, hstill _ h₃, hok', fun tasks hout' hwrite turns => ?_⟩
    exact htracks.filled _ hwrite (Regime.burst _ (hlaw tasks hout') turns)
      (Regime.burst _ h₃ turns)

/-- In the second write run over one store, the second of its iterations leaves the third row
under the third key. -/
theorem contents_second_run :
    let config : Config := { loops := 2, rows := 3, threads := 2, write? := some true }
    let ctx := Context.ofConfig 0 config 7
    config.fault? = none ∧ config.isWrite = true ∧
      ∃ s₀ s₁ s₂ s₃ results tasks, benchmark.runs ctx 1 ⟨{}, [[], [.thread 0]], ()⟩ = .ok () s₀ ∧
        benchmark.start ctx s₀ = .ok (.ok ()) s₁ ∧
        benchmark.iterateFrom ctx 1 1 s₁ = .ok (.ok results) s₂ ∧
        benchmark.engage ctx 2 s₂ = .ok (.ok tasks) s₃ ∧
        s₃.world.Remains fun w => w.row? store 3 = some 2 := by
  intro config ctx
  have hvalid : config.fault? = none := by decide
  have hroom : PartitionFault.ofThreads? config.threads = none := by decide
  obtain ⟨s₀, hruns, -, s₁, hstart, -, hloops⟩ := contents hvalid 0 7 1 0 0 [[], [.thread 0]]
  obtain ⟨outcome, s₂, hloop, -, hresults, hnext⟩ := hloops 1
  obtain ⟨results, rfl⟩ := hresults hroom
  obtain ⟨-, outcome', s₃, hengage, -, htasks, hfilled⟩ := hnext results rfl 2
  obtain ⟨tasks, rfl⟩ := htasks hroom
  refine ⟨hvalid, rfl, s₀, s₁, s₂, s₃, results, tasks, hruns, hstart, hloop, hengage,
    fun turns => ?_⟩
  exact (hfilled tasks rfl rfl turns 3 2).2 ⟨by decide, rfl⟩

end MemoryMap

end BenchLoop
