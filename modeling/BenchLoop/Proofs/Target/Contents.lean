/-
BenchLoop/Proofs/Target/Contents.lean

What the tasks of an iteration leave in the stores.

* `StoreLaw.filling`: the tasks of a write run insert rows under their keys.  Each row is
  still to be handed out, or due to be inserted, or stored.  No two rows have the same
  key, so nothing that is stored is ever lost again, in whichever order the insertions
  come and whatever the stores held before.
* `StoreLaw.reading`: the tasks of a read run look up keys that have been loaded.

`Rounds.stocked` adds either law to the rounds of a benchmark.  Since a task notifies a row
only after it has accessed it, the end of the wait is the end of all accesses: the stores
are complete then, and still (`StoreLaw.filled`).
-/
import BenchLoop.Proofs.Rows.Coverage
import BenchLoop.Proofs.Target.Builtin
import BenchLoop.Proofs.Target.Stores

namespace BenchLoop

open CountdownAction

/-! ### Write runs -/

namespace Context

variable (ctx : Context) (p : StoreId → Prop)

/-- Whatever some stores hold is a row under its key. -/
def Sound (stores : Table Store) : Prop :=
  ∀ store, p store → ∀ key row, (stores.get store)[key]? = some row →
    row.toNat < ctx.config.rows.toNat ∧ ctx.key? row.toNat = some key

/-- One of the stores holds a row under its key. -/
def Holds (stores : Table Store) (row : Nat) : Prop :=
  ∀ key, ctx.key? row = some key →
    ∃ store, p store ∧ (stores.get store)[key]? = some (UInt64.ofNat row)

/-- Inserting a row under its key into one of the stores is due. -/
def Owes (due : Multiset (StoreId × RowAccess)) (row : Nat) : Prop :=
  ∀ key, ctx.key? row = some key →
    ∃ store, p store ∧ (store, .insert key (UInt64.ofNat row)) ∈ due

/-- An access inserts a row under its key. -/
def Inserts (store : StoreId) (a : RowAccess) : Prop :=
  p store ∧ ∃ row key, row < ctx.config.rows.toNat ∧ ctx.key? row = some key ∧
    a = .insert key (UInt64.ofNat row)

/-- No two rows have the same key. -/
def Keyed : Prop :=
  ∀ row row' key, row < ctx.config.rows.toNat → row' < ctx.config.rows.toNat →
    ctx.key? row = some key → ctx.key? row' = some key → row = row'

variable {ctx p}
variable {stores : Table Store} {store : StoreId} {row : Nat} {key : UInt32}

theorem keyed_ofConfig {config : Config} (id : ContextId) (drawn : UInt64)
    (hvalid : config.fault? = none) : (ofConfig id config drawn).Keyed :=
  fun _ _ _ hrow hrow' hkey hkey' => key?_inj id drawn hvalid hrow hrow' hkey hkey'

theorem get_modify_insert (stores : Table Store) (store store' : StoreId) (key key' : UInt32)
    (row : UInt64) : ((stores.modify store (·.insert key row)).get store')[key']?
      = if store = store' ∧ key = key' then some row else (stores.get store')[key']? := by
  rw [Table.get_modify]
  by_cases hstore : store = store'
  · subst hstore
    rw [if_pos rfl, Store.getElem?_insert]
    simp
  · simp [hstore]

/-- Inserting rows under their keys is sound. -/
theorem Sound.insert (h : ctx.Sound p stores) (hrow : row < ctx.config.rows.toNat)
    (hkey : ctx.key? row = some key) :
    ctx.Sound p (stores.modify store (·.insert key (UInt64.ofNat row))) := by
  intro store' hstore' key' row' hstored
  rw [get_modify_insert] at hstored
  split at hstored
  · next heq =>
    obtain ⟨rfl, rfl⟩ := heq
    have hsize := ctx.config.rows.toNat_lt
    obtain rfl := Option.some.inj hstored
    rw [UInt64.toNat_ofNat_of_lt' (by rw [UInt64.size]; omega)]
    exact ⟨hrow, hkey⟩
  · exact h store' hstore' key' row' hstored

/-- What is stored stays so: an insertion under the same key is one of the same row. -/
theorem Holds.insert (hkeyed : ctx.Keyed) (hrow : row < ctx.config.rows.toNat)
    (hkey : ctx.key? row = some key) {row' : Nat} (hrow' : row' < ctx.config.rows.toNat)
    (h : ctx.Holds p stores row') :
    ctx.Holds p (stores.modify store (·.insert key (UInt64.ofNat row))) row' := by
  intro key' hkey'
  obtain ⟨store', hstore', hstored⟩ := h key' hkey'
  refine ⟨store', hstore', ?_⟩
  rw [get_modify_insert]
  split
  · next heq =>
    obtain ⟨rfl, rfl⟩ := heq
    rw [hkeyed row row' key hrow hrow' hkey hkey']
  · exact hstored

end Context

/-- The tasks of a write run insert rows under their keys. -/
def StoreLaw.filling (ctx : Context) (p : StoreId → Prop) (hkeyed : ctx.Keyed) : StoreLaw where
  may := ctx.Inserts p
  tells _ _ := True
  known rest stores due := ctx.Sound p stores ∧ ∀ row < ctx.config.rows.toNat,
    (∃ d ∈ rest, row ∈ d.1.rows) ∨ ctx.Holds p stores row ∨ ctx.Owes p due row
  brings d more := ∀ row ∈ d.1.rows, ctx.Owes p more row
  insert {rest stores store key row due} hmay h := by
    obtain ⟨hstore, row, key, hrow, hkey, ⟨rfl, rfl⟩⟩ := hmay
    refine ⟨trivial, h.1.insert hrow hkey, fun row' hrow' => ?_⟩
    rcases h.2 row' hrow' with hrest | hholds | howes
    · exact .inl hrest
    · exact .inr (.inl (hholds.insert hkeyed hrow hkey hrow'))
    -- what was due is stored now, or due still
    · by_cases heq : row' = row
      · subst heq
        refine .inr (.inl fun key' hkey' => ⟨store, hstore, ?_⟩)
        obtain rfl := Option.some.inj (hkey.symm.trans hkey')
        rw [Context.get_modify_insert, if_pos ⟨rfl, rfl⟩]
      · refine .inr (.inr fun key' hkey' => ?_)
        obtain ⟨store', hstore', hmem⟩ := howes key' hkey'
        refine ⟨store', hstore', (Multiset.mem_cons.1 hmem).resolve_left fun hsame => heq ?_⟩
        obtain ⟨-, hinsert⟩ := Prod.mk.inj hsame
        obtain ⟨rfl, -⟩ := RowAccess.insert.inj hinsert
        exact hkeyed row' row key' hrow' hrow hkey' hkey
  lookup {rest stores store key due} hmay := by
    obtain ⟨-, row, key, -, -, ⟨⟩⟩ := hmay
  hand {d rest stores due more} hbrings h := by
    refine ⟨h.1, fun row hrow => ?_⟩
    rcases h.2 row hrow with ⟨d', hd', hmem⟩ | hholds | howes
    · rcases Multiset.mem_cons.1 hd' with rfl | hd'
      · refine .inr (.inr fun key hkey => ?_)
        obtain ⟨store, hstore, hdue⟩ := hbrings row hmem key hkey
        exact ⟨store, hstore, Multiset.mem_add.2 (.inr hdue)⟩
      · exact .inl ⟨d', hd', hmem⟩
    · exact .inr (.inl hholds)
    · refine .inr (.inr fun key hkey => ?_)
      obtain ⟨store, hstore, hdue⟩ := howes key hkey
      exact ⟨store, hstore, Multiset.mem_add.2 (.inl hdue)⟩

/-! ### Read runs -/

/-- A store holds the keys `1, …, rows`, each under itself. -/
def Store.Loaded (rows : Nat) (s : Store) : Prop :=
  ∀ (key : UInt32) (row : UInt64),
    s[key]? = some row ↔ row.toNat = key.toNat ∧ 1 ≤ key.toNat ∧ key.toNat ≤ rows

theorem Store.Loaded.contains {rows : Nat} {s : Store} (h : s.Loaded rows) {key : UInt32}
    (hpos : 1 ≤ key.toNat) (hle : key.toNat ≤ rows) : s.contains key = true := by
  rw [Std.ExtTreeMap.contains_eq_isSome_getElem?, (h key key.toUInt64).2 ⟨?_, hpos, hle⟩]
  · rfl
  · exact UInt32.toNat_toUInt64 key

/-- The tasks of a read run look up keys that have been loaded. -/
def StoreLaw.reading (store : StoreId) (rows : Nat) : StoreLaw where
  may store' a := store' = store ∧ ∃ key : UInt32, a = .lookup key ∧
    1 ≤ key.toNat ∧ key.toNat ≤ rows
  tells a took := took = true ∧ ∃ key, a = .lookup key
  known _ stores _ := (stores.get store).Loaded rows
  brings _ _ := True
  insert := by
    rintro rest stores store' key row due ⟨-, key', ⟨⟩, -⟩
  lookup := by
    rintro rest stores store' key due ⟨rfl, key', ⟨rfl⟩, hpos, hle⟩ h
    exact ⟨⟨h.contains hpos hle, key, rfl⟩, h⟩
  hand _ h := h

/-! ### The accesses of a task -/

namespace Context.Walks

variable {ctx : Context} {p : StoreId → Prop} {d : Duty} {steps : List Step}

theorem accesses_rowSteps {store : StoreId} {id : TaskId} {range : RowRange} :
    Step.accesses (MemoryMap.rowSteps ctx store id range : List Step)
      = (ctx.keyed range).map fun row => (store, MemoryMap.access ctx row) := by
  rw [MemoryMap.rowSteps]
  induction ctx.keyed range with
  | nil => rfl
  | cons row rows ih =>
    have hrow : Step.accesses ([⟨some id, .access store (MemoryMap.access ctx row)⟩,
        ctx.notify id 1] : List Step) = {(store, MemoryMap.access ctx row)} := rfl
    rw [List.flatMap_cons, ← Multiset.coe_add, Step.accesses_add, ih, hrow, List.map_cons,
      ← Multiset.cons_coe, Multiset.singleton_add]

/-- A task accesses one of the stores for each of its rows. -/
theorem accesses (h : ctx.Walks p d steps) : ∃ store, p store ∧
    Step.accesses steps = (ctx.keyed d.1).map fun row => (store, MemoryMap.access ctx row) := by
  obtain ⟨store, last, hstore, rfl, -, -, hlast, -⟩ := h
  have hend : Step.accesses ([last] : List Step) = 0 :=
    Step.accesses_eq_zero fun s hs => by
      obtain rfl := List.mem_singleton.1 hs
      exact hlast
  refine ⟨store, hstore, ?_⟩
  rw [← Multiset.cons_coe, ← Multiset.singleton_add, ← Multiset.coe_add, Step.accesses_add,
    Step.accesses_add, hend, add_zero, accesses_rowSteps]
  exact zero_add _

/-- It notifies each row after its access. -/
theorem followed (h : ctx.Walks p d steps) (hkeys : ctx.keyFault? d.1 = none) :
    (Line.followed ctx.id).holds steps := by
  refine ⟨fun s hs => Step.isCrash_of_isWork (Step.isWork_of_isOpening (h.isOpening hkeys s hs).1),
    ?_⟩
  obtain ⟨store, last, -, rfl, -, -, hlast, -⟩ := h
  refine ⟨(fun h => by cases h), .append ?_ ⟨fun h => by simp [hlast] at h, trivial⟩⟩
  rw [MemoryMap.rowSteps]
  induction ctx.keyed d.1 with
  | nil => trivial
  | cons row rows ih =>
    rw [List.flatMap_cons]
    refine .append ⟨fun _ => ⟨ctx.notify d.2 1, ?_, Context.counts_notify⟩, ?_, trivial⟩ ih
    · exact List.mem_cons_self
    · intro h
      cases h

/-- Whether a law allows the steps of a task is a matter of its rows. -/
theorem admits {l : StoreLaw} (h : ctx.Walks p d steps) (hkeys : ctx.keyFault? d.1 = none)
    (hmay : ∀ row ∈ ctx.keyed d.1, ∀ store, p store → l.may store (MemoryMap.access ctx row))
    (hbrings : ∀ store, p store →
      l.brings d ((ctx.keyed d.1).map fun row => (store, MemoryMap.access ctx row))) :
    l.Admits d steps := by
  obtain ⟨store, hstore, haccesses⟩ := h.accesses
  refine ⟨fun s hs => ⟨?_, fun store' a ha => ?_⟩, ?_⟩
  · exact Step.isCrash_of_isWork (Step.isWork_of_isOpening (h.isOpening hkeys s hs).1)
  · have hmem : (store', a) ∈ Step.accesses steps :=
      (Multiset.mem_filterMap _ _).2 ⟨s, Multiset.mem_coe.2 hs, ha⟩
    rw [haccesses] at hmem
    obtain ⟨row, hrow, heq⟩ := List.mem_map.1 (Multiset.mem_coe.1 hmem)
    obtain ⟨rfl, rfl⟩ := Prod.mk.inj heq
    exact hmay row hrow store hstore
  · rw [haccesses]
    exact hbrings store hstore

end Context.Walks

/-! ### The rounds -/

section Stocked

variable {σ : Type} (b : Benchmark σ) (threaded : Bool) (p : StoreId → Prop) {config : Config}
variable (id : ContextId) (drawn : UInt64)

/-- The rounds of a benchmark whose tasks walk through their rows. -/
def Rounds.walking (hvalid : config.fault? = none) :
    Rounds b (.walking (.ofConfig id config drawn) threaded p) (.ofConfig id config drawn) :=
  .accounted b (Conduct.orderly_walking b threaded p id drawn hvalid)
    (config.fault?_eq_none_iff.1 hvalid).2

/-- A law fits the tasks of a benchmark that walk through their rows: if `q` holds of the stores
then it can begin, and `q` holds again when nothing is left to do. -/
structure StoreLaw.Governs {σ : Type} (l : StoreLaw) (q : Table Store → Prop) (b : Benchmark σ)
    (ctx : Context) (p : StoreId → Prop) : Prop where
  opens (k : Nat) (stores : Table Store) : q stores → l.known (b.duties ctx.config k) stores 0
  closes (stores : Table Store) : l.known 0 stores 0 → q stores
  admits (k : Nat) : ∀ d ∈ b.duties ctx.config k, ∀ steps, ctx.Walks p d steps → l.Admits d steps

variable {b p id drawn}
variable {l : StoreLaw} {q : Table Store → Prop}

/-- What a law says of the stores while tasks walk through their rows. -/
def Rounds.stocked (hvalid : config.fault? = none)
    (hl : l.Governs q b (.ofConfig id config drawn) p) :
    (Rounds.walking b threaded p id drawn hvalid).Extra where
  idle _ := (StoreLaw.still l.tells q).regime
  busy _ := l.regime.both (Line.followed id).regime
  arm k := by
    refine ((l.regime.both (Line.followed id).regime).ends_perform _ _).mono (fun w _ h => ?_)
      fun _ _ _ h => h
    have hcalm : ∀ s ∈ w.inFlight, s.isCrash = false :=
      ((StoreLaw.still l.tells q).regime).calm h
    -- the steps of a reset act on no store
    have hreset : ∀ s ∈ (Context.ofConfig id config drawn).reset config.rows,
        s.isCrash = false ∧ s.access? = none := fun s hs =>
      ⟨Context.isCrash_of_mem_reset hs, by obtain ⟨a, -, rfl⟩ := List.mem_map.1 hs; rfl⟩
    exact ⟨StoreLaw.inv_of_still h (hl.opens k _ h.known) hreset,
      Line.followed_of_none hcalm (StoreLaw.access?_of_still h) hreset⟩
  admits k d hd _ steps hline :=
    ⟨hl.admits k d hd steps hline,
      hline.followed (Conduct.reach_of_mem_duties b id drawn hvalid hd).2⟩
  closes {k w} hk hbusy h hc := by
    have hquiet := (Rounds.walking b threaded p id drawn hvalid).closes hk hbusy hc
    have hunits : Step.tally id units w.inFlight = 0 :=
      Step.tally_units_of_isQuiet fun s hs => hquiet.1 s (Multiset.mem_add.2 (.inl hs))
    exact StoreLaw.still_of_quiet h.1 h.2 hunits (hl.closes _)

/-- Each row is one of some task. -/
theorem Benchmark.exists_duty (hvalid : config.fault? = none) (k : Nat) {row : Nat}
    (hrow : row < config.rows.toNat) : ∃ d ∈ b.duties config k, row ∈ d.1.rows := by
  rw [← List.mem_range, ← flatMap_rows b.name (Config.threads_pos hvalid)] at hrow
  obtain ⟨range, hrange, hrow⟩ := List.mem_flatMap.1 hrow
  obtain ⟨i, hi, rfl⟩ := List.mem_iff_getElem.1 hrange
  exact ⟨_, List.mk_add_mem_zipIdx_iff_getElem?.2 (List.getElem?_eq_getElem hi), hrow⟩

/-- The task for a duty of a write run inserts its rows. -/
theorem Context.Walks.admits_filling (hvalid : config.fault? = none)
    (hwrite : config.isWrite = true) {k : Nat} {d : Duty} (hd : d ∈ b.duties config k)
    {steps : List Step} (h : (Context.ofConfig id config drawn).Walks p d steps)
    (hkeyed : (Context.ofConfig id config drawn).Keyed) :
    (StoreLaw.filling (Context.ofConfig id config drawn) p hkeyed).Admits d steps := by
  obtain ⟨hreach, hkeys⟩ := Conduct.reach_of_mem_duties b id drawn hvalid hd
  have hbounds := bounds_of_mem_taskRanges (List.fst_mem_of_mem_zipIdx hd)
  have haccess (row : Nat) (key : UInt32) :
      MemoryMap.access (.ofConfig id config drawn) (row, key) = .insert key (UInt64.ofNat row) :=
    if_pos hwrite
  refine h.admits hkeys ?_ fun store hstore row hrow key hkey => ⟨store, hstore, ?_⟩
  · rintro ⟨row, key⟩ hmem store hstore
    obtain ⟨hrow, hkey⟩ := (Context.mem_keyed hreach).1 hmem
    have hlt := (RowRange.mem_rows.1 hrow).2.trans_le hbounds.2
    exact ⟨hstore, row, key, hlt, hkey, haccess row key⟩
  · refine Multiset.mem_coe.2 (List.mem_map.2 ⟨(row, key), ?_, by rw [haccess]⟩)
    exact (Context.mem_keyed hreach).2 ⟨hrow, hkey⟩

/-- The task for a duty of a read run looks up keys of the loaded store. -/
theorem Context.Walks.admits_reading (hvalid : config.fault? = none)
    (hread : config.isWrite = false) {store : StoreId} (hp : ∀ store', p store' → store' = store)
    {k : Nat} {d : Duty} (hd : d ∈ b.duties config k) {steps : List Step}
    (h : (Context.ofConfig id config drawn).Walks p d steps) :
    (StoreLaw.reading store config.rows.toNat).Admits d steps := by
  obtain ⟨hreach, hkeys⟩ := Conduct.reach_of_mem_duties b id drawn hvalid hd
  have hbounds := bounds_of_mem_taskRanges (List.fst_mem_of_mem_zipIdx hd)
  have haccess (row : Nat) (key : UInt32) :
      MemoryMap.access (.ofConfig id config drawn) (row, key) = .lookup key :=
    if_neg (by simp [Context.ofConfig, hread])
  refine h.admits hkeys ?_ fun _ _ => trivial
  rintro ⟨row, key⟩ hmem store' hstore'
  obtain ⟨hrow, hkey⟩ := (Context.mem_keyed hreach).1 hmem
  have hlt := (RowRange.mem_rows.1 hrow).2.trans_le hbounds.2
  obtain ⟨key', hkey', hkeybounds⟩ := Context.exists_key id drawn hvalid hlt
  obtain rfl := Option.some.inj (hkey.symm.trans hkey')
  exact ⟨hp store' hstore', key, haccess row key, hkeybounds⟩

/-- In a write run each iteration fills the stores. -/
theorem StoreLaw.governs_filling (hvalid : config.fault? = none) (hwrite : config.isWrite = true) :
    (filling (.ofConfig id config drawn) p (Context.keyed_ofConfig id drawn hvalid)).Governs
      ((Context.ofConfig id config drawn).Sound p) b (.ofConfig id config drawn) p where
  opens k _ h := ⟨h, fun _ hrow => .inl (Benchmark.exists_duty hvalid k hrow)⟩
  closes _ h := h.1
  admits _ _ hd _ hwalks := hwalks.admits_filling hvalid hwrite hd _

/-- In a read run no iteration misses a key of the loaded store. -/
theorem StoreLaw.governs_reading {store : StoreId} (hp : ∀ store', p store' → store' = store)
    (hvalid : config.fault? = none) (hread : config.isWrite = false) :
    (reading store config.rows.toNat).Governs
      (fun stores => (stores.get store).Loaded config.rows.toNat) b (.ofConfig id config drawn)
      p where
  opens _ _ h := h
  closes _ h := h
  admits _ _ hd _ hwalks := hwalks.admits_reading hvalid hread hp hd

end Stocked

/-! ### At the end of the wait -/

/-- The stores hold the rows under their keys, and nothing else. -/
def World.Filled (ctx : Context) (p : StoreId → Prop) (w : World) : Prop :=
  ∀ key row, (∃ store, p store ∧ w.row? store key = some row) ↔
    row.toNat < ctx.config.rows.toNat ∧ ctx.key? row.toNat = some key

/-- When nothing is left to hand out and no access is in flight, the stores are filled. -/
theorem StoreLaw.filled {ctx : Context} {p : StoreId → Prop} {hkeyed : ctx.Keyed}
    {tells : RowAccess → Bool → Prop} {q : Table Store → Prop} {w : World}
    (h : (filling ctx p hkeyed).regime.inv 0 [] w)
    (hstill : (still tells q).regime.inv 0 [] w) : w.Filled ctx p := by
  obtain ⟨hsound, hrows⟩ := h.known
  have hnone : Step.accesses (w.inFlight + (([] : List Step) : Multiset Step)) = 0 :=
    Step.accesses_eq_zero fun s hs => access?_of_still hstill s (by simpa using hs)
  rw [hnone] at hrows
  intro key row
  constructor
  · rintro ⟨store, hstore, hrow⟩
    exact hsound store hstore key row hrow
  · rintro ⟨hrow, hkey⟩
    -- a row is owed by a task, stored, or due to a step in flight; the first and last are ruled out
    rcases hrows row.toNat hrow with ⟨d, hd, -⟩ | hholds | howes
    · cases hd
    · obtain ⟨store, hstore, hstored⟩ := hholds key hkey
      rw [UInt64.ofNat_toNat] at hstored
      exact ⟨store, hstore, hstored⟩
    · obtain ⟨store, -, hdue⟩ := howes key hkey
      cases hdue

end BenchLoop
