/-
BenchLoop/Proofs/Context.lean

The keys of a checked configuration.  There are as many as rows, and every range that an
iteration hands out lies within the rows.  So all rows of such a range are within reach
(`reach_of_mem`): no task ever runs out of keys, nor asks for a list that is too long.
-/
import BenchLoop.Context
import BenchLoop.Proofs.Rows.Shares

namespace BenchLoop

theorem Config.threads_pos {c : Config} (hvalid : c.fault? = none) : 0 < c.threads.toNat :=
  Nat.pos_of_ne_zero fun h => (c.fault?_eq_none_iff.1 hvalid).1 (UInt64.toNat_inj.1 h)

namespace Context

variable {config : Config} {benchmark : String} {range : RowRange}

theorem size_keys_ofConfig (id : ContextId) (drawn : UInt64) (hvalid : config.fault? = none) :
    (ofConfig id config drawn).keys.size = config.rows.toNat := by
  obtain ⟨-, hmax⟩ := config.fault?_eq_none_iff.1 hvalid
  rw [ofConfig, Permutation.size, Permutation.size_keys, UInt64.toNat_toUInt32]
  exact Nat.mod_eq_of_lt (Nat.lt_of_le_of_lt hmax (by decide))

/-- All rows of a range within the rows of the configuration have keys. -/
theorem reach_of_le (id : ContextId) (drawn : UInt64) (hvalid : config.fault? = none)
    (h : range.stop.toNat ≤ config.rows.toNat) :
    (ofConfig id config drawn).reach range = range.rowCount := by
  have hsize : (ofConfig id config drawn).keys.size = config.rows.toNat :=
    size_keys_ofConfig id drawn hvalid
  unfold reach
  split
  · rw [hsize, RowRange.rowCount]
    omega
  · rfl

theorem keyFault?_of_le (id : ContextId) (drawn : UInt64) (hvalid : config.fault? = none)
    (h : range.stop.toNat ≤ config.rows.toNat) :
    (ofConfig id config drawn).keyFault? range = none := by
  rw [keyFault?, reach_of_le id drawn hvalid h, if_neg (Nat.lt_irrefl _)]

/-- All rows of a range that is handed out have keys. -/
theorem reach_of_mem (id : ContextId) (drawn : UInt64) (hvalid : config.fault? = none)
    (h : range ∈ taskRanges benchmark config.rows config.threads) :
    (ofConfig id config drawn).reach range = range.rowCount :=
  reach_of_le id drawn hvalid (bounds_of_mem_taskRanges h).2

theorem keyFault?_of_mem (id : ContextId) (drawn : UInt64) (hvalid : config.fault? = none)
    (h : range ∈ taskRanges benchmark config.rows config.threads) :
    (ofConfig id config drawn).keyFault? range = none :=
  keyFault?_of_le id drawn hvalid (bounds_of_mem_taskRanges h).2

/-- The keys of some rows, in order; rows without a key are left out. -/
def keysAt (ctx : Context) (rows : List Nat) : List UInt32 := rows.filterMap ctx.key?

/-- The keys of a range that is handed out can be listed. -/
theorem keyList_of_mem (id : ContextId) (drawn : UInt64) (hvalid : config.fault? = none)
    (h : range ∈ taskRanges benchmark config.rows config.threads) :
    (ofConfig id config drawn).keyList range
      = .ok ((ofConfig id config drawn).keysAt range.rows) := by
  obtain ⟨hle, hrows⟩ := bounds_of_mem_taskRanges h
  obtain ⟨-, hmax⟩ := config.fault?_eq_none_iff.1 hvalid
  have hcount : range.rowCount ≤ Config.maxRows := by
    rw [RowRange.rowCount]
    omega
  have hroom : Capacity.fitsList range.rowCount 4 = true := by
    have hblock : Config.maxRows * 4 ≤ Capacity.blockSize := by decide
    rw [Capacity.fitsList, decide_eq_true_iff]
    omega
  have hkeyed : ((ofConfig id config drawn).keyed range).map (·.2)
      = (ofConfig id config drawn).keysAt range.rows := by
    rw [keyed, reach_of_mem id drawn hvalid h, List.map_filterMap]
    simp only [Option.map_map, Function.comp_def, Option.map_id']
    rfl
  rw [keyList, if_pos hroom, keyFault?_of_mem id drawn hvalid h, ← hkeyed]

/-- If no row of a range is out of reach then its rows come with their keys. -/
theorem mem_keyed {ctx : Context} (hreach : ctx.reach range = range.rowCount) {row : Nat}
    {key : UInt32} : (row, key) ∈ ctx.keyed range ↔ row ∈ range.rows ∧ ctx.key? row = some key := by
  rw [keyed, hreach, List.mem_filterMap]
  constructor
  · rintro ⟨row', hrow, hkey⟩
    obtain ⟨key', hkey', heq⟩ := Option.map_eq_some_iff.1 hkey
    obtain ⟨rfl, rfl⟩ := Prod.mk.inj heq
    exact ⟨hrow, hkey'⟩
  · rintro ⟨hrow, hkey⟩
    exact ⟨row, hrow, by rw [hkey]; rfl⟩

/-- Every row of a range within reach comes with its key. -/
theorem length_keyed (ctx : Context) (range : RowRange) :
    (ctx.keyed range).length = ctx.reach range := by
  have hall : ∀ row ∈ List.range' range.start.toNat (ctx.reach range),
      ((ctx.key? row).map (row, ·)).isSome := by
    intro row hrow
    obtain ⟨i, hi, rfl⟩ := List.mem_range'.1 hrow
    rw [Option.isSome_map, Nat.one_mul]
    exact key?_of_lt_reach hi
  rw [keyed, List.length_filterMap_eq_countP, List.countP_eq_length.2 hall, List.length_range']

end Context

end BenchLoop
