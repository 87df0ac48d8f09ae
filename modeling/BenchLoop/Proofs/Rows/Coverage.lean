/-
BenchLoop/Proofs/Rows/Coverage.lean

Every iteration visits every key exactly once, in whichever order its rows are visited.

Three things have to fit together: the ranges of an iteration cover its rows
(`flatMap_rows`), there is a key for each of these rows and no key wraps
(`Context.map_key?`), and the keys of all rows are `1, …, rows`, each once
(`Context.perm_keysAt`).  `Context.covers_taskRanges` puts them together.
-/
import BenchLoop.Proofs.Context

namespace BenchLoop

theorem map_toNat_consecutiveKeys (rows : UInt32) :
    (consecutiveKeys rows).toList.map UInt32.toNat = List.range' 1 rows.toNat := by
  have hkey (i : Fin rows.toNat) : (UInt32.ofNat i + 1).toNat = 1 + i := by
    have hi := i.isLt
    have hrows := rows.toNat_lt
    rw [UInt32.toNat_add, UInt32.toNat_ofNat_of_lt' (by rw [UInt32.size]; omega),
      UInt32.toNat_one, Nat.mod_eq_of_lt (by omega), Nat.add_comm]
  rw [consecutiveKeys, Array.toList_ofFn, List.map_ofFn]
  refine List.ext_getElem (by simp) fun i hi hi' => ?_
  rw [List.getElem_ofFn, List.getElem_range'_1]
  exact hkey ⟨i, by simpa using hi'⟩

namespace Context

variable {ctx : Context}

/-- What the tasks for some ranges visit: every key of the context, each once. -/
structure Covers (ctx : Context) (ranges : List RowRange) : Prop where
  /-- No row of a task is out of bounds. -/
  keyed : ∀ range ∈ ranges, range.rows.map ctx.key? = (ctx.keysAt range.rows).map some
  /-- A task can list the keys of all its rows. -/
  listed : ∀ range ∈ ranges, ctx.keyList range = .ok (ctx.keysAt range.rows)
  /-- In order, the key of a row is its number plus 1 and does not wrap. -/
  unwrapped : ctx.config.isRandom = false → ∀ range ∈ ranges, ∀ row ∈ range.rows,
    ∀ key, ctx.key? row = some key → key.toNat = row + 1
  /-- All tasks together visit the keys `1, …, rows`, each once. -/
  once : ((ranges.flatMap fun range => ctx.keysAt range.rows).map UInt32.toNat).Perm
    (List.range' 1 ctx.config.rows.toNat)
  /-- In order, they visit them in order. -/
  serial : ctx.config.isRandom = false →
    (ranges.flatMap fun range => ctx.keysAt range.rows).map UInt32.toNat
      = List.range' 1 ctx.config.rows.toNat
  /-- In random order, each task visits its slice of the permutation. -/
  slices : ctx.config.isRandom = true →
    (∀ range ∈ ranges, ctx.keysAt range.rows
      = (ctx.keys.keys.toList.drop range.start.toNat).take range.rowCount) ∧
    (ranges.flatMap fun range => ctx.keysAt range.rows) = ctx.keys.keys.toList
  /-- No key is visited by two tasks. -/
  disjoint : ranges.Pairwise fun range other =>
    (ctx.keysAt range.rows).Disjoint (ctx.keysAt other.rows)

/-- Serial runs: row `i` has the key `i + 1`. -/
theorem toNat_key_of_serial (hserial : ctx.config.isRandom = false) {row : Nat}
    (hrow : row + 1 < UInt32.size) {key : UInt32} (hkey : ctx.key? row = some key) :
    key.toNat = row + 1 := by
  rw [key?, hserial, if_neg Bool.false_ne_true, Option.some.injEq] at hkey
  rw [← hkey, UInt32.toNat_add, UInt32.toNat_ofNat_of_lt' (by omega), UInt32.toNat_one,
    Nat.mod_eq_of_lt hrow]

/-- Random runs: consecutive rows have a slice of the permutation. -/
theorem keysAt_range'_of_random (hrandom : ctx.config.isRandom = true) (start count : Nat) :
    ctx.keysAt (List.range' start count) = (ctx.keys.keys.toList.drop start).take count := by
  have hkey (row : Nat) : ctx.key? row = ctx.keys.keys.toList[row]? := by
    rw [key?, hrandom, if_pos rfl, Permutation.key?, Array.getElem?_toList]
  induction count generalizing start with
  | zero => rfl
  | succ count ih =>
    rw [keysAt, List.range'_succ, List.filterMap_cons, hkey]
    by_cases hstart : start < ctx.keys.keys.toList.length
    · rw [List.getElem?_eq_getElem hstart, List.drop_eq_getElem_cons hstart, List.take_succ_cons]
      exact congrArg (_ :: ·) (ih (start + 1))
    · rw [List.getElem?_eq_none (Nat.le_of_not_lt hstart),
        List.drop_eq_nil_of_le (Nat.le_of_not_lt hstart), List.take_nil]
      refine (ih (start + 1)).trans ?_
      rw [List.drop_eq_nil_of_le (by omega), List.take_nil]

section Config

variable {config : Config} (id : ContextId) (drawn : UInt64)

/-- Every row has a key. -/
theorem map_key? (hvalid : config.fault? = none) {rows : List Nat}
    (hrows : ∀ row ∈ rows, row < config.rows.toNat) :
    rows.map (ofConfig id config drawn).key?
      = ((ofConfig id config drawn).keysAt rows).map some := by
  have hsome (row : Nat) (hrow : row ∈ rows) : ((ofConfig id config drawn).key? row).isSome := by
    have hsize : (ofConfig id config drawn).keys.keys.size = config.rows.toNat :=
      size_keys_ofConfig id drawn hvalid
    unfold key? Permutation.key?
    -- shuffled keys are as many as the rows, and keys in order need no table
    split
    · rw [Array.getElem?_eq_getElem (by rw [hsize]; exact hrows row hrow)]
      rfl
    · rfl
  unfold keysAt
  induction rows with
  | nil => rfl
  | cons row rows ih =>
    obtain ⟨key, hkey⟩ := Option.isSome_iff_exists.1 (hsome row List.mem_cons_self)
    rw [List.map_cons, List.filterMap_cons, hkey, List.map_cons]
    exact congrArg (_ :: ·) (ih (fun row hrow => hrows row (List.mem_cons_of_mem _ hrow))
      fun row hrow => hsome row (List.mem_cons_of_mem _ hrow))

theorem map_toNat_keysAt (hvalid : config.fault? = none) (hserial : config.isRandom = false) :
    ((ofConfig id config drawn).keysAt (List.range config.rows.toNat)).map UInt32.toNat
      = List.range' 1 config.rows.toNat := by
  obtain ⟨-, hmax⟩ := config.fault?_eq_none_iff.1 hvalid
  have hserial : (ofConfig id config drawn).config.isRandom = false := hserial
  have hkey (row : Nat) :
      (ofConfig id config drawn).key? row = some (UInt32.ofNat row + 1) := by
    rw [key?, hserial, if_neg Bool.false_ne_true]
  have hkeys : (ofConfig id config drawn).keysAt (List.range config.rows.toNat)
      = (List.range config.rows.toNat).map fun row => UInt32.ofNat row + 1 := by
    rw [keysAt, ← List.filterMap_eq_map]
    exact List.filterMap_congr fun row _ => hkey row
  rw [hkeys, List.map_map, List.range'_eq_map_range]
  refine List.map_congr_left fun row hrow => ?_
  have hrow := List.mem_range.1 hrow
  have hsize : Config.maxRows + 1 = UInt32.size := rfl
  rw [Function.comp_apply, toNat_key_of_serial hserial (by omega) (hkey row), Nat.add_comm]

/-- The permutation has the keys `1, …, rows`, each once. -/
theorem perm_keys (hvalid : config.fault? = none) :
    ((ofConfig id config drawn).keys.keys.toList.map UInt32.toNat).Perm
      (List.range' 1 config.rows.toNat) := by
  obtain ⟨-, hmax⟩ := config.fault?_eq_none_iff.1 hvalid
  have hrows : config.rows.toUInt32.toNat = config.rows.toNat := by
    rw [UInt64.toNat_toUInt32]
    exact Nat.mod_eq_of_lt (Nat.lt_of_le_of_lt hmax (by decide))
  have hperm := (Permutation.perm_consecutive config.rows.toUInt32 config.seed drawn).toList
  rw [← hrows, ← map_toNat_consecutiveKeys]
  exact hperm.map UInt32.toNat

theorem keysAt_of_random (hvalid : config.fault? = none) (hrandom : config.isRandom = true) :
    (ofConfig id config drawn).keysAt (List.range config.rows.toNat)
      = (ofConfig id config drawn).keys.keys.toList := by
  have hsize : (ofConfig id config drawn).keys.keys.toList.length = config.rows.toNat :=
    Array.length_toList.trans (size_keys_ofConfig id drawn hvalid)
  rw [List.range_eq_range', keysAt_range'_of_random hrandom, List.drop_zero, ← hsize,
    List.take_length]

/-- The rows have the keys `1, …, rows`, each once. -/
theorem perm_keysAt (hvalid : config.fault? = none) :
    (((ofConfig id config drawn).keysAt (List.range config.rows.toNat)).map UInt32.toNat).Perm
      (List.range' 1 config.rows.toNat) := by
  cases h : config.isRandom with
  | false => exact .of_eq (map_toNat_keysAt id drawn hvalid h)
  | true =>
    rw [keysAt_of_random id drawn hvalid h]
    exact perm_keys id drawn hvalid

/-- Each row has a key, one of `1, …, rows`. -/
theorem exists_key (hvalid : config.fault? = none) {row : Nat} (hrow : row < config.rows.toNat) :
    ∃ key, (ofConfig id config drawn).key? row = some key ∧
      1 ≤ key.toNat ∧ key.toNat ≤ config.rows.toNat := by
  have hrows : ∀ row ∈ List.range config.rows.toNat, row < config.rows.toNat :=
    fun row => List.mem_range.1
  have hmem : (ofConfig id config drawn).key? row
      ∈ (List.range config.rows.toNat).map (ofConfig id config drawn).key? :=
    List.mem_map_of_mem (List.mem_range.2 hrow)
  rw [map_key? id drawn hvalid hrows] at hmem
  obtain ⟨key, hkey, heq⟩ := List.mem_map.1 hmem
  have hbounds := List.mem_range'_1.1
    ((perm_keysAt id drawn hvalid).subset (List.mem_map_of_mem hkey))
  exact ⟨key, heq.symm, hbounds.1, by omega⟩

/-- No two rows have the same key. -/
theorem key?_inj (hvalid : config.fault? = none) {row row' : Nat} {key : UInt32}
    (hrow : row < config.rows.toNat) (hrow' : row' < config.rows.toNat)
    (hkey : (ofConfig id config drawn).key? row = some key)
    (hkey' : (ofConfig id config drawn).key? row' = some key) : row = row' := by
  have hrows : ∀ row ∈ List.range config.rows.toNat, row < config.rows.toNat :=
    fun row => List.mem_range.1
  have hkeys : ((ofConfig id config drawn).keysAt (List.range config.rows.toNat)).Nodup :=
    List.Nodup.of_map _ ((perm_keysAt id drawn hvalid).nodup_iff.2 List.nodup_range')
  have hnodup : ((List.range config.rows.toNat).map (ofConfig id config drawn).key?).Nodup := by
    rw [map_key? id drawn hvalid hrows]
    exact hkeys.map (Option.some_injective _)
  exact List.inj_on_of_nodup_map hnodup (List.mem_range.2 hrow) (List.mem_range.2 hrow')
    (hkey.trans hkey'.symm)

end Config

end Context

end BenchLoop
