/-
BenchLoop/Context.lean

What hooks and tasks see of a run: its configuration, the order of its keys, and the
number under which its countdown is known.

Serial runs give row `i` the key `i + 1`, random runs the `i`-th key of the
permutation; either way the keys of the rows are `1, …, rows`.

A range can reach past the rows that have keys.  What is known about its keys follows
from its bounds (`reach`), however many rows it has:

* `Context.key?_of_lt_reach`: the rows within reach have keys;
* `Context.key?_reach`: the first row out of reach has none.
-/
import BenchLoop.Capacity
import BenchLoop.Keys.Permutation
import BenchLoop.Machine.Session
import BenchLoop.Measurement

namespace BenchLoop

/-- What hooks and tasks see of a run. -/
structure Context where
  id : ContextId := 0
  config : Config
  keys : Permutation

namespace Context

/-- The context of a configuration that has been checked. -/
def ofConfig (id : ContextId) (config : Config) (drawn : UInt64) : Context where
  id
  config
  keys := .build config.rows.toUInt32 config.seed drawn

/-- The key of a row.  Only a random run has rows without a key. -/
def key? (ctx : Context) (row : Nat) : Option UInt32 :=
  if ctx.config.isRandom then ctx.keys.key? row else some (UInt32.ofNat row + 1)

/-- How many rows of a range have keys, from its first row on. -/
def reach (ctx : Context) (range : RowRange) : Nat :=
  if ctx.config.isRandom then min range.rowCount (ctx.keys.size - range.start.toNat)
  else range.rowCount

/-- The rows of a range up to the first one without a key, with their keys. -/
def keyed (ctx : Context) (range : RowRange) : List (Nat × UInt32) :=
  (List.range' range.start.toNat (ctx.reach range)).filterMap fun row =>
    (ctx.key? row).map (row, ·)

/-- The panic at the first row of a range without a key, if there is one. -/
def keyFault? (ctx : Context) (range : RowRange) : Option Payload :=
  if ctx.reach range < range.rowCount then
    some (.text (ctx.keys.outOfBounds (range.start.toNat + ctx.reach range)))
  else none

/-- The keys of all rows of a range in one list; a key takes 4 bytes. -/
def keyList (ctx : Context) (range : RowRange) : Except Payload (List UInt32) :=
  if Capacity.fitsList range.rowCount 4 then
    match ctx.keyFault? range with
    | some payload => .error payload
    | none => .ok ((ctx.keyed range).map (·.2))
  else .error .listOverflow

theorem key?_of_lt_reach {ctx : Context} {range : RowRange} {i : Nat}
    (h : i < ctx.reach range) : (ctx.key? (range.start.toNat + i)).isSome := by
  unfold reach at h
  unfold key? Permutation.key?
  split at h
  · next hr =>
    rw [if_pos hr, Array.getElem?_eq_getElem (by unfold Permutation.size at h; omega)]
    rfl
  · next hr => rw [if_neg hr]; rfl

theorem key?_reach {ctx : Context} {range : RowRange} (h : ctx.reach range < range.rowCount) :
    ctx.key? (range.start.toNat + ctx.reach range) = none := by
  unfold reach at h ⊢
  unfold key? Permutation.key?
  split at h
  · next hr =>
    rw [if_pos hr, if_pos hr]
    exact Array.getElem?_eq_none (by unfold Permutation.size at h ⊢; omega)
  · next hr => exact absurd h (Nat.lt_irrefl _)

/-- A step on the countdown of the context. -/
def count (ctx : Context) (task : Option TaskId) (action : CountdownAction) : Step where
  task
  action := .count ctx.id action

/-- The first step of claiming the start of the iteration. -/
def markStarted (ctx : Context) (task : TaskId) : Step := ctx.count task .readStart

/-- The first step of a notification of `rows` rows. -/
def notify (ctx : Context) (task : TaskId) (rows : UInt32) : Step :=
  ctx.count task (.subtract rows)

/-- The steps that start an iteration of `rows` rows. -/
def reset (ctx : Context) (rows : UInt64) : List Step :=
  (Countdown.resetActions rows).map (ctx.count none)

/-- Whether a latch of the context has been released. -/
def isReleased (ctx : Context) (latch : Nat) (w : World) : Bool :=
  ((w.countdown ctx.id).latches.get latch).released

/-- Checks a configuration and builds its context; the keys are drawn up here, once. -/
def prepare {σ : Type} (config : Config) (drawn : UInt64) :
    Run σ (Except HarnessError Context) := do
  match config.validate with
  | .error e => return .error e
  | .ok () =>
    let ctx := Context.ofConfig 0 config drawn
    Run.log .debug
      s!"Built key permutation of {ctx.keys.size} keys (seed {ctx.keys.seed})"
    return .ok ctx

end Context

end BenchLoop
