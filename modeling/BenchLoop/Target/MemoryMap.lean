/-
BenchLoop/Target/MemoryMap.lean

A target in memory: one key-value store behind a lock, shared by all tasks.  Each task
has a thread of its own and inserts or looks up its rows one by one, each under the
lock, notifying every row after it.

Read runs load every key before the first iteration.  Destroying the benchmark empties
the store.
-/
import BenchLoop.Loop
import BenchLoop.Target.Kind

namespace BenchLoop

namespace MemoryMap

def name : String := TargetKind.memory.benchmarkName

/-- The number of the one store. -/
def store : StoreId := 0

/-- What is done to the store for a row with its key. -/
def access (ctx : Context) (row : Nat × UInt32) : RowAccess :=
  if ctx.config.isWrite then .insert row.2 (UInt64.ofNat row.1) else .lookup row.2

/-- Accesses a store for every row within reach and notifies each. -/
def rowSteps (ctx : Context) (store : StoreId) (id : TaskId) (range : RowRange) : List Step :=
  (ctx.keyed range).flatMap fun row =>
    [⟨some id, .access store (access ctx row)⟩, ctx.notify id 1]

/-- The body of a task.  It panics at the first row without a key. -/
def body (id : TaskId) (range : RowRange) (ctx : Context) : Body where
  steps := rowSteps ctx store id range
  outcome :=
    match ctx.keyFault? range with
    | some payload => .panicked payload
    | none => .ok ()

/-- Stores every key of `rows` rows under itself. -/
def load (rows : UInt32) (s : Store) : Store :=
  (consecutiveKeys rows).foldl (fun s key => s.insert key key.toUInt64) s

/-- Makes room for `rows` more rows and loads their keys, if there can be so much room. -/
def fill (rows : UInt64) (w : World) : Bool × World :=
  if (w.stores.get store).size + rows.toNat ≤ Capacity.tableRoom then
    (true, { w with stores := w.stores.modify store (load rows.toUInt32) })
  else (false, w)

def init {σ : Type} (ctx : Context) : Run σ (HookOutcome Unit) := do
  if !ctx.config.isWrite then
    if ← Run.step (fill ctx.config.rows) then
      Run.log .info s!"Loaded {ctx.config.rows} rows for read benchmark"
    else
      return .panicked .tableOverflow
  return .ok ()

def destroy {σ : Type} : Run σ (HookOutcome Unit) := do
  Run.step fun w => ((), { w with stores := w.stores.set store {} })
  return .ok ()

/-- The benchmark over the store. -/
def benchmark : Benchmark Unit where
  name
  init
  destroy
  createTask id range _ := return .ok { id, range, body := body id range }

/-- How many keys are stored. -/
def size (w : World) : Nat := (w.stores.get store).size

end MemoryMap

end BenchLoop
