/-
BenchLoop/Target/Kind.lean

The built-in targets: their names on the command line and those of the benchmarks
that drive them.
-/

namespace BenchLoop

/-- The built-in targets of a benchmark. -/
inductive TargetKind where
  /-- A locked map, one thread per range. -/
  | memory
  /-- A pool of background workers. -/
  | pool
deriving Repr, DecidableEq, Inhabited

namespace TargetKind

def name : TargetKind → String
  | memory => "memory"
  | pool => "pool"

/-- The name of the benchmark that drives the target. -/
def benchmarkName : TargetKind → String
  | memory => "MemoryMapBenchmark"
  | pool => "WorkerPoolBenchmark"

def all : List TargetKind := [memory, pool]

end TargetKind

end BenchLoop
