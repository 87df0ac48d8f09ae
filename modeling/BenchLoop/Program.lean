/-
BenchLoop/Program.lean

The program behind the command line: it reads the arguments, runs a built-in target
and says what to print, what to log and how to exit.

The exit code is 2 for a command line that is refused, 1 for a run that fails, 101 for
one that panics, and 0 otherwise.  A quiet program logs errors only, a verbose one logs
everything and names the thread of each entry.
-/
import BenchLoop.CommandLine.Parse
import BenchLoop.Target.WorkerPool

namespace BenchLoop

/-- What a program leaves behind. -/
structure ProgramResult where
  /-- The exit code; a program that waits for ever has none. -/
  exitCode : Option Nat
  /-- The lines on the output. -/
  output : List String := []
  /-- The lines on the error output, without the time of each. -/
  log : List String := []
deriving Repr, DecidableEq

namespace ProgramResult

/-- The code of a program that stops in a panic. -/
def panicCode : Nat := 101

end ProgramResult

/-- What the machine provides. -/
structure Machine where
  processors : UInt64
  /-- What the random source delivers where no seed is given. -/
  drawn : UInt64
  /-- The nanoseconds that a step takes. -/
  pace : Nat := 0
  schedule : Schedule := []
deriving Inhabited

namespace Arguments

/-- The least serious level that is logged. -/
def logLevel (a : Arguments) : LogLevel :=
  if a.quiet then .error else if a.verbose then .debug else .info

/-- The lines of the log that the arguments ask for. -/
def logLines (a : Arguments) (w : World) : List String :=
  w.log.filterMap fun (actor, level, message) =>
    if level.rank < a.logLevel.rank then none
    else if a.verbose then some s!"{level.name} {w.threadName actor} {message}"
    else some s!"{level.name} {message}"

/-- The mean of the total times, 0 without any. -/
def meanMillis (results : List Measurement) : UInt64 :=
  let total := results.foldl (fun total m => total + m.totalMillis) 0
  total / max (UInt64.ofNat results.length) 1

/-- The last line of the log of a run that went well. -/
def summary (a : Arguments) (results : List Measurement) : String :=
  s!"{a.target.benchmarkName} ({a.target.name}): {results.length} loops, " ++
  s!"mean total time {meanMillis results} ms"

/-- Prepares and runs a benchmark under a checked configuration and logs how that went;
the result is the exit code. -/
def execute {σ : Type} (a : Arguments) (config : Config) (drawn : UInt64) (b : Benchmark σ) :
    Run σ Nat := do
  match ← Context.prepare config drawn with
  | .error e =>
    Run.log .error s!"Error: {e.report}"
    return 1
  | .ok ctx =>
    match ← b.run ctx with
    | .ok results =>
      if !a.quiet then
        Run.log .info (a.summary results)
      return 0
    | .failed e =>
      Run.log .error s!"Error: {e.report}"
      return 1
    | .panicked _ => return ProgramResult.panicCode

/-- What a session leaves behind on the output and in the log. -/
def resultOf {σ : Type} (a : Arguments) : EStateM.Result Stuck (Session σ) Nat → ProgramResult
  | .ok exitCode s => ⟨some exitCode, s.world.output, a.logLines s.world⟩
  | .error _ s => ⟨none, s.world.output, a.logLines s.world⟩

/-- Runs the program with arguments that have been read. -/
def run (a : Arguments) (m : Machine) : ProgramResult :=
  match a.config m.processors with
  | .error message =>
    let refusal : Event := .logged .error (.join ["Error: Configuration error: ", message])
    { exitCode := some 1, log := a.logLines (World.note {} .coordinator refusal) }
  | .ok config =>
    let world : World := { pace := m.pace }
    match a.target with
    | .memory =>
      a.resultOf ((a.execute config m.drawn MemoryMap.benchmark).run
        { world, schedule := m.schedule, target := () })
    | .pool =>
      a.resultOf ((a.execute config m.drawn WorkerPool.benchmark).run
        { world, schedule := m.schedule, target := { size := a.poolSize } })

end Arguments

/-- The whole program, on the words of its command line. -/
def runProgram (m : Machine) (words : List String) : ProgramResult :=
  match Arguments.parse words with
  | .ok a => a.run m
  | .error (.show page) => { exitCode := some 0, output := (page.text.splitOn "\n").dropLast }
  | .error (.refuse r) => { exitCode := some 2, log := [r.outputLine] }

end BenchLoop
