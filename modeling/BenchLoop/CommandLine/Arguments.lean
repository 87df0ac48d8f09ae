/-
BenchLoop/CommandLine/Arguments.lean

A command line after reading: the value of every option, those not given at their
defaults, and the configuration that follows from them.
-/
import BenchLoop.CommandLine.Options

namespace BenchLoop

/-- The values of all options. -/
structure Arguments where
  target : TargetKind := .memory
  /-- The size of the worker pool; 0 asks for one worker per thread. -/
  poolSize : UInt64 := 0
  loops : UInt32 := 5
  rows : UInt64 := 5000
  /-- The number of threads; 0 asks for one per processor. -/
  threads : UInt64 := 0
  random : Bool := false
  serial : Bool := false
  write : Bool := false
  read : Bool := false
  seed : UInt64 := 0
  format : OutputFormat := .text
  progress : Bool := false
  quiet : Bool := false
  verbose : Bool := false
deriving Repr, DecidableEq, Inhabited

/-- Combinations of values that do not go together. -/
inductive ArgumentsFault where
  | quietAndVerbose
  | progressWithJson
  | poolSizeWithoutPool
deriving Repr, DecidableEq

def ArgumentsFault.text : ArgumentsFault → String
  | quietAndVerbose => "--quiet and --verbose are mutually exclusive"
  | progressWithJson => "--progress cannot be combined with --output-format json"
  | poolSizeWithoutPool => "--pool-size only applies to --target pool"

namespace Arguments

/-- The first of the combinations that the values show. -/
def fault? (a : Arguments) : Option ArgumentsFault :=
  if a.quiet && a.verbose then some .quietAndVerbose
  else if a.progress && a.format == .json then some .progressWithJson
  else if 0 < a.poolSize && a.target != .pool then some .poolSizeWithoutPool
  else none

/-- Of two flags of which at most one is meant, which one was given. -/
def triState (yes no : Bool) : Option Bool :=
  if yes then some true else if no then some false else none

/-- Whether rows are visited at random, if the command line says so. -/
def random? (a : Arguments) : Option Bool := triState a.random a.serial

/-- Whether rows are written, if the command line says so. -/
def write? (a : Arguments) : Option Bool := triState a.write a.read

/-- The number of threads on a machine with `processors` processors. -/
def effectiveThreads (a : Arguments) (processors : UInt64) : UInt64 :=
  if a.threads = 0 then processors else a.threads

/-- The configuration before any check.  Quiet runs show no progress. -/
def toConfig (a : Arguments) (processors : UInt64) : Config where
  loops := a.loops
  rows := a.rows
  threads := a.effectiveThreads processors
  random? := a.random?
  write? := a.write?
  seed := a.seed
  format := a.format
  progress := a.progress && !a.quiet
  quiet := a.quiet

/-- The configuration, or what is wrong with it.  A fault of the configuration is told
with the headline of its error. -/
def config (a : Arguments) (processors : UInt64) : Except String Config :=
  match a.fault? with
  | some fault => .error fault.text
  | none =>
    match (a.toConfig processors).validate with
    | .error e => .error e.message
    | .ok () => .ok (a.toConfig processors)

end Arguments

end BenchLoop
