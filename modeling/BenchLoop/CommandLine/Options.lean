/-
BenchLoop/CommandLine/Options.lean

The options of the command line: their names, the values they take, what they are
for, and which of them exclude each other.  Reading a command line and printing the
help pages both go by this table.
-/
import BenchLoop.Config
import BenchLoop.Target.Kind

namespace BenchLoop

/-- The value of a closed set that goes by a name, upper and lower case ASCII letters
counting as the same if the case is ignored. -/
def chooseByName? {α : Type} (name : α → String) (all : List α) (ignoreCase : Bool)
    (word : String) : Option α :=
  all.find? fun a => if ignoreCase then (name a).toLower == word.toLower else name a == word

/-- The options of the command line, in the order of the help pages. -/
inductive CommandOption where
  | target | poolSize | loops | rows | threads
  | random | serial | write | read | seed
  | outputFormat | progress | quiet | verbose
  | help | version
deriving Repr, DecidableEq

/-- One of the words that an option accepts as its value. -/
structure Choice where
  word : String
  about? : Option String := none
deriving Repr

/-- How an option is spelled and what the help pages say about it. -/
structure OptionSpec where
  long : String
  short? : Option Char := none
  /-- What the value stands for; an option without it is a flag. -/
  value? : Option String := none
  about : String
  /-- What the full help page says instead. -/
  fullAbout? : Option String := none
  default? : Option String := none
  choices : List Choice := []
deriving Repr

namespace CommandOption

def all : List CommandOption :=
  [target, poolSize, loops, rows, threads, random, serial, write, read, seed,
    outputFormat, progress, quiet, verbose, help, version]

def spec : CommandOption → OptionSpec
  | target =>
    { long := "target", value? := some "TARGET", default? := some TargetKind.memory.name
      about := "Built-in benchmark target to drive"
      choices :=
        [⟨TargetKind.memory.name,
            some "Lock-protected in-memory map, one harness thread per range"⟩,
          ⟨TargetKind.pool.name,
            some "Background worker pool; ranges are handed to already-running workers"⟩] }
  | poolSize =>
    { long := "pool-size", value? := some "POOL_SIZE", default? := some "0"
      about := "Background workers for the pool target (0 = one per harness thread)" }
  | loops =>
    { long := "loops", short? := some 'l', value? := some "LOOPS", default? := some "5"
      about := "Number of measured iterations" }
  | rows =>
    { long := "rows", short? := some 'n', value? := some "ROWS", default? := some "5000"
      about := "Total rows processed per iteration (split across threads)" }
  | threads =>
    { long := "threads", value? := some "THREADS", default? := some "0"
      about := "Number of worker threads (0 = available parallelism)" }
  | random => { long := "random", about := "Visit rows in a seeded random order" }
  | serial => { long := "serial", about := "Visit rows in index order" }
  | write => { long := "write", about := "Benchmark writes" }
  | read => { long := "read", about := "Benchmark reads (rows are loaded during init)" }
  | seed =>
    { long := "seed", value? := some "SEED", default? := some "0"
      about := "Seed for the random key permutation (0 = random seed)" }
  | outputFormat =>
    { long := "output-format", value? := some "OUTPUT_FORMAT"
      default? := some OutputFormat.text.name
      about := "Result line format"
      choices :=
        [⟨OutputFormat.text.name, none⟩,
          ⟨OutputFormat.json.name, some "One JSON object per line"⟩] }
  | progress =>
    { long := "progress", about := "Show a progress bar while waiting for each iteration" }
  | quiet =>
    { long := "quiet", short? := some 'q', about := "Quiet mode (errors only in the log)" }
  | verbose => { long := "verbose", short? := some 'v', about := "Verbose output" }
  | help =>
    { long := "help", short? := some 'h', about := "Print help (see more with '--help')"
      fullAbout? := some "Print help (see a summary with '-h')" }
  | version => { long := "version", short? := some 'V', about := "Print version" }

def takesValue (o : CommandOption) : Bool := o.spec.value?.isSome

/-- The option that excludes this one. -/
def rival? : CommandOption → Option CommandOption
  | random => some serial
  | serial => some random
  | write => some read
  | read => some write
  | _ => none

/-- The long name with what stands for the value. -/
def usage (o : CommandOption) : String :=
  match o.spec.value? with
  | some value => s!"--{o.spec.long} <{value}>"
  | none => s!"--{o.spec.long}"

def ofLong? (name : String) : Option CommandOption := all.find? (·.spec.long == name)

def ofShort? (c : Char) : Option CommandOption := all.find? (·.spec.short? == some c)

end CommandOption

end BenchLoop
