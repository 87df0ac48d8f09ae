/-
BenchLoop/Measurement.lean

The result of one iteration and its line on the output, as text or as JSON.

A line is labelled with the order of the rows and the operation when the order is
set; an operation that is left unset next to a set order reads as a write.
-/
import BenchLoop.Config
import BenchLoop.JsonObject

namespace BenchLoop

/-- The order in which rows are visited. -/
inductive AccessPattern where
  | random
  | serial
deriving Repr, DecidableEq

def AccessPattern.name : AccessPattern → String
  | random => "random"
  | serial => "serial"

/-- What is done to a row. -/
inductive Operation where
  | write
  | read
deriving Repr, DecidableEq

def Operation.name : Operation → String
  | write => "write"
  | read => "read"

/-- The labels of a configuration's result lines. -/
def Config.labels (c : Config) : Option AccessPattern × Option Operation :=
  match c.random? with
  | none => (none, none)
  | some random =>
    (some (if random then .random else .serial),
      some (if c.write?.getD true then .write else .read))

/-- What was measured in one iteration. -/
structure Measurement where
  benchmark : String
  /-- The number of the iteration, from 1. -/
  loop : UInt32
  rows : UInt64
  threads : UInt64
  pattern? : Option AccessPattern
  operation? : Option Operation
  totalMillis : UInt64
  averageMillis : UInt64
deriving Repr, DecidableEq

namespace Measurement

/-- The result of iteration `loop` of a benchmark under a configuration. -/
def ofConfig (benchmark : String) (loop : UInt32) (c : Config)
    (totalMillis averageMillis : UInt64) : Measurement where
  benchmark
  loop
  rows := c.rows
  threads := c.threads
  pattern? := c.labels.1
  operation? := c.labels.2
  totalMillis
  averageMillis

/-- The words that label a text line. -/
def labelWords (m : Measurement) : List String :=
  (m.pattern?.map AccessPattern.name).toList ++ (m.operation?.map Operation.name).toList

/-- The line as text. -/
def text (m : Measurement) : String :=
  s!"{m.benchmark}: loop: {m.loop}, row count: {m.rows}, thread count: {m.threads}" ++
  String.join (m.labelWords.map (" " ++ ·)) ++
  s!", total time: {m.totalMillis} ms, avg time: {m.averageMillis} ms"

/-- The fields of the JSON line; a label that is not set has none. -/
def object (m : Measurement) : JsonObject where
  fields :=
    [("benchmark", .text m.benchmark), ("loop", .number m.loop.toNat),
      ("row_count", .number m.rows.toNat), ("thread_count", .number m.threads.toNat)] ++
    (m.pattern?.map fun p => ("access_pattern", .text p.name)).toList ++
    (m.operation?.map fun o => ("operation", .text o.name)).toList ++
    [("total_time_ms", .number m.totalMillis.toNat),
      ("avg_time_ms", .number m.averageMillis.toNat)]

/-- The line in a given format. -/
def render (m : Measurement) : OutputFormat → String
  | .text => m.text
  | .json => m.object.render

end Measurement

end BenchLoop
