import BenchLoop.CommandLine.Spelling
import BenchLoop.Completion.Latch.Waiting
import BenchLoop.Completion.Progress
import BenchLoop.Target.Scripted
import BenchLoop.Main
import BenchLoop.Proofs.Loop.Completion
import BenchLoop.Proofs.Loop.Abandoned
import BenchLoop.Proofs.Rows.Coverage
import BenchLoop.Proofs.Rows.Cover
import BenchLoop.Proofs.Target.Ownership
import BenchLoop.Proofs.Target.MemoryRuns
import BenchLoop.Proofs.Target.Serving
import BenchLoop.Proofs.Completion.History
import BenchLoop.Proofs.Completion.Elapsed
import BenchLoop.Proofs.Completion.Batches
import BenchLoop.Proofs.Loop.Siblings
import BenchLoop.Proofs.Loop.Leftovers
import BenchLoop.Proofs.Completion.Waiting
import BenchLoop.Proofs.Loop.Rowless
import BenchLoop.Proofs.Target.Labels
import BenchLoop.Proofs.Program
import BenchLoop.Proofs.ResultLine
import BenchLoop.Proofs.TextLine
import BenchLoop.Proofs.ErrorLine
import BenchLoop.Proofs.CommandLine.RoundTrip
import BenchLoop.Proofs.Target.PoolRuns
import BenchLoop.Proofs.Completion.Display
import BenchLoop.Proofs.Completion.Readings
import BenchLoop.Proofs.Keys.Replay
import BenchLoop.Proofs.Target.Misses
