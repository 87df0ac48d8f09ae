/-
BenchLoop/HarnessError.lean

The errors that end a run, with their texts.  Failures of task bodies and of their
teardown are not among them: those are logged where they happen.
-/
import BenchLoop.Failure

namespace BenchLoop

/-- Why a run could not be done. -/
inductive HarnessError where
  | config (message : String)
  | init (cause : Failure)
  | destroy (cause : Failure)
  /-- No task could be built for the rows from `start` up to `stop`. -/
  | taskCreation (start stop : UInt64) (cause : Failure)
  | spawn (thread message : String)
deriving Repr, DecidableEq

namespace HarnessError

/-- What went wrong, without its causes. -/
def headline : HarnessError → String
  | config _ => "Configuration error"
  | init _ => "Benchmark init failed"
  | destroy _ => "Benchmark destroy failed"
  | taskCreation start stop _ =>
    .join ["Failed to create task for range [", toString start, ", ", toString stop, ")"]
  | spawn thread _ => .join ["Failed to spawn thread '", thread, "'"]

/-- The messages of the causes, outermost first. -/
def sources : HarnessError → List String
  | config _ => []
  | init cause | destroy cause | taskCreation _ _ cause => cause.chain
  | spawn _ message => [message]

/-- The text of the error: the headline and what caused it. -/
def message (e : HarnessError) : String :=
  match e with
  | config text => s!"{e.headline}: {text}"
  | init cause | destroy cause | taskCreation _ _ cause => s!"{e.headline}: {cause.text}"
  | spawn _ text => s!"{e.headline}: {text}"

/-- The text of the error followed by those of its causes, as the last line of the
log shows it. -/
def report (e : HarnessError) : String := ": ".intercalate (e.message :: e.sources)

end HarnessError

end BenchLoop
