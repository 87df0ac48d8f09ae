/-
BenchLoop/Machine/Action.lean

What threads do, one atomic step at a time.  A step is an action, on behalf of a task
or of the coordinator.  Actions touch the shared state of a benchmark: a countdown, a
key-value store, the mark of a finished job, the journal.

Everything that happens is an entry in one journal, in order, with the actor that did
it.  The log, the output and the calls of hooks are views of the journal.
-/
import Std.Data.ExtTreeMap
import BenchLoop.Rows.Range
import BenchLoop.Completion.Countdown
import BenchLoop.Failure

namespace BenchLoop

/-- A countdown and its configuration are known to tasks under a number. -/
abbrev ContextId := Nat

abbrev StoreId := Nat

/-- Threads are numbered in the order in which they are started. -/
abbrev ThreadId := Nat

/-- Tasks are numbered in the order in which they are asked for. -/
abbrev TaskId := Nat

/-- Jobs of a worker pool are numbered in the order in which they are queued. -/
abbrev JobId := Nat

/-- A key-value store of a target: for a key, the row that was written under it. -/
abbrev Store := Std.ExtTreeMap UInt32 UInt64

/-- How serious a log entry is. -/
inductive LogLevel where
  | debug
  | info
  | warn
  | error
deriving Repr, DecidableEq

namespace LogLevel

def name : LogLevel → String
  | debug => "DEBUG"
  | info => "INFO"
  | warn => "WARN"
  | error => "ERROR"

/-- More serious levels have higher ranks. -/
def rank : LogLevel → Nat
  | debug => 0
  | info => 1
  | warn => 2
  | error => 3

end LogLevel

/-- What a task does to a store for one of its rows. -/
inductive RowAccess where
  | insert (key : UInt32) (row : UInt64)
  | lookup (key : UInt32)
deriving Repr, DecidableEq

/-- An atomic action. -/
inductive Action where
  | count (context : ContextId) (action : CountdownAction)
  | access (store : StoreId) (access : RowAccess)
  /-- The body of a task takes note of the keys of all its rows. -/
  | visit (range : RowRange) (keys : List UInt32)
  | finishJob (job : JobId)
  | log (level : LogLevel) (message : String)
  /-- The thread panics; what it had left to do is lost. -/
  | crash (payload : Payload)
deriving Repr, DecidableEq

/-- An action, on behalf of a task or of the coordinator itself. -/
structure Step where
  task : Option TaskId
  action : Action
deriving Repr, DecidableEq

namespace Step

/-- How many steps a step can lead to, itself included. -/
def weight (s : Step) : Nat :=
  match s.action with
  | .count _ a => Countdown.weight a
  | _ => 1

/-- How many steps some steps can lead to. -/
def totalWeight : List Step → Nat
  | [] => 0
  | s :: rest => s.weight + totalWeight rest

theorem totalWeight_append (steps more : List Step) :
    totalWeight (steps ++ more) = totalWeight steps + totalWeight more := by
  induction steps with
  | nil => simp [totalWeight]
  | cons s steps ih => simp [totalWeight, ih, Nat.add_assoc]

end Step

/-- Who does something. -/
inductive Actor where
  | coordinator
  | thread (i : ThreadId)
deriving Repr, DecidableEq

/-- A call that a benchmark receives and keeps a record of. -/
inductive HookCall where
  | init (pending : Int)
  | create (range : RowRange)
  | stop (range : RowRange)
  | destroy
deriving Repr, DecidableEq

namespace HookCall

def text : HookCall → String
  | init pending => .join ["init pending=", toString pending]
  | create range => .join ["create ", range.text]
  | stop range => .join ["stop ", range.text]
  | destroy => "destroy"

end HookCall

/-- Something that happened. -/
inductive Event where
  /-- An atomic step; `took` says whether a step that only one thread can win was won,
  and of a look-up whether it found the key. -/
  | performed (step : Step) (took : Bool)
  | logged (level : LogLevel) (message : String)
  | printed (line : String)
  | called (hook : HookCall)
  /-- The coordinator's wait in an iteration is over. -/
  | released (loop : UInt32)
deriving Repr, DecidableEq

/-- An event with the actor that caused it. -/
structure Entry where
  actor : Actor
  event : Event
deriving Repr, DecidableEq

end BenchLoop
