/-
BenchLoop/Failure.lean

How code that a benchmark brings along can end: with a value, with a failure, or
with a panic.

A failure is a chain of messages, the outermost context first and the root cause
last.  The payload of a panic is a text or a value that has no text.
-/

namespace BenchLoop

/-- A chain of messages: what failed, and what caused it. -/
structure Failure where
  headline : String
  causes : List String := []
deriving Repr, DecidableEq, Inhabited

namespace Failure

/-- The messages from the outermost context to the root cause. -/
def chain (f : Failure) : List String := f.headline :: f.causes

/-- The whole chain on one line. -/
def text (f : Failure) : String := ": ".intercalate f.chain

/-- A chain from its messages; without any message the failure has an empty headline. -/
def ofChain : List String → Failure
  | [] => { headline := "" }
  | headline :: causes => { headline, causes }

@[simp] theorem ofChain_chain (f : Failure) : ofChain f.chain = f := rfl

end Failure

/-- What a panic carries. -/
inductive Payload where
  | text (message : String)
  /-- A value of some other type, which nobody can show. -/
  | untyped
deriving Repr, DecidableEq, Inhabited

namespace Payload

def text? : Payload → Option String
  | text message => some message
  | untyped => none

/-- The payload as a log line shows it. -/
def shown : Payload → String
  | text message => message
  | untyped => "non-string panic payload"

end Payload

/-- The end of a computation that can fail with an `ε` or panic. -/
inductive Outcome (ε α : Type) where
  | ok (value : α)
  | failed (error : ε)
  | panicked (payload : Payload)
deriving Repr, DecidableEq

/-- The outcome of a hook of a benchmark. -/
abbrev HookOutcome (α : Type) := Outcome Failure α

namespace Outcome

variable {ε α β : Type}

def map (f : α → β) : Outcome ε α → Outcome ε β
  | ok a => ok (f a)
  | failed e => failed e
  | panicked p => panicked p

end Outcome

end BenchLoop
