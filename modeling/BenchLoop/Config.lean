/-
BenchLoop/Config.lean

What is to be measured and how it is reported: the workload, the order of the rows,
the kind of operation, the seed of the keys and the form of the output.

The order and the operation are tri-state.  Unset, rows are visited in order and are
read, and the result line carries no label.
-/
import BenchLoop.HarnessError

namespace BenchLoop

/-- The form of a result line. -/
inductive OutputFormat where
  | text
  /-- One JSON object per line. -/
  | json
deriving Repr, DecidableEq, Inhabited

namespace OutputFormat

def name : OutputFormat → String
  | text => "text"
  | json => "json"

def all : List OutputFormat := [text, json]

end OutputFormat

/-- The configuration of a run. -/
structure Config where
  loops : UInt32 := 5
  rows : UInt64 := 5000
  threads : UInt64
  /-- Whether rows are visited in random order. -/
  random? : Option Bool := none
  /-- Whether rows are written. -/
  write? : Option Bool := none
  /-- The seed of the key permutation; 0 asks for a random one. -/
  seed : UInt64 := 0
  format : OutputFormat := .text
  progress : Bool := false
  quiet : Bool := false
deriving Repr, DecidableEq, Inhabited

namespace Config

/-- Keys are 32-bit words, so there are no more rows than that. -/
def maxRows : Nat := UInt32.size - 1

/-- Why a configuration cannot be run, if it cannot. -/
def fault? (c : Config) : Option String :=
  if c.threads = 0 then some "thread count must be at least 1"
  else if maxRows < c.rows.toNat then
    some s!"row count {c.rows} exceeds the key space (max {maxRows})"
  else none

/-- Checks what the partition and the counter rely on. -/
def validate (c : Config) : Except HarnessError Unit :=
  match c.fault? with
  | some fault => .error (.config fault)
  | none => .ok ()

/-- Whether rows are visited through the key permutation. -/
def isRandom (c : Config) : Bool := c.random?.getD false

/-- Whether tasks write their rows. -/
def isWrite (c : Config) : Bool := c.write?.getD false

theorem fault?_eq_none_iff (c : Config) :
    c.fault? = none ↔ c.threads ≠ 0 ∧ c.rows.toNat ≤ maxRows := by
  unfold fault?
  split <;> rename_i h
  · simp [h]
  · split <;> rename_i h'
    · simp only [reduceCtorEq, ne_eq, false_iff, not_and]
      omega
    · simp only [true_iff]
      exact ⟨h, Nat.le_of_not_lt h'⟩

end Config

end BenchLoop
