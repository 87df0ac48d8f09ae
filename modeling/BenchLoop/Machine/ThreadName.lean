/-
BenchLoop/Machine/ThreadName.lean

Names of threads.  Where the name of a thread is kept, a zero byte ends it.  So a name
with a zero byte inside is no name, and starting a thread under it is a panic.
-/
import BenchLoop.Failure

namespace BenchLoop

namespace ThreadName

/-- The bytes of a name. -/
def bytes (name : String) : List UInt8 := name.toList.flatMap String.utf8EncodeChar

/-- The panic of starting a thread under a name that is none. -/
def refusal? (name : String) : Option Payload :=
  ((bytes name).idxOf? 0).map fun place =>
    .text (.join ["thread name may not contain interior null bytes: NulError(", toString place,
      ", [", ", ".intercalate ((bytes name).map toString), "])"])

theorem refusal?_eq_none {name : String} (h : 0 ∉ bytes name) : refusal? name = none := by
  simp [refusal?, List.idxOf?_eq_none_iff.2 h]

end ThreadName

end BenchLoop
