/-
BenchLoop/Capacity.lean

What memory can hold.  A block of memory has fewer than half as many bytes as there
are addresses, so a list of given entries can be too long, and a table can be asked for
too much room.  Asking for either is a panic.
-/
import BenchLoop.Failure

namespace BenchLoop

namespace Capacity

/-- The most bytes in one block of memory. -/
def blockSize : Nat := UInt64.size / 2 - 1

/-- Whether a list of `count` entries of `bytes` bytes each fits into one block. -/
def fitsList (count bytes : Nat) : Bool := count * bytes ≤ blockSize

/-- The most entries of 16 bytes that a table can have room for.  Its slots are a power
of two, each takes a byte more than its entry, and one slot in eight stays free. -/
def tableRoom : Nat := 7 * (UInt64.size / 512)

end Capacity

namespace Payload

/-- The panic over a list that is too long. -/
def listOverflow : Payload := .text "capacity overflow"

/-- The panic over a table that cannot have the room that it is asked for. -/
def tableOverflow : Payload := .text "Hash table capacity overflow"

end Payload

end BenchLoop
