/-
BenchLoop/Main.lean

The command line: runs the program on its arguments, prints the result lines on the
output and the log on the error output, and exits with the program's code.
-/
import BenchLoop.Program

namespace BenchLoop

/-- The number of processors where the system does not tell. -/
def defaultProcessors : Nat := 4

/-- The nanoseconds that an atomic step of the machine is taken to last. -/
def nominalPace : Nat := 50

/-- The number of processors that the system's own list names. -/
def processorCount : IO Nat := do
  try
    let lines ← IO.FS.lines "/proc/cpuinfo"
    let count := lines.countP (·.startsWith "processor")
    return if count = 0 then defaultProcessors else count
  catch _ => return defaultProcessors

/-- The machine that the program finds itself on, with a fresh random word. -/
def findMachine : IO Machine := do
  let drawn ← IO.rand 0 (UInt64.size - 1)
  return {
    processors := UInt64.ofNat (← processorCount)
    drawn := UInt64.ofNat drawn
    pace := nominalPace }

end BenchLoop

def main (words : List String) : IO UInt32 := do
  let result := BenchLoop.runProgram (← BenchLoop.findMachine) words
  result.output.forM IO.println
  result.log.forM IO.eprintln
  return UInt32.ofNat (result.exitCode.getD 1)
