/-
BenchLoop/CommandLine/Numeral.lean

Decimal numerals on a command line.  A numeral is a run of ASCII digits behind an
optional plus sign or, where a number may be negative, a minus sign.

Characters are read from the left, and the first one that cannot be accepted decides
the fault: a character that is no digit, or a digit that takes the number past its
bound.
-/

namespace BenchLoop

/-- Why a text is not a numeral of the wanted kind. -/
inductive NumeralFault where
  | empty
  | invalidDigit
  | tooLarge
  | tooSmall
deriving Repr, DecidableEq

namespace NumeralFault

def text : NumeralFault → String
  | empty => "cannot parse integer from empty string"
  | invalidDigit => "invalid digit found in string"
  | tooLarge => "number too large to fit in target type"
  | tooSmall => "number too small to fit in target type"

end NumeralFault

namespace Numeral

/-- The value of an ASCII digit. -/
def digit? (c : Char) : Option Nat := if c.isDigit then some (c.toNat - '0'.toNat) else none

/-- Reads digits behind a number read so far; `overflow` is the fault of a number past
`bound`. -/
def readDigits (bound : Nat) (overflow : NumeralFault) (sofar : Nat) :
    List Char → Except NumeralFault Nat
  | [] => .ok sofar
  | c :: cs =>
    match digit? c with
    | none => .error .invalidDigit
    | some d =>
      if bound < sofar * 10 + d then .error overflow
      else readDigits bound overflow (sofar * 10 + d) cs

/-- A natural number up to `bound`. -/
def readNat (bound : Nat) : List Char → Except NumeralFault Nat
  | [] => .error .empty
  | ['+'] | ['-'] => .error .invalidDigit
  | '+' :: cs => readDigits bound .tooLarge 0 cs
  | cs => readDigits bound .tooLarge 0 cs

/-- A number of 64 bits with sign. -/
def readInt64 : List Char → Except NumeralFault Int
  | [] => .error .empty
  | ['+'] | ['-'] => .error .invalidDigit
  | '+' :: cs => (readDigits (Int64.size / 2 - 1) .tooLarge 0 cs).map Int.ofNat
  | '-' :: cs => (readDigits (Int64.size / 2) .tooSmall 0 cs).map fun n => -Int.ofNat n
  | cs => (readDigits (Int64.size / 2 - 1) .tooLarge 0 cs).map Int.ofNat

end Numeral

end BenchLoop
