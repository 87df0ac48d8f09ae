/-
BenchLoop/JsonObject.lean

Flat JSON objects: fields in a fixed order whose values are texts or natural
numbers, written without any blank.

In a string the quote and the backslash are escaped, as are the control characters:
five of them by a letter, the others by four hexadecimal digits.  All other
characters stand for themselves.
-/

namespace BenchLoop

/-- A value of a field. -/
inductive JsonScalar where
  | text (s : String)
  | number (n : Nat)
deriving Repr, DecidableEq

/-- The fields of an object, in the order in which they are written. -/
structure JsonObject where
  fields : List (String × JsonScalar)
deriving Repr, DecidableEq

namespace JsonObject

/-- The last two of the four hexadecimal digits of a control character. -/
def hexDigits (n : Nat) : List Char := [Nat.digitChar (n / 16), Nat.digitChar (n % 16)]

/-- A character inside a string. -/
def escape (c : Char) : List Char :=
  match c with
  | '"' => ['\\', '"']
  | '\\' => ['\\', '\\']
  | '\x08' => ['\\', 'b']
  | '\t' => ['\\', 't']
  | '\n' => ['\\', 'n']
  | '\x0c' => ['\\', 'f']
  | '\r' => ['\\', 'r']
  | c => if c.toNat < 32 then '\\' :: 'u' :: '0' :: '0' :: hexDigits c.toNat else [c]

/-- A string with its quotes. -/
def quote (s : String) : List Char := '"' :: s.toList.flatMap escape ++ ['"']

def renderScalar : JsonScalar → List Char
  | .text s => quote s
  | .number n => (toString n).toList

def renderField (field : String × JsonScalar) : List Char :=
  quote field.1 ++ ':' :: renderScalar field.2

/-- The object on one line. -/
def render (o : JsonObject) : String :=
  String.ofList ('\x7b' :: [','].intercalate (o.fields.map renderField) ++ ['\x7d'])

end JsonObject

end BenchLoop
