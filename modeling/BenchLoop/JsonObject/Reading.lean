/-
BenchLoop/JsonObject/Reading.lean

Reading a flat JSON object back.  The text is cut into tokens, between which blanks
may stand, and the tokens are put together to fields.  Inside a string every escape of
JSON is known, two escapes of a surrogate pair standing for one character.
-/
import BenchLoop.JsonObject

namespace BenchLoop

namespace JsonObject

/-! ### The inside of a string -/

/-- The value of a hexadecimal digit. -/
def hexDigit? (c : Char) : Option Nat :=
  if '0' ≤ c && c ≤ '9' then some (c.toNat - '0'.toNat)
  else if 'a' ≤ c && c ≤ 'f' then some (c.toNat - 'a'.toNat + 10)
  else if 'A' ≤ c && c ≤ 'F' then some (c.toNat - 'A'.toNat + 10)
  else none

/-- The character that a letter behind a backslash stands for. -/
def letterEscape? : Char → Option Char
  | '"' => some '"'
  | '\\' => some '\\'
  | '/' => some '/'
  | 'b' => some '\x08'
  | 't' => some '\t'
  | 'n' => some '\n'
  | 'f' => some '\x0c'
  | 'r' => some '\r'
  | _ => none

/-- The code units of the inside of a string: that of each character, and those written
as four hexadecimal digits. -/
def units? : List Char → Option (List Nat)
  | [] => some []
  | '\\' :: 'u' :: a :: b :: c :: d :: rest => do
    let unit ← [a, b, c, d].foldlM (fun n c => (hexDigit? c).map (16 * n + ·)) 0
    (units? rest).map (unit :: ·)
  | '\\' :: c :: rest => do
    let letter ← letterEscape? c
    (units? rest).map (letter.toNat :: ·)
  | c :: rest =>
    if c = '\\' || c.toNat < 32 then none else (units? rest).map (c.toNat :: ·)

/-- The character with a code, unless the code is half of a surrogate pair. -/
def char? (code : Nat) : Option Char :=
  if code.isValidChar then some (Char.ofNat code) else none

def isHighHalf (unit : Nat) : Bool := 0xD800 ≤ unit && unit < 0xDC00

def isLowHalf (unit : Nat) : Bool := 0xDC00 ≤ unit && unit < 0xE000

/-- The code that two halves of a surrogate pair stand for. -/
def pairCode (high low : Nat) : Nat := 0x400 * (high - 0xD800) + (low - 0xDC00) + 0x10000

/-- The characters that code units stand for. -/
def chars? : List Nat → Option (List Char)
  | [] => some []
  | [unit] => (char? unit).map ([·])
  | high :: low :: rest =>
    if isHighHalf high && isLowHalf low then do
      let c ← char? (pairCode high low)
      (chars? rest).map (c :: ·)
    else do
      let c ← char? high
      (chars? (low :: rest)).map (c :: ·)

/-- The string whose inside is given. -/
def unquote? (inside : List Char) : Option String :=
  ((units? inside).bind chars?).map String.ofList

/-! ### Tokens -/

inductive Token where
  | openBrace
  | closeBrace
  | colon
  | comma
  | scalar (value : JsonScalar)
deriving Repr, DecidableEq

/-- Where a reader stands between two characters. -/
inductive ReadingPoint where
  | betweenTokens
  /-- Inside a string, of which `sofar` has been read, in reverse. -/
  | inString (escaped : Bool) (sofar : List Char)
  | inNumber (sofar : Nat)
deriving Repr, DecidableEq

def isBlank (c : Char) : Bool := c == ' ' || c == '\t' || c == '\n' || c == '\r'

/-- The first character of a token: the token, if it is complete, and where the reader
stands behind it. -/
def enter? (c : Char) : Option (List Token × ReadingPoint) :=
  if isBlank c then some ([], .betweenTokens)
  else if c.isDigit then some ([], .inNumber (c.toNat - '0'.toNat))
  else
    match c with
    | '\x7b' => some ([.openBrace], .betweenTokens)
    | '\x7d' => some ([.closeBrace], .betweenTokens)
    | ':' => some ([.colon], .betweenTokens)
    | ',' => some ([.comma], .betweenTokens)
    | '"' => some ([], .inString false [])
    | _ => none

/-- The tokens behind a point of a text.  A number has no leading zeros. -/
def tokens? : ReadingPoint → List Char → Option (List Token)
  | .betweenTokens, [] => some []
  | .betweenTokens, c :: cs => do
    let (tokens, next) ← enter? c
    (tokens? next cs).map (tokens ++ ·)
  | .inNumber n, [] => some [.scalar (.number n)]
  | .inNumber n, c :: cs =>
    if c.isDigit then
      if n = 0 then none else tokens? (.inNumber (n * 10 + (c.toNat - '0'.toNat))) cs
    else do
      let (tokens, next) ← enter? c
      (tokens? next cs).map (.scalar (.number n) :: tokens ++ ·)
  | .inString .., [] => none
  | .inString true sofar, c :: cs => tokens? (.inString false (c :: sofar)) cs
  | .inString false sofar, c :: cs =>
    if c = '"' then do
      let s ← unquote? sofar.reverse
      (tokens? .betweenTokens cs).map (.scalar (.text s) :: ·)
    else tokens? (.inString (c = '\\') (c :: sofar)) cs

/-! ### Objects -/

/-- The fields that tokens spell, up to the closing brace. -/
def fields? : List Token → Option (List (String × JsonScalar))
  | [.scalar (.text key), .colon, .scalar value, .closeBrace] => some [(key, value)]
  | .scalar (.text key) :: .colon :: .scalar value :: .comma :: rest =>
    (fields? rest).map ((key, value) :: ·)
  | _ => none

/-- The object that a text spells. -/
def read? (s : String) : Option JsonObject :=
  match tokens? .betweenTokens s.toList with
  | some [.openBrace, .closeBrace] => some ⟨[]⟩
  | some (.openBrace :: tokens) => (fields? tokens).map (⟨·⟩)
  | _ => none

end JsonObject

end BenchLoop
