/-
BenchLoop/JsonObject/Grammar.lean

Which texts spell a flat JSON object: the grammar of JSON, as far as it is about objects whose
values are texts and natural numbers.

A relation says what a text stands for.  There are many texts for one object, since blanks may stand
around every token and most characters of a string can be spelled in several ways; it takes a proof
that no text stands for two.
-/
import BenchLoop.JsonObject.Reading

namespace BenchLoop

namespace JsonObject

/-! ### Strings -/

/-- Four hexadecimal digits, the highest first. -/
inductive SpellsUnit : List Char → Nat → Prop
  | digits {a b c d : Char} {i j k l : Nat} : hexDigit? a = some i → hexDigit? b = some j →
    hexDigit? c = some k → hexDigit? d = some l →
    SpellsUnit [a, b, c, d] (16 * (16 * (16 * i + j) + k) + l)

/-- One character inside a string. -/
inductive SpellsChar : List Char → Char → Prop
  | plain {c : Char} : c ≠ '"' → c ≠ '\\' → 32 ≤ c.toNat → SpellsChar [c] c
  | letter {l c : Char} : letterEscape? l = some c → SpellsChar ['\\', l] c
  | unit {digits : List Char} {c : Char} : SpellsUnit digits c.toNat →
    SpellsChar ('\\' :: 'u' :: digits) c
  /-- Characters past the last code of four digits take two halves. -/
  | pair {digits digits' : List Char} {high low : Nat} {c : Char} : SpellsUnit digits high →
    SpellsUnit digits' low → isHighHalf high = true → isLowHalf low = true →
    pairCode high low = c.toNat →
    SpellsChar ('\\' :: 'u' :: (digits ++ '\\' :: 'u' :: digits')) c

/-- The inside of a string. -/
inductive SpellsChars : List Char → List Char → Prop
  | nil : SpellsChars [] []
  | cons {piece inside : List Char} {c : Char} {cs : List Char} : SpellsChar piece c →
    SpellsChars inside cs → SpellsChars (piece ++ inside) (c :: cs)

/-- A string with its quotes. -/
inductive SpellsString : List Char → String → Prop
  | quoted {inside : List Char} {s : String} : SpellsChars inside s.toList →
    SpellsString ('"' :: (inside ++ ['"'])) s

/-! ### Values, fields and objects -/

/-- A text, or a decimal numeral without leading zeros. -/
inductive SpellsScalar : List Char → JsonScalar → Prop
  | text {text : List Char} {s : String} : SpellsString text s → SpellsScalar text (.text s)
  | number (n : Nat) : SpellsScalar (Nat.toDigits 10 n) (.number n)

/-- Nothing but blanks. -/
def Blank (text : List Char) : Prop := ∀ c ∈ text, isBlank c = true

/-- A field, with the blanks around it. -/
inductive SpellsField : List Char → String × JsonScalar → Prop
  | field {b₁ b₂ b₃ b₄ name text : List Char} {key : String} {value : JsonScalar} :
    Blank b₁ → SpellsString name key → Blank b₂ → Blank b₃ → SpellsScalar text value → Blank b₄ →
    SpellsField (b₁ ++ (name ++ (b₂ ++ ':' :: (b₃ ++ (text ++ b₄))))) (key, value)

/-- Some fields, at least one of them. -/
inductive SpellsFields : List Char → List (String × JsonScalar) → Prop
  | last {text : List Char} {field : String × JsonScalar} : SpellsField text field →
    SpellsFields text [field]
  | cons {text rest : List Char} {field : String × JsonScalar}
    {fields : List (String × JsonScalar)} : SpellsField text field → SpellsFields rest fields →
    SpellsFields (text ++ ',' :: rest) (field :: fields)

/-- A whole object, with the blanks around it. -/
inductive Spells : List Char → JsonObject → Prop
  | empty {b₁ b₂ b₃ : List Char} : Blank b₁ → Blank b₂ → Blank b₃ →
    Spells (b₁ ++ '\x7b' :: (b₂ ++ '\x7d' :: b₃)) ⟨[]⟩
  | fields {b₁ b₂ text : List Char} {fields : List (String × JsonScalar)} : Blank b₁ →
    SpellsFields text fields → Blank b₂ →
    Spells (b₁ ++ '\x7b' :: (text ++ '\x7d' :: b₂)) ⟨fields⟩

end JsonObject

end BenchLoop
