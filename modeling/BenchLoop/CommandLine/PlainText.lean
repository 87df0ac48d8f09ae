/-
BenchLoop/CommandLine/PlainText.lean

Text for an output that knows no styles.  Words of the command line come back in
messages, and what in them would drive a terminal is left out: control characters
other than white space, and escape sequences from the escape character to their last.

White space shows inside most sequences too.  There are two ways to go on behind it:

* `strip`, for the text of a message: the sequence is given up;
* `stripOutput`, for what is written out: the sequence goes on behind the text that it
  was interrupted by, which ends with the first character that does not show.

A text without control characters is kept as it is: `strip_of_plain` and
`stripOutput_of_plain`.
-/

namespace BenchLoop

namespace PlainText

/-- Where a terminal stands while it reads characters. -/
inductive TerminalState where
  | ground
  /-- Behind an escape character. -/
  | escape
  /-- Inside an escape sequence that selects a character set or the like. -/
  | selection
  /-- Inside a control sequence. -/
  | control
  /-- At the start of a device control string. -/
  | deviceStart
  /-- Inside the parameters of a device control string. -/
  | deviceParameters
  /-- Between the parameters and the final character of a device control string. -/
  | deviceSelection
  /-- Inside the data of a string that a terminator ends. -/
  | data
  /-- Inside a system command, which ends with a bell. -/
  | systemCommand
deriving Repr, DecidableEq

/-- The control characters that are white space. -/
def isBlankControl (c : Char) : Bool := c == '\t' || c == '\n' || c == '\x0c' || c == '\r'

def isControl (c : Char) : Bool := c.toNat < 32 || c == '\x7f'

/-- Whether a character lies between two others. -/
def isBetween (first last c : Char) : Bool := first ≤ c && c ≤ last

/-- Characters between the start of a sequence and its final character. -/
def isSelector : Char → Bool := isBetween ' ' '/'

/-- Whether the character ends the data of a string: one of its bytes is the string
terminator. -/
def isTerminator (c : Char) : Bool := (String.utf8EncodeChar c).contains 0x9c

namespace TerminalState

/-- The state behind an escape character and one more. -/
def afterEscape (c : Char) : TerminalState :=
  if isSelector c then .selection
  else if c == '[' then .control
  else if c == ']' then .systemCommand
  else if c == 'P' then .deviceStart
  else if c == 'X' || c == '^' || c == '_' then .data
  else if isBetween '0' '~' c then .ground
  else .escape

/-- The state after a character.  An escape character starts a sequence in any state,
and a cancelling one ends any. -/
def next (s : TerminalState) (c : Char) : TerminalState :=
  if c == '\x1b' then .escape
  else if c == '\x18' || c == '\x1a' then .ground
  else
    match s with
    | .ground => .ground
    | .escape => afterEscape c
    | .selection => if isBetween '0' '~' c then .ground else .selection
    | .control => if isBetween '@' '~' c then .ground else .control
    | .deviceStart =>
      if isSelector c then .deviceSelection
      else if isBetween '0' '?' c then .deviceParameters
      else if isBetween '@' '~' c then .data
      else .deviceStart
    | .deviceParameters =>
      if isSelector c then .deviceSelection
      else if isBetween '<' '~' c then .data
      else .deviceParameters
    | .deviceSelection => if isBetween '0' '~' c then .data else .deviceSelection
    | .data => if isTerminator c then .ground else .data
    | .systemCommand => if c == '\x07' then .ground else .systemCommand

/-- Whether a character shows. -/
def shows (s : TerminalState) (c : Char) : Bool :=
  match s with
  | .ground => !isControl c || isBlankControl c
  | .escape | .selection | .control => isBlankControl c
  | _ => false

end TerminalState

/-- The characters that show; one that does ends any sequence. -/
def stripFrom (s : TerminalState) : List Char → List Char
  | [] => []
  | c :: cs => if s.shows c then c :: stripFrom .ground cs else stripFrom (s.next c) cs

def strip (text : String) : String := String.ofList (stripFrom .ground text.toList)

/-- The characters that show, where a sequence goes on behind an interruption.
`interrupted` says whether the last character was part of one. -/
def stripOutputFrom (s : TerminalState) (interrupted : Bool) : List Char → List Char
  | [] => []
  | c :: cs =>
    if interrupted && TerminalState.ground.shows c then
      c :: stripOutputFrom (if c.toNat < 128 then s else .ground) true cs
    else if s.shows c then c :: stripOutputFrom (s.next c) true cs
    else stripOutputFrom (s.next c) false cs

def stripOutput (text : String) : String :=
  String.ofList (stripOutputFrom .ground false text.toList)

/-- The text up to the end of its first line, which may be a carriage return and a line
feed. -/
def firstLine (s : String) : String :=
  let line := s.toList.takeWhile (· != '\n')
  String.ofList (if line.getLast? = some '\r' then line.dropLast else line)

/-- The lines of a text that stands on lines of its own. -/
def lines (s : String) : List String := (s.splitOn "\n").map firstLine

theorem strip_of_plain {cs : List Char} (h : ∀ c ∈ cs, isControl c = false) :
    stripFrom .ground cs = cs := by
  induction cs with
  | nil => rfl
  | cons c cs ih =>
    have hc := h c (by simp)
    simp [stripFrom, TerminalState.shows, hc, ih fun d hd => h d (by simp [hd])]

theorem stripOutput_of_plain {cs : List Char} (interrupted : Bool)
    (h : ∀ c ∈ cs, isControl c = false) : stripOutputFrom .ground interrupted cs = cs := by
  induction cs generalizing interrupted with
  | nil => rfl
  | cons c cs ih =>
    have hc := h c (by simp)
    have hnext : TerminalState.ground.next c = .ground := by
      unfold TerminalState.next
      split
      · next he => rw [eq_of_beq he] at hc; exact absurd hc (by decide)
      · split <;> rfl
    have ih := fun i => ih i fun d hd => h d (by simp [hd])
    simp [stripOutputFrom, TerminalState.shows, hc, hnext, ih]

end PlainText

end BenchLoop
