/-
BenchLoop/CommandLine/Parse.lean

Reading a command line.  Words are read from the left:

* `--name` and `--name=value` are long options; a word that starts with one dash is a
  cluster of short flags, in which an option with a value takes the rest of the word;
* an option that takes a value and does not bring it along takes the next word,
  unless that word looks like an option;
* after a word `--` no word is an option, and as there are no operands, none is left
  to be accepted;
* no option may be given twice, and rivals exclude each other.

An option whose value is the next word is settled only when the option after it, or
the end, is reached.  So a word that is no option at all is reported before a value
that is not acceptable.
-/
import BenchLoop.CommandLine.Arguments
import BenchLoop.CommandLine.Help
import BenchLoop.CommandLine.Numeral
import BenchLoop.CommandLine.PlainText

namespace BenchLoop

/-- Why a value is not acceptable. -/
inductive ValueFault where
  /-- It is none of the words that the option accepts. -/
  | unknownChoice
  | numeral (fault : NumeralFault)
  /-- It is a number outside the bounds of the option. -/
  | outOfBounds (n : Int) (bound : Nat)
deriving Repr, DecidableEq

/-- What a refusal adds to the value and its option. -/
def ValueFault.details : ValueFault → List String
  | unknownChoice => []
  | numeral fault => [": ", fault.text]
  | outOfBounds n bound => [": ", toString n, " is not in 0..=", toString bound]

/-- Why a command line is refused. -/
inductive Refusal where
  | unexpectedWord (word : String)
  | unexpectedValue (value : String) (option : CommandOption)
  | missingValue (option : CommandOption)
  | badValue (value : String) (option : CommandOption) (fault : ValueFault)
  | repeated (option : CommandOption)
  | rivals (option other : CommandOption)
deriving Repr, DecidableEq

namespace Refusal

/-- What the user is told.  Each word of the command line is cleaned on its own, so
nothing in it can reach the words around it. -/
def text (clean : String → String) : Refusal → String
  | unexpectedWord word => .join ["unexpected argument '", clean word, "' found"]
  | unexpectedValue value option =>
    .join ["unexpected value '", clean value, "' for '", option.usage,
      "' found; no more were expected"]
  | missingValue option =>
    .join ["a value is required for '", option.usage, "' but none was supplied"]
  | badValue value option fault =>
    .join (["invalid value '", clean value, "' for '", option.usage, "'"] ++ fault.details)
  | repeated option => .join ["the argument '", option.usage, "' cannot be used multiple times"]
  | rivals option other =>
    .join ["the argument '", option.usage, "' cannot be used with '", other.usage, "'"]

/-- The line that tells the user. -/
def lineWith (clean : String → String) (r : Refusal) : String :=
  PlainText.firstLine (.join ["error: ", r.text clean])

/-- The line as a message. -/
def line : Refusal → String := lineWith PlainText.strip

/-- The line as it is written out. -/
def outputLine : Refusal → String := lineWith PlainText.stripOutput

end Refusal

/-- Why reading a command line ends without arguments. -/
inductive ParseStop where
  | show (page : HelpPage)
  | refuse (refusal : Refusal)
deriving Repr, DecidableEq

/-- An option that has been named and not yet settled. -/
inductive PendingOption where
  | none
  | awaiting (option : CommandOption)
  | holding (option : CommandOption) (value : String)
deriving Repr, DecidableEq

/-- How far a command line has been read. -/
structure ParseState where
  arguments : Arguments := {}
  /-- The options settled so far, in order. -/
  seen : List CommandOption := []
  pending : PendingOption := .none
  /-- Whether a word `--` has been read. -/
  operandsOnly : Bool := false
deriving Repr, DecidableEq

namespace Arguments

def ofNumeral {α : Type} (option : CommandOption) (value : String)
    (store : Nat → α) (bound : Nat) : Except Refusal α :=
  match Numeral.readNat bound value.toList with
  | .ok n => .ok (store n)
  | .error fault => .error (.badValue value option (.numeral fault))

def ofChoice {α β : Type} (option : CommandOption) (value : String)
    (name : α → String) (all : List α) (store : α → β) : Except Refusal β :=
  if value.isEmpty then .error (.missingValue option)
  else
    match chooseByName? name all false value with
    | some a => .ok (store a)
    | none => .error (.badValue value option .unknownChoice)

/-- Loops are read as a number with sign, whose bounds are checked afterwards. -/
def ofLoops (value : String) (store : Nat → Arguments) : Except Refusal Arguments :=
  let bound : Nat := UInt32.size - 1
  match Numeral.readInt64 value.toList with
  | .error fault => .error (.badValue value .loops (.numeral fault))
  | .ok n =>
    if 0 ≤ n ∧ n ≤ bound then .ok (store n.toNat)
    else .error (.badValue value .loops (.outOfBounds n bound))

/-- Stores the value of an option that takes one. -/
def assign (a : Arguments) (option : CommandOption) (value : String) :
    Except Refusal Arguments :=
  let word (store : UInt64 → Arguments) : Except Refusal Arguments :=
    ofNumeral option value (store ∘ UInt64.ofNat) (UInt64.size - 1)
  match option with
  | .target => ofChoice option value TargetKind.name TargetKind.all ({ a with target := · })
  | .poolSize => word ({ a with poolSize := · })
  | .loops => ofLoops value fun n => { a with loops := UInt32.ofNat n }
  | .rows => word ({ a with rows := · })
  | .threads => word ({ a with threads := · })
  | .seed => word ({ a with seed := · })
  | .outputFormat =>
    ofChoice option value OutputFormat.name OutputFormat.all ({ a with format := · })
  | _ => .ok a

/-- Sets a flag. -/
def raise (a : Arguments) : CommandOption → Arguments
  | .random => { a with random := true }
  | .serial => { a with serial := true }
  | .write => { a with write := true }
  | .read => { a with read := true }
  | .progress => { a with progress := true }
  | .quiet => { a with quiet := true }
  | .verbose => { a with verbose := true }
  | _ => a

end Arguments

namespace ParseState

/-- Stops with a refusal. -/
def refuse {α : Type} (r : Refusal) : Except ParseStop α := .error (.refuse r)

/-- Settles an option with its value, or a flag without. -/
def settle (s : ParseState) (option : CommandOption) (value? : Option String) :
    Except ParseStop ParseState :=
  if option ∈ s.seen then refuse (.repeated option)
  else
    let seen := s.seen ++ [option]
    match value? with
    | none => .ok { s with arguments := s.arguments.raise option, seen, pending := .none }
    | some value =>
      match s.arguments.assign option value with
      | .ok arguments => .ok { s with arguments, seen, pending := .none }
      | .error r => refuse r

/-- Settles the option that is still pending. -/
def resolve (s : ParseState) : Except ParseStop ParseState :=
  match s.pending with
  | .none => .ok s
  | .awaiting option => refuse (.missingValue option)
  | .holding option value => s.settle option (some value)

/-- Settles an option with the value it brings along. -/
def giveValue (s : ParseState) (option : CommandOption) (value : String) :
    Except ParseStop ParseState := do
  (← s.resolve).settle option (some value)

/-- Names an option whose value is the next word. -/
def awaitValue (s : ParseState) (option : CommandOption) : Except ParseStop ParseState := do
  return { (← s.resolve) with pending := .awaiting option }

/-- Settles a flag.  Asking for help or for the version ends the reading; `page` is the
help page asked for. -/
def raise (s : ParseState) (option : CommandOption) (page : HelpPage) :
    Except ParseStop ParseState := do
  let s ← s.resolve
  match option with
  | .help => .error (.show page)
  | .version => .error (.show .version)
  | _ => s.settle option none

/-- Splits at the first `=`. -/
def splitValue (cs : List Char) : String × Option String :=
  let (name, rest) := cs.span (· != '=')
  (String.ofList name, rest.tail?.map String.ofList)

/-- A word behind two dashes. -/
def readLong (s : ParseState) (cs : List Char) : Except ParseStop ParseState :=
  let (name, value?) := splitValue cs
  match CommandOption.ofLong? name, value? with
  | none, _ => refuse (.unexpectedWord s!"--{name}")
  | some option, some value =>
    if option.takesValue then s.giveValue option value
    else refuse (.unexpectedValue value option)
  | some option, none =>
    if option.takesValue then s.awaitValue option else s.raise option .full

/-- The letters behind one dash.  An equals sign between a letter and its value is
dropped. -/
def readShort (s : ParseState) : List Char → Except ParseStop ParseState
  | [] => .ok s
  | c :: rest =>
    match CommandOption.ofShort? c with
    | none => refuse (.unexpectedWord s!"-{c}")
    | some option =>
      if option.takesValue then
        match rest with
        | [] => s.awaitValue option
        | '=' :: value => s.giveValue option (String.ofList value)
        | value => s.giveValue option (String.ofList value)
      else do
        readShort (← s.raise option .brief) rest

/-- A word that is no option: the value that is awaited, if any. -/
def readOperand (s : ParseState) (word : String) : Except ParseStop ParseState :=
  match s.pending, s.operandsOnly with
  | .awaiting option, false => .ok { s with pending := .holding option word }
  | _, _ => refuse (.unexpectedWord word)

/-- Reads one word. -/
def read (s : ParseState) (word : String) : Except ParseStop ParseState :=
  if s.operandsOnly then s.readOperand word
  else
    match word.toList with
    | ['-', '-'] => .ok { s with operandsOnly := true }
    | '-' :: '-' :: cs => s.readLong cs
    | '-' :: c :: cs => s.readShort (c :: cs)
    | _ => s.readOperand word

/-- The first option that was given along with its rival. -/
def rivals? (s : ParseState) : Option (CommandOption × CommandOption) :=
  s.seen.findSome? fun option =>
    option.rival?.bind fun rival => if rival ∈ s.seen then some (option, rival) else none

/-- Settles what is left at the end of the command line. -/
def finish (s : ParseState) : Except ParseStop Arguments := do
  let s ← s.resolve
  match s.rivals? with
  | some (option, rival) => refuse (.rivals option rival)
  | none => return s.arguments

end ParseState

/-- Reads a command line without the name of the program. -/
def Arguments.parse (words : List String) : Except ParseStop Arguments := do
  (← words.foldlM ParseState.read {}).finish

end BenchLoop
