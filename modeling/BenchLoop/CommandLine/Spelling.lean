/-
BenchLoop/CommandLine/Spelling.lean

Writing command lines.  A setting is an option that is given, with the value that it
is given.  It can be spelled by the long name of the option or by the short one, if
there is one, and a value stands behind an equals sign or is the next word.

* `Setting.words`: the words of a setting in one of its spellings;
* `Arguments.ofSettings`: the values of all options under some settings.
-/
import BenchLoop.CommandLine.Arguments

namespace BenchLoop

/-- An option that is given, with its value. -/
inductive Setting where
  | target (kind : TargetKind)
  | poolSize (workers : UInt64)
  | loops (count : UInt32)
  | rows (count : UInt64)
  | threads (count : UInt64)
  | seed (word : UInt64)
  | outputFormat (format : OutputFormat)
  | random
  | serial
  | write
  | read
  | progress
  | quiet
  | verbose
deriving Repr, DecidableEq

/-- How a setting is spelled. -/
structure SpellingForm where
  /-- By the short name, if the option has one. -/
  short : Bool := false
  /-- With the value behind an equals sign. -/
  joined : Bool := false
deriving Repr, DecidableEq

namespace Setting

/-- The option that is given. -/
def option : Setting → CommandOption
  | target _ => .target
  | poolSize _ => .poolSize
  | loops _ => .loops
  | rows _ => .rows
  | threads _ => .threads
  | seed _ => .seed
  | outputFormat _ => .outputFormat
  | random => .random
  | serial => .serial
  | write => .write
  | read => .read
  | progress => .progress
  | quiet => .quiet
  | verbose => .verbose

/-- The text of the value; a flag has none. -/
def value? : Setting → Option String
  | target kind => some kind.name
  | loops count => some (toString count)
  | poolSize n | rows n | threads n | seed n => some (toString n)
  | outputFormat format => some format.name
  | random | serial | write | read | progress | quiet | verbose => none

/-- Gives the value to the option. -/
def apply (a : Arguments) : Setting → Arguments
  | target kind => { a with target := kind }
  | poolSize workers => { a with poolSize := workers }
  | loops count => { a with loops := count }
  | rows count => { a with rows := count }
  | threads count => { a with threads := count }
  | seed word => { a with seed := word }
  | outputFormat format => { a with format := format }
  | random => { a with random := true }
  | serial => { a with serial := true }
  | write => { a with write := true }
  | read => { a with read := true }
  | progress => { a with progress := true }
  | quiet => { a with quiet := true }
  | verbose => { a with verbose := true }

/-- The name of the option with its dashes. -/
def dashedName (s : Setting) (form : SpellingForm) : String :=
  match form.short, s.option.spec.short? with
  | true, some c => .join ["-", c.toString]
  | _, _ => .join ["--", s.option.spec.long]

/-- The words of the setting. -/
def words (s : Setting) (form : SpellingForm) : List String :=
  match s.value? with
  | none => [s.dashedName form]
  | some value =>
    if form.joined then [.join [s.dashedName form, "=", value]]
    else [s.dashedName form, value]

end Setting

/-- The values of all options where only `settings` are given. -/
def Arguments.ofSettings (settings : List Setting) : Arguments := settings.foldl Setting.apply {}

end BenchLoop
