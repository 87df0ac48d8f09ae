/-
BenchLoop/CommandLine/Help.lean

The pages that the command line prints about itself: a brief help page with a line
per option, a full one with a paragraph per option, and the version.
-/
import BenchLoop.CommandLine.Options

namespace BenchLoop

/-- What can be asked for instead of a run. -/
inductive HelpPage where
  | brief
  | full
  | version
deriving Repr, DecidableEq

namespace HelpPage

def programName : String := "perf-harness"

def programVersion : String := "0.1.0"

def about : String :=
  "Multi-threaded benchmark harness for pluggable database and server targets"

/-- The spellings of an option; without a short one its place stays empty. -/
def spellings (o : CommandOption) : String :=
  match o.spec.short? with
  | some c => s!"  -{c}, {o.usage}"
  | none => s!"      {o.usage}"

/-- Pads a text with blanks on the right. -/
def padTo (width : Nat) (s : String) : String :=
  s ++ String.ofList (List.replicate (width - s.length) ' ')

/-- The width of the column of spellings. -/
def column : Nat := ((CommandOption.all.map fun o => (spellings o).length).max?.getD 0) + 2

/-- An option on one line. -/
def briefLine (o : CommandOption) : String :=
  let default := (o.spec.default?.map fun d => s!" [default: {d}]").getD ""
  let words := ", ".intercalate (o.spec.choices.map (·.word))
  let choices := if o.spec.choices.isEmpty then "" else s!" [possible values: {words}]"
  padTo column (spellings o) ++ o.spec.about ++ default ++ choices

/-- The choices of an option as a list of lines, what they are about in one column. -/
def choiceLines (choices : List Choice) : List String :=
  let width := ((choices.map (·.word.length)).max?.getD 0) + 2
  choices.map fun c =>
    match c.about? with
    | some about => "- " ++ padTo width (c.word ++ ":") ++ about
    | none => "- " ++ c.word

/-- An option on several lines. -/
def fullLines (o : CommandOption) : List String :=
  let margin := "          "
  let about := [margin ++ o.spec.fullAbout?.getD o.spec.about]
  let choices :=
    if o.spec.choices.isEmpty then []
    else "" :: ("Possible values:" :: choiceLines o.spec.choices).map (margin ++ ·)
  let default := (o.spec.default?.map fun d => [margin, s!"{margin}[default: {d}]"]).getD []
  spellings o :: about ++ choices ++ default

/-- The text of a page. -/
def text (page : HelpPage) : String :=
  let help (options : String) : String :=
    s!"{about}\n\nUsage: {programName} [OPTIONS]\n\nOptions:\n{options}\n"
  match page with
  | brief => help ("\n".intercalate (CommandOption.all.map briefLine))
  | full => help ("\n\n".intercalate (CommandOption.all.map ("\n".intercalate ∘ fullLines)))
  | version => s!"{programName} {programVersion}\n"

end HelpPage

end BenchLoop
