/-
BenchLoop/Proofs/ErrorLine.lean

What the last line of the log says of a program that has failed.

An error has a headline and something to tell behind it: what is wrong, or the messages of its
causes (`links`).  Its own text tells each link once (`HarnessError.message_eq`).  But what is
logged at the end is this text followed by the causes again, so an error that has causes tells each
of them twice (`HarnessError.report_eq`).

Values that the program refuses are logged behind the headline `Configuration error`.  Values that
do not go together are told in plain words, so there the headline stands once.  A fault of the
configuration comes as the text of an error that has the same headline already, and there it stands
twice.

`Arguments.error_line_repeats` says all this of the program.
-/
import Mathlib.Order.Monotone.Basic
import BenchLoop.Proofs.Program
import BenchLoop.Target.Scripted

namespace BenchLoop

namespace HarnessError

/-! ### The text of an error -/

/-- What an error tells behind its headline: what is wrong, or the messages of its causes from the
outermost on. -/
def links : HarnessError → List String
  | config reason => [reason]
  | init cause | destroy cause | taskCreation _ _ cause => cause.chain
  | spawn _ message => [message]

/-- The headline of an error, and behind it its links, the whole list of them so many times. -/
def telling (e : HarnessError) (times : Nat) : String :=
  ": ".intercalate (e.headline :: (List.replicate times e.links).flatten)

/-- How many times the links are told where the text is followed by the causes. -/
def repeats : HarnessError → Nat
  | config _ => 1
  | _ => 2

variable (e : HarnessError)

theorem links_ne_nil : e.links ≠ [] := by
  cases e <;> exact List.cons_ne_nil _ _

theorem telling_one : e.telling 1 = e.headline ++ ": " ++ ": ".intercalate e.links := by
  rw [telling, List.replicate_one, List.flatten_singleton,
    String.intercalate_cons_of_ne_nil e.links_ne_nil]

/-- Telling the links once more makes the text longer. -/
theorem telling_succ (times : Nat) :
    e.telling (times + 1) = e.telling times ++ ": " ++ ": ".intercalate e.links := by
  rw [telling, telling, List.replicate_succ', List.flatten_concat, ← List.cons_append,
    String.intercalate_append_of_ne_nil (List.cons_ne_nil _ _) e.links_ne_nil]

theorem telling_strictMono : StrictMono fun times => (e.telling times).length := by
  refine strictMono_nat_of_lt_succ fun times => ?_
  have hcolon : (": " : String).length = 2 := rfl
  simp only [telling_succ, String.length_append, hcolon]
  omega

/-- The text of an error tells its links once. -/
theorem message_eq : e.message = e.telling 1 := by
  rw [telling_one]
  cases e <;> rfl

/-- Followed by the causes it tells everything but the reason of a faulty configuration again. -/
theorem report_eq : e.report = e.telling e.repeats := by
  have htwice {e : HarnessError} (hsources : e.sources = e.links) : e.report = e.telling 2 := by
    rw [report, hsources, String.intercalate_cons_of_ne_nil e.links_ne_nil, message_eq,
      ← telling_succ]
  cases e with
  | config reason =>
    rw [repeats, ← message_eq]
    exact String.intercalate_singleton
  | init cause => exact htwice rfl
  | destroy cause => exact htwice rfl
  | taskCreation start stop cause => exact htwice rfl
  | spawn thread message => exact htwice rfl

/-- Only a faulty configuration is told once. -/
theorem report_eq_telling_one_iff : e.report = e.telling 1 ↔ ∃ reason, e = config reason := by
  rw [report_eq]
  constructor
  · intro h
    have hrepeats : e.repeats = 1 := e.telling_strictMono.injective (congrArg String.length h)
    cases e with
    | config reason => exact ⟨reason, rfl⟩
    | _ => cases hrepeats
  · rintro ⟨reason, rfl⟩
    rfl

end HarnessError

/-! ### The last line of the log -/

namespace Arguments

/-- A line of the log for an error of the coordinator. -/
def errorEntry (a : Arguments) (message : String) : String :=
  if a.verbose then s!"ERROR main {message}" else s!"ERROR {message}"

/-- Whatever is logged, errors are. -/
theorem logLines_error (a : Arguments) (w : World) (message : String) :
    a.logLines (w.note .coordinator (.logged .error message))
      = a.logLines w ++ [a.errorEntry message] := by
  have hrank : ¬ LogLevel.error.rank < a.logLevel.rank := by
    unfold logLevel
    split_ifs <;> decide
  have hlog : (w.note .coordinator (.logged .error message)).log
      = w.log ++ [(.coordinator, .error, message)] := by
    simp [World.log, World.note]
  have hname (actor : Actor) : (w.note .coordinator (.logged .error message)).threadName actor
      = w.threadName actor := by
    cases actor <;> rfl
  simp only [logLines, hlog, hname, List.filterMap_append, List.filterMap_cons, List.filterMap_nil,
    if_neg hrank, errorEntry]
  cases a.verbose <;> rfl

/-- What is refused is logged, and nothing else. -/
theorem log_of_refused {a : Arguments} {m : Machine} {message : String}
    (h : a.config m.processors = .error message) :
    (a.run m).log = [a.errorEntry (.join ["Error: Configuration error: ", message])] := by
  simp only [run, h]
  exact a.logLines_error {} _

/-- A benchmark fails with an error: the configuration is refused, or the run of the benchmark
ends so. -/
inductive FailsWith {σ : Type} (config : Config) (drawn : UInt64) (b : Benchmark σ)
    (s : Session σ) : HarnessError → Prop
  | unprepared {e : HarnessError} {s' : Session σ} :
    Context.prepare config drawn s = .ok (.error e) s' → FailsWith config drawn b s e
  | failed {ctx : Context} {e : HarnessError} {s' s'' : Session σ} :
    Context.prepare config drawn s = .ok (.ok ctx) s' → b.run ctx s' = .ok (.failed e) s'' →
    FailsWith config drawn b s e

/-- Then the error is the last thing that is logged. -/
theorem log_of_failsWith {σ : Type} {config : Config} {drawn : UInt64} {b : Benchmark σ}
    {s : Session σ} {e : HarnessError} (a : Arguments) (h : FailsWith config drawn b s e) :
    (a.resultOf ((a.execute config drawn b).run s)).exitCode = some 1 ∧ ∃ before,
      (a.resultOf ((a.execute config drawn b).run s)).log
        = before ++ [a.errorEntry (.join ["Error: ", e.report])] := by
  -- after the last step the log is that of the world before it and one line more
  have hlast (s' : Session σ) (hrun : (a.execute config drawn b).run s
      = (do Run.log .error s!"Error: {e.report}"; return 1 : Run σ Nat) s') :
      (a.resultOf ((a.execute config drawn b).run s)).exitCode = some 1 ∧ ∃ before,
        (a.resultOf ((a.execute config drawn b).run s)).log
          = before ++ [a.errorEntry (.join ["Error: ", e.report])] := by
    rw [hrun]
    exact ⟨rfl, _, a.logLines_error s'.interleave.world _⟩
  cases h with
  | @unprepared _ s' hprepare =>
    refine hlast s' ?_
    show a.execute config drawn b s = _
    rw [execute, Run.bind_apply, hprepare]
  | @failed ctx _ s' s'' hprepare hrun =>
    refine hlast s'' ?_
    show a.execute config drawn b s = _
    rw [execute, Run.bind_apply, hprepare]
    dsimp only
    rw [Run.bind_apply, hrun]

/-- **The last line of the log repeats itself.**  Values that do not go together are told behind
one headline.  A fault of the configuration is told behind two, which are the same.  And the
error of a benchmark is told with each of its causes twice, whatever it is and however many causes
there are, unless it is a faulty configuration. -/
theorem error_line_repeats (a : Arguments) (m : Machine) :
    (∀ fault, a.fault? = some fault →
      (a.run m).log = [a.errorEntry (.join ["Error: Configuration error: ", fault.text])]) ∧
    (a.fault? = none → ∀ reason, (a.toConfig m.processors).fault? = some reason →
      (a.run m).log
        = [a.errorEntry (.join ["Error: Configuration error: Configuration error: ", reason])]) ∧
    (∀ {σ : Type} (config : Config) (drawn : UInt64) (b : Benchmark σ) (s : Session σ)
      (e : HarnessError), FailsWith config drawn b s e → ∃ before,
        (a.resultOf ((a.execute config drawn b).run s)).log
          = before ++ [a.errorEntry (.join ["Error: ", e.telling e.repeats])]) ∧
    ∀ e : HarnessError, e.telling e.repeats = e.telling 1 ↔ ∃ reason, e = .config reason := by
  refine ⟨fun fault hfault => ?_, fun hfault reason hreason => ?_, fun config drawn b s e h => ?_,
    fun e => ?_⟩
  · refine log_of_refused ?_
    simp only [config, hfault]
  · have hmessage : a.config m.processors = .error (HarnessError.message (.config reason)) := by
      simp only [config, hfault, Config.validate, hreason]
    rw [log_of_refused hmessage]
    rfl
  · rw [← e.report_eq]
    exact (log_of_failsWith a h).2
  · rw [← e.report_eq]
    exact e.report_eq_telling_one_iff

/-- A quiet program that is to be verbose, one with a row too many, and one whose benchmark fails to
start for a reason. -/
theorem error_line_repeats_init :
    let m : Machine := { processors := 4, drawn := 3 }
    let crowd : Arguments := { rows := 4294967296 }
    let cause : Failure := { headline := "starting server", causes := ["port in use"] }
    let s : Script := { name := "b", init := .failed cause, recordsHooks := false }
    let config : Config := { rows := 1, threads := 1, quiet := true }
    (run { quiet := true, verbose := true } m).log
        = ["ERROR main Error: Configuration error: --quiet and --verbose are mutually exclusive"] ∧
      (run crowd m).log = ["ERROR Error: Configuration error: Configuration error: " ++
        "row count 4294967296 exceeds the key space (max 4294967295)"] ∧
      ∃ before, (resultOf {} ((execute {} config 7 s.benchmark).run ⟨{}, [], ()⟩)).log
        = before ++ ["ERROR Error: Benchmark init failed: starting server: port in use: " ++
          "starting server: port in use"] := by
  intro m crowd cause s config
  refine ⟨(error_line_repeats { quiet := true, verbose := true } m).1 .quietAndVerbose rfl,
    (error_line_repeats crowd m).2.1 rfl _ (by decide +kernel), ?_⟩
  have hvalid : config.fault? = none := by decide
  obtain ⟨message, hprepare⟩ := Context.prepare_of_valid Unit 7 hvalid
  refine (error_line_repeats {} m).2.2.1 config 7 s.benchmark ⟨{}, [], ()⟩ (.init cause) ?_
  exact .failed (congrFun hprepare _) rfl

/-- Told behind one headline the fault of this command line would be another line. -/
theorem not_told_once :
    let m : Machine := { processors := 4, drawn := 3 }
    let words := ["--rows", "4294967296"]
    let reason := "row count 4294967296 exceeds the key space (max 4294967295)"
    (∃ a, parse words = .ok a ∧ a.fault? = none ∧ (a.toConfig m.processors).fault? = some reason ∧
      (runProgram m words).log ≠ [a.errorEntry (.join ["Error: Configuration error: ", reason])]) ∧
    let cause : Failure := { headline := "starting server", causes := ["port in use"] }
    (HarnessError.init cause).report ≠ .join ["Benchmark init failed: ", cause.text] := by
  intro m words reason
  have hparse : parse words = .ok { rows := 4294967296 } := by decide +kernel
  exact ⟨⟨_, hparse, by decide, by decide +kernel, by decide +kernel⟩, by decide⟩

end Arguments

end BenchLoop
