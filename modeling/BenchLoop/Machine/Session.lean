/-
BenchLoop/Machine/Session.lean

The coordinator's side of the machine.  A program of the coordinator changes the
world step by step; before each of its steps other threads may take theirs.  Which
ones do is up to a schedule, a list of bursts: one for each step of the coordinator,
and one for each time it looks whether what it waits for has come.

When the schedule is used up the coordinator goes on alone, until it has to wait;
then every thread runs to its end.  So every run ends, every finite interleaving is
the run of some schedule, and a wait is hopeless (`Stuck`) only if no thread is left
that could end it.
-/
import BenchLoop.Machine.World

namespace BenchLoop

/-- For each step of the coordinator, what the threads do before it. -/
abbrev Schedule := List (List Turn)

/-- The world, the rest of the schedule, and what the target keeps for itself. -/
structure Session (σ : Type) where
  world : World := {}
  schedule : Schedule := []
  target : σ

/-- The coordinator waits for something that no thread will bring about. -/
inductive Stuck where
  | forever
deriving Repr, DecidableEq

/-- A program of the coordinator over a target with state `σ`. -/
abbrev Run (σ α : Type) := EStateM Stuck (Session σ) α

namespace Session

variable {σ α : Type}

/-- The threads take the turns that the schedule has for them. -/
def interleave : Session σ → Session σ
  | ⟨world, [], target⟩ => ⟨world, [], target⟩
  | ⟨world, burst :: schedule, target⟩ => ⟨world.burst burst, schedule, target⟩

/-- An atomic step of the coordinator on the world. -/
def step (f : World → α × World) (s : Session σ) : α × Session σ :=
  match s.interleave with
  | ⟨world, schedule, target⟩ =>
    let (a, world) := f world
    (a, ⟨world, schedule, target⟩)

/-- Follows the schedule until the condition holds; without a schedule the threads run
to their ends if it does not hold yet.  `none` if it never does. -/
def waitUntil (p : World → Bool) : Session σ → Option (Session σ)
  | ⟨world, [], target⟩ =>
    if p world then some ⟨world, [], target⟩
    else
      let world := world.settle
      if p world then some ⟨world, [], target⟩ else none
  | ⟨world, burst :: schedule, target⟩ =>
    let world := world.burst burst
    if p world then some ⟨world, schedule, target⟩
    else waitUntil p ⟨world, schedule, target⟩
termination_by s => s.schedule.length

theorem step_fst (f : World → α × World) (s : Session σ) :
    (s.step f).1 = (f s.interleave.world).1 := by
  unfold step
  split
  rename_i h
  rw [h]

/-- The coordinator takes steps itself, each with those that follow it. -/
def perform (s : Session σ) : List Step → Session σ
  | [] => s
  | step :: rest =>
    let taken := s.step fun w => w.exec .coordinator step
    perform taken.2 (taken.1.toList ++ rest)
termination_by steps => Step.totalWeight steps
decreasing_by
  have := s.interleave.world.exec_weight .coordinator step
  simp only [step_fst, Step.totalWeight_append, Step.totalWeight]
  omega

end Session

namespace Run

variable {σ α : Type}

def step (f : World → α × World) : Run σ α := fun s =>
  let (a, s) := s.step f
  .ok a s

/-- Looks at the world. -/
def look (f : World → α) : Run σ α := step fun w => (f w, w)

def note (event : Event) : Run σ Unit := step fun w => ((), w.note .coordinator event)

def log (level : LogLevel) (message : String) : Run σ Unit := note (.logged level message)

def spawn (name : String) (todo : List Step) : Run σ ThreadId := step (·.spawn name todo)

def perform (steps : List Step) : Run σ Unit := fun s => .ok () (s.perform steps)

def waitUntil (p : World → Bool) : Run σ Unit := fun s =>
  match s.waitUntil p with
  | some s => .ok () s
  | none => .error .forever s

end Run

end BenchLoop
