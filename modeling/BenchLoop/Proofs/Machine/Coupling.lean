/-
BenchLoop/Proofs/Machine/Coupling.lean

Two runs side by side.  A lens says how the first of them is compared with the second:
which of its threads and tasks the second one has, too, and under which numbers; whether
clocks are compared, and whether texts of the log are.

    Run.Coupled l P p p' Q

says that `p'` does what `p` does.  Begun in worlds with `P`, it ends whenever `p` does, with
`Q` about both results and both worlds, and it is stuck whenever `p` is.

The schedules of the two runs need not agree step by step: a program that logs a line more
takes a step more, and a burst of turns comes before each step.  So it is the schedule of the
second run that is asked for.  `Lens.Schedules` says what it may be: the same turns in the same
order, cut into bursts at the steps that both programs take.  Its rules `skip` and `halt` are
for steps that only one of them takes, and are there only where texts are not compared.

Schedules are put together from the end.  A rule is given the schedule that follows it
and says what comes before; sessions whose next step begins in the same world with the same
schedule (`Session.Meets`) count as one.
-/
import BenchLoop.Proofs.Machine.Ends

namespace BenchLoop

/-! ### Related steps and their sequels -/

theorem rel_map {α β γ δ : Type} {r : α → β → Prop} {r' : γ → δ → Prop} {f : α → γ} {g : β → δ}
    {a : Option α} {b : Option β} (h : Option.Rel r a b) (hr : ∀ x y, r x y → r' (f x) (g y)) :
    Option.Rel r' (a.map f) (b.map g) := by
  cases h with
  | none => exact .none
  | some h => exact .some (hr _ _ h)

theorem rel_imp {α β : Type} {r r' : α → β → Prop} {a : Option α} {b : Option β}
    (h : Option.Rel r a b) (hr : ∀ x y, r x y → r' x y) : Option.Rel r' a b := by
  cases h with
  | none => exact .none
  | some h => exact .some (hr _ _ h)

/-- What follows two steps comes before what they have left. -/
theorem forall₂_sequel {α β : Type} {r : α → β → Prop} {a : Option α} {b : Option β}
    {rest : List α} {rest' : List β} (h : Option.Rel r a b) (hrest : List.Forall₂ r rest rest') :
    List.Forall₂ r (a.toList ++ rest) (b.toList ++ rest') := by
  cases h with
  | none => exact hrest
  | some h => exact .cons h hrest

/-! ### The journal -/

/-- Whether a step brings a mark that looks unset, which is how the last reading of the clock is
stored. -/
def CountdownAction.isBlank : CountdownAction → Bool
  | .claimStart mark | .storeEnd mark => mark == 0
  | _ => false

/-- Whether an entry is such a step. -/
def Entry.isBlank (e : Entry) : Bool :=
  match e.event with
  | .performed ⟨_, .count _ a⟩ _ => a.isBlank
  | _ => false

/-- No mark that was brought so far looks unset. -/
def World.NeverBlank (w : World) : Prop := ∀ e ∈ w.journal, e.isBlank = false

instance (w : World) : Decidable w.NeverBlank :=
  inferInstanceAs (Decidable (∀ e ∈ w.journal, e.isBlank = false))

/-- A result that a program can come to. -/
def Run.Yields {σ α : Type} (p : Run σ α) (a : α) : Prop := ∃ s s', p s = .ok a s'

/-- The journal only grows while a program runs. -/
structure Run.Forward {σ α : Type} (p : Run σ α) : Prop where
  ok {s s' : Session σ} {a : α} : p s = .ok a s' → s.world.journal <:+ s'.world.journal
  stuck {s s' : Session σ} {e : Stuck} : p s = .error e s' → s.world.journal <:+ s'.world.journal

namespace World

variable {w w' : World} {actor : Actor}

theorem NeverBlank.of_suffix (h : w'.NeverBlank) (hle : w.journal <:+ w'.journal) :
    w.NeverBlank :=
  fun e he => h e (hle.subset he)

theorem journal_suffix_exec (s : Step) : w.journal <:+ (w.exec actor s).2.journal := by
  obtain ⟨e, hjournal, -⟩ := exec_journal w actor s
  rw [hjournal]
  exact List.suffix_cons e _

theorem NeverBlank.of_exec {s : Step} (h : (w.exec actor s).2.NeverBlank) : w.NeverBlank :=
  h.of_suffix (journal_suffix_exec s)

theorem NeverBlank.of_note {event : Event} (h : (w.note actor event).NeverBlank) : w.NeverBlank :=
  h.of_suffix (List.suffix_cons _ _)

theorem NeverBlank.isBlank {task : Option TaskId} {id : ContextId} {a : CountdownAction}
    (h : (w.exec actor ⟨task, .count id a⟩).2.NeverBlank) : a.isBlank = false :=
  h ⟨actor, .performed ⟨task, .count id a⟩ _⟩ List.mem_cons_self

theorem journal_suffix_turn (w : World) (t : Turn) : w.journal <:+ (w.turn t).journal := by
  obtain ⟨n, h⟩ | ⟨i, s, rest, -, -, h⟩ := w.turn_cases t
  · rw [h]
  · rw [h]
    exact journal_suffix_exec s

theorem journal_lasting : Lasting fun w w' : World => w.journal <:+ w'.journal where
  refl _ := List.suffix_rfl
  trans := List.IsSuffix.trans
  turn := journal_suffix_turn
  exec _ := journal_suffix_exec

theorem journal_suffix_burst (w : World) (turns : List Turn) :
    w.journal <:+ (w.burst turns).journal :=
  journal_lasting.burst w turns

end World

namespace Run

variable {σ α β : Type}

theorem perform_nil : (Run.perform [] : Run σ Unit) = pure () := by
  funext s
  show EStateM.Result.ok () (s.perform []) = _
  rw [Session.perform]
  rfl

/-- Steps of the coordinator are taken one after the other. -/
theorem perform_cons (step : Step) (rest : List Step) :
    (Run.perform (step :: rest) : Run σ Unit)
      = Run.step (fun w => w.exec .coordinator step) >>= fun next =>
        Run.perform (next.toList ++ rest) := by
  funext s
  show EStateM.Result.ok () (s.perform (step :: rest)) = _
  rw [Session.perform]
  rfl

namespace Yields

theorem eq_of_pure {a b : α} (h : Yields (pure a : Run σ α) b) : b = a := by
  obtain ⟨s, s', h⟩ := h
  cases h
  rfl

theorem of_bind {p : Run σ α} {f : α → Run σ β} {b : β} (h : Yields (p >>= f) b) :
    ∃ a, Yields p a ∧ Yields (f a) b := by
  obtain ⟨s, s', h⟩ := h
  rw [bind_apply] at h
  cases hps : p s with
  | ok a s₁ =>
    rw [hps] at h
    exact ⟨a, ⟨s, s₁, hps⟩, s₁, s', h⟩
  | error e s₁ =>
    rw [hps] at h
    cases h

end Yields

namespace Forward

theorem pure (a : α) : Forward (pure a : Run σ α) where
  ok h := by cases h; exact List.suffix_rfl
  stuck h := by cases h

theorem bind_of {p : Run σ α} {f : α → Run σ β} (hp : Forward p)
    (hf : ∀ a, Yields p a → Forward (f a)) : Forward (p >>= f) where
  ok {s s' b} h := by
    rw [bind_apply] at h
    cases hps : p s with
    | ok a s₁ =>
      rw [hps] at h
      exact (hp.ok hps).trans ((hf a ⟨s, s₁, hps⟩).ok h)
    | error e s₁ =>
      rw [hps] at h
      cases h
  stuck {s s' e} h := by
    rw [bind_apply] at h
    cases hps : p s with
    | ok a s₁ =>
      rw [hps] at h
      exact (hp.ok hps).trans ((hf a ⟨s, s₁, hps⟩).stuck h)
    | error e' s₁ =>
      rw [hps] at h
      cases h
      exact hp.stuck hps

theorem bind {p : Run σ α} {f : α → Run σ β} (hp : Forward p) (hf : ∀ a, Forward (f a)) :
    Forward (p >>= f) :=
  hp.bind_of fun a _ => hf a

theorem step {f : World → α × World} (hf : ∀ w, w.journal <:+ (f w).2.journal) :
    Forward (Run.step f : Run σ α) where
  ok {s s' a} h := by
    obtain rfl : (s.step f).2 = s' := by injection h
    rw [(Session.step_snd f s).1]
    exact (World.journal_lasting.interleave s).trans (hf _)
  stuck h := by cases h

theorem look {f : World → α} : Forward (Run.look f : Run σ α) :=
  step fun _ => List.suffix_rfl

theorem note {event : Event} : Forward (Run.note event : Run σ Unit) :=
  step fun _ => List.suffix_cons _ _

theorem log {level : LogLevel} {message : String} : Forward (Run.log level message : Run σ Unit) :=
  note

theorem spawn {name : String} {todo : List Step} :
    Forward (Run.spawn name todo : Run σ ThreadId) := step fun _ => List.suffix_rfl

theorem perform (steps : List Step) : Forward (Run.perform steps : Run σ Unit) where
  ok {s s' a} h := by
    cases h
    exact (World.journal_lasting.perform s steps).1
  stuck h := by cases h

theorem waitUntil (p : World → Bool) : Forward (Run.waitUntil p : Run σ Unit) where
  ok {s s' a} h := by
    simp only [Run.waitUntil] at h
    split at h
    · next s₁ hs =>
      cases h
      exact (World.journal_lasting.waitUntil hs).1
    · cases h
  stuck {s s' e} h := by
    simp only [Run.waitUntil] at h
    split at h
    · cases h
    · cases h
      exact List.suffix_rfl

end Forward

end Run

/-! ### Lenses and schedules -/

/-- How the first of two runs is compared with the second. -/
structure Lens where
  /-- Threads that the first run finds, and that the second one does not have. -/
  threads : Nat := 0
  /-- Tasks that were asked for before the first run. -/
  tasks : Nat := 0
  /-- Latches that were installed before the first run. -/
  latches : Nat := 0
  /-- The first latch of the second run that is compared. -/
  firstLatch : Nat := 0
  /-- Whether clocks are compared. -/
  times : Bool := true
  /-- Whether texts of the log are compared. -/
  texts : Bool := true
  /-- Where clocks are compared neither run finds anything that the other one does not. -/
  whole : times = true → threads = 0 ∧ tasks = 0 := by simp

namespace Lens

variable {l : Lens} {S X : Schedule}

/-- What a turn of the first run is in the second one, if it is a turn there. -/
def turn (l : Lens) : Turn → Option Turn
  | .wait nanos => if l.times then some (.wait nanos) else none
  | .thread i => if i < l.threads then none else some (.thread (i - l.threads))

theorem times_eq_false (h : 0 < l.threads) : l.times = false := by
  by_contra ht
  have hnone := (l.whole (Bool.eq_true_of_not_eq_false ht)).1
  omega

/-- What a burst of turns of the first run is in the second one. -/
def turns (l : Lens) (burst : List Turn) : List Turn := burst.filterMap l.turn

theorem turns_append (burst more : List Turn) :
    l.turns (burst ++ more) = l.turns burst ++ l.turns more :=
  List.filterMap_append

/-- The schedules of two runs: those of the second have the same turns in the same order. -/
inductive Schedules (l : Lens) : Schedule → Schedule → Prop
  | nil : Schedules l [] []
  /-- A step that both programs take. -/
  | both (burst : List Turn) {S X : Schedule} :
    Schedules l S X → Schedules l (burst :: S) (l.turns burst :: X)
  /-- A step that only the first program takes: its turns belong to the next step. -/
  | skip (burst : List Turn) {S X : Schedule} {next : List Turn} :
    l.texts = false → Schedules l S (next :: X) →
      Schedules l (burst :: S) ((l.turns burst ++ next) :: X)
  /-- A step that only the second program takes: no turns come before it. -/
  | halt {burst : List Turn} {S X : Schedule} :
    l.texts = false → Schedules l (burst :: S) X → Schedules l (burst :: S) ([] :: X)

namespace Schedules

theorem eq_nil (h : l.Schedules [] X) : X = [] := by
  cases h
  rfl

theorem exists_cons {burst : List Turn} (h : l.Schedules (burst :: S) X) :
    ∃ first rest, X = first :: rest := by
  cases h with
  | both burst h => exact ⟨_, _, rfl⟩
  | skip burst ht h => exact ⟨_, _, rfl⟩
  | halt ht h => exact ⟨_, _, rfl⟩

theorem flatten_eq (h : l.Schedules S X) : X.flatten = l.turns S.flatten := by
  induction h with
  | nil => rfl
  | both burst h ih => rw [List.flatten_cons, List.flatten_cons, turns_append, ih]
  | skip burst ht h ih =>
    rw [List.flatten_cons, List.flatten_cons, turns_append, ← ih, List.flatten_cons,
      List.append_assoc]
  | halt ht h ih => rw [List.flatten_cons, List.nil_append, ih]

/-- Where texts are compared the programs take the same steps. -/
theorem eq_map (h : l.Schedules S X) (ht : l.texts = true) : X = S.map l.turns := by
  induction h with
  | nil => rfl
  | both burst h ih => rw [List.map_cons, ih]
  | skip burst hf h ih =>
    rw [ht] at hf
    cases hf
  | halt hf h ih =>
    rw [ht] at hf
    cases hf

protected theorem map (l : Lens) (S : Schedule) : l.Schedules S (S.map l.turns) := by
  induction S with
  | nil => exact .nil
  | cons burst S ih => exact .both burst ih

end Schedules

/-- Where clocks are not compared, marks are compared only as set or unset; then no reading of
the clock must have been stored as unset. -/
def Sound (l : Lens) (w : World) : Prop := l.times = false → w.NeverBlank

theorem Sound.mono {w w' : World} (h : l.Sound w') (hle : w.journal <:+ w'.journal) : l.Sound w :=
  fun ht => (h ht).of_suffix hle

/-- Turns of threads preserve what is known of the two worlds. -/
def Stable (l : Lens) (P : World → World → Prop) : Prop :=
  ∀ w w' t, P w w' → P (w.turn t) (w'.burst (l.turns [t]))

theorem Stable.burst {P : World → World → Prop} (hP : l.Stable P) {w w' : World} (h : P w w')
    (turns : List Turn) : P (w.burst turns) (w'.burst (l.turns turns)) := by
  induction turns generalizing w w' with
  | nil => exact h
  | cons t turns ih =>
    have hsplit : l.turns (t :: turns) = l.turns [t] ++ l.turns turns := turns_append [t] turns
    rw [hsplit, World.burst_append]
    exact ih (hP w w' t h)

end Lens

/-! ### Coupled programs -/

/-- The next step of either session begins in the same world with the same schedule. -/
def Session.Meets {σ : Type} (s t : Session σ) : Prop := s.interleave = t.interleave

namespace Session

variable {α : Type} {w : World} {X : Schedule} {t : Session Unit}

theorem meets_skip (w : World) (burst next : List Turn) (X : Schedule) :
    (⟨w, (burst ++ next) :: X, ()⟩ : Session Unit).Meets ⟨w.burst burst, next :: X, ()⟩ := by
  simp only [Meets, interleave, World.burst_append]

/-- A step depends only on where it begins. -/
theorem Meets.step {s : Session Unit} (h : t.Meets s) (f : World → α × World) :
    t.step f = s.step f := by
  unfold Session.step
  rw [show t.interleave = s.interleave from h]

/-- Without a schedule a wait looks once more when all threads have come to their ends. -/
theorem waitUntil_nil (p : World → Bool) (w : World) :
    (⟨w, [], ()⟩ : Session Unit).waitUntil p
      = if p w then some ⟨w, [], ()⟩
        else if p w.settle then some ⟨w.settle, [], ()⟩ else none := by
  rw [Session.waitUntil]

theorem waitUntil_cons (p : World → Bool) (w : World) (burst : List Turn) (X : Schedule) :
    (⟨w, burst :: X, ()⟩ : Session Unit).waitUntil p
      = if p (w.burst burst) then some ⟨w.burst burst, X, ()⟩
        else (⟨w.burst burst, X, ()⟩ : Session Unit).waitUntil p := by
  rw [Session.waitUntil]

/-- A wait, too, depends only on where it begins. -/
theorem Meets.waitUntil {s : Session Unit} (h : t.Meets s) (p : World → Bool) :
    t.waitUntil p = s.waitUntil p := by
  -- an empty schedule and one of a single burst meet when the burst has been taken
  have hnil (world : World) (burst : List Turn) :
      (⟨world, [burst], ()⟩ : Session Unit).waitUntil p
        = (⟨world.burst burst, [], ()⟩ : Session Unit).waitUntil p := by
    rw [waitUntil_cons, waitUntil_nil]
    split <;> rfl
  obtain ⟨world, schedule, ⟨⟩⟩ := t
  obtain ⟨world', schedule', ⟨⟩⟩ := s
  cases schedule with
  | nil =>
    cases schedule' with
    | nil =>
      cases h
      rfl
    | cons burst' schedule' =>
      cases h
      exact (hnil world' burst').symm
  | cons burst schedule =>
    cases schedule' with
    | nil =>
      cases h
      exact hnil world burst
    | cons burst' schedule' =>
      obtain ⟨hworld, hschedule, -⟩ := Session.mk.inj h
      rw [waitUntil_cons, waitUntil_cons, hworld, hschedule]

end Session

namespace Run

variable {α β γ δ : Type}

/-- What a program results in, and the world that is found afterwards. -/
def seen {σ : Type} (p : Run σ α) : Run σ (α × World) := do
  let a ← p
  let w ← Run.look fun w => w
  return (a, w)

/-- The world in which a program ends, or waits forever. -/
def last {σ : Type} (p : Run σ α) (s : Session σ) : World :=
  match p s with
  | .ok _ t | .error _ t => t.world

/-- From wherever a session meets the first world and schedule, the program ends with a result
where it meets the second ones. -/
def Leads (p : Run Unit α) (w : World) (X : Schedule) (a : α) (w₁ : World) (X₁ : Schedule) : Prop :=
  ∀ t, t.Meets ⟨w, X, ()⟩ → ∃ t₁, p t = .ok a t₁ ∧ t₁.Meets ⟨w₁, X₁, ()⟩

namespace Leads

variable {w w₁ w₂ : World} {X X₁ X₂ : Schedule}

protected theorem pure (a : α) (w : World) (X : Schedule) : Leads (pure a) w X a w X :=
  fun t ht => ⟨t, rfl, ht⟩

protected theorem bind {p : Run Unit α} {f : α → Run Unit β} {a : α} {b : β}
    (h : p.Leads w X a w₁ X₁) (hf : (f a).Leads w₁ X₁ b w₂ X₂) : (p >>= f).Leads w X b w₂ X₂ := by
  intro t ht
  obtain ⟨t₁, ht₁, hmeets⟩ := h t ht
  obtain ⟨t₂, ht₂, hmeets'⟩ := hf t₁ hmeets
  exact ⟨t₂, by rw [bind_apply, ht₁]; exact ht₂, hmeets'⟩

/-- A step comes after the first burst of turns. -/
protected theorem step (g : World → α × World) (w : World) (burst : List Turn) (X : Schedule) :
    (Run.step g).Leads w (burst :: X) (g (w.burst burst)).1 (g (w.burst burst)).2 X :=
  fun _ ht => ⟨_, congrArg₂ _ (congrArg Prod.fst (ht.step g)) (congrArg Prod.snd (ht.step g)), rfl⟩

/-- Where no turns are left a step comes at once. -/
theorem step_nil (g : World → α × World) (w : World) :
    (Run.step g).Leads w [] (g w).1 (g w).2 [] :=
  fun _ ht => ⟨_, congrArg₂ _ (congrArg Prod.fst (ht.step g)) (congrArg Prod.snd (ht.step g)), rfl⟩

theorem waitUntil {c : World → Bool}
    (h : (⟨w, X, ()⟩ : Session Unit).waitUntil c = some ⟨w₁, X₁, ()⟩) :
    (Run.waitUntil c).Leads w X () w₁ X₁ :=
  fun _ ht => ⟨⟨w₁, X₁, ()⟩, by rw [Run.waitUntil, ht.waitUntil, h], rfl⟩

end Leads

/-- What the first program does, the second one does, too, under a schedule with the same
turns. -/
structure Coupled (l : Lens) (P : World → World → Prop) (p : Run Unit α) (p' : Run Unit β)
    (Q : α → β → World → World → Prop) : Prop where
  ok {w w' : World} {S : Schedule} {a : α} {s₁ : Session Unit} : P w w' →
    p ⟨w, S, ()⟩ = .ok a s₁ → l.Sound s₁.world →
    ∃ a' w₁', Q a a' s₁.world w₁' ∧ ∀ X₁, l.Schedules s₁.schedule X₁ →
      ∃ X, l.Schedules S X ∧ p'.Leads w' X a' w₁' X₁
  stuck {w w' : World} {S : Schedule} {e : Stuck} {s₁ : Session Unit} : P w w' →
    p ⟨w, S, ()⟩ = .error e s₁ → l.Sound s₁.world →
    ∃ X, l.Schedules S X ∧ ∀ t : Session Unit, t.Meets ⟨w', X, ()⟩ → ∃ t₁, p' t = .error e t₁

namespace Coupled

variable {l : Lens} {P P' : World → World → Prop}
variable {p : Run Unit α} {p' : Run Unit β} {Q Q' : α → β → World → World → Prop}
variable {f : α → Run Unit γ} {f' : β → Run Unit δ} {R : γ → δ → World → World → Prop}

theorem mono (h : Coupled l P p p' Q) (hP : ∀ w w', P' w w' → P w w')
    (hQ : ∀ a a' w w', Q a a' w w' → Q' a a' w w') : Coupled l P' p p' Q' where
  ok hs hp hsound := by
    obtain ⟨a', w₁', hpost, hnext⟩ := h.ok (hP _ _ hs) hp hsound
    exact ⟨a', w₁', hQ _ _ _ _ hpost, hnext⟩
  stuck hs hp hsound := h.stuck (hP _ _ hs) hp hsound

theorem post (h : Coupled l P p p' Q) (hQ : ∀ a a' w w', Q a a' w w' → Q' a a' w w') :
    Coupled l P p p' Q' :=
  h.mono (fun _ _ h => h) hQ

/-- A fact that does not speak of the worlds. -/
theorem lift {φ : Prop} (h : φ → Coupled l P p p' Q) :
    Coupled l (fun w w' => φ ∧ P w w') p p' Q where
  ok hs := (h hs.1).ok hs.2
  stuck hs := (h hs.1).stuck hs.2

theorem ex {ι : Type} {P : ι → World → World → Prop} (h : ∀ i, Coupled l (P i) p p' Q) :
    Coupled l (fun w w' => ∃ i, P i w w') p p' Q where
  ok := by
    rintro w w' S a s₁ ⟨i, hs⟩
    exact (h i).ok hs
  stuck := by
    rintro w w' S e s₁ ⟨i, hs⟩
    exact (h i).stuck hs

protected theorem pure {a : α} {a' : β} (h : ∀ w w', P w w' → Q a a' w w') :
    Coupled l P (pure a) (pure a') Q where
  ok {w w' S b s₁} hs hp _ := by
    cases hp
    exact ⟨a', w', h w w' hs, fun X₁ hX => ⟨X₁, hX, .pure a' w' X₁⟩⟩
  stuck _ hp := by cases hp

/-- The schedule of the second program is found for what follows first. -/
theorem bind_of (h : Coupled l P p p' Q) (hforward : ∀ a, Yields p a → Forward (f a))
    (hf : ∀ a a', Coupled l (Q a a') (f a) (f' a') R) : Coupled l P (p >>= f) (p' >>= f') R where
  ok {w w' S c s₂} hs hp hsound := by
    rw [bind_apply] at hp
    cases hps : p ⟨w, S, ()⟩ with
    | error e s₁ =>
      rw [hps] at hp
      cases hp
    | ok a s₁ =>
      rw [hps] at hp
      obtain ⟨a', w₁', hpost, hfirst⟩ := h.ok hs hps (hsound.mono ((hforward a ⟨_, _, hps⟩).ok hp))
      obtain ⟨c', w₂', hpost', hsecond⟩ := (hf a a').ok (S := s₁.schedule) hpost hp hsound
      refine ⟨c', w₂', hpost', ?_⟩
      -- from what is left in the end, first the schedule of the second part, then that of the first
      intro X₂ hX₂
      obtain ⟨X₁, hX₁, hleads'⟩ := hsecond X₂ hX₂
      obtain ⟨X, hX, hleads⟩ := hfirst X₁ hX₁
      exact ⟨X, hX, hleads.bind hleads'⟩
  stuck {w w' S e s₂} hs hp hsound := by
    rw [bind_apply] at hp
    cases hps : p ⟨w, S, ()⟩ with
    | error e' s₁ =>
      rw [hps] at hp
      cases hp
      obtain ⟨X, hX, hstuck⟩ := h.stuck hs hps hsound
      refine ⟨X, hX, ?_⟩
      intro t ht
      obtain ⟨t₁, ht₁⟩ := hstuck t ht
      exact ⟨t₁, by rw [bind_apply, ht₁]⟩
    | ok a s₁ =>
      rw [hps] at hp
      obtain ⟨a', w₁', hpost, hfirst⟩ := h.ok hs hps
        (hsound.mono ((hforward a ⟨_, _, hps⟩).stuck hp))
      -- the second part gets stuck, and its schedule is found first
      obtain ⟨X₁, hX₁, hstuck⟩ := (hf a a').stuck (S := s₁.schedule) hpost hp hsound
      obtain ⟨X, hX, hleads⟩ := hfirst X₁ hX₁
      refine ⟨X, hX, ?_⟩
      intro t ht
      obtain ⟨t₁, ht₁, hmeets⟩ := hleads t ht
      obtain ⟨t₂, ht₂⟩ := hstuck t₁ hmeets
      exact ⟨t₂, by rw [bind_apply, ht₁]; exact ht₂⟩

protected theorem bind (h : Coupled l P p p' Q) (hforward : ∀ a, Forward (f a))
    (hf : ∀ a a', Coupled l (Q a a') (f a) (f' a') R) : Coupled l P (p >>= f) (p' >>= f') R :=
  h.bind_of (fun a _ => hforward a) hf

/-- A step of both programs. -/
protected theorem step {g : World → α × World} {g' : World → β × World} (hP : l.Stable P)
    (h : ∀ w w', P w w' → l.Sound (g w).2 → Q (g w).1 (g' w').1 (g w).2 (g' w').2) :
    Coupled l P (Run.step g) (Run.step g') Q where
  ok {w w' S a s₁} hs hp hsound := by
    cases hp
    cases S with
    | nil =>
      refine ⟨_, _, h w w' hs hsound, ?_⟩
      intro X₁ hX₁
      obtain rfl := hX₁.eq_nil
      exact ⟨[], .nil, .step_nil g' w'⟩
    | cons burst S =>
      have hburst := hP.burst hs burst
      refine ⟨_, _, h _ _ hburst hsound, ?_⟩
      intro X₁ hX₁
      exact ⟨l.turns burst :: X₁, .both burst hX₁, .step g' w' _ X₁⟩
  stuck _ hp := by cases hp

/-- A step that only the first program takes. -/
theorem left {g : World → α × World} {a' : β} (ht : l.texts = false) (hP : l.Stable P)
    (h : ∀ w w', P w w' → Q (g w).1 a' (g w).2 w') :
    Coupled l P (Run.step g) (pure a') Q where
  ok {w w' S a s₁} hs hp hsound := by
    cases hp
    cases S with
    | nil =>
      refine ⟨a', w', h w w' hs, ?_⟩
      intro X₁ hX₁
      exact ⟨X₁, hX₁, .pure a' w' X₁⟩
    | cons burst S =>
      have hburst := hP.burst hs burst
      refine ⟨a', _, h _ _ hburst, ?_⟩
      intro X₁ hX₁
      cases S with
      | nil =>
        -- the schedule is used up, so the turns stand alone
        obtain rfl := hX₁.eq_nil
        exact ⟨[l.turns burst], .both burst .nil, fun t ht => ⟨t, rfl, ht⟩⟩
      | cons second S =>
        obtain ⟨next, X, rfl⟩ := hX₁.exists_cons
        refine ⟨(l.turns burst ++ next) :: X, .skip burst ht hX₁, ?_⟩
        intro t ht
        exact ⟨t, rfl, ht.trans (Session.meets_skip ..)⟩
  stuck _ hp := by cases hp

/-- A step that only the second program takes. -/
theorem right {a : α} {g' : World → β × World} (ht : l.texts = false)
    (h : ∀ w w', P w w' → Q a (g' w').1 w (g' w').2) :
    Coupled l P (pure a) (Run.step g') Q where
  ok {w w' S b s₁} hs hp _ := by
    cases hp
    refine ⟨_, _, h w w' hs, ?_⟩
    intro X₁ hX₁
    cases S with
    | nil =>
      obtain rfl := hX₁.eq_nil
      exact ⟨[], .nil, .step_nil g' w'⟩
    | cons burst S =>
      exact ⟨[] :: X₁, .halt ht hX₁, .step g' w' [] X₁⟩
  stuck _ hp := by cases hp

/-- A step of the coordinator that leads to no other, and those after it. -/
theorem perform_cons {P₁ : World → World → Prop} {s s' : Step} {rest rest' : List Step}
    {Q : Unit → Unit → World → World → Prop} (hP : l.Stable P)
    (h : ∀ w w', P w w' → (w.exec .coordinator s).1 = none ∧ (w'.exec .coordinator s').1 = none ∧
      P₁ (w.exec .coordinator s).2 (w'.exec .coordinator s').2)
    (hrest : Coupled l P₁ (Run.perform rest) (Run.perform rest') Q) :
    Coupled l P (Run.perform (s :: rest)) (Run.perform (s' :: rest')) Q := by
  rw [Run.perform_cons, Run.perform_cons]
  refine Coupled.bind (Q := fun next next' w w' => (next = none ∧ next' = none) ∧ P₁ w w')
    ?_ (fun next => .perform _) ?_
  · apply Coupled.step hP
    intro w w' hw _
    obtain ⟨hnext, hnext', hpost⟩ := h w w' hw
    exact ⟨⟨hnext, hnext'⟩, hpost⟩
  · intro next next'
    apply Coupled.lift
    rintro ⟨rfl, rfl⟩
    exact hrest

/-- A program that nothing is known to run. -/
theorem of_false (h : ∀ w w', ¬ P w w') : Coupled l P p p' Q where
  ok hs := absurd hs (h _ _)
  stuck hs := absurd hs (h _ _)

/-- Steps that both programs take, `J` being what is known while each has still to take some. -/
protected theorem perform {J : List Step → List Step → World → World → Prop}
    (hJ : ∀ own own', l.Stable (J own own')) (hnil : ∀ own' w w', J [] own' w w' → own' = [])
    (hcons : ∀ s rest own' w w', J (s :: rest) own' w w' → ∃ s' rest', own' = s' :: rest' ∧
      J ((w.exec .coordinator s).1.toList ++ rest) ((w'.exec .coordinator s').1.toList ++ rest')
        (w.exec .coordinator s).2 (w'.exec .coordinator s').2) (own own' : List Step) :
    Coupled l (J own own') (Run.perform own) (Run.perform own') fun _ _ => J [] [] := by
  -- a step leads to lighter ones, so the induction is on the weight of what is left
  induction hn : Step.totalWeight own using Nat.strong_induction_on generalizing own own' with
  | _ n ih =>
    cases own with
    | nil =>
      cases own' with
      | nil =>
        rw [Run.perform_nil]
        exact .pure fun _ _ h => h
      | cons s' rest' =>
        apply of_false
        intro w w' hw
        cases hnil _ w w' hw
    | cons s rest =>
      cases own' with
      | nil =>
        apply of_false
        intro w w' hw
        obtain ⟨s', rest', hown, -⟩ := hcons s rest _ w w' hw
        cases hown
      | cons s' rest' =>
        subst hn
        rw [Run.perform_cons, Run.perform_cons]
        refine Coupled.bind (Q := fun next next' w w' => Step.totalWeight next.toList < s.weight ∧
          J (next.toList ++ rest) (next'.toList ++ rest') w w') ?_ (fun next => .perform _) ?_
        · apply Coupled.step (hJ _ _)
          intro w w' hw _
          obtain ⟨t', more', hown, hpost⟩ := hcons s rest _ w w' hw
          cases hown
          exact ⟨w.exec_weight .coordinator s, hpost⟩
        · intro next next'
          apply Coupled.lift
          intro hweight
          refine ih _ ?_ _ _ rfl
          rw [Step.totalWeight_append]
          simp only [Step.totalWeight]
          omega

/-- What a wait amounts to for either program, the schedule of the second being found for what
follows it. -/
theorem exists_waitUntil {c c' : World → Bool} (hP : l.Stable P)
    (hc : ∀ w w', P w w' → c w = c' w')
    (hsettle : ∀ w w', P w w' → P w.settle w'.settle) {w w' : World} (h : P w w') (S : Schedule) :
    match (⟨w, S, ()⟩ : Session Unit).waitUntil c with
    | some s₁ => ∃ w₁', P s₁.world w₁' ∧ ∀ X₁, l.Schedules s₁.schedule X₁ →
        ∃ X, l.Schedules S X ∧
          (⟨w', X, ()⟩ : Session Unit).waitUntil c' = some ⟨w₁', X₁, ()⟩
    | none => ∃ X, l.Schedules S X ∧ (⟨w', X, ()⟩ : Session Unit).waitUntil c' = none := by
  induction S generalizing w w' with
  | nil =>
    have hset := hsettle w w' h
    have hwait' : (⟨w', [], ()⟩ : Session Unit).waitUntil c'
        = if c w then some ⟨w', [], ()⟩
          else if c w.settle then some ⟨w'.settle, [], ()⟩ else none := by
      rw [Session.waitUntil_nil, hc w w' h, hc _ _ hset]
    have hnil {w₁' : World} (hw₁ : (⟨w', [], ()⟩ : Session Unit).waitUntil c'
        = some ⟨w₁', [], ()⟩) (X₁ : Schedule) (hX₁ : l.Schedules [] X₁) :
        ∃ X, l.Schedules [] X ∧
          (⟨w', X, ()⟩ : Session Unit).waitUntil c' = some ⟨w₁', X₁, ()⟩ := by
      obtain rfl := hX₁.eq_nil
      exact ⟨[], .nil, hw₁⟩
    rw [Session.waitUntil_nil]
    split_ifs at hwait' ⊢ with hw hs
    · exact ⟨w', h, hnil hwait'⟩
    · exact ⟨w'.settle, hset, hnil hwait'⟩
    · exact ⟨[], .nil, hwait'⟩
  | cons burst S ih =>
    -- both look after the same turns, so that they go on or look again together
    have hburst := hP.burst h burst
    have hwait' (X : Schedule) : (⟨w', l.turns burst :: X, ()⟩ : Session Unit).waitUntil c'
        = if c (w.burst burst) then some ⟨w'.burst (l.turns burst), X, ()⟩
          else (⟨w'.burst (l.turns burst), X, ()⟩ : Session Unit).waitUntil c' := by
      rw [Session.waitUntil_cons, hc _ _ hburst]
    rw [Session.waitUntil_cons]
    split_ifs at hwait' ⊢ with hw
    · exact ⟨_, hburst, fun X₁ hX₁ => ⟨l.turns burst :: X₁, .both burst hX₁, hwait' X₁⟩⟩
    · have hrest := ih hburst
      cases hwait : (⟨w.burst burst, S, ()⟩ : Session Unit).waitUntil c with
      | some s₁ =>
        rw [hwait] at hrest
        obtain ⟨w₁', hpost, hnext⟩ := hrest
        refine ⟨w₁', hpost, ?_⟩
        intro X₁ hX₁
        obtain ⟨X, hX, hX'⟩ := hnext X₁ hX₁
        exact ⟨l.turns burst :: X, .both burst hX, (hwait' X).trans hX'⟩
      | none =>
        rw [hwait] at hrest
        obtain ⟨X, hX, hX'⟩ := hrest
        exact ⟨l.turns burst :: X, .both burst hX, (hwait' X).trans hX'⟩

/-- A wait for the same thing. -/
protected theorem waitUntil {c c' : World → Bool} (hP : l.Stable P)
    (hc : ∀ w w', P w w' → c w = c' w')
    (hsettle : ∀ w w', P w w' → P w.settle w'.settle) :
    Coupled l P (Run.waitUntil c) (Run.waitUntil c') fun _ _ => P where
  ok {w w' S a s₁} hs hp _ := by
    have hwait := exists_waitUntil hP hc hsettle hs S
    cases hw : (⟨w, S, ()⟩ : Session Unit).waitUntil c with
    | none => simp [Run.waitUntil, hw] at hp
    | some s₂ =>
      obtain rfl : s₂ = s₁ := by simpa [Run.waitUntil, hw] using hp
      rw [hw] at hwait
      obtain ⟨w₁', hpost, hnext⟩ := hwait
      refine ⟨(), w₁', hpost, ?_⟩
      intro X₁ hX₁
      obtain ⟨X, hX, hX'⟩ := hnext X₁ hX₁
      exact ⟨X, hX, .waitUntil hX'⟩
  stuck {w w' S e s₁} hs hp _ := by
    have hwait := exists_waitUntil hP hc hsettle hs S
    cases hw : (⟨w, S, ()⟩ : Session Unit).waitUntil c with
    | some s₂ => simp [Run.waitUntil, hw] at hp
    | none =>
      rw [hw] at hwait
      obtain ⟨X, hX, hX'⟩ := hwait
      refine ⟨X, hX, ?_⟩
      intro t ht
      exact ⟨t, by rw [Run.waitUntil, ht.waitUntil, hX']⟩

end Coupled

end Run

end BenchLoop
