/-
BenchLoop/Proofs/Completion/Pacing.lean

The order in which a thread works.  A task claims the start of the iteration before it
notifies its first row, and it has a row to notify after that.  So of the steps that a
thread has left

* every claim of the start is followed by a row (`Step.FollowedUp`), and
* every row is preceded by a claim (`Step.Announced`), unless one has been made already.

`Regime.paced` is the invariant: nothing that any thread does can break this.  Two things
come out of it.  When no row is in flight any more then neither is a claim of the start
(`Regime.isStart_of_paced`); and when a row has been subtracted the start has been
claimed.
-/
import BenchLoop.Proofs.Completion.Starting

namespace BenchLoop

open CountdownAction

variable {id : ContextId}

namespace Step

/-- Whether a step subtracts rows. -/
def counts (id : ContextId) (s : Step) : Bool := (s.on? id).any fun a => 0 < a.units

/-- Every step with some property is followed by a row. -/
def FollowedUp (id : ContextId) (q : Step → Bool) : List Step → Prop
  | [] => True
  | s :: rest => (q s = true → ∃ t ∈ rest, t.counts id = true) ∧ FollowedUp id q rest

/-- Every row is preceded by a claim of the start. -/
def Announced (id : ContextId) : List Step → Prop
  | [] => True
  | s :: rest => s.isStart id = true ∨ s.counts id = false ∧ Announced id rest

section FollowedUp

variable {q : Step → Bool} {steps more : List Step}

theorem FollowedUp.append (h : FollowedUp id q steps) (hmore : FollowedUp id q more) :
    FollowedUp id q (steps ++ more) := by
  induction steps with
  | nil => exact hmore
  | cons s steps ih =>
    refine ⟨fun hs => ?_, ih h.2⟩
    obtain ⟨t, ht, hcounts⟩ := h.1 hs
    exact ⟨t, List.mem_append_left more ht, hcounts⟩

theorem FollowedUp.of_none (h : ∀ s ∈ steps, q s = false) : FollowedUp id q steps := by
  induction steps with
  | nil => trivial
  | cons s steps ih =>
    obtain ⟨hs, hsteps⟩ := List.forall_mem_cons.1 h
    exact ⟨by simp [hs], ih hsteps⟩

/-- Where no row is left no such step is left either. -/
theorem FollowedUp.eq_false (h : FollowedUp id q steps)
    (hnone : ∀ s ∈ steps, s.counts id = false) : ∀ s ∈ steps, q s = false := by
  induction steps with
  | nil => exact nofun
  | cons s steps ih =>
    obtain ⟨-, hrest⟩ := List.forall_mem_cons.1 hnone
    refine List.forall_mem_cons.2 ⟨?_, ih h.2 hrest⟩
    cases hs : q s with
    | false => rfl
    | true =>
      obtain ⟨t, ht, hcounts⟩ := h.1 hs
      rw [hrest t ht] at hcounts
      cases hcounts

end FollowedUp

theorem Announced.append {steps more : List Step} (h : Announced id steps)
    (hmore : Announced id more) : Announced id (steps ++ more) := by
  induction steps with
  | nil => exact hmore
  | cons s steps ih => exact h.imp (fun h => h) fun h => ⟨h.1, ih h.2⟩

theorem Announced.of_none {steps : List Step} (h : ∀ s ∈ steps, s.counts id = false) :
    Announced id steps := by
  induction steps with
  | nil => trivial
  | cons s steps ih =>
    obtain ⟨hs, hsteps⟩ := List.forall_mem_cons.1 h
    exact .inr ⟨hs, ih hsteps⟩

theorem counts_of_on {s : Step} {a : CountdownAction} (ha : s.on? id = some a) :
    s.counts id = decide (0 < a.units) := by
  rw [counts, ha, Option.any_some]

theorem counts_of_off {s : Step} (ha : s.on? id = none) : s.counts id = false := by
  rw [counts, ha, Option.any_none]

/-- No row is in flight if none is due. -/
theorem counts_of_tally {pool : Multiset Step} (h : Step.tally id units pool = 0) {s : Step}
    (hs : s ∈ pool) : s.counts id = false := by
  cases ha : s.on? id with
  | none => exact counts_of_off ha
  | some a =>
    rw [counts_of_on ha, Step.eq_zero_of_tally_eq_zero id units h hs ha]
    rfl

/-- The steps that one thread has left, in order; `begun` says that somebody has claimed the
start already. -/
structure Paced (id : ContextId) (begun : Prop) (steps : List Step) : Prop where
  work : ∀ s ∈ steps, s.isWork id = true
  followed : FollowedUp id (·.isStart id) steps
  announced : begun ∨ Announced id steps

theorem Paced.mono {begun begun' : Prop} {steps : List Step} (h : Paced id begun steps)
    (hle : begun → begun') : Paced id begun' steps :=
  ⟨h.work, h.followed, h.announced.imp_left hle⟩

theorem Paced.append {begun : Prop} {steps more : List Step} (h : Paced id begun steps)
    (hmore : Paced id begun more) : Paced id begun (steps ++ more) where
  work s hs := (List.mem_append.1 hs).elim (h.work s) (hmore.work s)
  followed := h.followed.append hmore.followed
  announced := by
    rcases h.announced with hbegun | h
    · exact .inl hbegun
    · exact hmore.announced.imp_right h.append

/-- A task that begins by claiming the start and has a row to notify. -/
theorem Paced.of_start {s : Step} {rest : List Step} (hwork : ∀ t ∈ s :: rest, t.isWork id = true)
    (hs : s.isStart id = true) (hrest : ∀ t ∈ rest, t.isStart id = false)
    (hrow : ∃ t ∈ rest, t.counts id = true) : Paced id False (s :: rest) where
  work := hwork
  followed := ⟨fun _ => hrow, .of_none hrest⟩
  announced := .inr (.inl hs)

end Step

namespace World

variable {w : World} {actor : Actor} {s : Step} {rest : List Step}

/-- Somebody has claimed the start since the last reset, won or not. -/
def Claimed (id : ContextId) (w : World) : Prop := (w.sinceReset id).any (Entry.claims id) = true

theorem claimed_exec (hs : s.isWork id = true) (h : w.Claimed id) :
    (w.exec actor s).2.Claimed id := by
  obtain ⟨e, hjournal, hreset, -⟩ := journal_exec (w := w) actor hs
  unfold Claimed sinceReset at h ⊢
  rw [hjournal, Entry.sinceReset_cons hreset, List.any_cons, h, Bool.or_true]

theorem claimed_of_claimStart {mark : UInt64} (ha : s.on? id = some (.claimStart mark)) :
    (w.exec actor s).2.Claimed id := by
  obtain ⟨-, -, hjournal⟩ := exec_on w actor ha
  have hon := Entry.on?_performed ha actor
  unfold Claimed sinceReset
  rw [hjournal, Entry.sinceReset_cons (by simp [Entry.isReset, hon]), List.any_cons]
  simp [Entry.claims, hon]

theorem subtracted_exec (hs : s.isWork id = true) :
    (w.exec actor s).2.subtracted id = (s.on? id).elim 0 units + w.subtracted id := by
  obtain ⟨e, hjournal, hreset, hon⟩ := journal_exec (w := w) actor hs
  unfold subtracted sinceReset
  rw [hjournal, Entry.sinceReset_cons hreset, Entry.tally_cons, hon]
  cases s.on? id <;> rfl

/-- Whatever follows a step subtracts nothing. -/
theorem counts_exec {t : Step} (h : t ∈ (w.exec actor s).1) : t.counts id = false := by
  cases hb : t.on? id with
  | none => exact Step.counts_of_off hb
  | some b =>
    obtain ⟨a, -, hnext⟩ := exec_next_on h hb
    rw [Step.counts_of_on hb, Countdown.units_next hnext]
    rfl

/-- A step of claiming the start claims it, or leads to one that will. -/
theorem start_exec (hstart : s.isStart id = true) :
    (w.exec actor s).2.Claimed id ∨
      Step.Announced id ((w.exec actor s).1.toList ++ rest) := by
  cases ha : s.on? id with
  | none =>
    rw [Step.isStart_of_off ha] at hstart
    cases hstart
  | some a =>
    rw [Step.isStart_of_on ha] at hstart
    cases a with
    | claimStart mark => exact .inl (claimed_of_claimStart ha)
    | readStart =>
      right
      rw [(exec_on w actor ha).1]
      exact .inl (by simp [Step.isStart_of_on (Step.on?_count id s.task _), isStart])
    | _ => cases hstart

/-- The next step of a thread keeps its steps in order. -/
theorem paced_exec (h : Step.Paced id (w.Claimed id) (s :: rest)) :
    Step.Paced id ((w.exec actor s).2.Claimed id) ((w.exec actor s).1.toList ++ rest) := by
  obtain ⟨hs, hrest⟩ := List.forall_mem_cons.1 h.work
  have hnext (t : Step) (ht : t ∈ (w.exec actor s).1) :
      t.isWork id = true ∧ (t.isStart id = true → s.isStart id = true) :=
    ⟨isWork_exec ht, fun hstart => (isStart_exec ht hstart).1⟩
  refine ⟨fun t ht => ?_, ?_, ?_⟩
  · refine (List.mem_append.1 ht).elim (fun ht => (hnext t ?_).1) (hrest t)
    simpa using ht
  · cases hexec : (w.exec actor s).1 with
    | none => exact h.followed.2
    | some t => exact ⟨fun ht => h.followed.1 ((hnext t hexec).2 ht), h.followed.2⟩
  · rcases h.announced with hclaimed | hstart | ⟨hcounts, hann⟩
    · exact .inl (claimed_exec hs hclaimed)
    · exact start_exec hstart
    · right
      cases hexec : (w.exec actor s).1 with
      | none => exact hann
      | some t => exact .inr ⟨counts_exec hexec, hann⟩

/-- Nobody subtracts rows before somebody has claimed the start. -/
theorem begun_exec (h : Step.Paced id (w.Claimed id) (s :: rest))
    (hbegun : w.Claimed id ∨ w.subtracted id = 0) :
    (w.exec actor s).2.Claimed id ∨ (w.exec actor s).2.subtracted id = 0 := by
  obtain ⟨hs, -⟩ := List.forall_mem_cons.1 h.work
  rw [subtracted_exec hs]
  rcases hbegun with hclaimed | hsub
  · exact .inl (claimed_exec hs hclaimed)
  -- unless the claim is there, the step is one on the way to it or counts no rows
  rcases h.announced with hclaimed | hstart | ⟨hcounts, -⟩
  · exact .inl (claimed_exec hs hclaimed)
  · right
    rw [hsub]
    cases ha : s.on? id with
    | none => rfl
    | some a =>
      rw [Step.isStart_of_on ha] at hstart
      cases a <;> first | rfl | cases hstart
  · right
    rw [hsub]
    cases ha : s.on? id with
    | none => rfl
    | some a =>
      rw [Step.counts_of_on ha] at hcounts
      simpa using hcounts

end World

/-- Every thread works in order, and so does the coordinator; nothing is subtracted before
somebody has claimed the start. -/
def Regime.paced (id : ContextId) : Regime where
  inv _ own w := (∀ i, Step.Paced id (w.Claimed id) (w.remaining i)) ∧
    Step.Paced id (w.Claimed id) own ∧ (w.Claimed id ∨ w.subtracted id = 0)
  admits _ steps := Step.Paced id False steps
  calm h s hs := by
    obtain ⟨i, hi⟩ := World.mem_inFlight.1 hs
    exact Step.isCrash_of_isWork ((h.1 i).work s hi)
  turn {rest own w} h t := by
    obtain ⟨hlines, hown, hbegun⟩ := h
    obtain ⟨n, ht⟩ | ⟨i, s, todo, rfl, hi, ht⟩ := w.turn_cases t
    · rw [ht]
      exact ⟨hlines, hown, hbegun⟩
    · have hline := hlines i
      rw [hi] at hline
      obtain ⟨hs, -⟩ := List.forall_mem_cons.1 hline.work
      have hclaimed : (w.turn (.thread i)).Claimed id = (w.exec (.thread i) s).2.Claimed id := by
        rw [ht]
        rfl
      have hsub : (w.turn (.thread i)).subtracted id = (w.exec (.thread i) s).2.subtracted id := by
        rw [ht]
        rfl
      rw [hclaimed, hsub]
      refine ⟨fun j => ?_, hown.mono (World.claimed_exec hs), World.begun_exec hline hbegun⟩
      rw [World.remaining_turn hi (Step.isCrash_of_isWork hs)]
      split
      · exact World.paced_exec hline
      · exact (hlines j).mono (World.claimed_exec hs)
  exec {rest s own w} h := by
    obtain ⟨hlines, hown, hbegun⟩ := h
    obtain ⟨hs, -⟩ := List.forall_mem_cons.1 hown.work
    refine ⟨fun j => ?_, World.paced_exec hown, World.begun_exec hown hbegun⟩
    have hremaining : (w.exec .coordinator s).2.remaining j = w.remaining j := by
      simp only [World.remaining, World.exec_threads]
    rw [hremaining]
    exact (hlines j).mono (World.claimed_exec hs)
  take ha h := ⟨h.1, ha.mono False.elim, h.2.2⟩
  spawn {d rest steps w} ha h name := by
    obtain ⟨hlines, hown, hbegun⟩ := h
    refine ⟨fun i => ?_, hown, hbegun⟩
    show Step.Paced id (w.Claimed id) ((w.spawn name steps).2.remaining i)
    rw [World.remaining_spawn]
    split
    · exact ha.mono False.elim
    · exact hlines i
  hire {rest own w} h name := by
    obtain ⟨hlines, hown, hbegun⟩ := h
    refine ⟨fun i => ?_, hown, hbegun⟩
    show Step.Paced id (w.Claimed id) ((w.spawn name []).2.remaining i)
    rw [World.remaining_spawn]
    split
    · exact ⟨nofun, trivial, .inr trivial⟩
    · exact hlines i
  enqueue {d rest steps w} ha h i hi := by
    obtain ⟨hlines, hown, hbegun⟩ := h
    refine ⟨fun j => ?_, hown, hbegun⟩
    show Step.Paced id (w.Claimed id) ((w.enqueue i steps).remaining j)
    rw [World.remaining_enqueue hi]
    split
    · exact (hlines j).append (ha.mono False.elim)
    · exact hlines j
  note {rest own w} h event he := by
    obtain ⟨hlines, hown, hbegun⟩ := h
    have hoff : (⟨.coordinator, event⟩ : Entry).on? id = none := Entry.on?_of_isStep he
    have hjournal : (w.note .coordinator event).sinceReset id
        = ⟨.coordinator, event⟩ :: w.sinceReset id :=
      Entry.sinceReset_cons (Entry.isReset_of_off hoff)
    have hclaimed : (w.note .coordinator event).Claimed id ↔ w.Claimed id := by
      rw [World.Claimed, hjournal, List.any_cons, Entry.claims_of_off hoff]
      rfl
    have hsub : (w.note .coordinator event).subtracted id = w.subtracted id := by
      rw [World.subtracted, hjournal, Entry.tally_cons, hoff]
      exact Nat.zero_add _
    rw [hclaimed, hsub]
    exact ⟨hlines, hown, hbegun⟩
  frame h _ := h

namespace Regime

variable {w : World}

/-- When no row is in flight any more, neither is a claim of the start. -/
theorem isStart_of_paced {rest : Multiset Duty} (h : (paced id).inv rest [] w)
    (hunits : Step.tally id units w.inFlight = 0) : ∀ s ∈ w.inFlight, s.isStart id = false := by
  intro s hs
  obtain ⟨i, hi⟩ := World.mem_inFlight.1 hs
  refine (h.1 i).followed.eq_false (fun t ht => ?_) s hi
  exact Step.counts_of_tally hunits (World.mem_inFlight.2 ⟨i, ht⟩)

/-- An iteration begins in order. -/
theorem paced_of_unstarted (rest : Multiset Duty) (hwork : ∀ s ∈ w.inFlight, s.isWork id = true)
    (hstart : ∀ s ∈ w.inFlight, s.isStart id = false)
    (hunits : Step.tally id units w.inFlight = 0) (hsub : w.subtracted id = 0) :
    (paced id).inv rest [] w := by
  refine ⟨fun i => ?_, ⟨nofun, trivial, .inr trivial⟩, .inr hsub⟩
  have hmem (s : Step) (hs : s ∈ w.remaining i) : s ∈ w.inFlight := World.mem_inFlight.2 ⟨i, hs⟩
  exact
    { work := fun s hs => hwork s (hmem s hs)
      followed := .of_none fun s hs => hstart s (hmem s hs)
      announced := .inr (.of_none fun s hs => Step.counts_of_tally hunits (hmem s hs)) }

end Regime

end BenchLoop
