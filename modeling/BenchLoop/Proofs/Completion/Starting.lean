/-
BenchLoop/Proofs/Completion/Starting.lean

Who claims the start of an iteration.  Resets divide the journal of a countdown into
epochs, numbered by `Entry.resets`, and each epoch has its crew, the tasks that may claim
its start.  `Entry.StartsOwned` says of a journal that nobody else ever won it.

Three invariants lead from one epoch to the next:

* `Ledger.started`: the crew of an epoch is at work, and the start mark is that of the
  latest claim that was won in it;
* `Ledger.unstarted`: no claim of the start is under way; this is the only state in which
  a reset may begin;
* `Ledger.unmarked`: moreover the start mark is cleared, as it is from the first store of
  a reset on.
-/
import BenchLoop.Proofs.Completion.Rearming

namespace BenchLoop

open CountdownAction

variable {id : ContextId}

/-! ### Claims of the start -/

/-- Whether an action is one of the two by which a task claims the start. -/
def CountdownAction.isStart : CountdownAction → Bool
  | readStart | claimStart _ => true
  | _ => false

/-- Whether a step is one of these on the countdown of a context. -/
def Step.isStart (id : ContextId) (s : Step) : Bool := (s.on? id).any CountdownAction.isStart

/-- 1 for the last store of a reset, 0 for any other action. -/
def CountdownAction.arms : CountdownAction → Nat
  | armPending _ => 1
  | _ => 0

theorem Step.isStart_of_on {s : Step} {a : CountdownAction} (ha : s.on? id = some a) :
    s.isStart id = a.isStart := by
  rw [isStart, ha, Option.any_some]

theorem Step.isStart_of_off {s : Step} (ha : s.on? id = none) : s.isStart id = false := by
  rw [isStart, ha, Option.any_none]

theorem Step.tally_arms_of_isWork {pool : Multiset Step} (h : ∀ s ∈ pool, s.isWork id) :
    Step.tally id arms pool = 0 := by
  refine Step.tally_eq_zero id _ fun s hs a ha => ?_
  have hwork := Step.isWork_on (h s hs) ha
  cases a <;> first | rfl | simp [CountdownAction.isWork] at hwork

/-- Only reading the clock for the start leads to another step of claiming it. -/
theorem Countdown.isStart_next {c : Countdown} {now : Nat} {a b : CountdownAction}
    (h : (c.exec now a).next = some b) (hb : b.isStart = true) : a.isStart = true := by
  cases a <;> grind [exec, CountdownAction.isStart]

/-- Nothing but a claim or the first store of a reset changes the start mark. -/
theorem Countdown.startMark_exec {c : Countdown} {now : Nat} {a : CountdownAction}
    (ha : a.isStart = false) (hclear : a ≠ clearStart) :
    (c.exec now a).after.watch.startMark = c.watch.startMark := by
  cases a with
  | clearStart => exact absurd rfl hclear
  | readStart => cases ha
  | claimStart mark => cases ha
  | subtract count =>
    simp only [exec]
    split <;> rfl
  | _ => rfl

/-- Whatever follows a step claims the start only if the step did, and for the same task. -/
theorem World.isStart_exec {w : World} {actor : Actor} {s t : Step} (h : t ∈ (w.exec actor s).1)
    (ht : t.isStart id = true) : s.isStart id = true ∧ t.task = s.task := by
  refine ⟨?_, exec_task h⟩
  cases hb : t.on? id with
  | none =>
    rw [Step.isStart_of_off hb] at ht
    cases ht
  | some b =>
    obtain ⟨a, ha, hnext⟩ := exec_next_on h hb
    rw [Step.isStart_of_on hb] at ht
    rw [Step.isStart_of_on ha]
    exact Countdown.isStart_next hnext ht

theorem World.unstarted_exec {w : World} {actor : Actor} {s t : Step}
    (h : t ∈ (w.exec actor s).1) (hs : s.isStart id = false) :
    t.isCrash = false ∧ t.isStart id = false := by
  refine ⟨exec_isCrash h, ?_⟩
  cases ht : t.isStart id with
  | false => rfl
  | true => rw [(isStart_exec h ht).1] at hs; cases hs

/-- Whatever follows a step is a step of a task. -/
theorem World.isWork_exec {w : World} {actor : Actor} {s t : Step} (h : t ∈ (w.exec actor s).1) :
    t.isWork id = true := by
  have hcrash := exec_isCrash h
  cases hb : t.on? id with
  | none => simp [Step.isWork, hcrash, hb]
  | some b =>
    obtain ⟨a, -, hnext⟩ := exec_next_on h hb
    simp [Step.isWork, hcrash, hb, Flow.next_isWork hnext]

/-- A step of a task is entered into the journal as what it is, and is no reset. -/
theorem World.journal_exec {w : World} (actor : Actor) {s : Step} (hs : s.isWork id = true) :
    ∃ e, (w.exec actor s).2.journal = e :: w.journal ∧ e.isReset id = false ∧
      e.on? id = (s.on? id).map fun a => (a, ((w.countdown id).exec w.now a).took) := by
  cases ha : s.on? id with
  | none =>
    obtain ⟨-, -, e, hjournal, he⟩ := exec_off w actor ha
    exact ⟨e, hjournal, Entry.isReset_of_off he, he⟩
  | some a =>
    have hon := Entry.on?_performed ha actor ((w.countdown id).exec w.now a).took
    exact ⟨_, (exec_on w actor ha).2.2, Entry.isReset_of_isWork hon (Step.isWork_on hs ha), hon⟩

/-! ### Epochs -/

namespace Entry

/-- How many resets a journal tells of. -/
def resets (id : ContextId) (journal : List Entry) : Nat := journal.countP (·.isReset id)

theorem resets_cons (id : ContextId) (e : Entry) (journal : List Entry) :
    resets id (e :: journal) = resets id journal + (e.isReset id).toNat := by
  rw [resets, List.countP_cons]
  cases e.isReset id <;> rfl

/-- Every start was won by one of the crew of its epoch. -/
def StartsOwned (id : ContextId) (crew : Nat → TaskId → Prop) (journal : List Entry) : Prop :=
  ∀ later e earlier, journal = later ++ e :: earlier → ∀ s mark,
    e.event = .performed s true → s.on? id = some (.claimStart mark) →
    ∃ t, s.task = some t ∧ crew (resets id earlier) t

theorem StartsOwned.cons {crew : Nat → TaskId → Prop} {journal : List Entry} {e : Entry}
    (h : StartsOwned id crew journal)
    (he : ∀ s mark, e.event = .performed s true → s.on? id = some (.claimStart mark) →
      ∃ t, s.task = some t ∧ crew (resets id journal) t) :
    StartsOwned id crew (e :: journal) := by
  rintro (_ | ⟨_, later⟩) e' earlier hj
  · obtain ⟨rfl, rfl⟩ := List.cons.inj hj
    exact he
  · exact h later e' earlier (List.cons.inj hj).2

/-- What happened since the last reset belongs to the epoch of the whole journal. -/
theorem StartsOwned.sinceReset {crew : Nat → TaskId → Prop} {journal : List Entry} {e : Entry}
    (h : StartsOwned id crew journal) (he : e ∈ Entry.sinceReset id journal) {s : Step}
    {mark : UInt64} (hs : e.event = .performed s true)
    (ha : s.on? id = some (.claimStart mark)) :
    ∃ t, s.task = some t ∧ crew (resets id journal) t := by
  obtain ⟨later, earlier, hsplit⟩ := List.append_of_mem he
  have hj : journal = later ++ e :: (earlier ++ journal.dropWhile fun e => !e.isReset id) := by
    conv_lhs => rw [← List.takeWhile_append_dropWhile (l := journal) (p := fun e => !e.isReset id)]
    rw [show journal.takeWhile (fun e => !e.isReset id) = later ++ e :: earlier from hsplit]
    simp
  -- none of the entries behind the claim is a reset, so its epoch is that of the whole journal
  have hnone : ∀ e' ∈ later ++ [e], e'.isReset id = false := by
    intro e' he'
    have hmem : e' ∈ Entry.sinceReset id journal := by
      rw [hsplit]
      simp only [List.mem_append, List.mem_cons, List.not_mem_nil, or_false] at he' ⊢
      tauto
    simpa using List.mem_takeWhile_imp hmem
  have hresets : resets id journal
      = resets id (earlier ++ journal.dropWhile fun e => !e.isReset id) := by
    conv_lhs => rw [hj, List.append_cons]
    rw [resets, List.countP_append, List.countP_eq_zero.2 fun e' he' => by simp [hnone e' he'],
      Nat.zero_add]
    rfl
  obtain ⟨t, ht, hcrew⟩ := h _ _ _ hj s mark hs ha
  exact ⟨t, ht, by rwa [hresets]⟩

/-- Whether an entry tells of a claim of the start, won or not. -/
def claims (id : ContextId) (e : Entry) : Bool :=
  match e.on? id with
  | some (.claimStart _, _) => true
  | _ => false

/-- The mark with which an entry says that the start was claimed, if it was won. -/
def wonStart? (id : ContextId) (e : Entry) : Option UInt64 :=
  match e.on? id with
  | some (.claimStart mark, true) => some mark
  | _ => none

/-- The mark of the latest claim that was won. -/
def startMark? (id : ContextId) (entries : List Entry) : Option UInt64 :=
  entries.findSome? (wonStart? id)

theorem wonStart?_eq_some {e : Entry} {mark : UInt64} :
    e.wonStart? id = some mark ↔
      ∃ s, e.event = .performed s true ∧ s.on? id = some (.claimStart mark) := by
  obtain ⟨actor, event⟩ := e
  cases event with
  | performed s took =>
    simp only [wonStart?, on?]
    cases hs : s.on? id with
    | none => simp [hs]
    | some a => cases a <;> cases took <;> simp [hs]
  | _ => simp [wonStart?, on?]

theorem wonStart?_of_claims {e : Entry} (he : e.claims id = false) : e.wonStart? id = none := by
  unfold wonStart?
  split
  · next h => simp [claims, h] at he
  · rfl

theorem claims_of_off {e : Entry} (he : e.on? id = none) : e.claims id = false := by
  rw [claims, he]

theorem startMark?_cons (id : ContextId) (e : Entry) (entries : List Entry) :
    startMark? id (e :: entries) = (e.wonStart? id).or (startMark? id entries) := by
  rw [startMark?, List.findSome?_cons]
  cases e.wonStart? id <;> rfl

theorem startMark?_of_claims {entries : List Entry} (h : entries.any (claims id) = false) :
    startMark? id entries = none := by
  refine List.findSome?_eq_none_iff.2 fun e he => wonStart?_of_claims ?_
  simpa using List.any_eq_false.1 h e he

end Entry

namespace World

variable {w : World} {actor : Actor} {s : Step}

theorem startsOwned_exec {crew : Nat → TaskId → Prop}
    (h : Entry.StartsOwned id crew w.journal)
    (hs : s.isStart id = true → ∃ t, s.task = some t ∧ crew (Entry.resets id w.journal) t) :
    Entry.StartsOwned id crew (w.exec actor s).2.journal := by
  cases ha : s.on? id with
  | none =>
    obtain ⟨-, -, e, hjournal, he⟩ := exec_off w actor ha
    rw [hjournal]
    refine h.cons fun s' mark hevent ha' => ?_
    simp [Entry.on?, hevent, ha'] at he
  | some a =>
    obtain ⟨-, -, hjournal⟩ := exec_on w actor ha
    rw [hjournal]
    refine h.cons fun s' mark hevent ha' => ?_
    obtain ⟨rfl, -⟩ := Event.performed.inj hevent
    exact hs (Step.isStart_of_on ha')

/-- An unset start stays unset as long as nobody claims it. -/
theorem startMark_exec_of_unset (hs : s.isStart id = false)
    (hunset : (w.countdown id).watch.startMark = 0) :
    ((w.exec actor s).2.countdown id).watch.startMark = 0 := by
  cases ha : s.on? id with
  | none => rw [(exec_off w actor ha).2.1, hunset]
  | some a =>
    rw [(exec_on w actor ha).2.1]
    rw [Step.isStart_of_on ha] at hs
    by_cases hclear : a = clearStart
    · rw [hclear]
      rfl
    · rw [Countdown.startMark_exec hs hclear, hunset]

/-- A reset counts as made as soon as its last store has been taken. -/
theorem resets_exec :
    Entry.resets id (w.exec actor s).2.journal
        + Step.tally id arms ((w.exec actor s).1.toList : Multiset Step)
      = Entry.resets id w.journal + (s.on? id).elim 0 arms := by
  cases ha : s.on? id with
  | none =>
    obtain ⟨hnext, -, e, hjournal, he⟩ := exec_off w actor ha
    rw [hjournal, Entry.resets_cons, Entry.isReset_of_off he,
      Step.tally_eq_zero id arms fun t ht a hta => ?_]
    · rfl
    · rw [hnext t (by simpa using ht)] at hta
      cases hta
  | some a =>
    obtain ⟨-, -, hjournal⟩ := exec_on w actor ha
    -- no step leads to the last store of a reset
    have htally : Step.tally id arms ((w.exec actor s).1.toList : Multiset Step) = 0 := by
      refine Step.tally_eq_zero id arms fun t ht b hb => ?_
      obtain ⟨a', -, hnext⟩ := exec_next_on (by simpa using ht) hb
      cases a' <;> grind [Countdown.exec, CountdownAction.arms]
    rw [htally, hjournal, Entry.resets_cons]
    cases a <;> simp [Entry.isReset, Entry.on?, ha, arms]

/-- So resets made and resets begun are together as many as before. -/
theorem resets_exec_cons {pool : Multiset Step} {n : Nat}
    (h : Entry.resets id w.journal + Step.tally id arms (s ::ₘ pool) = n) :
    Entry.resets id (w.exec actor s).2.journal
        + Step.tally id arms (((w.exec actor s).1.toList : Multiset Step) + pool) = n := by
  have hexec := @resets_exec id w actor s
  rw [Step.tally_cons] at h
  rw [Step.tally_add]
  omega

/-- The start mark stays that of the latest claim that was won. -/
theorem startMark_exec (hs : s.isWork id = true)
    (hmark : (w.countdown id).watch.startMark
      = (Entry.startMark? id (w.sinceReset id)).getD 0)
    (hclaims : (w.sinceReset id).any (Entry.claims id) = true →
      (Entry.startMark? id (w.sinceReset id)).isSome = true) :
    ((w.exec actor s).2.countdown id).watch.startMark
        = (Entry.startMark? id ((w.exec actor s).2.sinceReset id)).getD 0 ∧
      (((w.exec actor s).2.sinceReset id).any (Entry.claims id) = true →
        (Entry.startMark? id ((w.exec actor s).2.sinceReset id)).isSome = true) := by
  obtain ⟨e, hjournal, hreset, hon⟩ := journal_exec (w := w) actor hs
  simp only [sinceReset] at hmark hclaims ⊢
  rw [hjournal, Entry.sinceReset_cons hreset, Entry.startMark?_cons, List.any_cons]
  -- what is no claim shows neither in the mark nor among the claims
  have hidle (he : e.claims id = false)
      (hsame : ((w.exec actor s).2.countdown id).watch.startMark
        = (w.countdown id).watch.startMark) :
      ((w.exec actor s).2.countdown id).watch.startMark = ((e.wonStart? id).or
          (Entry.startMark? id (Entry.sinceReset id w.journal))).getD 0 ∧
        ((e.claims id || (Entry.sinceReset id w.journal).any (Entry.claims id)) = true →
          ((e.wonStart? id).or
            (Entry.startMark? id (Entry.sinceReset id w.journal))).isSome = true) := by
    rw [he, Entry.wonStart?_of_claims he, hsame]
    exact ⟨hmark, hclaims⟩
  cases ha : s.on? id with
  | none =>
    refine hidle (Entry.claims_of_off (by rw [hon, ha]; rfl)) ?_
    rw [(exec_off w actor ha).2.1]
  | some a =>
    rw [ha] at hon
    have hafter := (exec_on w actor ha).2.1
    by_cases hclaim : ∃ mark, a = claimStart mark
    · obtain ⟨mark, rfl⟩ := hclaim
      rw [hafter]
      by_cases hunset : (w.countdown id).watch.startMark = 0
      · simp [Entry.wonStart?, hon, Countdown.exec, Stopwatch.claimStart, hunset]
      · have hsome : (Entry.startMark? id (Entry.sinceReset id w.journal)).isSome = true := by
          cases hmark' : Entry.startMark? id (Entry.sinceReset id w.journal) with
          | none => rw [hmark'] at hmark; exact absurd hmark hunset
          | some mark => rfl
        simpa [Entry.wonStart?, hon, Countdown.exec, Stopwatch.claimStart, hunset, hsome]
          using hmark
    · refine hidle ?_ ?_
      · cases a <;> first
          | exact absurd ⟨_, rfl⟩ hclaim
          | simp [Entry.claims, hon]
      · rw [hafter]
        by_cases hread : a = readStart
        · rw [hread]
          rfl
        · refine Countdown.startMark_exec ?_ ?_
          · cases a <;> first
              | exact absurd ⟨_, rfl⟩ hclaim
              | exact absurd rfl hread
              | rfl
          · rintro rfl
            cases Step.isWork_on hs ha

end World

/-! ### The invariants -/

namespace Ledger

/-- No claim of the start is under way, and `n` resets have been made or begun. -/
def unstarted (id : ContextId) (crew : Nat → TaskId → Prop) (n : Nat) : Ledger id where
  holds _ _ journal _ pool := (∀ s ∈ pool, s.isCrash = false ∧ s.isStart id = false) ∧
    Entry.StartsOwned id crew journal ∧ Entry.resets id journal + Step.tally id arms pool = n
  admits steps := steps = []
  sound h s hs := (h.1 s hs).1
  later h _ := h
  note {rest c journal now pool e} h hstep := by
    have he : e.on? id = none := Entry.on?_of_isStep hstep
    obtain ⟨hpool, howned, hresets⟩ := h
    refine ⟨hpool, howned.cons fun s mark hevent ha => ?_, ?_⟩
    · simp [Entry.on?, hevent, ha] at he
    · rw [Entry.resets_cons, Entry.isReset_of_off he]
      exact hresets
  exec {rest actor s pool w} h := by
    obtain ⟨hpool, howned, hresets⟩ := h
    have hs := (hpool s (Multiset.mem_cons_self s pool)).2
    exact ⟨World.forall_exec hpool fun t ht => World.unstarted_exec ht hs,
      World.startsOwned_exec howned (by simp [hs]), World.resets_exec_cons hresets⟩
  hand := by
    rintro rest c journal now pool steps rfl h
    rwa [Multiset.coe_nil, add_zero]

/-- No claim of the start is under way, and the start mark is cleared; once the reset has been
made nobody has claimed the start since. -/
def unmarked (id : ContextId) : Ledger id where
  holds _ c journal _ pool := (∀ s ∈ pool, s.isCrash = false ∧ s.isStart id = false) ∧
    c.watch.startMark = 0 ∧
    (Step.tally id arms pool = 0 → (Entry.sinceReset id journal).any (Entry.claims id) = false)
  admits steps := steps = []
  sound h s hs := (h.1 s hs).1
  later h _ := h
  note {rest c journal now pool e} h hstep := by
    have he : e.on? id = none := Entry.on?_of_isStep hstep
    obtain ⟨hpool, hmark, hclaims⟩ := h
    refine ⟨hpool, hmark, fun harms => ?_⟩
    rw [Entry.sinceReset_cons (Entry.isReset_of_off he), List.any_cons, Entry.claims_of_off he]
    exact hclaims harms
  exec {rest actor s pool w} h := by
    obtain ⟨hpool, hmark, hclaims⟩ := h
    have hs := (hpool s (Multiset.mem_cons_self s pool)).2
    refine ⟨World.forall_exec hpool fun t ht => World.unstarted_exec ht hs,
      World.startMark_exec_of_unset hs hmark, fun harms => ?_⟩
    rw [Step.tally_add] at harms
    have harms := Nat.eq_zero_of_add_eq_zero_left harms
    rw [Step.tally_cons] at hclaims
    cases ha : s.on? id with
    | none =>
      obtain ⟨-, -, e, hjournal, he⟩ := World.exec_off w actor ha
      rw [hjournal, Entry.sinceReset_cons (Entry.isReset_of_off he), List.any_cons,
        Entry.claims_of_off he]
      rw [ha] at hclaims
      exact hclaims ((Nat.zero_add _).trans harms)
    | some a =>
      obtain ⟨-, -, hjournal⟩ := World.exec_on w actor ha
      rw [hjournal]
      rw [Step.isStart_of_on ha] at hs
      rw [ha] at hclaims
      have hon := Entry.on?_performed ha actor
      cases a with
      | armPending rows =>
        rw [Entry.sinceReset_of_isReset (by simp [Entry.isReset, hon])]
        rfl
      | readStart => cases hs
      | claimStart mark => cases hs
      | _ =>
        rw [Entry.sinceReset_cons (by simp [Entry.isReset, hon]), List.any_cons]
        simp only [Entry.claims, hon, Bool.false_or]
        exact hclaims ((Nat.zero_add _).trans harms)
  hand := by
    rintro rest c journal now pool steps rfl h
    rwa [Multiset.coe_nil, add_zero]

/-- The crew of epoch `n` is at work, and the start mark is that of the latest claim won since
the last reset; if there was a claim then one was won. -/
def started (id : ContextId) (crew : Nat → TaskId → Prop) (n : Nat) : Ledger id where
  holds _ c journal _ pool :=
    (∀ s ∈ pool, s.isWork id = true ∧
      (s.isStart id = true → ∃ t, s.task = some t ∧ crew n t)) ∧
    (Entry.StartsOwned id crew journal ∧ Entry.resets id journal = n) ∧
    c.watch.startMark = (Entry.startMark? id (Entry.sinceReset id journal)).getD 0 ∧
    ((Entry.sinceReset id journal).any (Entry.claims id) = true →
      (Entry.startMark? id (Entry.sinceReset id journal)).isSome = true)
  admits steps := ∀ s ∈ steps, s.isWork id = true ∧
    (s.isStart id = true → ∃ t, s.task = some t ∧ crew n t)
  sound h s hs := Step.isCrash_of_isWork (h.1 s hs).1
  later h _ := h
  note {rest c journal now pool e} h hstep := by
    have he : e.on? id = none := Entry.on?_of_isStep hstep
    obtain ⟨hpool, ⟨howned, hresets⟩, hmark, hclaims⟩ := h
    have hreset := Entry.isReset_of_off he
    refine ⟨hpool, ⟨howned.cons fun s mark hevent ha => ?_, ?_⟩, ?_⟩
    · simp [Entry.on?, hevent, ha] at he
    · rw [Entry.resets_cons, hreset]
      exact hresets
    · rw [Entry.sinceReset_cons hreset, Entry.startMark?_cons, List.any_cons,
        Entry.claims_of_off he, Entry.wonStart?_of_claims (Entry.claims_of_off he)]
      exact ⟨hmark, hclaims⟩
  exec {rest actor s pool w} h := by
    obtain ⟨hpool, ⟨howned, hresets⟩, hmark, hclaims⟩ := h
    obtain ⟨hwork, hcrew⟩ := hpool s (Multiset.mem_cons_self s pool)
    refine ⟨World.forall_exec hpool fun t ht => ⟨World.isWork_exec ht, fun hstart => ?_⟩,
      ⟨World.startsOwned_exec howned fun hs => hresets ▸ hcrew hs, ?_⟩, ?_⟩
    · obtain ⟨hs, htask⟩ := World.isStart_exec ht hstart
      rw [htask]
      exact hcrew hs
    · obtain ⟨e, hjournal, hreset, -⟩ := World.journal_exec (w := w) actor hwork
      rw [hjournal, Entry.resets_cons, hreset]
      exact hresets
    · exact World.startMark_exec hwork hmark hclaims
  hand ha h := ⟨fun s hs => (Multiset.mem_add.1 hs).elim (h.1 s) fun hs => ha s (by simpa using hs),
    h.2⟩

/-! ### From one epoch to the next -/

variable {crew : Nat → TaskId → Prop} {n : Nat} {w : World}

/-- Once nobody is about to claim the start any more, a reset may begin. -/
theorem unstarted_of_started (h : (started id crew n).inv 0 [] w)
    (hnone : ∀ s ∈ w.inFlight, s.isStart id = false) : (unstarted id crew n).inv 0 [] w := by
  obtain ⟨hpool, ⟨howned, hresets⟩, -⟩ := h
  rw [Multiset.coe_nil, add_zero] at hpool
  have hwork (s : Step) (hs : s ∈ w.inFlight) := (hpool s hs).1
  show _ ∧ _ ∧ _
  rw [Multiset.coe_nil, add_zero, Step.tally_arms_of_isWork hwork]
  exact ⟨fun s hs => ⟨Step.isCrash_of_isWork (hwork s hs), hnone s hs⟩, howned, hresets⟩

/-- After a reset the crew of the new epoch may be set to work. -/
theorem started_of_unmarked (rest : Nat) (h : (unstarted id crew n).inv 0 [] w)
    (hmark : (unmarked id).inv 0 [] w) (hwork : ∀ s ∈ w.inFlight, s.isWork id = true) :
    (started id crew n).inv rest [] w := by
  obtain ⟨hpool, howned, hresets⟩ := h
  obtain ⟨-, hmark, hclaims⟩ := hmark
  rw [Multiset.coe_nil, add_zero] at hpool hresets hclaims
  have harms := Step.tally_arms_of_isWork hwork
  have hnone := hclaims harms
  refine ⟨fun s hs => ?_, ⟨howned, by omega⟩, ?_, fun h => ?_⟩
  · rw [Multiset.coe_nil, add_zero] at hs
    exact ⟨hwork s hs, by simp [(hpool s hs).2]⟩
  · rw [hmark, Entry.startMark?_of_claims hnone]
    rfl
  · rw [hnone] at h
    cases h

end Ledger

theorem Context.isStart_of_mem_reset {ctx : Context} {rows : UInt64} {s : Step}
    (h : s ∈ ctx.reset rows) : s.isCrash = false ∧ s.isStart ctx.id = false := by
  obtain ⟨a, ha, rfl⟩ := List.mem_map.1 h
  refine ⟨rfl, ?_⟩
  rw [Context.count, Step.isStart_of_on (Step.on?_count ctx.id none a)]
  simp only [Countdown.resetActions, List.mem_append, List.mem_cons, List.not_mem_nil,
    or_false] at ha
  rcases ha with (rfl | rfl | rfl | rfl | rfl) | ha
  any_goals rfl
  split at ha
  · obtain rfl := List.mem_singleton.1 ha
    rfl
  · cases ha

theorem Context.tally_arms_reset (ctx : Context) (rows : UInt64) :
    Step.tally ctx.id arms (ctx.reset rows : List Step) = 1 := by
  unfold reset Countdown.resetActions
  split <;> simp [Context.count, ← Multiset.cons_coe, -Multiset.cons_zero, Step.on?_count, arms]

/-- A reset begins a new epoch, in which nobody has claimed the start yet. -/
theorem Context.ends_reset_unstarted {σ : Type} (ctx : Context) (rows : UInt64)
    (crew : Nat → TaskId → Prop) (n : Nat) :
    Run.Ends (fun w (_ : σ) => (Ledger.unstarted ctx.id crew n).inv 0 [] w)
      (Run.perform (ctx.reset rows)) fun _ w _ =>
        (Ledger.unstarted ctx.id crew (n + 1)).inv 0 [] w ∧
          (Ledger.unmarked ctx.id).inv 0 [] w := by
  have hunstarted : Run.Ends (fun w (_ : σ) => (Ledger.unstarted ctx.id crew n).inv 0 [] w)
      (Run.perform (ctx.reset rows)) fun _ w _ =>
        (Ledger.unstarted ctx.id crew (n + 1)).inv 0 [] w := by
    refine ((Ledger.unstarted ctx.id crew (n + 1)).ends_perform 0 _).pre fun w _ h => ?_
    obtain ⟨hpool, howned, hresets⟩ := h
    rw [Multiset.coe_nil, add_zero] at hpool hresets
    refine ⟨fun s hs => (Multiset.mem_add.1 hs).elim (hpool s) isStart_of_mem_reset, howned, ?_⟩
    rw [Step.tally_add, ctx.tally_arms_reset]
    omega
  have hunmarked : Run.Ends (fun w (_ : σ) => (Ledger.unstarted ctx.id crew n).inv 0 [] w)
      (Run.perform (ctx.reset rows)) fun _ w _ => (Ledger.unmarked ctx.id).inv 0 [] w := by
    obtain ⟨stores, hlist⟩ : ∃ stores, ctx.reset rows = ctx.count none .clearStart :: stores :=
      ⟨_, rfl⟩
    have hstores (s : Step) (hs : s ∈ stores) : s.isCrash = false ∧ s.isStart ctx.id = false :=
      isStart_of_mem_reset (hlist ▸ List.mem_cons_of_mem _ hs)
    have harms : Step.tally ctx.id arms stores = 1 := by
      have := ctx.tally_arms_reset rows
      rw [hlist, ← Multiset.cons_coe, Step.tally_cons] at this
      simpa [count, Step.on?_count, arms] using this
    rw [hlist]
    -- the first store clears the mark, and what is left of the reset cannot set it again
    refine Run.Ends.perform_cons (fun w _ => (Ledger.unmarked ctx.id).inv 0 stores w)
      (fun _ _ t h => Ledger.inv_turn h t) (fun w _ h => ?_)
      ((Ledger.unmarked ctx.id).ends_perform 0 stores)
    obtain ⟨hpool, -⟩ := h
    rw [Multiset.coe_nil, add_zero] at hpool
    obtain ⟨hnext, hcountdown, -⟩ := World.exec_on w .coordinator
      (Step.on?_count ctx.id none .clearStart)
    have hin : (w.exec .coordinator (ctx.count none .clearStart)).2.inFlight = w.inFlight := by
      simp [World.inFlight]
    refine ⟨by rw [count, hnext]; rfl, fun s hs => ?_, ?_, fun h => ?_⟩
    · rw [hin] at hs
      exact (Multiset.mem_add.1 hs).elim (hpool s) (hstores s)
    · rw [count, hcountdown]
      rfl
    · rw [Step.tally_add, harms] at h
      omega
  exact (hunstarted.and hunmarked).pre fun _ _ h => ⟨h, h⟩

end BenchLoop
