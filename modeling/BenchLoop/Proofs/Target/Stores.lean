/-
BenchLoop/Proofs/Target/Stores.lean

What is known of the stores while threads work on them.  The steps in flight that act on
a store are its accesses

    Step.accesses pool

and a `StoreLaw` says which of them may be in flight and what is then known of the stores,
given the accesses that are still due.  It has to be checked of one access at a time: the
insertions and look-ups of different threads come in any order, so whatever a law says at
the end holds for all of them (`StoreLaw.balance`).

* `StoreLaw.still`: no access is in flight, so nothing that is known of the stores is lost,
  whatever the threads still do.
* `Step.FollowedUp` with accesses: a row is notified only after it has been accessed.  So
  where no row is in flight, no access is (`StoreLaw.still_of_quiet`), though threads may
  still be at work.

Besides, a law says what the journal tells of the accesses that have been made
(`Entry.Tells`).
-/
import BenchLoop.Proofs.Completion.Pacing

namespace BenchLoop

open CountdownAction

/-! ### Accesses -/

/-- The accesses to stores among some steps. -/
def Step.accesses (pool : Multiset Step) : Multiset (StoreId × RowAccess) :=
  pool.filterMap Step.access?

/-- If the entry is about an access then something holds of it and of whether it took effect. -/
def Entry.Tells (t : RowAccess → (took : Bool) → Prop) (e : Entry) : Prop :=
  ∀ s took store a, e.event = .performed s took → s.access? = some (store, a) → t a took

namespace Step

theorem accesses_add (pool more : Multiset Step) :
    accesses (pool + more) = accesses pool + accesses more :=
  Multiset.filterMap_add _ pool more

theorem accesses_eq_zero {pool : Multiset Step} (h : ∀ s ∈ pool, s.access? = none) :
    accesses pool = 0 := by
  refine Multiset.eq_zero_of_forall_notMem fun x hx => ?_
  obtain ⟨s, hs, hx⟩ := (Multiset.mem_filterMap _ _).1 hx
  rw [h s hs] at hx
  cases hx

theorem access?_eq_some {s : Step} {store : StoreId} {a : RowAccess} :
    s.access? = some (store, a) ↔ s.action = .access store a := by
  obtain ⟨task, action⟩ := s
  cases action <;> simp [access?]

end Step

namespace World

variable {w : World} {actor : Actor} {s : Step}

/-- What a step leads to acts on a countdown. -/
theorem access?_exec {t : Step} (h : t ∈ (w.exec actor s).1) : t.access? = none := by
  obtain ⟨context, a, b, -, -, rfl⟩ := exec_next h
  rfl

/-- The step that is taken is the only access that is gone afterwards. -/
theorem accesses_exec (pool : Multiset Step) :
    Step.accesses (((w.exec actor s).1.toList : Multiset Step) + pool) = Step.accesses pool := by
  rw [Step.accesses_add, Step.accesses_eq_zero fun t ht => access?_exec (by simpa using ht),
    zero_add]

theorem stores_exec_of_none (h : s.access? = none) : (w.exec actor s).2.stores = w.stores := by
  obtain ⟨task, action⟩ := s
  cases action with
  | access store a => cases h
  | _ => rfl

theorem exec_insert (w : World) (actor : Actor) {store : StoreId} {key : UInt32} {row : UInt64}
    (h : s.access? = some (store, .insert key row)) :
    (w.exec actor s).2.stores = w.stores.modify store (·.insert key row) ∧
      (w.perform s.action).1 = true := by
  obtain ⟨task, action⟩ := s
  rw [Step.access?_eq_some] at h
  subst h
  exact ⟨rfl, rfl⟩

/-- A look-up says whether it has found its key, and changes nothing. -/
theorem exec_lookup (w : World) (actor : Actor) {store : StoreId} {key : UInt32}
    (h : s.access? = some (store, .lookup key)) :
    (w.exec actor s).2.stores = w.stores ∧
      (w.perform s.action).1 = (w.stores.get store).contains key := by
  obtain ⟨task, action⟩ := s
  rw [Step.access?_eq_some] at h
  subst h
  exact ⟨rfl, rfl⟩

/-- The row that is stored under a key. -/
def row? (w : World) (store : StoreId) (key : UInt32) : Option UInt64 := (w.stores.get store)[key]?

end World

theorem Store.getElem?_insert (s : Store) (key key' : UInt32) (row : UInt64) :
    (s.insert key row)[key']? = if key = key' then some row else s[key']? := by
  rw [Std.ExtTreeMap.getElem?_insert]
  simp

/-! ### Laws of stores -/

/-- Which accesses there may be, and what is known of the stores while some are still due. -/
structure StoreLaw where
  may : StoreId → RowAccess → Prop
  /-- What can be told of an access that has been made. -/
  tells : RowAccess → (took : Bool) → Prop
  known : (rest : Multiset Duty) → Table Store → (due : Multiset (StoreId × RowAccess)) → Prop
  /-- What the accesses of the task for a duty have to be. -/
  brings : Duty → Multiset (StoreId × RowAccess) → Prop
  insert {rest stores store key row due} : may store (.insert key row) →
    known rest stores ((store, .insert key row) ::ₘ due) →
    tells (.insert key row) true ∧ known rest (stores.modify store (·.insert key row)) due
  lookup {rest stores store key due} : may store (.lookup key) →
    known rest stores ((store, .lookup key) ::ₘ due) →
    tells (.lookup key) ((stores.get store).contains key) ∧ known rest stores due
  hand {d rest stores due more} : brings d more → known (d ::ₘ rest) stores due →
    known rest stores (due + more)

namespace StoreLaw

/-- Whether a step is none that a law forbids, and no panic. -/
def Allows (l : StoreLaw) (s : Step) : Prop :=
  s.isCrash = false ∧ ∀ store a, s.access? = some (store, a) → l.may store a

/-- What a law says while steps are in flight: they are allowed, and what is known is known. -/
structure Holds (l : StoreLaw) (rest : Multiset Duty) (w : World) (pool : Multiset Step) :
    Prop where
  allows : ∀ s ∈ pool, l.Allows s
  known : l.known rest w.stores (Step.accesses pool)
  told : ∀ e ∈ w.journal, e.Tells l.tells

variable {l : StoreLaw} {rest : Multiset Duty} {w : World} {pool : Multiset Step}

theorem Holds.exec {actor : Actor} {s : Step} (h : l.Holds rest w (s ::ₘ pool)) :
    l.Holds rest (w.exec actor s).2 (((w.exec actor s).1.toList : Multiset Step) + pool) := by
  obtain ⟨hallows, hknown, htold⟩ := h
  have hs := hallows s (Multiset.mem_cons_self s pool)
  have hnext : ∀ t ∈ (w.exec actor s).1, l.Allows t := fun t ht =>
    ⟨World.exec_isCrash ht, fun store a ha => by rw [World.access?_exec ht] at ha; cases ha⟩
  have hallows' := World.forall_exec hallows hnext
  obtain ⟨e, hjournal, -, he⟩ := w.exec_journal actor s
  -- the journal grows by the step itself
  have hgrows (h : ∀ store a, s.access? = some (store, a) → l.tells a (w.perform s.action).1) :
      ∀ e ∈ (w.exec actor s).2.journal, e.Tells l.tells := by
    rw [hjournal]
    refine List.forall_mem_cons.2 ⟨fun s' took store a hevent ha => ?_, htold⟩
    obtain ⟨rfl, rfl⟩ := he s' took hevent
    exact h store a ha
  cases ha : s.access? with
  | none =>
    refine ⟨hallows', ?_, hgrows fun store a h => by rw [ha] at h; cases h⟩
    rw [World.accesses_exec, World.stores_exec_of_none ha]
    rwa [Step.accesses, Multiset.filterMap_cons_none _ _ ha] at hknown
  | some access =>
    obtain ⟨store, a⟩ := access
    rw [Step.accesses, Multiset.filterMap_cons_some _ _ _ ha] at hknown
    have hmay := hs.2 store a ha
    cases a with
    | insert key row =>
      obtain ⟨htells, hknown⟩ := l.insert hmay hknown
      obtain ⟨hstores, htook⟩ := World.exec_insert w actor ha
      refine ⟨hallows', ?_, hgrows ?_⟩
      · rw [World.accesses_exec, hstores]
        exact hknown
      · rintro store' a ha'
        obtain ⟨rfl, rfl⟩ := Prod.mk.inj (Option.some.inj (ha.symm.trans ha'))
        rwa [htook]
    | lookup key =>
      obtain ⟨htells, hknown⟩ := l.lookup hmay hknown
      obtain ⟨hstores, htook⟩ := World.exec_lookup w actor ha
      refine ⟨hallows', ?_, hgrows ?_⟩
      · rw [World.accesses_exec, hstores]
        exact hknown
      · rintro store' a ha'
        obtain ⟨rfl, rfl⟩ := Prod.mk.inj (Option.some.inj (ha.symm.trans ha'))
        rwa [htook]

/-- A law is an invariant of all steps in flight. -/
def balance (l : StoreLaw) : Balance (Multiset Duty) where
  holds := l.Holds
  sound h s hs := (h.allows s hs).1
  later h _ := ⟨h.allows, h.known, h.told⟩
  note {rest w pool} h event he := by
    refine ⟨h.allows, h.known, List.forall_mem_cons.2 ⟨fun s took store a hevent => ?_, h.told⟩⟩
    obtain rfl : event = .performed s took := hevent
    cases he
  exec := Holds.exec
  frame h _ _ := ⟨h.allows, h.known, h.told⟩

/-- The steps that a task may bring along under a law. -/
def Admits (l : StoreLaw) (d : Duty) (steps : List Step) : Prop :=
  (∀ s ∈ steps, l.Allows s) ∧ l.brings d (Step.accesses steps)

def regime (l : StoreLaw) : Regime :=
  l.balance.regime l.Admits fun {d steps rest w pool} ha h => by
    refine ⟨fun s hs => (Multiset.mem_add.1 hs).elim (h.allows s) fun hs => ha.1 s hs, ?_, h.told⟩
    rw [Step.accesses_add]
    exact l.hand ha.2 h.known

/-! ### Stores that nobody works on -/

/-- There are no accesses, and something is known of the stores and of accesses that have been
made. -/
def still (tells : RowAccess → Bool → Prop) (q : Table Store → Prop) : StoreLaw where
  may _ _ := False
  tells
  known _ stores _ := q stores
  brings _ _ := True
  insert := False.elim
  lookup := False.elim
  hand _ h := h

variable {tells : RowAccess → Bool → Prop} {q q' : Table Store → Prop} {own : List Step}

/-- Under a still law no access is in flight. -/
theorem access?_of_still (h : (still tells q).regime.inv rest own w) :
    ∀ s ∈ w.inFlight, s.access? = none := by
  intro s hs
  cases ha : s.access? with
  | none => rfl
  | some access => exact ((h.allows s (Multiset.mem_add.2 (.inl hs))).2 access.1 access.2 ha).elim

/-- Where no thread works on the stores the coordinator can exchange them. -/
theorem still_restock (h : (still tells q).regime.inv rest own w) {stores : Table Store}
    (hq : q' stores) : (still tells q').regime.inv rest own { w with stores } :=
  ⟨h.allows, hq, h.told⟩

/-- Where no thread works on the stores, any law can begin that tells the same. -/
theorem inv_of_still (h : (still l.tells q).regime.inv rest [] w) {rest' : Multiset Duty}
    (hknown : l.known rest' w.stores 0) (hown : ∀ s ∈ own, s.isCrash = false ∧ s.access? = none) :
    l.regime.inv rest' own w := by
  have hnone : ∀ s ∈ w.inFlight + (own : Multiset Step), s.isCrash = false ∧ s.access? = none :=
    fun s hs => (Multiset.mem_add.1 hs).elim
      (fun hs => ⟨(still l.tells q).regime.calm h s hs, access?_of_still h s hs⟩) (hown s)
  refine ⟨fun s hs => ⟨(hnone s hs).1, fun store a ha => ?_⟩, ?_, h.told⟩
  · rw [(hnone s hs).2] at ha
    cases ha
  · rw [Step.accesses_eq_zero fun s hs => (hnone s hs).2]
    exact hknown

end StoreLaw

/-! ### Accesses before rows -/

/-- Every access is followed by a row. -/
def Line.followed (id : ContextId) : Line where
  holds steps := (∀ s ∈ steps, s.isCrash = false) ∧ Step.FollowedUp id (·.access?.isSome) steps
  nil := ⟨nofun, trivial⟩
  calm h := h.1
  append h hmore := ⟨fun s hs => (List.mem_append.1 hs).elim (h.1 s) (hmore.1 s),
    h.2.append hmore.2⟩
  exec {s rest} h w actor := by
    obtain ⟨hsound, hfollowed⟩ := h
    refine ⟨fun t ht => (List.mem_append.1 ht).elim (fun ht => ?_) fun ht =>
      hsound t (List.mem_cons_of_mem s ht), ?_⟩
    · exact World.exec_isCrash (by simpa using ht)
    · refine .append (.of_none fun t ht => ?_) hfollowed.2
      rw [World.access?_exec (by simpa using ht)]
      rfl

variable {id : ContextId} {w : World}

/-- Lines without accesses are in order. -/
theorem Line.followed_of_none {rest : Multiset Duty} {own : List Step}
    (hcalm : ∀ s ∈ w.inFlight, s.isCrash = false) (hnone : ∀ s ∈ w.inFlight, s.access? = none)
    (hown : ∀ s ∈ own, s.isCrash = false ∧ s.access? = none) :
    (followed id).regime.inv rest own w := by
  refine ⟨fun i => ⟨fun s hs => hcalm s (World.mem_inFlight.2 ⟨i, hs⟩),
    .of_none fun s hs => ?_⟩, fun s hs => (hown s hs).1, .of_none fun s hs => ?_⟩
  · rw [hnone s (World.mem_inFlight.2 ⟨i, hs⟩)]
    rfl
  · rw [(hown s hs).2]
    rfl

/-- Where no row is in flight any more, neither is an access. -/
theorem Line.access?_of_followed {rest : Multiset Duty} {own : List Step}
    (h : (followed id).regime.inv rest own w) (hunits : Step.tally id units w.inFlight = 0) :
    ∀ s ∈ w.inFlight, s.access? = none := by
  intro s hs
  obtain ⟨i, hi⟩ := World.mem_inFlight.1 hs
  have hcounts : ∀ t ∈ w.remaining i, t.counts id = false := fun t ht =>
    Step.counts_of_tally hunits (World.mem_inFlight.2 ⟨i, ht⟩)
  simpa using (h.1 i).2.eq_false hcounts s hi

/-- When the countdown is quiet again the stores are still, with what the law says of them when
nothing is due. -/
theorem StoreLaw.still_of_quiet {l : StoreLaw} {q : Table Store → Prop}
    (hl : l.regime.inv 0 [] w) (hfollowed : (Line.followed id).regime.inv 0 [] w)
    (hunits : Step.tally id units w.inFlight = 0)
    (hq : l.known 0 w.stores 0 → q w.stores) : (still l.tells q).regime.inv 0 [] w := by
  have hnone : ∀ s ∈ w.inFlight + (([] : List Step) : Multiset Step), s.access? = none :=
    fun s hs => Line.access?_of_followed hfollowed hunits s (by simpa using hs)
  refine ⟨fun s hs => ⟨(hl.allows s hs).1, fun store a ha => ?_⟩, ?_, hl.told⟩
  · rw [hnone s hs] at ha
    cases ha
  · have hknown := hl.known
    rw [Step.accesses_eq_zero hnone] at hknown
    exact hq hknown

end BenchLoop
