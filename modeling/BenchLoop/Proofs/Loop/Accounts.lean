/-
BenchLoop/Proofs/Loop/Accounts.lean

Rounds for benchmarks whose tasks only ever act for themselves.  An iteration is regular
if its tasks notify exactly its rows.  Then its books are kept from the reset on, and
every row that is subtracted is subtracted by one of its own tasks: when it begins no
earlier task can subtract anything any more (`Ledger.crew_of_armed`).

`Rounds.accounted` has this for any benchmark whose conduct is `Orderly`.
-/
import BenchLoop.Proofs.Completion.Rearming
import BenchLoop.Proofs.Loop.Rounds
import BenchLoop.Proofs.Rows.Shares

namespace BenchLoop

open CountdownAction

variable {id : ContextId}

/-! ### Rows are subtracted by the tasks of the iteration -/

/-- If the step subtracts rows it does so for one of some tasks. -/
def Step.Serves (id : ContextId) (member : TaskId → Prop) (s : Step) : Prop :=
  ∀ a, s.on? id = some a → 0 < a.units → ∃ t, s.task = some t ∧ member t

/-- If the entry says that rows were subtracted it was for one of some tasks. -/
def Entry.Serves (id : ContextId) (member : TaskId → Prop) (e : Entry) : Prop :=
  ∀ s took, e.event = .performed s took → s.Serves id member

/-- Whatever a step leads to subtracts nothing. -/
theorem World.serves_exec {w : World} {actor : Actor} {s t : Step} {member : TaskId → Prop}
    (h : t ∈ (w.exec actor s).1) : t.Serves id member := by
  intro a ha hpos
  obtain ⟨a', -, hnext⟩ := exec_next_on h ha
  rw [Countdown.units_next hnext] at hpos
  exact absurd hpos (Nat.lt_irrefl 0)

/-- Only some tasks subtract rows, now and since the last reset. -/
def Ledger.crew (id : ContextId) (member : TaskId → Prop) : Ledger id where
  holds _ _ journal _ pool := (∀ s ∈ pool, s.isCrash = false ∧ s.Serves id member) ∧
    ∀ e ∈ Entry.sinceReset id journal, e.Serves id member
  admits steps := ∀ s ∈ steps, s.isCrash = false ∧ s.Serves id member
  sound h s hs := (h.1 s hs).1
  later h _ := h
  note {rest c journal now pool e} h hstep := by
    refine ⟨h.1, ?_⟩
    rw [Entry.sinceReset_cons (Entry.isReset_of_off (Entry.on?_of_isStep hstep))]
    rintro e' (_ | ⟨_, he'⟩)
    · intro s took hevent
      simp [hevent, Event.isStep] at hstep
    · exact h.2 e' he'
  exec {rest actor s pool w} h := by
    obtain ⟨hpool, hentries⟩ := h
    refine ⟨fun t ht => (Multiset.mem_add.1 ht).elim (fun ht => ?_) fun ht =>
      hpool t (Multiset.mem_cons_of_mem ht), ?_⟩
    · have ht : t ∈ (w.exec actor s).1 := by simpa using ht
      exact ⟨World.exec_isCrash ht, World.serves_exec ht⟩
    · obtain ⟨e, hjournal, -, he⟩ := w.exec_journal actor s
      have he : e.Serves id member := by
        intro s' took hevent
        obtain ⟨rfl, -⟩ := he s' took hevent
        exact (hpool s' (Multiset.mem_cons_self s' pool)).2
      rw [hjournal]
      cases hreset : e.isReset id with
      | true =>
        rw [Entry.sinceReset_of_isReset hreset]
        exact nofun
      | false =>
        rw [Entry.sinceReset_cons hreset]
        exact List.forall_mem_cons.2 ⟨he, hentries⟩
  hand ha h := ⟨fun s hs => (Multiset.mem_add.1 hs).elim (h.1 s) fun hs =>
    ha s (by simpa using hs), h.2⟩

/-- When an iteration of `rows` rows begins nobody has subtracted any yet, nor will anyone who
is in flight already. -/
theorem Ledger.crew_of_engaged {rows n : Nat} {w : World} (member : TaskId → Prop)
    (h : (engaged id rows rows n).inv rows [] w) : (crew id member).inv rows [] w := by
  have hflow := h.1
  have hbalance := hflow.balance
  refine ⟨fun s hs => ⟨Step.isCrash_of_isWork (hflow.work s hs), fun a ha hpos => ?_⟩,
    fun e he s took hevent a ha hpos => ?_⟩
  · have := Step.eq_zero_of_tally_eq_zero id units (by omega) hs ha
    omega
  · have hon : e.on? id = some (a, took) := by simp [Entry.on?, hevent, ha]
    have := Entry.eq_zero_of_tally_eq_zero id spent (by omega) he hon
    simp only [spent] at this
    omega

/-! ### The rounds -/

namespace Context

variable {ctx : Context} {id : TaskId}

theorem isOpening_markStarted : (ctx.markStarted id).isOpening ctx.id = true := by
  simp [markStarted, count, Step.isOpening, Step.isWork, Step.isCrash, Step.on?_count, isWork, leg?]

theorem isOpening_notify {rows : UInt32} : (ctx.notify id rows).isOpening ctx.id = true := by
  simp [notify, count, Step.isOpening, Step.isWork, Step.isCrash, Step.on?_count, isWork, leg?]

end Context

/-- Tasks act for themselves only, notify the rows that they are to, and begin no notification
that is under way already. -/
structure Conduct.Orderly {σ : Type} (m : Conduct) (b : Benchmark σ) (ctx : Context) : Prop where
  tally (k : Nat) : ∀ d ∈ b.duties ctx.config k, ∀ steps, m.line d steps →
    Step.tally ctx.id units steps = m.notified d
  opening (k : Nat) : ∀ d ∈ b.duties ctx.config k, ∀ steps, m.line d steps →
    ∀ s ∈ steps, s.isOpening ctx.id
  own (k : Nat) : ∀ d ∈ b.duties ctx.config k, ∀ steps, m.line d steps →
    ∀ s ∈ steps, s.task = some d.2

/-- The tasks of iteration number `k`. -/
def Config.isTaskOf (c : Config) (k t : Nat) : Prop :=
  k * c.threads.toNat ≤ t ∧ t < (k + 1) * c.threads.toNat

theorem Benchmark.isTaskOf_of_mem {σ : Type} {b : Benchmark σ} {c : Config} {k : Nat} {d : Duty}
    (h : d ∈ b.duties c k) : c.isTaskOf k d.2 := by
  have hle := List.le_snd_of_mem_zipIdx h
  have hlt := List.snd_lt_add_of_mem_zipIdx h
  rw [length_taskRanges] at hlt
  exact ⟨hle, by rwa [Nat.succ_mul]⟩

/-- The ranges of the tasks of an iteration add up to its rows. -/
theorem Benchmark.sum_rowCount_duties {σ : Type} (b : Benchmark σ) {c : Config}
    (hthreads : 0 < c.threads.toNat) (k : Nat) :
    ((b.duties c k).map fun d => d.1.rowCount).sum = c.rows.toNat := by
  calc ((b.duties c k).map fun d => d.1.rowCount).sum
      = (((b.duties c k).map Prod.fst).map RowRange.rowCount).sum := by
        rw [List.map_map]
        rfl
    _ = c.rows.toNat := by
        rw [duties, dutiesFrom, List.zipIdx_map_fst, sum_rowCount hthreads]

section Accounted

variable {σ : Type} (b : Benchmark σ) {m : Conduct} {ctx : Context}

/-- Before anything has been handed out, the rows of all duties are left. -/
theorem Conduct.inv_regime (m : Conduct) (l : Ledger id) {duties : List Duty} {own : List Step}
    {w : World} : (l.regime m.notified).inv duties own w ↔ l.inv (m.rows duties) own w := by
  rw [← m.sum_notified]
  rfl

/-- What holds during an iteration whose tasks notify its rows, and what holds during any
other. -/
def Conduct.busy (m : Conduct) (b : Benchmark σ) (ctx : Context) (k : Nat) : Regime :=
  if m.rows (b.duties ctx.config k) = ctx.config.rows.toNat then
    ((Ledger.engaged ctx.id ctx.config.rows.toNat ctx.config.rows.toNat (k + 1)).regime
      m.notified).both ((Ledger.crew ctx.id (ctx.config.isTaskOf k)).regime m.notified)
  else (Ledger.calm ctx.id).regime m.notified

/-- The rounds of a benchmark with orderly tasks. -/
def Rounds.accounted (hm : m.Orderly b ctx) (hmax : ctx.config.rows.toNat ≤ 2 ^ 32 - 1) :
    Rounds b m ctx where
  regular k := m.rows (b.duties ctx.config k) = ctx.config.rows.toNat
  idle k := (Ledger.quiet ctx.id k).regime m.notified
  busy k := m.busy b ctx k
  arm k := by
    unfold Conduct.busy
    split
    · next hrows =>
      refine (ctx.ends_reset k hmax).post fun _ w _ h => ⟨?_, ?_⟩
      · rw [m.inv_regime, hrows]
        exact h
      · rw [m.inv_regime, hrows]
        exact Ledger.crew_of_engaged _ h
    · refine ((Ledger.calm ctx.id).ends_perform 0 _).pre fun w _ h s hs => ?_
      exact (Multiset.mem_add.1 hs).elim (((Ledger.quiet ctx.id k).regime m.notified).calm h s)
        Context.isCrash_of_mem_reset
  admits k d hd _ steps hline := by
    have htally := hm.tally k d hd steps hline
    have hopening := hm.opening k d hd steps hline
    have hown := hm.own k d hd steps hline
    unfold Conduct.busy
    split
    · refine ⟨⟨hopening, htally⟩, fun s hs => ⟨?_, fun _ _ _ => ⟨d.2, hown s hs, ?_⟩⟩, htally⟩
      · exact Step.isCrash_of_isWork (Step.isWork_of_isOpening (hopening s hs))
      · exact Benchmark.isTaskOf_of_mem hd
    · exact ⟨fun s hs => Step.isCrash_of_isWork (Step.isWork_of_isOpening (hopening s hs)), htally⟩
  current {k rest own w} hk h := by
    rw [Conduct.busy, if_pos hk] at h
    exact h.1.2
  opens {k w} hk h hidle := by
    rw [Conduct.busy, if_pos hk] at h
    exact Ledger.isComplete_of_idle h.1 hidle
  closes {k w} hk h hc := by
    rw [Conduct.busy, if_pos hk] at h
    exact Ledger.quiet_of_released h.1 hc

end Accounted

end BenchLoop
