/-
BenchLoop/Proofs/CommandLine/Rivals.lean

Options that exclude each other.  Whatever is read, an option that has been settled stays settled
(`ParseState.Sees`), and a word that names a flag settles it if it is accepted at all.  So at the
end of a command line that names two rivals both of them have been seen, and no arguments come of
it (`Arguments.parse_ne_ok_of_rivals`), whatever else is in it and in whatever order.
-/
import BenchLoop.Proofs.CommandLine.Words

namespace BenchLoop

namespace ParseState

variable {s t : ParseState} {o other : CommandOption} {word value : String}

/-! ### Options that have been seen -/

/-- If nothing has been refused, the option has been settled. -/
def Sees (o : CommandOption) (result : Except ParseStop ParseState) : Prop :=
  ∀ t, result = .ok t → o ∈ t.seen

theorem sees_ok (h : o ∈ s.seen) : Sees o (.ok s) := by
  rintro t ⟨⟩
  exact h

theorem sees_error (stop : ParseStop) : Sees o (.error stop) := by
  rintro t ⟨⟩

theorem Sees.bind {result : Except ParseStop ParseState}
    {next : ParseState → Except ParseStop ParseState} (h : Sees o result)
    (hnext : ∀ s, o ∈ s.seen → Sees o (next s)) : Sees o (result >>= next) := by
  cases result with
  | error stop => exact sees_error stop
  | ok s => exact hnext s (h s rfl)

theorem sees_settle {named : CommandOption} {value? : Option String}
    (h : o ∈ s.seen ++ [named]) : Sees o (s.settle named value?) := by
  unfold settle
  split
  · exact sees_error _
  · split
    · exact sees_ok h
    · split
      · exact sees_ok h
      · exact sees_error _

theorem sees_settle_of_mem (named : CommandOption) (value? : Option String) (h : o ∈ s.seen) :
    Sees o (s.settle named value?) :=
  sees_settle (List.mem_append_left _ h)

theorem sees_resolve (h : o ∈ s.seen) : Sees o s.resolve := by
  unfold resolve
  split
  · exact sees_ok h
  · exact sees_error _
  · exact sees_settle_of_mem _ _ h

theorem sees_giveValue (named : CommandOption) (value : String) (h : o ∈ s.seen) :
    Sees o (s.giveValue named value) :=
  (sees_resolve h).bind fun _ => sees_settle_of_mem named (some value)

theorem sees_awaitValue (named : CommandOption) (h : o ∈ s.seen) : Sees o (s.awaitValue named) :=
  (sees_resolve h).bind fun _ ht => sees_ok ht

theorem sees_raise (named : CommandOption) (page : HelpPage) (h : o ∈ s.seen) :
    Sees o (s.raise named page) := by
  refine (sees_resolve h).bind fun t ht => ?_
  split
  · exact sees_error _
  · exact sees_error _
  · exact sees_settle_of_mem _ _ ht

theorem sees_readLong (cs : List Char) (h : o ∈ s.seen) : Sees o (s.readLong cs) := by
  unfold readLong
  dsimp only
  split
  · exact sees_error _
  · split
    · exact sees_giveValue _ _ h
    · exact sees_error _
  · split
    · exact sees_awaitValue _ h
    · exact sees_raise _ _ h

theorem sees_readShort (cs : List Char) (h : o ∈ s.seen) : Sees o (s.readShort cs) := by
  induction cs generalizing s with
  | nil => exact sees_ok h
  | cons c cs ih =>
    unfold readShort
    split
    · exact sees_error _
    · split
      · split
        · exact sees_awaitValue _ h
        · exact sees_giveValue _ _ h
        · exact sees_giveValue _ _ h
      · exact (sees_raise _ _ h).bind fun _ => ih

theorem sees_readOperand (word : String) (h : o ∈ s.seen) : Sees o (s.readOperand word) := by
  unfold readOperand
  split
  · exact sees_ok h
  · exact sees_error _

/-- What has been seen stays seen. -/
theorem sees_read (word : String) (h : o ∈ s.seen) : Sees o (s.read word) := by
  unfold read
  split
  · exact sees_readOperand word h
  · split
    · exact sees_ok h
    · exact sees_readLong _ h
    · exact sees_readShort _ h
    · exact sees_readOperand word h

/-- A word that names a flag is refused, or the flag is seen. -/
theorem sees_read_flag (s : ParseState) {x : Setting} (hx : x.value? = none)
    (form : SpellingForm) : Sees x.option (s.read (x.dashedName form)) := by
  cases hs : s.operandsOnly with
  | true =>
    -- behind a word of two dashes no word is an option, and none is accepted
    have hrefused : s.read (x.dashedName form) = refuse (.unexpectedWord (x.dashedName form)) := by
      simp [read, readOperand, hs]
    exact hrefused ▸ sees_error _
  | false =>
    rw [read_dashedName hs, x.takesValue_option, hx]
    cases hresolve : s.resolve with
    | error stop => exact sees_error stop
    | ok t =>
      show Sees x.option (t.settle x.option none)
      exact sees_settle List.mem_concat_self

theorem sees_foldlM_of_mem (words : List String) (h : o ∈ s.seen) :
    Sees o (words.foldlM read s) := by
  induction words generalizing s with
  | nil => exact sees_ok h
  | cons word words ih => exact (sees_read word h).bind fun _ => ih

/-- However the words around it are. -/
theorem sees_foldlM (s : ParseState) {x : Setting} (hx : x.value? = none) {form : SpellingForm}
    {words : List String} (h : x.dashedName form ∈ words) :
    Sees x.option (words.foldlM read s) := by
  induction words generalizing s with
  | nil => cases h
  | cons word words ih =>
    rcases List.mem_cons.1 h with rfl | h
    · exact (sees_read_flag s hx form).bind fun _ => sees_foldlM_of_mem words
    · rw [List.foldlM_cons]
      cases s.read word with
      | error stop => exact sees_error stop
      | ok t => exact ih t h

/-! ### Rivals -/

theorem rivals?_eq_none_iff :
    s.rivals? = none ↔ ∀ o ∈ s.seen, ∀ other, o.rival? = some other → other ∉ s.seen := by
  simp only [rivals?, List.findSome?_eq_none_iff, Option.bind_eq_none_iff, ite_eq_right_iff,
    reduceCtorEq, imp_false]

theorem finish_of_none (hs : s.pending = .none) (hrivals : s.rivals? = none) :
    s.finish = .ok s.arguments := by
  simp only [finish, resolve_of_none hs, bind, Except.bind, hrivals]
  rfl

/-- At the end rivals that have both been seen are refused. -/
theorem finish_of_rivals (hs : s.pending = .none) (hrival : o.rival? = some other)
    (ho : o ∈ s.seen) (hother : other ∈ s.seen) : ∃ r, s.finish = .error (.refuse r) := by
  have hrivals : s.rivals? ≠ none := fun h => rivals?_eq_none_iff.1 h o ho other hrival hother
  obtain ⟨⟨first, second⟩, hrivals⟩ := Option.ne_none_iff_exists'.1 hrivals
  refine ⟨.rivals first second, ?_⟩
  simp only [finish, resolve_of_none hs, bind, Except.bind, hrivals]
  rfl

end ParseState

/-- A command line that names two rivals, each as a word of its own, is not accepted, whatever the
other words are. -/
theorem Arguments.parse_ne_ok_of_rivals {x y : Setting} (form form' : SpellingForm)
    (hx : x.value? = none) (hy : y.value? = none) (hrival : x.option.rival? = some y.option)
    {words : List String} (hxwords : x.dashedName form ∈ words)
    (hywords : y.dashedName form' ∈ words) (a : Arguments) : parse words ≠ .ok a := by
  intro hparse
  unfold parse at hparse
  cases hread : words.foldlM ParseState.read {} with
  | error stop =>
    rw [hread] at hparse
    cases hparse
  | ok s =>
    have hxs := ParseState.sees_foldlM {} hx hxwords s hread
    have hys := ParseState.sees_foldlM {} hy hywords s hread
    rw [hread] at hparse
    replace hparse : s.finish = .ok a := hparse
    -- an option may still wait for its value, so the options are counted once that is settled
    rw [← s.resolve_bind_finish] at hparse
    cases hresolve : s.resolve with
    | error stop =>
      rw [hresolve] at hparse
      cases hparse
    | ok t =>
      obtain ⟨r, hrefuse⟩ := ParseState.finish_of_rivals (ParseState.eq_of_resolve hresolve).1
        hrival (ParseState.sees_resolve hxs t hresolve) (ParseState.sees_resolve hys t hresolve)
      rw [hresolve] at hparse
      cases hrefuse.symm.trans hparse

end BenchLoop
