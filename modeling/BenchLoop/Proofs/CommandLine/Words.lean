/-
BenchLoop/Proofs/CommandLine/Words.lean

What reading the words of a setting comes to.

An option whose value is the next word is settled only behind that word, so between two words the
reader has not settled everything that it has read.  Therefore readers are compared once they have
settled what is pending (`ParseState.resolve`): in every spelling, reading the words of a setting
and resolving is the same as resolving and then settling the option with its value
(`ParseState.read_words_resolve`), also where something is refused on the way.

So a command line that spells a list of settings is read like the list itself
(`Arguments.parse_spelled`).
-/
import Mathlib.Data.List.Nodup
import Mathlib.Data.List.TakeDrop
import Mathlib.Data.List.TakeWhile
import BenchLoop.Proofs.CommandLine.Values

namespace BenchLoop

/-! ### Names -/

namespace CommandOption

theorem ofLong?_long (o : CommandOption) : ofLong? o.spec.long = some o := by
  cases o <;> decide

theorem ofShort?_of_short {o : CommandOption} {c : Char} (h : o.spec.short? = some c) :
    ofShort? c = some o := by
  cases o <;> first | (obtain rfl := Option.some.inj h; decide) | cases h

theorem short_ne_dash {o : CommandOption} {c : Char} (h : o.spec.short? = some c) : c ≠ '-' := by
  cases o <;> first | (obtain rfl := Option.some.inj h; decide) | cases h

/-- A long name is not empty, and there is no equals sign in it. -/
theorem long_plain (o : CommandOption) : o.spec.long.toList ≠ [] ∧ '=' ∉ o.spec.long.toList := by
  cases o <;> decide

end CommandOption

namespace Setting

/-- An option takes a value exactly if its settings have one. -/
theorem takesValue_option (x : Setting) : x.option.takesValue = x.value?.isSome := by
  cases x <;> rfl

/-- The name of an option is its long one behind two dashes or its short one behind one. -/
theorem toList_dashedName (x : Setting) (form : SpellingForm) :
    (x.dashedName form).toList = '-' :: '-' :: x.option.spec.long.toList ∨
      ∃ c, x.option.spec.short? = some c ∧ (x.dashedName form).toList = ['-', c] := by
  unfold dashedName
  split
  · next c _ hshort => exact .inr ⟨c, hshort, by simp⟩
  · exact .inl (by simp)

end Setting

namespace ParseState

variable {s t : ParseState} {o : CommandOption} {word value : String} {cs : List Char} {c : Char}

/-! ### Settling -/

/-- After settling nothing is pending. -/
theorem eq_of_settle {value? : Option String} (h : s.settle o value? = .ok t) :
    t.pending = .none ∧ t.operandsOnly = s.operandsOnly := by
  unfold settle at h
  split at h
  · cases h
  · split at h
    · cases h
      exact ⟨rfl, rfl⟩
    · split at h <;> cases h
      exact ⟨rfl, rfl⟩

theorem eq_of_resolve (h : s.resolve = .ok t) :
    t.pending = .none ∧ t.operandsOnly = s.operandsOnly := by
  unfold resolve at h
  split at h
  · next hnone => cases h; exact ⟨hnone, rfl⟩
  · cases h
  · exact eq_of_settle h

theorem resolve_of_none (h : s.pending = .none) : s.resolve = .ok s := by
  simp only [resolve, h]

theorem settle_bind_resolve (s : ParseState) (o : CommandOption) (value? : Option String) :
    s.settle o value? >>= resolve = s.settle o value? := by
  cases h : s.settle o value? with
  | error stop => rfl
  | ok t => exact resolve_of_none (eq_of_settle h).1

theorem resolve_bind_resolve (s : ParseState) : s.resolve >>= resolve = s.resolve := by
  cases h : s.resolve with
  | error stop => rfl
  | ok t => exact resolve_of_none (eq_of_resolve h).1

theorem resolve_bind_finish (s : ParseState) : s.resolve >>= finish = s.finish := by
  conv_rhs => rw [finish, ← resolve_bind_resolve, bind_assoc]
  rfl

/-! ### Kinds of words -/

theorem read_long (hs : s.operandsOnly = false) (hword : word.toList = '-' :: '-' :: cs)
    (hcs : cs ≠ []) : s.read word = s.readLong cs := by
  obtain ⟨d, ds, rfl⟩ := List.exists_cons_of_ne_nil hcs
  simp [read, hs, hword]

theorem read_short (hs : s.operandsOnly = false) (hword : word.toList = '-' :: c :: cs)
    (hc : c ≠ '-') : s.read word = s.readShort (c :: cs) := by
  simp [read, hs, hword, hc]

theorem read_operand (hs : s.operandsOnly = false) (hword : word.toList.head? ≠ some '-') :
    s.read word = s.readOperand word := by
  unfold read
  rw [if_neg (by simp [hs])]
  split
  · next h => simp [h] at hword
  · next h => simp [h] at hword
  · next h => simp [h] at hword
  · rfl

theorem splitValue_of_notMem (h : '=' ∉ cs) : splitValue cs = (String.ofList cs, none) := by
  have hname : ∀ c ∈ cs, (c != '=') = true := fun c hc => bne_iff_ne.2 (ne_of_mem_of_not_mem hc h)
  rw [splitValue, List.span_eq_takeWhile_dropWhile, List.takeWhile_eq_self_iff.2 hname,
    List.dropWhile_eq_nil_iff.2 hname]
  rfl

theorem splitValue_append (h : '=' ∉ cs) (rest : List Char) :
    splitValue (cs ++ '=' :: rest) = (String.ofList cs, some (String.ofList rest)) := by
  have hname : ∀ c ∈ cs, (c != '=') = true := fun c hc => bne_iff_ne.2 (ne_of_mem_of_not_mem hc h)
  rw [splitValue, List.span_eq_takeWhile_dropWhile, List.takeWhile_append_of_pos hname,
    List.dropWhile_append_of_pos hname]
  simp

/-! ### The words of a setting -/

variable {x : Setting} {form : SpellingForm}

/-- The name of an option: its value is still to come, or it is a flag. -/
theorem read_dashedName (hs : s.operandsOnly = false) (x : Setting) (form : SpellingForm) :
    s.read (x.dashedName form) = if x.option.takesValue then s.awaitValue x.option
      else s.resolve >>= (·.settle x.option none) := by
  -- no setting asks for help or for the version
  have hraise (page : HelpPage) :
      s.raise x.option page = s.resolve >>= (·.settle x.option none) := by
    cases x <;> rfl
  obtain ⟨hnonempty, hplain⟩ := x.option.long_plain
  rcases x.toList_dashedName form with hlong | ⟨c, hshort, hword⟩
  · simp only [read_long hs hlong hnonempty, readLong, splitValue_of_notMem hplain,
      String.ofList_toList, CommandOption.ofLong?_long, hraise]
  · have hrest (t : Except ParseStop ParseState) : (do readShort (← t) []) = t := bind_pure t
    simp only [read_short hs hword (CommandOption.short_ne_dash hshort), readShort.eq_2,
      CommandOption.ofShort?_of_short hshort, hraise, hrest]

/-- The name of an option and behind an equals sign its value. -/
theorem read_joined (hs : s.operandsOnly = false) (hx : x.option.takesValue = true)
    (form : SpellingForm) (value : String) :
    s.read (.join [x.dashedName form, "=", value]) = s.giveValue x.option value := by
  have hjoin : (String.join [x.dashedName form, "=", value]).toList
      = (x.dashedName form).toList ++ '=' :: value.toList := by
    simp
  obtain ⟨-, hplain⟩ := x.option.long_plain
  rcases x.toList_dashedName form with hlong | ⟨c, hshort, hword⟩
  · rw [hlong, List.cons_append, List.cons_append] at hjoin
    simp only [read_long hs hjoin (List.append_ne_nil_of_right_ne_nil _ (List.cons_ne_nil _ _)),
      readLong, splitValue_append hplain, String.ofList_toList, CommandOption.ofLong?_long, hx,
      if_true]
  · rw [hword, List.cons_append, List.cons_append, List.nil_append] at hjoin
    simp only [read_short hs hjoin (CommandOption.short_ne_dash hshort), readShort,
      CommandOption.ofShort?_of_short hshort, hx, if_true, String.ofList_toList]

/-- The value that is awaited. -/
theorem read_value (hs : s.operandsOnly = false) (hx : x.value? = some value) :
    read { s with pending := .awaiting x.option } value
      = .ok { s with pending := .holding x.option value } := by
  refine (read_operand (s := { s with pending := .awaiting x.option }) hs
    (Setting.head?_value hx)).trans ?_
  simp only [readOperand, hs]

/-- The words of a setting settle its option, or they leave it pending with its value. -/
theorem read_words (hs : s.operandsOnly = false) (x : Setting) (form : SpellingForm) :
    (x.words form).foldlM read s = s.resolve >>= (·.settle x.option x.value?) ∨
      ∃ value, x.value? = some value ∧ (x.words form).foldlM read s
        = s.resolve >>= fun t => .ok { t with pending := .holding x.option value } := by
  have htakes := x.takesValue_option
  unfold Setting.words
  cases hx : x.value? with
  | none =>
    rw [hx, Option.isSome_none] at htakes
    left
    simp only [List.foldlM_cons, List.foldlM_nil, bind_pure, read_dashedName hs, htakes,
      Bool.false_eq_true, if_false]
  | some value =>
    rw [hx, Option.isSome_some] at htakes
    cases form.joined with
    | true =>
      left
      simp only [if_true, List.foldlM_cons, List.foldlM_nil, bind_pure, read_joined hs htakes,
        giveValue]
    | false =>
      -- the value is the next word, and is settled only when something comes behind it
      refine .inr ⟨value, rfl, ?_⟩
      simp only [Bool.false_eq_true, if_false, List.foldlM_cons, List.foldlM_nil, bind_pure,
        read_dashedName hs, htakes, if_true, awaitValue, bind_assoc, pure_bind]
      cases hresolve : s.resolve with
      | error stop => rfl
      | ok t => exact read_value ((eq_of_resolve hresolve).2.trans hs) hx

/-- In every spelling, resolved. -/
theorem read_words_resolve (hs : s.operandsOnly = false) (x : Setting) (form : SpellingForm) :
    (x.words form).foldlM read s >>= resolve = s.resolve >>= (·.settle x.option x.value?) := by
  rcases read_words hs x form with hread | ⟨value, hx, hread⟩
  · rw [hread, bind_assoc]
    simp only [settle_bind_resolve]
  · rw [hread, bind_assoc, hx]
    rfl

/-- Behind the words of a setting there may be options still. -/
theorem operandsOnly_of_words (hs : s.operandsOnly = false)
    (h : (x.words form).foldlM read s = .ok t) : t.operandsOnly = false := by
  cases hresolve : s.resolve with
  | error stop =>
    rcases read_words hs x form with hread | ⟨value, -, hread⟩ <;>
      rw [hread, hresolve] at h <;> cases h
  | ok s' =>
    have hs' := (eq_of_resolve hresolve).2.trans hs
    rcases read_words hs x form with hread | ⟨value, -, hread⟩ <;> rw [hread, hresolve] at h
    · exact (eq_of_settle h).2.trans hs'
    · cases h
      exact hs'

end ParseState

/-! ### Lists of settings -/

/-- The words of some settings, each in a spelling of its own. -/
def Arguments.commandLine (spelled : List (Setting × SpellingForm)) : List String :=
  spelled.flatMap fun p => p.1.words p.2

namespace ParseState

variable {s : ParseState} {x : Setting}

/-- Settles the option of a setting. -/
def settleSetting (s : ParseState) (x : Setting) : Except ParseStop ParseState :=
  s.settle x.option x.value?

theorem settleSetting_of_mem (h : x.option ∈ s.seen) :
    s.settleSetting x = refuse (.repeated x.option) := by
  rw [settleSetting, settle, if_pos h]

/-- An option that is not yet settled has the value of its setting then. -/
theorem settleSetting_of_notMem (h : x.option ∉ s.seen) :
    s.settleSetting x = .ok { s with arguments := x.apply s.arguments
                                     seen := s.seen ++ [x.option]
                                     pending := .none } := by
  rw [settleSetting, settle, if_neg h]
  cases hx : x.value? with
  | none => simp only [s.arguments.raise_apply hx]
  | some value => simp only [s.arguments.assign_apply hx]

/-- All settings give their values, unless an option is named twice. -/
theorem foldlM_settleSetting (settings : List Setting) (hs : s.pending = .none) :
    (∃ t, settings.foldlM settleSetting s = .ok t ∧ t.pending = .none ∧
        t.arguments = settings.foldl Setting.apply s.arguments ∧
        t.seen = s.seen ++ settings.map Setting.option) ∨
      ¬ (s.seen ++ settings.map Setting.option).Nodup ∧
        ∃ r, settings.foldlM settleSetting s = .error (.refuse r) := by
  induction settings generalizing s with
  | nil => exact .inl ⟨s, rfl, hs, rfl, (List.append_nil _).symm⟩
  | cons x settings ih =>
    rw [List.foldlM_cons]
    -- an option that was seen before is refused here, and all others go on
    by_cases hx : x.option ∈ s.seen
    · refine .inr ⟨fun hnodup => ?_, .repeated x.option, ?_⟩
      · exact List.disjoint_of_nodup_append hnodup hx List.mem_cons_self
      · rw [settleSetting_of_mem hx]
        rfl
    · have hrest := ih (s := { s with arguments := x.apply s.arguments
                                      seen := s.seen ++ [x.option]
                                      pending := .none }) rfl
      simp only [List.append_assoc, List.singleton_append] at hrest
      rw [settleSetting_of_notMem hx]
      exact hrest

/-- Reading the words of all settings comes to settling one after the other. -/
theorem read_spelled (hs : s.operandsOnly = false) (spelled : List (Setting × SpellingForm)) :
    (Arguments.commandLine spelled).foldlM read s >>= resolve
      = s.resolve >>= (spelled.map Prod.fst).foldlM settleSetting := by
  induction spelled generalizing s with
  | nil => exact (bind_pure _).symm
  | cons p spelled ih =>
    calc
      (Arguments.commandLine (p :: spelled)).foldlM read s >>= resolve
          = (p.1.words p.2).foldlM read s >>= fun t =>
              (Arguments.commandLine spelled).foldlM read t >>= resolve := by
        rw [Arguments.commandLine, List.flatMap_cons, List.foldlM_append, bind_assoc]
        rfl
      _ = (p.1.words p.2).foldlM read s >>= fun t =>
            t.resolve >>= (spelled.map Prod.fst).foldlM settleSetting := by
        -- the rest is read from any state in which there may be options still
        cases hread : (p.1.words p.2).foldlM read s with
        | error stop => rfl
        | ok t => exact ih (operandsOnly_of_words hs hread)
      _ = s.resolve >>= ((p :: spelled).map Prod.fst).foldlM settleSetting := by
        rw [← bind_assoc, read_words_resolve hs, bind_assoc]
        rfl

end ParseState

/-- A command line that spells some settings is read by settling them in their order. -/
theorem Arguments.parse_spelled (spelled : List (Setting × SpellingForm)) :
    parse (commandLine spelled)
      = (spelled.map Prod.fst).foldlM ParseState.settleSetting {} >>= ParseState.finish := by
  rw [parse]
  conv_lhs =>
    enter [2, s]
    rw [← s.resolve_bind_finish]
  rw [← bind_assoc, ParseState.read_spelled rfl]
  rfl

end BenchLoop
