/-
BenchLoop/Proofs/CommandLine/RoundTrip.lean

From values to a command line and back.

The values of the options are seen here as settings, one for each option (`Arguments.setting?`).
Some settings say what the values are if they name every option at most once, each with its value,
and the options that they do not name have their defaults (`Arguments.Says`).  Only one assignment
of values is said by given settings, and it is what the words of the settings are read as, in any
order and any spelling (`Arguments.parse_any_spelling`).
-/
import Mathlib.Data.List.Nodup
import BenchLoop.Proofs.CommandLine.Rivals

namespace BenchLoop

namespace Arguments

/-! ### Values as settings -/

/-- What is given to an option: its value, or the flag if it is raised. -/
def setting? (a : Arguments) : CommandOption → Option Setting
  | .target => some (.target a.target)
  | .poolSize => some (.poolSize a.poolSize)
  | .loops => some (.loops a.loops)
  | .rows => some (.rows a.rows)
  | .threads => some (.threads a.threads)
  | .seed => some (.seed a.seed)
  | .outputFormat => some (.outputFormat a.format)
  | .random => if a.random then some .random else none
  | .serial => if a.serial then some .serial else none
  | .write => if a.write then some .write else none
  | .read => if a.read then some .read else none
  | .progress => if a.progress then some .progress else none
  | .quiet => if a.quiet then some .quiet else none
  | .verbose => if a.verbose then some .verbose else none
  | .help | .version => none

/-- The settings name no option twice, the options that they name have the values that they give,
and the other options have their defaults. -/
structure Says (a : Arguments) (settings : List Setting) : Prop where
  once : (settings.map Setting.option).Nodup
  given : ∀ x ∈ settings, a.setting? x.option = some x
  default : ∀ o ∉ settings.map Setting.option, a.setting? o = ({} : Arguments).setting? o

variable {a b : Arguments} {x : Setting} {o : CommandOption} {settings : List Setting}

theorem option_of_setting? (h : a.setting? o = some x) : x.option = o := by
  cases o <;> simp only [setting?, Option.some.injEq, Option.ite_none_right_eq_some] at h <;>
    first | (subst h; rfl) | (obtain ⟨-, rfl⟩ := h; rfl) | cases h

/-- Where nothing is given, nothing is given by default. -/
theorem setting?_default_of_none (h : a.setting? o = none) :
    ({} : Arguments).setting? o = none := by
  cases o <;> first | rfl | cases h

/-- Values of all options that look alike are the same. -/
theorem ext_setting? (h : ∀ o, a.setting? o = b.setting? o) : a = b := by
  have hflag {p q : Bool} {x : Setting}
      (hx : (if p then some x else none) = (if q then some x else none)) : p = q := by
    cases p <;> cases q <;> simp_all
  cases a
  cases b
  simp only [mk.injEq]
  exact ⟨by simpa [setting?] using h .target, by simpa [setting?] using h .poolSize,
    by simpa [setting?] using h .loops, by simpa [setting?] using h .rows,
    by simpa [setting?] using h .threads, hflag (h .random), hflag (h .serial), hflag (h .write),
    hflag (h .read), by simpa [setting?] using h .seed, by simpa [setting?] using h .outputFormat,
    hflag (h .progress), hflag (h .quiet), hflag (h .verbose)⟩

theorem setting?_apply_self (a : Arguments) (x : Setting) :
    (x.apply a).setting? x.option = some x := by
  cases x <;> rfl

theorem setting?_apply_of_ne (a : Arguments) (h : o ≠ x.option) :
    (x.apply a).setting? o = a.setting? o := by
  cases x <;> cases o <;> first | rfl | exact absurd rfl h

theorem setting?_foldl_of_notMem (h : o ∉ settings.map Setting.option) :
    (settings.foldl Setting.apply a).setting? o = a.setting? o := by
  induction settings generalizing a with
  | nil => rfl
  | cons x settings ih =>
    rw [List.map_cons, List.mem_cons, not_or] at h
    rw [List.foldl_cons, ih h.2, setting?_apply_of_ne a h.1]

theorem setting?_foldl_of_mem (h : (settings.map Setting.option).Nodup) (hx : x ∈ settings) :
    (settings.foldl Setting.apply a).setting? x.option = some x := by
  induction settings generalizing a with
  | nil => cases hx
  | cons y settings ih =>
    rw [List.map_cons, List.nodup_cons] at h
    rcases List.mem_cons.1 hx with rfl | hx
    · rw [List.foldl_cons, setting?_foldl_of_notMem h.1, setting?_apply_self]
    · exact ih h.2 hx

/-- Given one after the other the settings give their values. -/
theorem says_ofSettings (h : (settings.map Setting.option).Nodup) :
    (ofSettings settings).Says settings where
  once := h
  given _ hx := setting?_foldl_of_mem h hx
  default _ ho := setting?_foldl_of_notMem ho

namespace Says

/-- No other values are said by the same settings. -/
theorem unique (ha : a.Says settings) (hb : b.Says settings) : a = b := by
  refine ext_setting? fun o => ?_
  by_cases ho : o ∈ settings.map Setting.option
  · obtain ⟨x, hx, rfl⟩ := List.mem_map.1 ho
    rw [ha.given x hx, hb.given x hx]
  · rw [ha.default o ho, hb.default o ho]

theorem eq_ofSettings (h : a.Says settings) : a = ofSettings settings :=
  h.unique (says_ofSettings h.once)

/-- What is not the default of its option is said by a setting. -/
theorem mem_iff (h : a.Says settings) (hx : ({} : Arguments).setting? x.option ≠ some x) :
    x ∈ settings ↔ a.setting? x.option = some x := by
  refine ⟨h.given x, fun hsetting => ?_⟩
  by_cases ho : x.option ∈ settings.map Setting.option
  · obtain ⟨y, hy, hoption⟩ := List.mem_map.1 ho
    rw [← hoption, h.given y hy] at hsetting
    exact Option.some.inj hsetting ▸ hy
  · -- otherwise it would be the default after all
    exact absurd ((h.default _ ho).symm.trans hsetting) hx

end Says

/-- All values can be said. -/
theorem exists_settings (a : Arguments) : ∃ settings, a.Says settings := by
  refine ⟨CommandOption.all.filterMap a.setting?, ?_, fun x hx => ?_, fun o ho => ?_⟩
  · rw [List.map_filterMap]
    refine List.Nodup.filterMap (fun o o' named h h' => ?_) (by decide)
    obtain ⟨x, hx, rfl⟩ := Option.map_eq_some_iff.1 h
    obtain ⟨y, hy, hoption⟩ := Option.map_eq_some_iff.1 h'
    rw [← option_of_setting? hx, ← option_of_setting? hy, hoption]
  · obtain ⟨o, -, ho⟩ := List.mem_filterMap.1 hx
    rwa [option_of_setting? ho]
  · -- an option that is given would be named by its setting
    have hnone : a.setting? o = none := by
      by_contra hsome
      obtain ⟨x, hx⟩ := Option.ne_none_iff_exists'.1 hsome
      have hmem : x ∈ CommandOption.all.filterMap a.setting? :=
        List.mem_filterMap.2 ⟨o, by cases o <;> decide, hx⟩
      exact ho (option_of_setting? hx ▸ List.mem_map_of_mem hmem)
    rw [hnone, setting?_default_of_none hnone]

/-! ### Command lines -/

/-- Where the values hold no rivals, the settings that say them name none. -/
theorem Says.rival_notMem (h : a.Says settings) (haccess : ¬ (a.random ∧ a.serial))
    (hoperation : ¬ (a.write ∧ a.read)) {other : CommandOption} (hrival : o.rival? = some other)
    (ho : o ∈ settings.map Setting.option) : other ∉ settings.map Setting.option := by
  have hgiven {o : CommandOption} (ho : o ∈ settings.map Setting.option) : a.setting? o ≠ none := by
    obtain ⟨x, hx, rfl⟩ := List.mem_map.1 ho
    rw [h.given x hx]
    exact Option.some_ne_none x
  intro hother
  -- both would be raised in `a`
  replace ho := hgiven ho
  replace hother := hgiven hother
  cases o <;> cases hrival <;> simp_all [setting?]

/-- Values are read back from every line that says them. -/
theorem parse_commandLine {spelled : List (Setting × SpellingForm)}
    (h : a.Says (spelled.map Prod.fst)) (haccess : ¬ (a.random ∧ a.serial))
    (hoperation : ¬ (a.write ∧ a.read)) : parse (commandLine spelled) = .ok a := by
  obtain ⟨t, hsettled, hpending, harguments, hseen⟩ | ⟨hrepeated, -⟩ :=
    ParseState.foldlM_settleSetting (s := {}) (spelled.map Prod.fst) rfl
  · have hrivals : t.rivals? = none := by
      rw [ParseState.rivals?_eq_none_iff, hseen]
      exact fun o ho other hrival => h.rival_notMem haccess hoperation hrival ho
    rw [parse_spelled, hsettled, h.eq_ofSettings, ofSettings, ← harguments]
    exact ParseState.finish_of_none hpending hrivals
  · exact absurd h.once hrepeated

/-- Rivals are refused in every spelling, also where some option is given twice. -/
theorem parse_of_rivals {spelled : List (Setting × SpellingForm)} {x y : Setting}
    (hrival : x.option.rival? = some y.option) (hx : x ∈ spelled.map Prod.fst)
    (hy : y ∈ spelled.map Prod.fst) : ∃ r, parse (commandLine spelled) = .error (.refuse r) := by
  rw [parse_spelled]
  obtain ⟨t, hsettled, hpending, -, hseen⟩ | ⟨-, r, hrefused⟩ :=
    ParseState.foldlM_settleSetting (s := {}) (spelled.map Prod.fst) rfl
  · rw [hsettled]
    refine ParseState.finish_of_rivals hpending hrival ?_ ?_ <;> rw [hseen]
    · exact List.mem_map_of_mem hx
    · exact List.mem_map_of_mem hy
  · rw [hrefused]
    exact ⟨r, rfl⟩

theorem triState_eq_true_iff {yes no : Bool} : triState yes no = some true ↔ yes = true := by
  cases yes <;> cases no <;> decide

theorem triState_eq_false_iff {yes no : Bool} (h : ¬ (yes ∧ no)) :
    triState yes no = some false ↔ no = true := by
  cases yes <;> cases no <;> simp_all [triState]

/-- **Command lines round-trip in any order.**  All values can be said.  If no two of them exclude
each other, they are read back from every line that says them, whatever the order of its
settings and the spelling of each, and of the options that exclude each other it is known which
one the line names.  A line that names both is refused: if it is made of settings, some of them
perhaps given twice, and also if the words around the two are any at all. -/
theorem parse_any_spelling :
    (∀ a : Arguments, ∃ settings, a.Says settings) ∧
    (∀ (a : Arguments) (spelled : List (Setting × SpellingForm)),
      let settings := spelled.map Prod.fst
      a.Says settings → ¬ (a.random ∧ a.serial) → ¬ (a.write ∧ a.read) →
        parse (commandLine spelled) = .ok a ∧
        (a.random? = some true ↔ .random ∈ settings) ∧
        (a.random? = some false ↔ .serial ∈ settings) ∧
        (a.write? = some true ↔ .write ∈ settings) ∧
        (a.write? = some false ↔ .read ∈ settings)) ∧
    (∀ spelled : List (Setting × SpellingForm),
      let settings := spelled.map Prod.fst
      .random ∈ settings ∧ .serial ∈ settings ∨ .write ∈ settings ∧ .read ∈ settings →
        ∃ r, parse (commandLine spelled) = .error (.refuse r)) ∧
    ∀ words : List String,
      "--random" ∈ words ∧ "--serial" ∈ words ∨ "--write" ∈ words ∧ "--read" ∈ words →
        ∀ a, parse words ≠ .ok a := by
  refine ⟨exists_settings, ?_, ?_, ?_⟩
  · intro a spelled settings h haccess hoperation
    refine ⟨parse_commandLine h haccess hoperation, ?_, ?_, ?_, ?_⟩ <;> rw [h.mem_iff (by decide)]
    · simp [random?, triState_eq_true_iff, setting?, Setting.option]
    · simp [random?, triState_eq_false_iff haccess, setting?, Setting.option]
    · simp [write?, triState_eq_true_iff, setting?, Setting.option]
    · simp [write?, triState_eq_false_iff hoperation, setting?, Setting.option]
  · rintro spelled settings (⟨hrandom, hserial⟩ | ⟨hwrite, hread⟩)
    · exact parse_of_rivals rfl hrandom hserial
    · exact parse_of_rivals rfl hwrite hread
  · rintro words (⟨hrandom, hserial⟩ | ⟨hwrite, hread⟩) a
    · exact parse_ne_ok_of_rivals (x := .random) (y := .serial) {} {} rfl rfl rfl hrandom hserial a
    · exact parse_ne_ok_of_rivals (x := .write) (y := .read) {} {} rfl rfl rfl hwrite hread a

/-- A line in which every spelling occurs, and two that name rivals. -/
theorem parse_any_spelling_pool :
    let a : Arguments := { target := .pool, loops := 2, rows := 100, random := true, read := true }
    let spelled : List (Setting × SpellingForm) :=
      [(.read, {}), (.rows 100, { short := true, joined := true }), (.target .pool, {}),
        (.random, { short := true }), (.loops 2, { short := true }), (.seed 0, { joined := true })]
    commandLine spelled
        = ["--read", "-n=100", "--target", "pool", "--random", "-l", "2", "--seed=0"] ∧
      a.Says (spelled.map Prod.fst) ∧ parse (commandLine spelled) = .ok a ∧
      (∃ r, parse (commandLine [(.serial, {}), (.loops 2, {}), (.random, {}), (.loops 3, {})])
        = .error (.refuse r)) ∧
      parse ["--write", "--rows", "7", "--read", "--help"] ≠ .ok {} := by
  intro a spelled
  have hsaid : a.Says (spelled.map Prod.fst) :=
    ⟨by decide, by decide, fun o => by cases o <;> decide⟩
  refine ⟨by decide +kernel, hsaid, ?_, ?_, ?_⟩
  · exact (parse_any_spelling.2.1 a spelled hsaid (by decide) (by decide)).1
  · exact parse_any_spelling.2.2.1 _ (.inl ⟨by decide, by decide⟩)
  · exact parse_any_spelling.2.2.2 _ (.inr ⟨by decide, by decide⟩) {}

end Arguments

end BenchLoop
