/-
BenchLoop/Proofs/TextLine.lean

What a result line says when it is written as text.

The name of a benchmark may be any text, also one that looks like a part of a line.  So there is
no telling from the left where the name ends.  From the right there is: the pieces of a line are
runs of characters of one kind, and the piece before a run ends with a character of another kind
(`append_run_inj`).

* A numeral is all the digits that a text ends with, and a blank stands before them.
* The labels are all that is no digit, and a numeral stands before them.

The words between these pieces are the same in all lines.  Taking the pieces away one by one leaves
the name, so no two measurements have the same line (`Measurement.text_unambiguous`).
-/
import Mathlib.Data.List.DropRight
import BenchLoop.Measurement

namespace BenchLoop

/-! ### The last piece of a text -/

/-- A text is cut in two in one way only if all characters of the second part are of a kind and the
last one of the first part is not. -/
theorem append_run_inj {p : Char → Bool} {front front' run run' : List Char}
    (hfront : front.rdropWhile p = front) (hfront' : front'.rdropWhile p = front')
    (hrun : ∀ c ∈ run, p c = true) (hrun' : ∀ c ∈ run', p c = true)
    (h : front ++ run = front' ++ run') : front = front' ∧ run = run' := by
  have hdrop {front run : List Char} (hrun : ∀ c ∈ run, p c = true) :
      (front ++ run).rdropWhile p = front.rdropWhile p := by
    rw [List.rdropWhile, List.reverse_append,
      List.dropWhile_append_of_pos fun c hc => hrun c (List.mem_reverse.1 hc), List.rdropWhile]
  have hfronts : front = front' := by
    rw [← hfront, ← hdrop hrun, h, hdrop hrun', hfront']
  subst hfronts
  exact ⟨rfl, List.append_cancel_left h⟩

namespace Measurement

/-- A number behind a blank. -/
def numeral (n : Nat) : List Char := ' ' :: Nat.toDigits 10 n

theorem isDigit_of_mem_toDigits {n : Nat} {c : Char} (hc : c ∈ Nat.toDigits 10 n) :
    c.isDigit = true :=
  Nat.isDigit_of_mem_toDigits (by decide) (by decide) hc

theorem append_numeral_inj {front front' : List Char} {n n' : Nat}
    (h : front ++ numeral n = front' ++ numeral n') : front = front' ∧ n = n' := by
  have hblank (front : List Char) : (front ++ [' ']).rdropWhile Char.isDigit = front ++ [' '] :=
    List.rdropWhile_concat_neg _ _ _ (by decide)
  rw [numeral, numeral, List.append_cons, List.append_cons front'] at h
  obtain ⟨hfront, hdigits⟩ := append_run_inj (hblank front) (hblank front')
    (fun _ => isDigit_of_mem_toDigits) (fun _ => isDigit_of_mem_toDigits) h
  refine ⟨List.append_cancel_right hfront, ?_⟩
  calc
    n = Nat.ofDigitChars 10 (Nat.toDigits 10 n) 0 := Nat.ofDigitChars_ten_toDigits.symm
    _ = Nat.ofDigitChars 10 (Nat.toDigits 10 n') 0 := by rw [hdigits]
    _ = n' := Nat.ofDigitChars_ten_toDigits

/-! ### Labels -/

/-- The labels of a line, each behind a blank. -/
def labelling (pattern? : Option AccessPattern) (operation? : Option Operation) : List Char :=
  ((pattern?.map AccessPattern.name).toList ++ (operation?.map Operation.name).toList).flatMap
    fun word => ' ' :: word.toList

theorem isDigit_of_mem_labelling (pattern? : Option AccessPattern) (operation? : Option Operation) :
    ∀ c ∈ labelling pattern? operation?, (!c.isDigit) = true := by
  rcases pattern? with - | - | - <;> rcases operation? with - | - | - <;>
    exact List.all_eq_true.1 (by decide)

/-- No two choices of labels look the same. -/
theorem labelling_inj {pattern? pattern?' : Option AccessPattern}
    {operation? operation?' : Option Operation}
    (h : labelling pattern? operation? = labelling pattern?' operation?') :
    pattern? = pattern?' ∧ operation? = operation?' := by
  rcases pattern? with - | - | - <;> rcases operation? with - | - | - <;>
    rcases pattern?' with - | - | - <;> rcases operation?' with - | - | - <;>
      first
        | exact ⟨rfl, rfl⟩
        | exact absurd h (by decide)

/-- Behind a numeral the labels are what is no digit. -/
theorem append_labelling_inj {front front' : List Char} {n n' : Nat}
    {pattern? pattern?' : Option AccessPattern} {operation? operation?' : Option Operation}
    (h : front ++ numeral n ++ labelling pattern? operation?
      = front' ++ numeral n' ++ labelling pattern?' operation?') :
    front ++ numeral n = front' ++ numeral n' ∧
      pattern? = pattern?' ∧ operation? = operation?' := by
  have hnumeral (front : List Char) (n : Nat) :
      (front ++ numeral n).rdropWhile (!·.isDigit) = front ++ numeral n := by
    rw [List.rdropWhile_eq_self_iff]
    intro hne
    have hlast : (front ++ numeral n).getLast hne ∈ Nat.toDigits 10 n := by
      have hsome : numeral n ≠ [] := List.cons_ne_nil _ _
      rw [List.getLast_append_of_ne_nil _ hsome]
      simp only [numeral, List.getLast_cons Nat.toDigits_ne_nil]
      exact List.getLast_mem _
    simp [isDigit_of_mem_toDigits hlast]
  obtain ⟨hfront, hlabels⟩ := append_run_inj (hnumeral front n) (hnumeral front' n')
    (isDigit_of_mem_labelling _ _) (isDigit_of_mem_labelling _ _) h
  exact ⟨hfront, labelling_inj hlabels⟩

/-! ### Lines -/

/-- The line of a measurement, piece by piece. -/
theorem toList_text (m : Measurement) : m.text.toList =
    m.benchmark.toList ++ ": loop:".toList ++ numeral m.loop.toNat ++
      ", row count:".toList ++ numeral m.rows.toNat ++
      ", thread count:".toList ++ numeral m.threads.toNat ++ labelling m.pattern? m.operation? ++
      ", total time:".toList ++ numeral m.totalMillis.toNat ++
      " ms, avg time:".toList ++ numeral m.averageMillis.toNat ++ " ms".toList := by
  simp [text, numeral, labelling, labelWords, toString, List.flatMap_map]

/-- **Lines of text are unambiguous.**  If two measurements have the same line they are the same,
whatever their benchmarks are called and whichever labels they have. -/
theorem text_unambiguous (m m' : Measurement) : m.text = m'.text ↔ m = m' := by
  refine ⟨fun h => ?_, fun h => h ▸ rfl⟩
  have h : m.text.toList = m'.text.toList := congrArg String.toList h
  rw [toList_text, toList_text] at h
  -- from the end of the line, for only there is it clear where a number begins;
  -- the name, which may have any characters in it, is what remains in the end
  obtain ⟨h, haverage⟩ := append_numeral_inj (List.append_cancel_right h)
  obtain ⟨h, htotal⟩ := append_numeral_inj (List.append_cancel_right h)
  obtain ⟨h, hpattern, hoperation⟩ := append_labelling_inj (List.append_cancel_right h)
  obtain ⟨h, hthreads⟩ := append_numeral_inj h
  obtain ⟨h, hrows⟩ := append_numeral_inj (List.append_cancel_right h)
  obtain ⟨h, hloop⟩ := append_numeral_inj (List.append_cancel_right h)
  have hbenchmark := String.toList_inj.1 (List.append_cancel_right h)
  obtain ⟨benchmark, loop, rows, threads, pattern?, operation?, totalMillis, averageMillis⟩ := m
  obtain rfl := hbenchmark
  obtain rfl := UInt32.toNat_inj.1 hloop
  obtain rfl := UInt64.toNat_inj.1 hrows
  obtain rfl := UInt64.toNat_inj.1 hthreads
  obtain rfl := hpattern
  obtain rfl := hoperation
  obtain rfl := UInt64.toNat_inj.1 htotal
  obtain rfl := UInt64.toNat_inj.1 haverage
  rfl

end Measurement

end BenchLoop
