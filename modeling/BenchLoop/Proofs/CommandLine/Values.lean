/-
BenchLoop/Proofs/CommandLine/Values.lean

Values on a command line.  A number is written as its decimal numeral and a choice by its name.
Either is read back as what was written: a numeral because its digits make up the number and none
of the numbers on the way to it is greater (`Numeral.readDigits_eq`), a name because no two choices
have the same.  So giving an option the text of a value gives it the value
(`Arguments.assign_apply`).

No value looks like an option (`Setting.head?_value`).
-/
import BenchLoop.CommandLine.Parse
import BenchLoop.CommandLine.Spelling

namespace BenchLoop

namespace Numeral

/-! ### Numerals -/

theorem le_ofDigitChars (n : Nat) (cs : List Char) : n ≤ Nat.ofDigitChars 10 cs n := by
  induction cs generalizing n with
  | nil => exact Nat.le_refl n
  | cons c cs ih =>
    rw [Nat.ofDigitChars_cons]
    have hrest := ih (10 * n + (c.toNat - '0'.toNat))
    omega

/-- Digits are read as the number that they make up, if this is within the bound. -/
theorem readDigits_eq {bound sofar : Nat} {overflow : NumeralFault} {cs : List Char}
    (hdigits : ∀ c ∈ cs, c.isDigit = true) (hbound : Nat.ofDigitChars 10 cs sofar ≤ bound) :
    readDigits bound overflow sofar cs = .ok (Nat.ofDigitChars 10 cs sofar) := by
  induction cs generalizing sofar with
  | nil => rfl
  | cons c cs ih =>
    obtain ⟨hc, hcs⟩ := List.forall_mem_cons.1 hdigits
    rw [Nat.ofDigitChars_cons, Nat.mul_comm] at hbound ⊢
    -- no digit takes the number past the bound, for those behind it only make it greater
    have hle := Nat.le_trans (le_ofDigitChars _ cs) hbound
    simp only [readDigits, digit?, hc, if_true, if_neg (Nat.not_lt.2 hle)]
    exact ih hcs hbound

theorem readDigits_toDigits {bound n : Nat} (overflow : NumeralFault) (h : n ≤ bound) :
    readDigits bound overflow 0 (Nat.toDigits 10 n) = .ok n := by
  have hn : Nat.ofDigitChars 10 (Nat.toDigits 10 n) 0 = n := Nat.ofDigitChars_ten_toDigits
  have hdigits : ∀ c ∈ Nat.toDigits 10 n, c.isDigit = true :=
    fun _ => Nat.isDigit_of_mem_toDigits (by decide) (by decide)
  rw [readDigits_eq hdigits (hn.symm ▸ h), hn]

/-- A numeral begins with a digit, so with no sign. -/
theorem exists_toDigits_eq_cons (n : Nat) :
    ∃ c cs, Nat.toDigits 10 n = c :: cs ∧ c ≠ '+' ∧ c ≠ '-' := by
  obtain ⟨c, cs, hcs⟩ := List.exists_cons_of_ne_nil (Nat.toDigits_ne_nil (n := n) (b := 10))
  have hc : c.isDigit = true :=
    Nat.isDigit_of_mem_toDigits (n := n) (by decide) (by decide) (hcs ▸ List.mem_cons_self)
  refine ⟨c, cs, hcs, ?_, ?_⟩ <;>
    · rintro rfl
      exact absurd hc (by decide)

theorem readNat_toDigits {bound n : Nat} (h : n ≤ bound) :
    readNat bound (Nat.toDigits 10 n) = .ok n := by
  rw [← readDigits_toDigits .tooLarge h]
  obtain ⟨c, cs, hcs, hplus, hminus⟩ := exists_toDigits_eq_cons n
  rw [hcs]
  unfold readNat
  split <;> simp_all

theorem readInt64_toDigits {n : Nat} (h : n ≤ Int64.size / 2 - 1) :
    readInt64 (Nat.toDigits 10 n) = .ok (Int.ofNat n) := by
  have hread := readDigits_toDigits .tooLarge h
  obtain ⟨c, cs, hcs, hplus, hminus⟩ := exists_toDigits_eq_cons n
  rw [hcs] at hread ⊢
  unfold readInt64
  split <;> simp_all [Except.map]

theorem toList_toString64 (n : UInt64) : (toString n).toList = Nat.toDigits 10 n.toNat := by
  simp [toString]

theorem toList_toString32 (n : UInt32) : (toString n).toList = Nat.toDigits 10 n.toNat := by
  simp [toString]

end Numeral

/-! ### Values of options -/

namespace Arguments

theorem ofNumeral_toString {α : Type} (option : CommandOption) (n : UInt64) (store : UInt64 → α) :
    ofNumeral option (toString n) (store ∘ UInt64.ofNat) (UInt64.size - 1) = .ok (store n) := by
  have hle : n.toNat ≤ UInt64.size - 1 := Nat.le_sub_one_of_lt n.toNat_lt_size
  simp only [ofNumeral, Numeral.toList_toString64, Numeral.readNat_toDigits hle]
  rw [Function.comp_apply, UInt64.ofNat_toNat]

theorem ofLoops_toString (n : UInt32) (store : Nat → Arguments) :
    ofLoops (toString n) store = .ok (store n.toNat) := by
  have hle : n.toNat ≤ UInt32.size - 1 := Nat.le_sub_one_of_lt n.toNat_lt_size
  have hread := Numeral.readInt64_toDigits (Nat.le_trans hle (by decide))
  have hbounds : 0 ≤ Int.ofNat n.toNat ∧ Int.ofNat n.toNat ≤ ((UInt32.size - 1 : Nat) : Int) :=
    ⟨Int.natCast_nonneg _, Int.ofNat_le.2 hle⟩
  simp only [ofLoops, Numeral.toList_toString32, hread, if_pos hbounds]
  rfl

/-- An option that is given the text of a value has this value. -/
theorem assign_apply (a : Arguments) {s : Setting} {value : String} (h : s.value? = some value) :
    a.assign s.option value = .ok (s.apply a) := by
  cases s with
  | target kind =>
    obtain rfl := Option.some.inj h
    cases kind <;> rfl
  | outputFormat format =>
    obtain rfl := Option.some.inj h
    cases format <;> rfl
  | loops count =>
    obtain rfl := Option.some.inj h
    show ofLoops (toString count) (fun n => { a with loops := UInt32.ofNat n }) = _
    rw [ofLoops_toString, UInt32.ofNat_toNat]
    rfl
  | poolSize n | rows n | threads n | seed n =>
    obtain rfl := Option.some.inj h
    exact ofNumeral_toString _ n _
  | _ => cases h

theorem raise_apply (a : Arguments) {s : Setting} (h : s.value? = none) :
    a.raise s.option = s.apply a := by
  cases s <;> first | rfl | cases h

end Arguments

/-- No value begins with a dash. -/
theorem Setting.head?_value {s : Setting} {value : String} (h : s.value? = some value) :
    value.toList.head? ≠ some '-' := by
  -- a numeral begins with a digit
  have hnumeral (n : Nat) : (Nat.toDigits 10 n).head? ≠ some '-' := by
    obtain ⟨c, cs, hcs, -, hminus⟩ := Numeral.exists_toDigits_eq_cons n
    rw [hcs]
    simpa using hminus
  cases s with
  | target kind =>
    obtain rfl := Option.some.inj h
    cases kind <;> decide
  | outputFormat format =>
    obtain rfl := Option.some.inj h
    cases format <;> decide
  | loops count =>
    obtain rfl := Option.some.inj h
    exact Numeral.toList_toString32 count ▸ hnumeral _
  | poolSize n | rows n | threads n | seed n =>
    obtain rfl := Option.some.inj h
    exact Numeral.toList_toString64 n ▸ hnumeral _
  | _ => cases h

end BenchLoop
