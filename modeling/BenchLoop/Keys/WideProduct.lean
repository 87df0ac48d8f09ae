/-
BenchLoop/Keys/WideProduct.lean

The product of two 64-bit words has 128 bits.  Its low word is the product of words;
its high word is put together from the products of half words, none of which overflows:

* `WideProduct.toNat_high`: the high word is the quotient by the number of words.
-/

namespace BenchLoop

namespace WideProduct

/-- The high word of the product. -/
def high (a b : UInt64) : UInt64 :=
  let bottom := (a % 0x100000000) * (b % 0x100000000)
  let middle := (a / 0x100000000) * (b % 0x100000000) + bottom / 0x100000000
  let carry := (a % 0x100000000) * (b / 0x100000000) + middle % 0x100000000
  (a / 0x100000000) * (b / 0x100000000) + middle / 0x100000000 + carry / 0x100000000

/-- The low word of the product. -/
def low (a b : UInt64) : UInt64 := a * b

theorem toNat_high (a b : UInt64) : (high a b).toNat = a.toNat * b.toNat / UInt64.size := by
  have ha : a.toNat < UInt64.size := a.toNat_lt_size
  have hb : b.toNat < UInt64.size := b.toNat_lt_size
  simp only [UInt64.size] at ha hb ⊢
  have hword : (0x100000000 : UInt64).toNat = 4294967296 := rfl
  -- each factor in two halves, which makes four products
  have hprod : a.toNat * b.toNat
      = (a.toNat / 4294967296) * (b.toNat / 4294967296) * 18446744073709551616
        + ((a.toNat / 4294967296) * (b.toNat % 4294967296)
          + (a.toNat % 4294967296) * (b.toNat / 4294967296)) * 4294967296
        + (a.toNat % 4294967296) * (b.toNat % 4294967296) := by
    have hA := Nat.div_add_mod a.toNat 4294967296
    have hB := Nat.div_add_mod b.toNat 4294967296
    generalize a.toNat / 4294967296 = a₁ at *
    generalize a.toNat % 4294967296 = a₀ at *
    generalize b.toNat / 4294967296 = b₁ at *
    generalize b.toNat % 4294967296 = b₀ at *
    rw [← hA, ← hB]
    grind
  -- none of them leaves a word, nor does the sum of the middle ones with a carry
  have bound {x y : Nat} (hx : x < 4294967296) (hy : y < 4294967296) :
      x * y ≤ 4294967295 * 4294967295 :=
    Nat.mul_le_mul (Nat.le_of_lt_succ hx) (Nat.le_of_lt_succ hy)
  have h₁ := bound (x := a.toNat / 4294967296) (y := b.toNat / 4294967296) (by omega) (by omega)
  have h₂ := bound (x := a.toNat / 4294967296) (y := b.toNat % 4294967296) (by omega) (by omega)
  have h₃ := bound (x := a.toNat % 4294967296) (y := b.toNat / 4294967296) (by omega) (by omega)
  have h₄ := bound (x := a.toNat % 4294967296) (y := b.toNat % 4294967296) (by omega) (by omega)
  rw [hprod]
  simp only [high, UInt64.toNat_add, UInt64.toNat_mul, UInt64.toNat_div, UInt64.toNat_mod, hword]
  generalize (a.toNat / 4294967296) * (b.toNat / 4294967296) = p at *
  generalize (a.toNat / 4294967296) * (b.toNat % 4294967296) = q at *
  generalize (a.toNat % 4294967296) * (b.toNat / 4294967296) = r at *
  generalize (a.toNat % 4294967296) * (b.toNat % 4294967296) = s at *
  omega

end WideProduct

end BenchLoop
