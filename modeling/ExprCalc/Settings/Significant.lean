/-!
# Significant bits

A natural number rounded to a given count of significant bits, a half to the even neighbour: the
accuracy of a product of floating-point numbers, in exact arithmetic.
-/

namespace ExprCalc

/-- The bits of `n` beyond the first `bits`. -/
def excessBits (bits n : Nat) : Nat := n.log2 + 1 - bits

/-- `n` rounded to `bits` significant bits, a half to the even neighbour. -/
def roundSignificant (bits n : Nat) : Nat :=
  let unit := 1 <<< excessBits bits n
  let q := n / unit
  let twice := 2 * (n % unit)
  (if unit < twice ∨ unit = twice ∧ q % 2 = 1 then q + 1 else q) * unit

theorem roundSignificant_zero (bits : Nat) : roundSignificant bits 0 = 0 := by
  simp [roundSignificant]

theorem roundSignificant_of_lt {bits n : Nat} (h : n < 1 <<< bits) :
    roundSignificant bits n = n := by
  by_cases hn : n = 0
  · rw [hn, roundSignificant_zero]
  rw [Nat.one_shiftLeft] at h
  have hs : excessBits bits n = 0 := by
    have hlog := (Nat.log2_lt hn).2 h
    unfold excessBits
    omega
  simp only [roundSignificant, hs, Nat.shiftLeft_zero, Nat.div_one, Nat.mod_one, Nat.mul_one]
  simp

end ExprCalc
