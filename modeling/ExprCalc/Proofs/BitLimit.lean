import ExprCalc.Settings
import Mathlib.Tactic.Linarith
import Mathlib.Tactic.NormNum

/-!
# The limit on bits

A limit of `d` digits is turned into bits by a product in floating-point numbers, cut off toward zero.
For every `d` up to 4300 the outcome is the greatest `b` with `2 ^ b ≤ 10 ^ d` (`bitsOfDigits_eq_log2`):
the product is close enough to `d * log2 10` to lie on the same side as that of both fractions
`13301 / 4004` and `2136 / 643`, which enclose `log2 10`, and no fraction with a denominator below
`4004 + 643` lies between the two (`add_le_of_between`).
-/

namespace ExprCalc

/-! ### Rounding -/

theorem roundSignificant_near_unit (bits n : Nat) :
    2 * roundSignificant bits n ≤ 2 * n + 2 ^ excessBits bits n ∧
      2 * n ≤ 2 * roundSignificant bits n + 2 ^ excessBits bits n := by
  unfold roundSignificant
  rw [Nat.one_shiftLeft]
  have hn := Nat.div_add_mod n (2 ^ excessBits bits n)
  rw [Nat.mul_comm] at hn
  have hr := Nat.mod_lt n (Nat.two_pow_pos (excessBits bits n))
  dsimp only
  split
  · rw [Nat.add_mul]
    omega
  · omega

theorem two_pow_excessBits_le {bits n : Nat} (hn : n ≠ 0) (h : excessBits bits n ≠ 0) :
    2 ^ bits * 2 ^ excessBits bits n ≤ 2 * n := by
  have hlog : bits + excessBits bits n = n.log2 + 1 := by
    unfold excessBits at h ⊢
    omega
  rw [← Nat.pow_add, hlog, Nat.pow_succ, Nat.mul_comm]
  exact Nat.mul_le_mul_left 2 (Nat.log2_self_le hn)

/-- Rounding to `bits` significant bits changes a number by at most one part in `2 ^ bits`. -/
theorem roundSignificant_near (bits n : Nat) :
    2 ^ bits * roundSignificant bits n ≤ (2 ^ bits + 1) * n ∧
      2 ^ bits * n ≤ 2 ^ bits * roundSignificant bits n + n := by
  by_cases hn : n = 0
  · simp [hn, roundSignificant_zero]
  by_cases he : excessBits bits n = 0
  · have hlt : n < 1 <<< bits := by
      rw [Nat.one_shiftLeft, ← Nat.log2_lt hn]
      unfold excessBits at he
      omega
    rw [roundSignificant_of_lt hlt, Nat.add_mul]
    omega
  · obtain ⟨hup, hdown⟩ := roundSignificant_near_unit bits n
    have hunit := two_pow_excessBits_le hn he
    have hup' := Nat.mul_le_mul_left (2 ^ bits) hup
    have hdown' := Nat.mul_le_mul_left (2 ^ bits) hdown
    constructor <;> linarith

/-! ### Fractions around the logarithm -/

/-- A fraction between two neighbours has at least the sum of their denominators. -/
theorem add_le_of_between {d k : Nat} (hlow : 13301 * d < 4004 * k) (hhigh : 643 * k < 2136 * d) :
    4004 + 643 ≤ d := by
  omega

/-- If `q / p` is above the logarithm of `a` to the base `b`, so is every `d / k` from there on. -/
theorem pow_lt_pow_of_mul_le {a b p q k d : Nat} (ha : 0 < a) (hq : q ≠ 0) (hd : d ≠ 0)
    (hbase : a ^ p < b ^ q) (h : q * k ≤ p * d) : a ^ k < b ^ d := by
  have hpow : (a ^ k) ^ q < (b ^ d) ^ q := by
    calc (a ^ k) ^ q = a ^ (q * k) := by rw [← Nat.pow_mul, Nat.mul_comm]
      _ ≤ a ^ (p * d) := Nat.pow_le_pow_right ha h
      _ = (a ^ p) ^ d := Nat.pow_mul ..
      _ < (b ^ q) ^ d := Nat.pow_lt_pow_left hbase hd
      _ = (b ^ d) ^ q := by rw [← Nat.pow_mul, ← Nat.pow_mul, Nat.mul_comm]
  exact (Nat.pow_lt_pow_iff_left hq).1 hpow

theorem two_pow_lt_ten_pow {d k : Nat} (hd : d ≠ 0) (h : 4004 * k ≤ 13301 * d) : 2 ^ k < 10 ^ d :=
  pow_lt_pow_of_mul_le (by decide) (by decide) hd (by decide +kernel) h

theorem ten_pow_lt_two_pow {d k : Nat} (hk : k ≠ 0) (h : 2136 * d ≤ 643 * k) : 10 ^ d < 2 ^ k :=
  pow_lt_pow_of_mul_le (by decide) (by decide) hk (by decide +kernel) h

/-! ### The product -/

/-- Cut off to an integer the product is below `2136 / 643` of the digits, and one more is above
`13301 / 4004` of them. -/
theorem bitsProduct_between {d : Nat} (hd : d ≠ 0) (hlt : d < 2 ^ 53) :
    643 * (bitsProduct d >>> 51) < 2136 * d ∧ 13301 * d < 4004 * (bitsProduct d >>> 51 + 1) := by
  have hround : roundSignificant 53 d = d :=
    roundSignificant_of_lt (by rwa [Nat.one_shiftLeft])
  obtain ⟨hup, hdown⟩ := roundSignificant_near 53 (d * log2Ten)
  unfold bitsProduct
  rw [hround, Nat.shiftRight_eq_div_pow]
  unfold log2Ten at *
  omega

theorem bitsOfDigits_eq_log2 {d : Nat} (hd : d ≤ 4300) :
    bitsOfDigits d = ((10 ^ d).log2 : Nat) := by
  have hcut : bitsOfDigits d = (bitsProduct d >>> 51 : Nat) := by
    unfold bitsOfDigits
    rw [Int.natAbs_natCast]
    exact if_neg (by omega)
  rw [hcut, Int.natCast_inj]
  by_cases h0 : d = 0
  · subst h0
    decide
  obtain ⟨hhigh, hlow⟩ := bitsProduct_between h0 (by omega)
  refine ((Nat.log2_eq_iff (by positivity)).2 ⟨?_, ?_⟩).symm
  · by_contra hgt
    have hlow' := Nat.lt_of_not_le fun hle => hgt (Nat.le_of_lt (two_pow_lt_ten_pow h0 hle))
    have := add_le_of_between hlow' hhigh
    omega
  · by_contra hle
    have hhigh' := Nat.lt_of_not_le fun h => hle (ten_pow_lt_two_pow (Nat.succ_ne_zero _) h)
    have := add_le_of_between hlow hhigh'
    omega

/-- There are at least as many bits as digits. -/
theorem le_bitsOfDigits (d : Nat) : (d : Int) ≤ bitsOfDigits d := by
  obtain ⟨-, hdigits⟩ := roundSignificant_near 53 d
  obtain ⟨-, hproduct⟩ := roundSignificant_near 53 (roundSignificant 53 d * log2Ten)
  have hbits : d ≤ bitsProduct d >>> 51 := by
    unfold bitsProduct
    rw [Nat.shiftRight_eq_div_pow]
    unfold log2Ten at *
    omega
  unfold bitsOfDigits
  rw [Int.natAbs_natCast, if_neg (by omega)]
  exact_mod_cast hbits

end ExprCalc
