import ExprCalc.Proofs.Failure
import Mathlib.Data.Nat.Size
import Mathlib.Data.Rat.Floor

/-!
# Operators on rational numbers

On two integers each of the five operators has a rational value, unless it divides by zero. The exact
integer operation is that value cut off toward zero (`Operator.exact_eq_truncate`), with the two
shortcuts for powers included: a power with a negative exponent is one over a power, and a power that is
refused before it is computed is one that is refused after that (`applyChecked_eq_exact`).
-/

namespace ExprCalc

/-- A rational number cut off toward zero. -/
def truncate (q : ℚ) : ℤ := if 0 ≤ q then ⌊q⌋ else ⌈q⌉

theorem truncate_intCast (n : ℤ) : truncate n = n := by
  rw [truncate, Int.floor_intCast, Int.ceil_intCast, ite_self]

theorem truncate_neg (q : ℚ) : truncate (-q) = -truncate q := by
  rcases lt_trichotomy q 0 with hq | rfl | hq
  · rw [truncate, truncate, if_pos (by linarith), if_neg (by linarith), Int.floor_neg]
  · rfl
  · rw [truncate, truncate, if_neg (by linarith), if_pos hq.le, Int.ceil_neg]

theorem truncate_natCast_div (m n : ℕ) : truncate ((m : ℚ) / n) = (m : ℤ).tdiv n := by
  rw [truncate, if_pos (by positivity), Rat.floor_natCast_div_natCast, Int.tdiv_eq_ediv_of_nonneg]
  exact Int.natCast_nonneg m

/-- Also where the divisor is zero, and both are zero. -/
theorem truncate_div (m n : ℤ) : truncate ((m : ℚ) / n) = m.tdiv n := by
  obtain ⟨a, rfl | rfl⟩ := m.eq_nat_or_neg <;> obtain ⟨b, rfl | rfl⟩ := n.eq_nat_or_neg
  · rw [Int.cast_natCast, Int.cast_natCast, truncate_natCast_div]
  · rw [Int.tdiv_neg, ← truncate_natCast_div, ← truncate_neg]
    push_cast
    rw [div_neg]
  · rw [Int.neg_tdiv, ← truncate_natCast_div, ← truncate_neg]
    push_cast
    rw [neg_div]
  · rw [Int.neg_tdiv, Int.tdiv_neg, neg_neg, ← truncate_natCast_div]
    push_cast
    rw [neg_div_neg_eq]

/-! ### Exact operations -/

theorem exactPower_eq_truncate {base exponent : ℤ} (h : ¬ (base = 0 ∧ exponent < 0)) :
    exactPower base exponent = .ok (truncate ((base : ℚ) ^ exponent)) := by
  unfold exactPower
  by_cases hneg : exponent < 0
  · have hb : base ≠ 0 := fun hb => h ⟨hb, hneg⟩
    have hinv : (base : ℚ) ^ exponent = (1 : ℤ) / ((base ^ exponent.natAbs : ℤ) : ℚ) := by
      have he : exponent = -(exponent.natAbs : ℤ) := by omega
      conv_lhs => rw [he]
      rw [zpow_neg, zpow_natCast]
      push_cast
      rw [one_div]
    rw [if_neg (Int.not_le.2 hneg), if_neg hb, hinv, truncate_div]
  · obtain ⟨n, rfl⟩ := Int.eq_ofNat_of_zero_le (Int.not_lt.1 hneg)
    rw [if_pos (Int.natCast_nonneg n), Int.toNat_natCast, zpow_natCast, ← Int.cast_pow,
      truncate_intCast]

namespace Operator

/-- The value of an operator among the rational numbers; zero to the power of zero is one. -/
def rational : Operator → ℤ → ℤ → ℚ
  | pow, l, r => (l : ℚ) ^ r
  | mul, l, r => l * r
  | div, l, r => l / r
  | add, l, r => l + r
  | sub, l, r => l - r

/-- There is no such value: the divisor is zero, or zero is raised to a negative power. -/
def DividesByZero (op : Operator) (l r : ℤ) : Prop :=
  op = div ∧ r = 0 ∨ op = pow ∧ l = 0 ∧ r < 0

instance (op : Operator) (l r : ℤ) : Decidable (op.DividesByZero l r) :=
  inferInstanceAs (Decidable (_ ∨ _))

variable {op : Operator} {l r : ℤ}

theorem exact_eq_truncate (h : ¬ op.DividesByZero l r) :
    op.exact l r = .ok (truncate (op.rational l r)) := by
  cases op with
  | pow => exact exactPower_eq_truncate fun h0 => h (.inr ⟨rfl, h0⟩)
  | mul => rw [exact, rational, ← Int.cast_mul, truncate_intCast]
  | div => rw [exact, quotient, if_neg fun h0 => h (.inl ⟨rfl, h0⟩), rational, truncate_div]
  | add => rw [exact, rational, ← Int.cast_add, truncate_intCast]
  | sub => rw [exact, rational, ← Int.cast_sub, truncate_intCast]

theorem exists_exact_eq_error (h : op.DividesByZero l r) :
    ∃ f, op.exact l r = .error f ∧ f.kind = .division := by
  rcases h with ⟨rfl, rfl⟩ | ⟨rfl, rfl, hneg⟩
  · refine ⟨.divisionByZero, ?_, rfl⟩
    rw [exact, quotient, if_pos rfl]
  · refine ⟨.zeroToNegativePower, ?_, rfl⟩
    rw [exact, exactPower, if_neg (Int.not_le.2 hneg), if_pos rfl]

end Operator

/-! ### Results within the limit -/

theorem bitLength_eq_size (n : ℤ) : bitLength n = n.natAbs.size :=
  eq_of_forall_ge_iff fun _ => bitLength_le_iff.trans Nat.size_le.symm

section
variable (limits : Limits) (op : Operator) (l r : ℤ)

/-- All that a step with an operator can come to. -/
theorem evalStep_cases (position : Option ℤ) (rest : List ℤ) :
    let step := evalStep limits (.arithmetic limits) (r :: l :: rest) ⟨.operator, op.lexeme, position⟩
    let x := truncate (op.rational l r)
    (op.DividesByZero l r ∧ ∃ f, step = .error f ∧ f.kind = .division) ∨
    (¬ op.DividesByZero l r ∧ limits.maxBits < x.natAbs.size ∧
      step = .error (.resultTooLarge limits.maxDigits)) ∨
    (¬ op.DividesByZero l r ∧ x.natAbs.size ≤ limits.maxBits ∧ step = .ok (x :: rest)) := by
  intro step x
  have hstep : step = (· :: rest) <$> applyChecked limits op.exact l r := by
    rw [← applyChecked_eq_exact]
    simp only [step]
    rw [evalStep_operator rfl, applyLexeme, Operations.arithmetic, Operator.ofLexeme?_lexeme]
    rfl
  by_cases hzero : op.DividesByZero l r
  · obtain ⟨f, hf, hk⟩ := Operator.exists_exact_eq_error hzero
    refine .inl ⟨hzero, f, ?_, hk⟩
    rw [hstep, applyChecked, hf]
    rfl
  have hchecked : applyChecked limits op.exact l r =
      if limits.maxBits < x.natAbs.size then .error (.resultTooLarge limits.maxDigits)
      else .ok x := by
    rw [applyChecked, Operator.exact_eq_truncate hzero, ← bitLength_eq_size]
    rfl
  rw [hstep, hchecked]
  by_cases hsize : limits.maxBits < x.natAbs.size
  · exact .inr (.inl ⟨hzero, hsize, by rw [if_pos hsize]; rfl⟩)
  · exact .inr (.inr ⟨hzero, Int.not_lt.1 hsize, by rw [if_neg hsize]; rfl⟩)

/-- A power refused before it is computed has too many bits. -/
theorem lt_size_of_power_eq_error {f : Fault} (h : power limits l r = .error f)
    (hk : f.kind = .limit) : limits.maxBits < (truncate ((l : ℚ) ^ r)).natAbs.size := by
  have hzero : ¬ (l = 0 ∧ r < 0) := by
    rintro ⟨rfl, hr⟩
    rw [power, if_pos hr, if_pos rfl] at h
    cases h
    cases hk
  rcases power_cases limits l r with hp | ⟨-, x, hx, hsize⟩
  · cases h.symm.trans (hp.trans (exactPower_eq_truncate hzero))
  · rw [exactPower_eq_truncate hzero] at hx
    cases hx
    rwa [← bitLength_eq_size]

end

/-- A step of the evaluation with an operator fails as a division just if the operator divides by zero.
Else its result is the rational value cut off toward zero, and it is refused for its size just if that
has too many bits. In particular a power that is refused before it is computed has too many bits, and a
power with a negative exponent is what is left of the rational one. -/
theorem evalStep_eq_truncate (limits : Limits) (op : Operator) (l r : ℤ) (position : Option ℤ)
    (rest : List ℤ) :
    let step := evalStep limits (.arithmetic limits) (r :: l :: rest) ⟨.operator, op.lexeme, position⟩
    let x := truncate (op.rational l r)
    ((∃ f, step = .error f ∧ f.kind = .division) ↔ op.DividesByZero l r) ∧
    ((∃ f, step = .error f ∧ f.kind = .limit ∧ f.code = "RESULT_TOO_LARGE") ↔
      ¬ op.DividesByZero l r ∧ limits.maxBits < x.natAbs.size) ∧
    (∀ stack, step = .ok stack ↔
      ¬ op.DividesByZero l r ∧ x.natAbs.size ≤ limits.maxBits ∧ stack = x :: rest) ∧
    (∀ f, power limits l r = .error f → f.kind = .limit →
      limits.maxBits < (truncate ((l : ℚ) ^ r)).natAbs.size) ∧
    (l ≠ 0 → r < 0 → power limits l r = .ok (truncate ((l : ℚ) ^ r))) := by
  intro step x
  have hrefused := fun f => lt_size_of_power_eq_error limits l r (f := f)
  have hnegative : l ≠ 0 → r < 0 → power limits l r = .ok (truncate ((l : ℚ) ^ r)) := by
    intro hl hr
    rw [power_of_neg hr, exactPower_eq_truncate fun h => hl h.1]
  rcases evalStep_cases limits op l r position rest with
    ⟨hzero, f, hf, hk⟩ | ⟨hzero, hsize, hf⟩ | ⟨hzero, hsize, hf⟩
  · refine ⟨iff_of_true ⟨f, hf, hk⟩ hzero, ?_, fun stack => ?_, hrefused, hnegative⟩
    · simp [step, hf, hk, hzero]
    · simp [step, hf, hzero]
  · refine ⟨iff_of_false ?_ hzero, iff_of_true ⟨_, hf, rfl, rfl⟩ ⟨hzero, hsize⟩, fun stack => ?_,
      hrefused, hnegative⟩
    · simp [step, hf, Fault.kind]
    · simp [step, hf, x, hsize]
  · refine ⟨iff_of_false ?_ hzero, ?_, fun stack => ?_, hrefused, hnegative⟩
    · simp [step, hf]
    · simp [step, hf, x, hsize]
    · simp [step, hf, hzero, x, hsize, eq_comm]

/-- With a limit of no bits only zero is a result. Two to the power of zero is refused before it is
computed; two to the power of minus one is zero, and zero to that power fails. -/
theorem evalStep_eq_truncate_no_bits :
    let limits : Limits := ⟨100, 0, 0, some 4300⟩
    let step := fun l r => evalStep limits (.arithmetic limits) [r, l] ⟨.operator, "**", none⟩
    power limits 2 0 = .error (.resultTooLarge 0) ∧
      limits.maxBits < (truncate ((2 : ℤ) ^ (0 : ℤ))).natAbs.size ∧
      (∃ f, step 2 0 = .error f ∧ f.kind = .limit ∧ f.code = "RESULT_TOO_LARGE") ∧
      power limits 2 (-1) = .ok (truncate ((2 : ℤ) ^ (-1 : ℤ))) ∧ step 2 (-1) = .ok [0] ∧
      ∃ f, step 0 (-1) = .error f ∧ f.kind = .division := by
  intro limits step
  obtain ⟨-, hlarge, -, hrefused, -⟩ := evalStep_eq_truncate limits .pow 2 0 none []
  obtain ⟨-, -, hvalue, -, hnegative⟩ := evalStep_eq_truncate limits .pow 2 (-1) none []
  obtain ⟨hdivision, -⟩ := evalStep_eq_truncate limits .pow 0 (-1) none []
  have hpower : power limits 2 0 = .error (.resultTooLarge 0) := rfl
  have hsize := hrefused _ hpower rfl
  exact ⟨hpower, hsize, hlarge.2 ⟨by decide, hsize⟩, hnegative (by decide) (by decide),
    (hvalue [0]).2 ⟨by decide, by decide +kernel, by decide +kernel⟩, hdivision.2 (by decide)⟩

end ExprCalc
